import Intake.Json.Basic
import Intake.Text.Utf8
/-!
# Reader — values of the data format from octets

Reading is strict: no comments, no trailing commas, one spelling per literal, no octets outside UTF-8, no control
characters inside a text, and escapes of half a surrogate pair are refused.  Arrays and objects nest at most 127 deep.
A whole number of more than 64 bits is read as a number of the binary format, and so is a negative zero; a number beyond
the largest of that format is refused.  `read` gives the first value and what follows it; `readAll` allows blanks only
after it.  Fields stand as they were written.
-/
namespace Intake
namespace Json

inductive Fault where
  | endOfText
  | unexpected (octet : UInt8)
  | badNumber
  | numberOutOfRange
  | badEscape
  | loneSurrogate
  | controlInText
  | badText (fault : Utf8.Fault)
  | tooDeep
  | trailing

def Fault.message : Fault → String
  | .endOfText => "the text ends inside a value"
  | .unexpected octet => "unexpected octet " ++ decimal octet.toNat
  | .badNumber => "invalid number"
  | .numberOutOfRange => "number out of range"
  | .badEscape => "invalid escape"
  | .loneSurrogate => "half a surrogate pair"
  | .controlInText => "control character inside a text"
  | .badText fault => fault.message
  | .tooDeep => "nested too deep"
  | .trailing => "trailing characters"

def octet (c : Char) : UInt8 := c.toNat.toUInt8

def isSpace (b : UInt8) : Bool := b == 0x20 || b == 0x09 || b == 0x0A || b == 0x0D

def isDigit (b : UInt8) : Bool := 0x30 ≤ b && b ≤ 0x39

def digit (b : UInt8) : Nat := b.toNat - 0x30

def hexDigit? (b : UInt8) : Option Nat :=
  if isDigit b then some (digit b)
  else if 0x61 ≤ b && b ≤ 0x66 then some (b.toNat - 0x61 + 10)
  else if 0x41 ≤ b && b ≤ 0x46 then some (b.toNat - 0x41 + 10)
  else none

def hexQuad? (a b c d : UInt8) : Option Nat := do
  return ((← hexDigit? a) * 16 + (← hexDigit? b)) * 256 + (← hexDigit? c) * 16 + (← hexDigit? d)

def simpleEscape? (b : UInt8) : Option UInt8 :=
  if b == 0x22 || b == 0x5C || b == 0x2F then some b
  else if b == octet 'b' then some 0x08
  else if b == octet 'f' then some 0x0C
  else if b == octet 'n' then some 0x0A
  else if b == octet 'r' then some 0x0D
  else if b == octet 't' then some 0x09
  else none

/-- Puts the octets of a code point in front of octets that are kept last first. -/
def pushCode (code : Nat) (acc : Octets) : Octets :=
  (String.utf8EncodeChar (Char.ofNat code)).reverse ++ acc

/-- The octets of a text up to its closing quotation mark, last first in `acc`, and what follows. -/
def readOctets (acc : Octets) : Octets → Except Fault (Octets × Octets)
  | [] => .error .endOfText
  | b :: rest =>
    if b == 0x22 then .ok (acc.reverse, rest)
    else if b < 0x20 then .error .controlInText
    else if b == 0x5C then
      match rest with
      | [] => .error .endOfText
      | e :: rest =>
        if e == octet 'u' then
          match rest with
          | h₁ :: h₂ :: h₃ :: h₄ :: rest =>
            match hexQuad? h₁ h₂ h₃ h₄ with
            | none => .error .badEscape
            | some code =>
              -- code points beyond the first plane come in two escapes, the high half first
              if 0xDC00 ≤ code ∧ code ≤ 0xDFFF then .error .loneSurrogate
              else if 0xD800 ≤ code ∧ code ≤ 0xDBFF then
                match rest with
                | s :: u :: l₁ :: l₂ :: l₃ :: l₄ :: rest =>
                  match hexQuad? l₁ l₂ l₃ l₄ with
                  | none => .error .badEscape
                  | some low =>
                    if s == 0x5C && u == octet 'u' then
                      if 0xDC00 ≤ low ∧ low ≤ 0xDFFF then
                        readOctets (pushCode (0x10000 + (code - 0xD800) * 0x400 + (low - 0xDC00)) acc) rest
                      else .error .loneSurrogate
                    else .error .loneSurrogate
                | _ => .error .endOfText
              else readOctets (pushCode code acc) rest
          | _ => .error .endOfText
        else
          match simpleEscape? e with
          | some plain => readOctets (plain :: acc) rest
          | none => .error .badEscape
    else readOctets (b :: acc) rest

def readText (s : Octets) : Except Fault (String × Octets) := do
  let (bytes, rest) ← readOctets [] s
  match Utf8.decode bytes with
  | .ok text => return (text, rest)
  | .error fault => throw (.badText fault)

/-- The largest significand that is kept while digits are read. -/
def significandLimit : Nat := Nat.pow 2 64 - 1

/-- Digits read onto a significand as long as it fits; how many were read, and what follows. -/
def readSignificand (significand taken : Nat) : Octets → Nat × Nat × Octets
  | [] => (significand, taken, [])
  | b :: rest =>
    if isDigit b then
      let next := significand * 10 + digit b
      if next ≤ significandLimit then readSignificand next (taken + 1) rest else (significand, taken, b :: rest)
    else (significand, taken, b :: rest)

def skipDigits (s : Octets) : Nat × Octets :=
  ((s.takeWhile isDigit).length, s.dropWhile isDigit)

def realValue (negative : Bool) (significand : Nat) (e : Int) (rest : Octets) : Except Fault (Json × Octets) :=
  match Binary64.scale? negative significand e with
  | some x => .ok (.real x, rest)
  | none => .error .numberOutOfRange

/-- Keeps a power of ten within 32 bits. -/
def clampExponent (e : Int) : Int := max (-Nat.pow 2 31) (min e (Nat.pow 2 31 - 1))

def readExponent (negative : Bool) (significand : Nat) (e : Int) (s : Octets) : Except Fault (Json × Octets) :=
  let (down, s) :=
    match s with
    | b :: rest => if b == octet '-' then (true, rest) else if b == octet '+' then (false, rest) else (false, s)
    | [] => (false, s)
  match s with
  | [] => .error .endOfText
  | b :: _ =>
    if isDigit b then
      let digits := s.takeWhile isDigit
      let rest := s.dropWhile isDigit
      let size := digits.foldl (fun n d => n * 10 + digit d) 0
      if size ≤ Nat.pow 2 31 - 1 then
        realValue negative significand (clampExponent (if down then e - size else e + size)) rest
      else if significand ≠ 0 ∧ ¬ down then .error .numberOutOfRange
      else .ok (.real ⟨negative, 0, -1074⟩, rest)
    else .error .badNumber

/-- A number after the digits of its whole part: a fraction, an exponent, or neither. -/
def readFraction (negative : Bool) (significand : Nat) (e : Int) (s : Octets) : Except Fault (Json × Octets) :=
  match s with
  | [] => realValue negative significand e s
  | b :: rest =>
    if b == octet '.' then
      let (significand, taken, rest) := readSignificand significand 0 rest
      let (skipped, rest) := skipDigits rest
      if taken + skipped = 0 then .error .badNumber
      else
        match rest with
        | c :: after =>
          if c == octet 'e' || c == octet 'E' then readExponent negative significand (e - taken) after
          else realValue negative significand (e - taken) rest
        | [] => realValue negative significand (e - taken) rest
    else if b == octet 'e' || b == octet 'E' then readExponent negative significand e rest
    else realValue negative significand e s

def goesOn (s : Octets) : Bool :=
  match s with
  | b :: _ => b == octet '.' || b == octet 'e' || b == octet 'E'
  | [] => false

def readNumber (negative : Bool) (s : Octets) : Except Fault (Json × Octets) :=
  match s with
  | [] => .error .endOfText
  | b :: after =>
    if ¬ isDigit b then .error .badNumber
    else if b == octet '0' ∧ (after.head?.map isDigit).getD false then .error .badNumber
    else
      let (significand, _, rest) := readSignificand 0 0 s
      let (skipped, rest) := skipDigits rest
      -- digits beyond the significand count as places before the point
      if skipped ≠ 0 ∨ goesOn rest then readFraction negative significand skipped rest
      else if ¬ negative then .ok (.whole significand, rest)
      -- a negative zero, and what is too small for 64 bits with a sign, is a real number
      else if significand = 0 ∨ Nat.pow 2 63 < significand then realValue true significand 0 rest
      else .ok (.whole (-(significand : Int)), rest)

/-- A literal, once its first octet has been seen. -/
def readLiteral (word : String) (value : Json) (s : Octets) : Except Fault (Json × Octets) :=
  match (Utf8.encode word).isPrefixOf? s with
  | some rest => .ok (value, rest)
  | none => .error .endOfText

def skipSpace (s : Octets) : Octets := s.dropWhile isSpace

mutual

/-- The value at the head of the octets; `depth` levels may still be opened, less one. -/
def readValue : (fuel depth : Nat) → Octets → Except Fault (Json × Octets)
  | 0, _, _ => .error .tooDeep
  | fuel + 1, depth, s =>
    match skipSpace s with
    | [] => .error .endOfText
    | b :: rest =>
      if b == 0x22 then do
        let (text, rest) ← readText rest
        return (.string text, rest)
      else if b == octet '[' then
        match depth with
        | 0 | 1 => .error .tooDeep
        | depth + 1 => do
          match skipSpace rest with
          | [] => .error .endOfText
          | c :: after =>
            if c == octet ']' then return (.array [], after)
            else
              let (items, rest) ← readItems fuel depth (c :: after)
              return (.array items, rest)
      else if b == octet '\x7b' then
        match depth with
        | 0 | 1 => .error .tooDeep
        | depth + 1 => do
          match skipSpace rest with
          | [] => .error .endOfText
          | c :: after =>
            if c == octet '\x7d' then return (.object [], after)
            else
              let (fields, rest) ← readFields fuel depth (c :: after)
              return (.object fields, rest)
      else if b == octet '-' then readNumber true rest
      else if isDigit b then readNumber false (b :: rest)
      else if b == octet 't' then readLiteral "true" (.bool true) (b :: rest)
      else if b == octet 'f' then readLiteral "false" (.bool false) (b :: rest)
      else if b == octet 'n' then readLiteral "null" .null (b :: rest)
      else .error (.unexpected b)

def readItems : (fuel depth : Nat) → Octets → Except Fault (List Json × Octets)
  | 0, _, _ => .error .tooDeep
  | fuel + 1, depth, s => do
    let (item, rest) ← readValue fuel depth s
    match skipSpace rest with
    | [] => .error .endOfText
    | b :: rest =>
      if b == octet ']' then return ([item], rest)
      else if b == octet ',' then
        let (items, rest) ← readItems fuel depth rest
        return (item :: items, rest)
      else .error (.unexpected b)

def readFields : (fuel depth : Nat) → Octets → Except Fault (List (String × Json) × Octets)
  | 0, _, _ => .error .tooDeep
  | fuel + 1, depth, s => do
    match skipSpace s with
    | [] => .error .endOfText
    | q :: rest =>
      if q == 0x22 then
        let (name, rest) ← readText rest
        match skipSpace rest with
        | [] => .error .endOfText
        | c :: rest =>
          if c == octet ':' then
            let (value, rest) ← readValue fuel depth rest
            match skipSpace rest with
            | [] => .error .endOfText
            | b :: rest =>
              if b == octet '\x7d' then return ([(name, value)], rest)
              else if b == octet ',' then
                let (fields, rest) ← readFields fuel depth rest
                return ((name, value) :: fields, rest)
              else .error (.unexpected b)
          else .error (.unexpected c)
      else .error (.unexpected q)

end

/-- **The first value of some octets, and what follows it.** -/
def read (s : Octets) : Except Fault (Json × Octets) :=
  readValue (2 * s.length + 2) 128 s

/-- The value that makes up the whole of some octets, blanks apart. -/
def readAll (s : Octets) : Except Fault Json := do
  let (value, rest) ← read s
  if skipSpace rest = [] then return value else throw .trailing

end Json
end Intake
