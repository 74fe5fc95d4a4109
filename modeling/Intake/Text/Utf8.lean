import Intake.Text.Decimal
/-!
# Utf8 — texts as octets

`encode` writes a text in UTF-8.  Reading looks at one character at a time: `look` says what stands at the head of the
octets (a character, a malformed part, or a part that the end of the octets cuts off) and how many octets that takes.
A malformed part is the longest run of octets that starts like a character and then cannot go on.  `decode` refuses
such a part and says where it is; `decodeLossy` puts one replacement character in its place.
-/
namespace Intake

/-- Contents of an object, octet by octet. -/
abbrev Octets := List UInt8

namespace Utf8

def encodeChars (s : List Char) : Octets :=
  s.flatMap String.utf8EncodeChar

def encode (s : String) : Octets :=
  encodeChars s.toList

/-- What stands at the head of some octets. -/
inductive Look where
  /-- A character of `width` octets. -/
  | char (c : Char) (width : Nat)
  /-- `width` octets that no character starts with, whatever comes after them. -/
  | malformed (width : Nat)
  /-- The start of a character, cut off by the end of the octets. -/
  | cutOff

def isTail (b : UInt8) : Bool := 0x80 ≤ b && b ≤ 0xBF

/-- The six bits a continuation octet carries. -/
def tailBits (b : UInt8) : Nat := b.toNat - 0x80

/-- The octets a second octet may be, after the first octet of a character of three or four. -/
def secondRange (b : UInt8) : UInt8 × UInt8 :=
  if b == 0xE0 then (0xA0, 0xBF) else if b == 0xED then (0x80, 0x9F)
  else if b == 0xF0 then (0x90, 0xBF) else if b == 0xF4 then (0x80, 0x8F) else (0x80, 0xBF)

def isSecond (b₀ b₁ : UInt8) : Bool :=
  (secondRange b₀).1 ≤ b₁ && b₁ ≤ (secondRange b₀).2

/-- A first octet of a character of `n` octets carries these bits. -/
def leadBits (n : Nat) (b : UInt8) : Nat :=
  if n == 2 then b.toNat - 0xC0 else if n == 3 then b.toNat - 0xE0 else b.toNat - 0xF0

def look (b₀ : UInt8) (rest : Octets) : Look :=
  if b₀ < 0x80 then .char (Char.ofNat b₀.toNat) 1
  else if 0xC2 ≤ b₀ && b₀ ≤ 0xDF then
    match rest with
    | [] => .cutOff
    | b₁ :: _ =>
      if isTail b₁ then .char (Char.ofNat (leadBits 2 b₀ * 64 + tailBits b₁)) 2 else .malformed 1
  else if 0xE0 ≤ b₀ && b₀ ≤ 0xEF then
    match rest with
    | [] => .cutOff
    | b₁ :: rest₁ =>
      if isSecond b₀ b₁ then
        match rest₁ with
        | [] => .cutOff
        | b₂ :: _ =>
          if isTail b₂ then .char (Char.ofNat ((leadBits 3 b₀ * 64 + tailBits b₁) * 64 + tailBits b₂)) 3
          else .malformed 2
      else .malformed 1
  else if 0xF0 ≤ b₀ && b₀ ≤ 0xF4 then
    match rest with
    | [] => .cutOff
    | b₁ :: rest₁ =>
      if isSecond b₀ b₁ then
        match rest₁ with
        | [] => .cutOff
        | b₂ :: rest₂ =>
          if isTail b₂ then
            match rest₂ with
            | [] => .cutOff
            | b₃ :: _ =>
              if isTail b₃ then
                .char (Char.ofNat (((leadBits 4 b₀ * 64 + tailBits b₁) * 64 + tailBits b₂) * 64 + tailBits b₃)) 4
              else .malformed 3
          else .malformed 2
      else .malformed 1
  else .malformed 1

def replacement : Char := Char.ofNat 0xFFFD

/-- `decodeLossy` with `skip` octets of the last character still to pass. -/
def decodeLossyFrom : Nat → Octets → List Char
  | _, [] => []
  | skip + 1, _ :: rest => decodeLossyFrom skip rest
  | 0, b :: rest =>
    match look b rest with
    | .char c width => c :: decodeLossyFrom (width - 1) rest
    | .malformed width => replacement :: decodeLossyFrom (width - 1) rest
    | .cutOff => [replacement]

/-- The text of some octets, with one replacement character for each malformed part. -/
def decodeLossy (bytes : Octets) : String :=
  String.ofList (decodeLossyFrom 0 bytes)

/-- Where octets stop being a text. -/
inductive Fault where
  /-- `width` octets from `index` on are malformed. -/
  | malformed (width index : Nat)
  /-- The octets end inside the character that starts at `index`. -/
  | cutOff (index : Nat)
  deriving DecidableEq, Repr

def Fault.message : Fault → String
  | .malformed width index =>
    "invalid utf-8 sequence of " ++ decimal width ++ " bytes from index " ++ decimal index
  | .cutOff index => "incomplete utf-8 byte sequence from index " ++ decimal index

/-- `decode` at octet `index`, with `skip` octets of the last character still to pass. -/
def decodeFrom : (index skip : Nat) → Octets → Except Fault (List Char)
  | _, _, [] => .ok []
  | index, skip + 1, _ :: rest => decodeFrom (index + 1) skip rest
  | index, 0, b :: rest =>
    match look b rest with
    | .char c width =>
      match decodeFrom (index + 1) (width - 1) rest with
      | .ok cs => .ok (c :: cs)
      | .error fault => .error fault
    | .malformed width => .error (.malformed width index)
    | .cutOff => .error (.cutOff index)

def decode (bytes : Octets) : Except Fault String :=
  (decodeFrom 0 0 bytes).map String.ofList

end Utf8
end Intake
