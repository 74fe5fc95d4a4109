import Intake.Text.Cut
import Intake.Text.Decimal
import Intake.Url.Escape
/-!
# Url.Host — the names of hosts

A host is a name, an address of four numbers, or in brackets an address of eight.
-/
namespace Intake

inductive UrlFault where
  | emptyHost
  | badName
  | badPort
  | badIpv4
  | badIpv6
  | badHostChar
  | relative
  deriving DecidableEq, Repr

def UrlFault.message : UrlFault → String
  | .emptyHost => "empty host"
  | .badName => "invalid international domain name"
  | .badPort => "invalid port number"
  | .badIpv4 => "invalid IPv4 address"
  | .badIpv6 => "invalid IPv6 address"
  | .badHostChar => "invalid domain character"
  | .relative => "relative URL without a base"

namespace Url

def splitAt (sep : Char) : List Char → List (List Char)
  | [] => [[]]
  | c :: rest =>
    match splitAt sep rest with
    | [] => [[c]]
    | part :: more => if c = sep then [] :: part :: more else (c :: part) :: more

def digitOf? (base : Nat) (c : Char) : Option Nat :=
  let value := if '0' ≤ c ∧ c ≤ '9' then some (c.toNat - 48)
    else if 'a' ≤ c ∧ c ≤ 'f' then some (c.toNat - 87)
    else if 'A' ≤ c ∧ c ≤ 'F' then some (c.toNat - 55)
    else none
  value.filter (· < base)

def numberOf? (base : Nat) (digits : List Char) : Option Nat :=
  digits.foldlM (fun n c => (digitOf? base c).map (n * base + ·)) 0

/-- One number of an address of four: decimal, with a leading zero octal, with `0x` hexadecimal. -/
def ipv4Number? : List Char → Option Nat
  | [] => none
  | '0' :: 'x' :: rest | '0' :: 'X' :: rest => numberOf? 16 rest
  | ['0'] => some 0
  | '0' :: rest => numberOf? 8 rest
  | digits => numberOf? 10 digits

/-- The parts of a name between its points, without an empty last one. -/
def labels (host : List Char) : List (List Char) :=
  let parts := splitAt '.' host
  if parts.length > 1 ∧ parts.getLast? = some [] then parts.dropLast else parts

/-- The last part of a name is a number, so the name has to be an address of four. -/
def endsInNumber (host : List Char) : Bool :=
  match (labels host).getLast? with
  | none => false
  | some last =>
    if !last.isEmpty && last.all (fun c => (digitValue? c).isSome) then true
    else match last with
      | '0' :: 'x' :: rest | '0' :: 'X' :: rest => (numberOf? 16 rest).isSome
      | _ => false

/-- An address of four numbers, of which the last may stand for several. -/
def ipv4? (host : List Char) : Option Nat := do
  let parts := labels host
  if parts.length > 4 then none
  let numbers ← parts.mapM ipv4Number?
  let last ← numbers.getLast?
  let firsts := numbers.dropLast
  if firsts.any (255 < ·) then none
  -- the last number fills all octets that are left
  if Nat.pow 256 (5 - numbers.length) ≤ last then none
  return (firsts.mapIdx fun i n => n * Nat.pow 256 (3 - i)).foldr (· + ·) last

def ipv4Text (address : Nat) : String :=
  ".".intercalate ([3, 2, 1, 0].map fun i => decimal (address / Nat.pow 256 i % 256))

/-- One group of an address of eight: one to four hexadecimal digits. -/
def group? (digits : List Char) : Option Nat :=
  if digits.isEmpty ∨ digits.length > 4 then none else numberOf? 16 digits

/-- One number of an address of four at the end of an address of eight: decimal, without leading zeros. -/
def strictByte? (digits : List Char) : Option Nat :=
  if digits.isEmpty ∨ digits.length > 3 ∨ (digits.length > 1 ∧ digits.head? = some '0') then none
  else (numberOf? 10 digits).filter (· < 256)

/-- The groups of a text divided by colons; the last may be an address of four. -/
def groups? (text : List Char) : Option (List Nat) :=
  if text.isEmpty then some []
  else do
    let parts := splitAt ':' text
    let last ← parts.getLast?
    let firsts ← parts.dropLast.mapM group?
    if last.contains '.' then
      match ← (splitAt '.' last).mapM strictByte? with
      | [a, b, c, d] => return firsts ++ [a * 256 + b, c * 256 + d]
      | _ => none
    else return firsts ++ [← group? last]

/-- An address of eight groups; one run of zeros may be left out between two colons. -/
def ipv6? (text : List Char) : Option (List Nat) :=
  match Text.cut? [':', ':'] text with
  | none => (groups? text).filter (·.length = 8)
  | some (before, after) => do
    let front ← groups? before
    let back ← groups? after
    if front.length + back.length > 7 then none
    else return front ++ List.replicate (8 - front.length - back.length) 0 ++ back

def zeroRun (groups : List Nat) : Nat := (groups.takeWhile (· == 0)).length

/-- Where the first longest run of at least two zeros starts, and how long it is. -/
def longestZeros (groups : List Nat) : Option (Nat × Nat) :=
  ((List.range 8).foldl (fun (best : Nat × Nat) i =>
    let run := zeroRun (groups.drop i)
    if best.2 < run then (i, run) else best) (0, 1)) |> fun best => if best.2 ≥ 2 then some best else none

def groupsText (groups : List Nat) : String :=
  ":".intercalate (groups.map fun n => String.ofList (Nat.toDigits 16 n))

def ipv6Text (groups : List Nat) : String :=
  match longestZeros groups with
  | none => "[" ++ groupsText groups ++ "]"
  | some (start, run) => "[" ++ groupsText (groups.take start) ++ "::" ++ groupsText (groups.drop (start + run)) ++ "]"

def unescape : List Char → Octets
  | '%' :: a :: b :: rest =>
    match digitOf? 16 a, digitOf? 16 b with
    | some x, some y => (x * 16 + y).toUInt8 :: unescape rest
    | _, _ => 0x25 :: unescape (a :: b :: rest)
  | c :: rest => Utf8.encodeChars [c] ++ unescape rest
  | [] => []

def hostForbidden : List Char :=
  ['\x00', '\t', '\n', '\r', ' ', '#', '/', ':', '<', '>', '?', '@', '[', '\\', ']', '^', '|']

def isNameForbidden (c : Char) : Bool := isControl c || c == '%' || hostForbidden.contains c

/-- An address of eight in brackets, once the opening one was seen. -/
def bracketed (rest : List Char) : Except UrlFault String :=
  match rest.getLast? with
  | some ']' =>
    match ipv6? rest.dropLast with
    | some groups => .ok (ipv6Text groups)
    | none => .error .badIpv6
  | _ => .error .badIpv6

/-- **Reads a host** where names follow the rules of the net. -/
def readHost (host : List Char) : Except UrlFault String :=
  match host with
  | '[' :: rest => bracketed rest
  | _ =>
    let name := (Utf8.decodeLossy (unescape host)).toList.map Char.toLower
    if name.any isNameForbidden then .error .badName
    else if name.isEmpty then .error .emptyHost
    else if endsInNumber name then
      match ipv4? name with
      | some address => .ok (ipv4Text address)
      | none => .error .badIpv4
    else .ok (String.ofList name)

/-- Reads a host where its name is nobody's business. -/
def readPlainHost (host : List Char) : Except UrlFault String :=
  match host with
  | '[' :: rest => bracketed rest
  | _ => if host.any hostForbidden.contains then .error .badHostChar else .ok (String.ofList (escape [] host))

end Url
end Intake
