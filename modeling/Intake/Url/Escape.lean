import Intake.Text.Utf8
/-!
# Url.Escape — characters that do not stand for themselves in an address

Each part of an address has its own set of ASCII characters that are written as octets in hexadecimal; characters beyond
ASCII always are.
-/
namespace Intake
namespace Url

def hexPair (b : UInt8) : List Char :=
  let digit (n : Nat) : Char := if n < 10 then Char.ofNat (48 + n) else Char.ofNat (55 + n)
  [digit (b.toNat / 16), digit (b.toNat % 16)]

def escapeOctet (b : UInt8) : List Char := '%' :: hexPair b

/-- Control characters, and everything beyond ASCII. -/
def isControl (c : Char) : Bool := c.toNat < 0x20 || 0x7F ≤ c.toNat

/-- A text with the characters of a set, and all beyond ASCII, escaped. -/
def escape (escapes : List Char) (text : List Char) : List Char :=
  text.flatMap fun c =>
    if isControl c || escapes.contains c then (Utf8.encodeChars [c]).flatMap escapeOctet else [c]

def fragmentEscapes : List Char := [' ', '"', '<', '>', '`']

def pathEscapes : List Char := fragmentEscapes ++ ['#', '?', '\x7b', '\x7d']

/-- What is escaped in a text that is to be one segment of a path. -/
def segmentEscapes (special : Bool) : List Char := pathEscapes ++ ['/', '%'] ++ if special then ['\\'] else []

def userEscapes : List Char := pathEscapes ++ ['/', ':', ';', '=', '@', '[', '\\', ']', '^', '|']

def queryEscapes (special : Bool) : List Char := [' ', '"', '#', '<', '>'] ++ if special then ['\''] else []

/-- A text as it stands in a form: letters, digits and `*-._` as they are, a blank as `+`. -/
def formEncode (text : String) : String :=
  String.ofList ((Utf8.encode text).flatMap fun b =>
    let c := Char.ofNat b.toNat
    if c.isAlphanum || c == '*' || c == '-' || c == '.' || c == '_' then [c]
    else if c == ' ' then ['+'] else escapeOctet b)

end Url
end Intake
