import Intake.Pattern.Basic
import Intake.Text.Decimal
/-!
# Reader — patterns from text

The usual notation: `.` for any character but a line end, classes in brackets, `\d \s \w` for digits, blanks and word
characters of any script, `* + ?` and counts in braces with `?` for the reluctant form, `( )` for groups with
`(?P<name> )` or `(?<name> )` to name them and `(?: )` to mark none, `(?i)` and its kin for the rest of a group.
Characters with a meaning of their own stand for themselves after a backslash.  There are no references back and no
looking around.
-/
namespace Intake
namespace Pattern

inductive Fault where
  | endOfPattern
  | badEscape (c : Char)
  | badClass
  | badRange
  | badCount
  | badGroup
  | badGroupName
  | repeatedGroupName (name : String)
  | badFlag
  | nothingToRepeat
  | unopened
  | unclosed
  | unknownProperty
  | nestedTooDeep

def Fault.message : Fault → String
  | .endOfPattern => "the pattern ends inside an expression"
  | .badEscape c => "unrecognized escape of " ++ String.ofList [c]
  | .badClass => "invalid character class"
  | .badRange => "invalid range, the start must be at most the end"
  | .badCount => "invalid repetition count"
  | .badGroup => "unrecognized group"
  | .badGroupName => "invalid group name"
  | .repeatedGroupName name => "duplicate group name " ++ name
  | .badFlag => "unrecognized flag"
  | .nothingToRepeat => "repetition operator missing expression"
  | .unopened => "unopened group"
  | .unclosed => "unclosed group"
  | .unknownProperty => "unknown character property"
  | .nestedTooDeep => "nested too deep"

/-- What a flag group sets for the rest of its group. -/
structure Flags where
  anyCase : Bool := false
  multiLine : Bool := false
  dotAll : Bool := false
  swapEager : Bool := false

/-- A reader's state: what is left of the pattern, the flags in force, and the groups opened so far, latest first. -/
structure State where
  rest : List Char
  flags : Flags
  names : List (Option String)

abbrev Step := StateT State (Except Fault)

/-- The next character, left where it is. -/
def peek? : Step (Option Char) := return (← get).rest.head?

def skip : Step Unit := modify fun s => { s with rest := s.rest.drop 1 }

def take : Step Char := do
  match (← get).rest with
  | [] => throw .endOfPattern
  | c :: rest =>
    modify fun s => { s with rest := rest }
    return c

/-- Takes a text if it comes next. -/
def takeText (text : String) : Step Bool := do
  match text.toList.isPrefixOf? (← get).rest with
  | some rest =>
    modify fun s => { s with rest := rest }
    return true
  | none => return false

def takeWhile (p : Char → Bool) : Step (List Char) := do
  let s ← get
  set { s with rest := s.rest.dropWhile p }
  return s.rest.takeWhile p

/-- A class, with the other case added where the flags ask for it. -/
def withCase (set : CharClass) : Step CharClass := do
  return if (← get).flags.anyCase then .anyCase set else set

/-- A letter of a script, as far as the standard's word characters tell: no digit, no mark of ASCII. -/
def isNameStart (c : Char) : Bool := c == '_' || (isWordChar c && !isDecimalDigit c)

def isNamePart (c : Char) : Bool := c == '_' || c == '.' || c == '[' || c == ']' || isWordChar c

def hexValue? (c : Char) : Option Nat :=
  if '0' ≤ c ∧ c ≤ '9' then some (c.toNat - '0'.toNat)
  else if 'a' ≤ c ∧ c ≤ 'f' then some (c.toNat - 'a'.toNat + 10)
  else if 'A' ≤ c ∧ c ≤ 'F' then some (c.toNat - 'A'.toNat + 10)
  else none

def codeOfHex (digits : List Char) : Step Nat := do
  if digits.isEmpty ∨ digits.length > 8 then throw (.badEscape 'x')
  let code ← digits.foldlM (fun n c =>
    match hexValue? c with
    | some d => pure (n * 16 + d)
    | none => throw (.badEscape c)) 0
  if code < 0xD800 ∨ (0xDFFF < code ∧ code < 0x110000) then return code else throw (.badEscape 'x')

/-- The code point of an escape by number, after its letter: `width` digits, or any number of them in braces. -/
def hexEscape (width : Nat) : Step Nat := do
  if ← takeText "\x7b" then
    let digits ← takeWhile (· != '\x7d')
    if ← takeText "\x7d" then codeOfHex digits else throw .endOfPattern
  else
    let s ← get
    if s.rest.length < width then throw .endOfPattern
    set { s with rest := s.rest.drop width }
    codeOfHex (s.rest.take width)

/-- What a backslash and a character stand for. -/
inductive Escape where
  | code (n : Nat)
  | set (c : CharClass)
  | edge (e : Edge)

/-- ASCII characters that stand for themselves after a backslash. -/
def isEscapable (c : Char) : Bool :=
  c.toNat < 128 && !c.isAlphanum && c != '<' && c != '>'

def escape : Step Escape := do
  let c ← take
  match c with
  | 'd' => return .set .digit
  | 'D' => return .set (.not .digit)
  | 's' => return .set .space
  | 'S' => return .set (.not .space)
  | 'w' => return .set .word
  | 'W' => return .set (.not .word)
  | 'a' => return .code 0x07
  | 'f' => return .code 0x0C
  | 't' => return .code 0x09
  | 'n' => return .code 0x0A
  | 'r' => return .code 0x0D
  | 'v' => return .code 0x0B
  | 'A' => return .edge .textStart
  | 'z' => return .edge .textEnd
  | 'b' => return .edge .word
  | 'B' => return .edge .notWord
  | 'x' => return .code (← hexEscape 2)
  | 'u' => return .code (← hexEscape 4)
  | 'U' => return .code (← hexEscape 8)
  | 'p' | 'P' => throw .unknownProperty
  | c => if isEscapable c then return .code c.toNat else throw (.badEscape c)

def namedClass? : String → Option CharClass
  | "alnum" => some (.union letters (.range 48 57))
  | "alpha" => some letters
  | "ascii" => some (.range 0 127)
  | "blank" => some (.union (.range 9 9) (.range 32 32))
  | "cntrl" => some (.union (.range 0 31) (.range 127 127))
  | "digit" => some (.range 48 57)
  | "graph" => some (.range 33 126)
  | "lower" => some (.range 97 122)
  | "print" => some (.range 32 126)
  | "punct" => some (.union (.union (.range 33 47) (.range 58 64)) (.union (.range 91 96) (.range 123 126)))
  | "space" => some (.union (.range 9 13) (.range 32 32))
  | "upper" => some (.range 65 90)
  | "word" => some (.union (.union letters (.range 48 57)) (.range 95 95))
  | "xdigit" => some (.union (.range 48 57) (.union (.range 65 70) (.range 97 102)))
  | _ => none
where
  letters : CharClass := .union (.range 65 90) (.range 97 122)

/-- A class with a name, after its opening bracket and colon; nothing is taken when it is none. -/
def namedClass : Step (Option CharClass) := do
  let s ← get
  let inverted := s.rest.head? == some '^'
  let afterMark := if inverted then s.rest.drop 1 else s.rest
  let name := afterMark.takeWhile (· != ':')
  match afterMark.drop name.length with
  | ':' :: ']' :: rest =>
    match namedClass? (String.ofList name) with
    | some set =>
      modify fun s => { s with rest := rest }
      return some (if inverted then .not set else set)
    | none => return none
  | _ => return none

/-- The part of a class that can start a range: a character or a whole class. -/
def classAtom : Step Escape := do
  let c ← take
  if c == '\\' then
    match ← escape with
    | .edge _ => throw .badClass
    | other => return other
  else return .code c.toNat

mutual

def classBody : (fuel : Nat) → Step CharClass
  | 0 => throw .nestedTooDeep
  | fuel + 1 => do
    let inverted ← takeText "^"
    -- Hyphens and one closing bracket at the start stand for themselves.
    let hyphens ← takeWhile (· == '-')
    let start := hyphens.foldl (fun acc _ => .union acc (.range 45 45)) CharClass.none
    let start ← do
      if hyphens.isEmpty then
        if ← takeText "]" then pure (CharClass.union start (.range 93 93)) else pure start
      else pure start
    let set ← classItems fuel start
    let set ← withCase set
    return if inverted then .not set else set

/-- The items of a class and its operators, up to the closing bracket. -/
def classItems : (fuel : Nat) → CharClass → Step CharClass
  | 0, _ => throw .nestedTooDeep
  | fuel + 1, acc => do
    match ← peek? with
    | none => throw .badClass
    | some ']' =>
      skip
      return acc
    | some '[' =>
      skip
      if ← takeText ":" then
        match ← namedClass with
        | some set => classItems fuel (.union acc set)
        | none =>
          modify fun s => { s with rest := ':' :: s.rest }
          classItems fuel (.union acc (← classBody fuel))
      else classItems fuel (.union acc (← classBody fuel))
    | some _ =>
      if ← takeText "&&" then
        let right ← classItems fuel .none
        return .inter (← withCase acc) (← withCase right)
      else if ← takeText "--" then
        let right ← classItems fuel .none
        return .minus (← withCase acc) (← withCase right)
      else if ← takeText "~~" then
        let right ← classItems fuel .none
        return .delta (← withCase acc) (← withCase right)
      else
        let atom ← classAtom
        let s ← get
        match s.rest with
        | '-' :: next :: rest =>
          if next == ']' ∨ next == '-' then
            classItems fuel (.union acc (setOf atom))
          else
            set { s with rest := next :: rest }
            match atom, ← classAtom with
            | .code low, .code high =>
              if low ≤ high then classItems fuel (.union acc (.range low high)) else throw .badRange
            | _, _ => throw .badRange
        | ['-'] => throw .badClass
        | _ => classItems fuel (.union acc (setOf atom))
where
  setOf : Escape → CharClass
    | .code n => .range n n
    | .set c => c
    | .edge _ => .none

end

/-- The flags of a group up to its closing mark, which is left. -/
def flagsFrom : (fuel : Nat) → (on : Bool) → (seen negated : Bool) → Flags → Step Flags
  | 0, _, _, _, _ => throw .badFlag
  | fuel + 1, on, seen, negated, flags => do
    match ← peek? with
    | none => throw .endOfPattern
    | some ':' | some ')' => if seen then return flags else throw .badFlag
    | some '-' =>
      skip
      if negated then throw .badFlag else flagsFrom fuel false false true flags
    | some 'i' => skip; flagsFrom fuel on true negated { flags with anyCase := on }
    | some 'm' => skip; flagsFrom fuel on true negated { flags with multiLine := on }
    | some 's' => skip; flagsFrom fuel on true negated { flags with dotAll := on }
    | some 'U' => skip; flagsFrom fuel on true negated { flags with swapEager := on }
    | some 'u' => skip; if on then flagsFrom fuel on true negated flags else throw .badFlag
    | some _ => throw .badFlag

def countNumber : Step Nat := do
  let _ ← takeWhile isBlank
  let digits ← takeWhile fun c => (digitValue? c).isSome
  let _ ← takeWhile isBlank
  match readUpTo (Nat.pow 2 32 - 1) (String.ofList digits) with
  | .ok n => return n
  | .error _ => throw .badCount

def countBounds : Step (Nat × Option Nat) := do
  let least ← countNumber
  if ← takeText "\x7d" then return (least, some least)
  if ← takeText "," then
    if ← takeText "\x7d" then return (least, none)
    let most ← countNumber
    if ← takeText "\x7d" then
      if least ≤ most then return (least, some most) else throw .badCount
    throw .badCount
  throw .badCount

def sequence : List (Option Node) → Node
  | [] => .empty
  | none :: rest => sequence rest
  | [some node] => node
  | some node :: rest => .seq node (sequence rest)

def repeatLast (least : Nat) (most : Option Nat) (items : List (Option Node)) : Step (List (Option Node)) := do
  match items with
  | some node :: before =>
    let reluctant ← takeText "?"
    let eager := reluctant == (← get).flags.swapEager
    return some (.times least most eager node) :: before
  | _ => throw .nothingToRepeat

/-- The name of a group, after its opening mark, up to and with its closing one. -/
def groupName : Step String := do
  let name ← takeWhile (· != '>')
  if ← takeText ">" then
    match name with
    | [] => throw .badGroupName
    | c :: rest =>
      let text := String.ofList name
      if ¬ (isNameStart c ∧ rest.all isNamePart) then throw .badGroupName
      if (← get).names.contains (some text) then throw (.repeatedGroupName text)
      return text
  else throw .badGroupName

def openGroup (name : Option String) : Step Nat := do
  modify fun s => { s with names := name :: s.names }
  return (← get).names.length

/-- The characters but a line end, or all of them. -/
def anyChar (flags : Flags) : CharClass :=
  if flags.dotAll then .range 0 0x10FFFF else .not (.range 10 10)

mutual

def alternation : (fuel : Nat) → Step Node
  | 0 => throw .nestedTooDeep
  | fuel + 1 => do
    let first ← items fuel []
    if ← takeText "|" then return .either first (← alternation fuel) else return first

/-- A sequence up to the end of the choice; the items so far, latest first, with nothing for a flag group. -/
def items : (fuel : Nat) → List (Option Node) → Step Node
  | 0, _ => throw .nestedTooDeep
  | fuel + 1, acc => do
    match ← peek? with
    | none | some '|' | some ')' => return sequence acc.reverse
    | some '*' => skip; items fuel (← repeatLast 0 none acc)
    | some '+' => skip; items fuel (← repeatLast 1 none acc)
    | some '?' => skip; items fuel (← repeatLast 0 (some 1) acc)
    | some '\x7b' =>
      skip
      match acc with
      | some _ :: _ =>
        let (least, most) ← countBounds
        items fuel (← repeatLast least most acc)
      | _ => throw .nothingToRepeat
    | some '(' => skip; items fuel ((← group fuel) :: acc)
    | some '[' => skip; items fuel (some (.one (← classBody fuel)) :: acc)
    | some '.' => skip; items fuel (some (.one (anyChar (← get).flags)) :: acc)
    | some '^' =>
      skip
      items fuel (some (.edge (if (← get).flags.multiLine then .lineStart else .textStart)) :: acc)
    | some '$' =>
      skip
      items fuel (some (.edge (if (← get).flags.multiLine then .lineEnd else .textEnd)) :: acc)
    | some '\\' =>
      skip
      match ← escape with
      | .code n => items fuel (some (.one (← withCase (.range n n))) :: acc)
      | .set set => items fuel (some (.one set) :: acc)
      | .edge e => items fuel (some (.edge e) :: acc)
    | some c =>
      skip
      items fuel (some (.one (← withCase (.range c.toNat c.toNat))) :: acc)

/-- A group after its opening bracket, with its closing one; nothing for a flag group. -/
def group : (fuel : Nat) → Step (Option Node)
  | 0 => throw .nestedTooDeep
  | fuel + 1 => do
    let outer := (← get).flags
    if ← takeText "?P<" then named fuel outer
    else if ← takeText "?<" then
      match ← peek? with
      | some '=' | some '!' => throw .badGroup
      | _ => named fuel outer
    else if ← takeText "?" then
      match ← peek? with
      | some '=' | some '!' | some 'P' => throw .badGroup
      | some ':' =>
        skip
        body fuel outer
      | _ =>
        let flags ← flagsFrom fuel true false false outer
        modify fun s => { s with flags := flags }
        if ← takeText ")" then return none
        skip
        body fuel outer
    else
      let index ← openGroup none
      return (← body fuel outer).map (.group index)

def named : (fuel : Nat) → Flags → Step (Option Node)
  | 0, _ => throw .nestedTooDeep
  | fuel + 1, outer => do
    let name ← groupName
    let index ← openGroup (some name)
    return (← body fuel outer).map (.group index)

/-- The choices of a group and its closing bracket; the flags of the surroundings are in force again. -/
def body : (fuel : Nat) → Flags → Step (Option Node)
  | 0, _ => throw .nestedTooDeep
  | fuel + 1, outer => do
    let node ← alternation fuel
    if ← takeText ")" then
      modify fun s => { s with flags := outer }
      return some node
    throw .unclosed

end

/-- **Reads a pattern.** -/
def read (source : String) : Except Fault Pattern := do
  let chars := source.toList
  let start : State := ⟨chars, {}, []⟩
  let (node, s) ← (alternation (6 * chars.length + 6)).run start
  match s.rest with
  | [] => return ⟨source, node, s.names.reverse⟩
  | _ => throw .unopened

end Pattern
end Intake
