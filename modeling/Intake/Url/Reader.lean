import Intake.Url.Basic
/-!
# Url.Reader — addresses from text

Reading is forgiving, as it is in browsers: blanks around are passed over, backslashes are slashes for the schemes with
rules of their own, and the names of the directory itself and the one above are worked into the path.
-/
namespace Intake
namespace Url

def endsAuthority (special : Bool) (c : Char) : Bool := c == '/' || c == '?' || c == '#' || (special && c == '\\')

/-- The scheme in front of a colon, in small letters, and what follows. -/
def readScheme? (text : List Char) : Option (String × List Char) := do
  let (name, rest) ← Text.cut? [':'] text
  let first ← name.head?
  if first.isAlpha && name.all (fun c => c.isAlphanum || c == '+' || c == '-' || c == '.') then
    return (String.ofList (name.map Char.toLower), rest)
  else none

def isSelf (segment : List Char) : Bool := [".", "%2e"].contains (String.ofList (segment.map Char.toLower))

def isAbove (segment : List Char) : Bool :=
  ["..", ".%2e", "%2e.", "%2e%2e"].contains (String.ofList (segment.map Char.toLower))

/-- The segments of a path, with the names of the directory itself and the one above worked in. -/
def resolveSegments : (done : List String) → List (List Char) → List String
  | done, [] => done
  | done, [last] =>
    if isAbove last then parent done ++ [""]
    else if isSelf last then done ++ [""]
    else done ++ [String.ofList (escape pathEscapes last)]
  | done, segment :: rest =>
    if isAbove segment then resolveSegments (parent done) rest
    else if isSelf segment then resolveSegments done rest
    else resolveSegments (done ++ [String.ofList (escape pathEscapes segment)]) rest

/-- The segments of a path that starts with a slash or is empty. -/
def readPath (special : Bool) (text : List Char) : List String :=
  let text := if special then text.map fun c => if c == '\\' then '/' else c else text
  match text with
  | [] => if special then [""] else []
  | '/' :: rest => resolveSegments [] (splitAt '/' rest)
  | other => resolveSegments [] (splitAt '/' other)

/-- The port after a host, if it is not the scheme's own. -/
def readPort (scheme : String) (text : List Char) : Except UrlFault (Option Nat) :=
  if text.isEmpty then .ok none
  else if !text.all (fun c => (digitValue? c).isSome) then .error .badPort
  else
    match readUpTo 65535 (String.ofList text) with
    | .ok port => .ok (if defaultPort? scheme = some port then none else some port)
    | .error _ => .error .badPort

/-- The host up to the colon in front of its port, and the port. -/
def splitPort : (inBrackets : Bool) → List Char → List Char × List Char
  | _, [] => ([], [])
  | inBrackets, c :: rest =>
    if c = ':' ∧ ¬ inBrackets then ([], rest)
    else
      let (host, port) := splitPort (if c = '[' then true else if c = ']' then false else inBrackets) rest
      (c :: host, port)

def userText (user : List Char) : String :=
  let (name, password) := match Text.cut? [':'] user with
    | some (name, password) => (name, password)
    | none => (user, [])
  let shown (s : List Char) : String := String.ofList (escape userEscapes s)
  if name.isEmpty && password.isEmpty then ""
  else shown name ++ (if password.isEmpty then "" else ":" ++ shown password) ++ "@"

def readAuthority (scheme : String) (text : List Char) : Except UrlFault String := do
  let special := isSpecial scheme
  let (user, place) := match Text.cutLast? ['@'] text with
    | some (user, place) => (userText user, place)
    | none => ("", text)
  let (hostChars, portChars) := splitPort false place
  if hostChars.isEmpty ∧ (special ∨ place.length < text.length ∨ ¬ portChars.isEmpty) then throw .emptyHost
  let host ← if special then readHost hostChars else readPlainHost hostChars
  let port ← readPort scheme portChars
  return user ++ host ++ ((port.map fun n => ":" ++ decimal n).getD "")

def spanUntil (stop : Char → Bool) (text : List Char) : List Char × List Char :=
  (text.takeWhile (!stop ·), text.dropWhile (!stop ·))

def readFromAuthority (scheme : String) (text : List Char) : Except UrlFault (Option String × UrlPath) := do
  let (authority, path) := spanUntil (endsAuthority (isSpecial scheme)) text
  return (some (← readAuthority scheme authority), .segments (readPath (isSpecial scheme) path))

/-- Reads the host, which may be missing, and the path of a local file. -/
def readFile (text : List Char) : Except UrlFault (Option String × UrlPath) := do
  let text := text.map fun c => if c == '\\' then '/' else c
  match text with
  | '/' :: '/' :: rest =>
    let (host, path) := spanUntil (· == '/') rest
    let host ← if host.isEmpty then pure "" else readHost host
    return (some (if host = "localhost" then "" else host), .segments (readPath true path))
  | path => return (some "", .segments (readPath true path))

/-- Reads what stands between the scheme and the query. -/
def readPlace (scheme : String) (text : List Char) : Except UrlFault (Option String × UrlPath) :=
  if scheme = "file" then readFile text
  else if isSpecial scheme then readFromAuthority scheme (text.dropWhile fun c => c == '/' || c == '\\')
  else
    match text with
    | '/' :: '/' :: rest => readFromAuthority scheme rest
    | '/' :: rest => .ok (none, .segments (readPath false ('/' :: rest)))
    | other => .ok (none, .text (String.ofList (escape [] other)))

/-- **Reads an address.** -/
def read (source : String) : Except UrlFault Url := do
  let blank (c : Char) : Bool := c.toNat ≤ 0x20
  let trimmed := ((source.toList.dropWhile blank).reverse.dropWhile blank).reverse
  let some (scheme, rest) := readScheme? (trimmed.filter (!isDropped ·)) | throw .relative
  let (beforeFragment, fragment) := spanUntil (· == '#') rest
  let (place, query) := spanUntil (· == '?') beforeFragment
  let (authority, path) ← readPlace scheme place
  return {
    scheme := scheme
    authority := authority
    path := path
    query := if query.isEmpty then none
      else some (String.ofList (escape (queryEscapes (isSpecial scheme)) (query.drop 1)))
    fragment := if fragment.isEmpty then none
      else some (String.ofList (escape fragmentEscapes (fragment.drop 1))) }

end Url
end Intake
