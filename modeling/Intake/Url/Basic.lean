import Intake.Url.Host
/-!
# Url — addresses of resources

An address has a scheme, in most cases a host, a path of segments, and perhaps a query and a fragment.  For some schemes
the rest is no path but a text, to which no segment can be added.
-/
namespace Intake

inductive UrlPath where
  | text (text : String)
  | segments (segments : List String)
  deriving DecidableEq, Repr

/-- The address of a resource, its parts escaped. -/
structure Url where
  scheme : String
  /-- User, host and port. -/
  authority : Option String
  path : UrlPath
  query : Option String
  fragment : Option String
  deriving DecidableEq, Repr

namespace Url

/-- The port that a scheme means when none is named; only for the schemes with rules of their own. -/
def defaultPort? : String → Option Nat
  | "http" | "ws" => some 80
  | "https" | "wss" => some 443
  | "ftp" => some 21
  | _ => none

def isSpecial (scheme : String) : Bool := (defaultPort? scheme).isSome || scheme == "file"

def pathText (url : Url) : String :=
  match url.path with
  | .text text => text
  | .segments segments => String.join (segments.map ("/" ++ ·))

def target (url : Url) : String := url.pathText ++ ((url.query.map ("?" ++ ·)).getD "")

def text (url : Url) : String :=
  url.scheme ++ ":" ++ ((url.authority.map ("//" ++ ·)).getD "") ++ url.target ++
    ((url.fragment.map ("#" ++ ·)).getD "")

def withoutUser (url : Url) : Url :=
  { url with authority := url.authority.map fun authority => ((cutTextLast? "@" authority).map (·.2)).getD authority }

/-- Tabs and line ends, which vanish from addresses. -/
def isDropped (c : Char) : Bool := c == '\t' || c == '\n' || c == '\r'

def parent (segments : List String) : List String := segments.dropLast

/-- A segment after others: it takes the place of a lone empty one. -/
def append (segments : List String) (segment : String) : List String :=
  if segments = [""] then [segment] else segments ++ [segment]

/-- **Adds a segment to the path.**  The names of the directory itself and of the one above are passed over. -/
def push? (url : Url) (segment : String) : Option Url :=
  match url.path with
  | .text _ => none
  | .segments segments =>
    if segment = "." ∨ segment = ".." then some url
    else
      let plain := segment.toList.filter (!isDropped ·)
      let added := match String.ofList plain with
        | "." => append segments ""
        | ".." => append (parent segments) ""
        | _ => append segments (String.ofList (escape (segmentEscapes (isSpecial url.scheme)) plain))
      some { url with path := .segments added }

def pushAll? (url : Url) : List String → Option Url
  | [] => some url
  | segment :: rest => do (← url.push? segment).pushAll? rest

def withPair (url : Url) (name value : String) : Url :=
  let pair := formEncode name ++ "=" ++ formEncode value
  match url.query with
  | none | some "" => { url with query := some pair }
  | some query => { url with query := some (query ++ "&" ++ pair) }

def withPairs (url : Url) (pairs : List (String × String)) : Url :=
  pairs.foldl (fun url (name, value) => url.withPair name value) url

end Url
end Intake
