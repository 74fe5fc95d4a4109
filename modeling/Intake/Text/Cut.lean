/-!
# Cut — where one text stands inside another

Texts are taken apart as lists of characters.  `cut?` splits at the first place a separator stands, `cutLast?` at the
last, `replaceAll` puts another text wherever a text stands, reading from the left and never looking into what it has
put.  Each walks the text once, so each is defined by recursion on the text alone.
-/
namespace Intake
namespace Text

/-- The text before and the text after the first place where `sep` stands. -/
def cut? (sep : List Char) : List Char → Option (List Char × List Char)
  | [] => if sep.isEmpty then some ([], []) else none
  | c :: rest =>
    match sep.isPrefixOf? (c :: rest) with
    | some after => some ([], after)
    | none => (cut? sep rest).map fun (before, after) => (c :: before, after)

/-- The text before and the text after the last place where `sep` stands. -/
def cutLast? (sep : List Char) : List Char → Option (List Char × List Char)
  | [] => if sep.isEmpty then some ([], []) else none
  | c :: rest =>
    match cutLast? sep rest with
    | some (before, after) => some (c :: before, after)
    | none => (sep.isPrefixOf? (c :: rest)).map fun after => ([], after)

/-- `replaceAll` with `skip` characters of the text already accounted for by the last replacement. -/
def replaceFrom (old new : List Char) : Nat → List Char → List Char
  | _, [] => []
  | skip + 1, _ :: rest => replaceFrom old new skip rest
  | 0, c :: rest =>
    if old.isPrefixOf (c :: rest) then new ++ replaceFrom old new (old.length - 1) rest
    else c :: replaceFrom old new 0 rest

/-- **Every place where `old` stands, taken from the left, holds `new` instead.**  `old` is not empty. -/
def replaceAll (old new : List Char) (s : List Char) : List Char :=
  replaceFrom old new 0 s

end Text

def cutText? (sep s : String) : Option (String × String) :=
  (Text.cut? sep.toList s.toList).map fun (before, after) => (String.ofList before, String.ofList after)

def cutTextLast? (sep s : String) : Option (String × String) :=
  (Text.cutLast? sep.toList s.toList).map fun (before, after) => (String.ofList before, String.ofList after)

def dropStart? (start s : String) : Option String :=
  (start.toList.isPrefixOf? s.toList).map String.ofList

def startsWith (start s : String) : Bool :=
  start.toList.isPrefixOf s.toList

/-- `sep` stands somewhere in `s`. -/
def holdsText (sep s : String) : Bool :=
  (Text.cut? sep.toList s.toList).isSome

def replaceText (old new s : String) : String :=
  String.ofList (Text.replaceAll old.toList new.toList s.toList)

end Intake
