import Intake.Text.Cut
import Intake.Text.Decimal
/-!
# Job.Id — the names of jobs

A job is named for the success marker it works for: the engine's prefix, the marker's key with everything but letters,
digits, `-` and `_` replaced, and a suffix of 32 hexadecimal digits that is drawn anew for every marker.  A batch that
takes several jobs gives all but the last a tag with their number; room for the tag is kept in the name.
-/
namespace Intake
namespace JobId

/-- The longest name the warehouse takes, in octets. -/
def maxLength : Nat := 1024

/-- The digits of a drawn suffix. -/
def suffixLength : Nat := 32

/-- The room kept for the tag of a part. -/
def tagRoom : Nat := 16

/-- A character of a key, as it stands in a name. -/
def cleanChar (c : Char) : Char :=
  if c.isAlphanum || c == '-' || c == '_' then c else if c == '/' then '-' else '_'

/-- The part of a name that tells the marker, cut to the room that is left. -/
def body (jobPrefix marker : String) : String :=
  String.ofList ((marker.toList.map cleanChar).take
    (maxLength - (jobPrefix.utf8ByteSize + suffixLength + 1 + tagRoom)))

/-- **The name of a marker's job.** -/
def make (jobPrefix marker suffix : String) : String :=
  jobPrefix ++ body jobPrefix marker ++ "-" ++ suffix

/-- A name without the tag of its part, and the number on the tag. -/
def splitPart (id : String) : String × Option Nat :=
  match cutTextLast? "-part" id with
  | none => (id, none)
  | some (base, tag) =>
    if tag.isEmpty || !tag.toList.all (fun c => (digitValue? c).isSome) then (id, none)
    else
      match readWord64 tag with
      | .ok index => (base, some index)
      | .error _ => (id, none)

/-- The number after a part's. -/
def nextIndex (index : Nat) : Nat := index + 1

/-- The name of one of several parts: the last one has the name itself. -/
def ofPart (id : String) (index total : Nat) : String :=
  if nextIndex index = total then id
  else
    -- a name that has no room for the tag loses its end
    let tag := "-part" ++ decimal index
    String.ofList (id.toList.take (maxLength - tag.utf8ByteSize)) ++ tag

def isHexDigit (c : Char) : Bool :=
  ('0' ≤ c && c ≤ '9') || ('a' ≤ c && c ≤ 'f') || ('A' ≤ c && c ≤ 'F')

/-- **The name is one of a marker's jobs.** -/
def isFor (id jobPrefix marker : String) : Bool :=
  match do dropStart? "-" (← dropStart? (body jobPrefix marker) (← dropStart? jobPrefix id)) with
  | none => false
  | some rest =>
    -- only what follows the body is searched for a tag, since a key may look as if it had one
    let suffix := (splitPart rest).1
    suffix.utf8ByteSize == suffixLength && suffix.toList.all isHexDigit

end JobId
end Intake
