import Intake.Key
import Intake.Store.Basic
/-!
# Batch — the files of one load job

The files beside a success marker are packed into batches in their order; a batch is closed when the next file would
take it over a limit.  A file that is over the limit by itself is a batch of its own.
-/
namespace Intake

structure BatchLimits where
  maxBytes : Nat
  maxUris : Nat

/-- The files of one load job. -/
structure Batch where
  uris : List String := []
  bytes : Nat := 0
  deriving DecidableEq, Repr

namespace Batch

/-- The sum of sizes, which stays at the largest 64-bit number. -/
def addSize (a b : Nat) : Nat := min (a + b) maxWord64

def push (batch : Batch) (uri : String) (size : Nat) : Batch :=
  ⟨batch.uris ++ [uri], addSize batch.bytes size⟩

/-- Packs files after an open batch. -/
def packFrom (limits : BatchLimits) : (current : Batch) → List (String × Nat) → List Batch
  | current, [] => if current.uris.isEmpty then [] else [current]
  | current, (uri, size) :: rest =>
    -- an empty batch takes any file, even one that is over the limit by itself
    if !current.uris.isEmpty &&
        (limits.maxBytes < addSize current.bytes size || limits.maxUris < current.uris.length + 1) then
      current :: packFrom limits (push {} uri size) rest
    else packFrom limits (current.push uri size) rest

/-- **Files, with their sizes, in batches.** -/
def pack (limits : BatchLimits) (files : List (String × Nat)) : List Batch :=
  packFrom limits {} files

/-- An object under a prefix is data: not empty, no marker, and in none of the engine's folders. -/
def isData (start successName : String) (object : ObjectInfo) : Bool :=
  let rest := (dropStart? start object.key).getD object.key
  object.size != 0 && object.key != start && Key.name object.key != successName &&
    !startsWith (Key.configFolder ++ "/") rest && !startsWith (Key.backlogFolder ++ "/") rest

def ofListing (bucket start successName : String) (limits : BatchLimits) (listing : Listing) : List Batch :=
  pack limits ((listing.objects.filter (isData start successName)).map fun o => (Key.uri bucket o.key, o.size))

end Batch
end Intake
