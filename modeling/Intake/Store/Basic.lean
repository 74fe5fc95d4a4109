import Intake.Fields
import Intake.Store.Fault
import Intake.Text.Cut
import Intake.Text.Utf8
import Intake.Timestamp
/-!
# Store — objects under keys, with generations

Every write gives its object a generation that no object had before.  A write or a deletion can be made to depend on
what is there: on the absence of the object, or on its generation.  Listing goes by the order of the keys; with a
delimiter the keys that go on beyond it are listed as one folder.
-/
namespace Intake

/-- What has to be there for a write or a deletion to take place. -/
inductive Precondition where
  | absent
  | version (v : String)
  | always
  deriving DecidableEq, Repr

/-- The precondition that nothing has changed since a version, or its absence, was observed. -/
def Precondition.unchanged : Option String → Precondition
  | none => .absent
  | some v => .version v

inductive PutResult where
  | written (version : String)
  | conflict (current : String)
  deriving DecidableEq, Repr

inductive DeleteResult where
  | deleted
  | notFound
  | conflict (current : String)
  deriving DecidableEq, Repr

/-- What is known of an object besides its body. -/
structure ObjectInfo where
  key : String
  size : Nat
  version : String
  created : Timestamp
  updated : Timestamp
  deriving DecidableEq, Repr

/-- The objects of a listing, and the folders that stand for the others. -/
structure Listing where
  objects : List ObjectInfo
  folders : List String
  deriving DecidableEq, Repr

structure StoredObject where
  body : Octets
  generation : Nat
  created : Timestamp
  deriving DecidableEq, Repr

def StoredObject.info (object : StoredObject) (key : String) : ObjectInfo :=
  ⟨key, object.body.length, decimal object.generation, object.created, object.created⟩

/-- A store of objects: in the order of their keys, each of a generation that was given out before. -/
structure Store where
  objects : List (String × StoredObject) := []
  nextGeneration : Nat := 1
  sorted : Fields.Sorted objects := by exact List.Pairwise.nil
  fresh : ∀ entry ∈ objects, entry.2.generation < nextGeneration := by simp

namespace Store

def empty : Store := {}

def get? (store : Store) (key : String) : Option StoredObject :=
  Fields.get? key store.objects

def keys (store : Store) : List String :=
  store.objects.map (·.1)

def head? (store : Store) (key : String) : Option ObjectInfo :=
  (store.get? key).map (·.info key)

/-- The generation of an object is the one that a version names. -/
def isVersion (generation : Nat) (version : String) : Bool :=
  readSigned64? version == some (generation : Int)

/-- The version in the way of a write; none if it may take place. -/
def refuses? (precondition : Precondition) (current : Option StoredObject) : Option String :=
  match precondition, current with
  | .always, _ => none
  | .absent, none => none
  | .absent, some object => some (decimal object.generation)
  | .version _, none => some "0"
  | .version v, some object => if isVersion object.generation v then none else some (decimal object.generation)

def write (store : Store) (key : String) (body : Octets) (now : Timestamp) : Store where
  objects := Fields.insert key ⟨body, store.nextGeneration, now⟩ store.objects
  nextGeneration := store.nextGeneration + 1
  sorted := Fields.sorted_insert _ _ store.sorted
  fresh := fun _ h =>
    (Fields.mem_insert h).elim (fun e => e ▸ Nat.lt_succ_self _) fun h => Nat.lt_succ_of_lt (store.fresh _ h)

def remove (store : Store) (key : String) : Store where
  objects := Fields.erase key store.objects
  nextGeneration := store.nextGeneration
  sorted := Fields.sorted_erase _ store.sorted
  fresh := fun _ h => store.fresh _ (Fields.mem_erase h)

/-- **Writes an object, if the precondition holds.** -/
def put (store : Store) (key : String) (body : Octets) (precondition : Precondition) (now : Timestamp) :
    PutResult × Store :=
  match refuses? precondition (store.get? key) with
  | some current => (.conflict current, store)
  | none => (.written (decimal store.nextGeneration), store.write key body now)

/-- **Deletes an object, if it is there and the precondition holds.** -/
def delete (store : Store) (key : String) (precondition : Precondition) : DeleteResult × Store :=
  match store.get? key with
  | none => (.notFound, store)
  | some object =>
    match refuses? precondition (some object) with
    | some current => (.conflict current, store)
    | none => (.deleted, store.remove key)

/-- The folder that a key under a prefix is listed as: up to and with the first delimiter after the prefix. -/
def folder? (start : String) (delimiter : Option String) (rest : String) : Option String := do
  let delimiter ← delimiter.filter fun d => !d.isEmpty
  let (before, _) ← cutText? delimiter rest
  return start ++ before ++ delimiter

/-- The first of some objects, as long as their keys start with a text, and what follows it. -/
def leading (start : String) : List (String × StoredObject) → List (String × String × StoredObject)
  | [] => []
  | (key, object) :: more =>
    match dropStart? start key with
    | none => []
    | some rest => (key, rest, object) :: leading start more

/-- The objects whose keys start with a text, and what follows it.  In the order of the keys they stand together, from
the place of the text itself on, so that the others are not looked at. -/
def under (store : Store) (start : String) : List (String × String × StoredObject) :=
  leading start (store.objects.dropWhile (·.1 < start))

/-- **The objects whose keys start with a text**, those beyond a delimiter as folders. -/
def list (store : Store) (start : String) (delimiter : Option String) : Listing where
  objects := (store.under start).filterMap fun (key, rest, object) =>
    if (folder? start delimiter rest).isSome then none else some (object.info key)
  folders := (Fields.ofList ((store.under start).filterMap fun (_, rest, _) =>
    (folder? start delimiter rest).map fun folder => (folder, ()))).map (·.1)

def backdate? (store : Store) (key : String) (age : Int) : Option Store :=
  match h : store.get? key with
  | none => none
  | some object => some {
      -- the object keeps its generation
      objects := Fields.insert key { object with created := object.created.shift (-age) } store.objects
      nextGeneration := store.nextGeneration
      sorted := Fields.sorted_insert _ _ store.sorted
      fresh := fun _ h' => (Fields.mem_insert h').elim
        (fun e => e ▸ store.fresh (key, object) (Fields.mem_of_get? h)) (store.fresh _) }

end Store
end Intake
