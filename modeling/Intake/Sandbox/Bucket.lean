import Intake.Store.Basic
/-!
# Sandbox.Bucket — a bucket under observation

Every call is written down, keys can be made to fail, and the keys of all writes are queued, as the notifications of a
bucket are.
-/
namespace Intake

inductive StoreCall where
  | get (key : String)
  | head (key : String)
  | put (key : String) (precondition : Precondition) (written : Bool)
  | delete (key : String) (precondition : Precondition)
  | list (start : String)
  deriving DecidableEq, Repr

/-- A bucket under observation. -/
structure Bucket where
  store : Store := .empty
  /-- Calls on keys that start with one of these fail. -/
  failing : List String := []
  calls : List StoreCall := []
  /-- The keys of writes whose notifications are not yet delivered. -/
  finalized : List String := []

namespace Bucket

def fault? (b : Bucket) (key : String) : Option StoreFault :=
  if b.failing.any (startsWith · key) then some (.storage ("injected failure for path: " ++ key) false) else none

def noted (b : Bucket) (call : StoreCall) : Bucket := { b with calls := b.calls ++ [call] }

def get (b : Bucket) (key : String) : Except StoreFault Octets × Bucket :=
  match b.fault? key with
  | some fault => (.error fault, b)
  | none =>
    match b.store.get? key with
    | some object => (.ok object.body, b.noted (.get key))
    | none => (.error (.objectNotFound key), b.noted (.get key))

def head (b : Bucket) (key : String) : Except StoreFault (Option ObjectInfo) × Bucket :=
  match b.fault? key with
  | some fault => (.error fault, b)
  | none => (.ok (b.store.head? key), b.noted (.head key))

/-- The bucket after a write of the store. -/
def wrote (b : Bucket) (key : String) (precondition : Precondition) (result : PutResult) (store : Store) : Bucket :=
  match result with
  | .written _ =>
    { b.noted (.put key precondition true) with store := store, finalized := b.finalized ++ [key] }
  | .conflict _ => b.noted (.put key precondition false)

def put (b : Bucket) (key : String) (body : Octets) (precondition : Precondition) (now : Timestamp) :
    Except StoreFault PutResult × Bucket :=
  match b.fault? key with
  | some fault => (.error fault, b)
  | none =>
    let (result, store) := b.store.put key body precondition now
    (.ok result, b.wrote key precondition result store)

def delete (b : Bucket) (key : String) (precondition : Precondition) : Except StoreFault DeleteResult × Bucket :=
  match b.fault? key with
  | some fault => (.error fault, b)
  | none =>
    let (result, store) := b.store.delete key precondition
    (.ok result, { b.noted (.delete key precondition) with store := store })

def list (b : Bucket) (start : String) (delimiter : Option String) : Except StoreFault Listing × Bucket :=
  match b.fault? start with
  | some fault => (.error fault, b)
  | none => (.ok (b.store.list start delimiter), b.noted (.list start))

end Bucket
end Intake
