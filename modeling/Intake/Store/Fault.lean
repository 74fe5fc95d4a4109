/-!
# Store.Fault — why a call to the object store failed

A fault is transient when the same call may succeed if it is made again.
-/
namespace Intake

inductive StoreFault where
  | notFound (what : String)
  | invalidInput (message : String)
  | preconditionFailed (message : String)
  | storage (message : String) (transient : Bool)
  | serialization (message : String)
  | internal (message : String)
  deriving DecidableEq, Repr

namespace StoreFault

def objectNotFound (key : String) : StoreFault := .notFound ("object not found: " ++ key)

def message : StoreFault → String
  | .notFound what => "not found: " ++ what
  | .invalidInput m => "invalid input: " ++ m
  | .preconditionFailed m => "precondition failed: " ++ m
  | .storage m _ => "storage error: " ++ m
  | .serialization m => "serialization error: " ++ m
  | .internal m => "internal error: " ++ m

/-- The same call may succeed later. -/
def isTransient : StoreFault → Bool
  | .storage _ transient => transient
  | _ => false

def isNotFound : StoreFault → Bool
  | .notFound _ => true
  | _ => false

end StoreFault

/-- HTTP statuses after which a request may succeed when it is made again. -/
def isTransientStatus (status : Nat) : Bool :=
  status == 408 || status == 429 || (500 ≤ status && status ≤ 599)

end Intake
