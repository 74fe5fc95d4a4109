import Intake.Layout
/-!
# Context — what every invocation is given
-/
namespace Intake

/-- What every invocation is given: the operator's choices, the meaning of keys, and the bucket.  `patience` is the
number of rounds after which its host cuts a waiting loop off. -/
structure Context where
  settings : Settings
  layout : Layout
  bucket : String
  patience : Nat

def Context.ofSettings (settings : Settings) (bucket : String) (patience : Nat) : Except Failure Context :=
  return ⟨settings, ← Layout.ofSettings settings, bucket, patience⟩

end Intake
