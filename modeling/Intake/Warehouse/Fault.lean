/-!
# Warehouse.Fault — why a call to the warehouse failed

Either the warehouse refused the call, or its answer could not be read.
-/
namespace Intake

inductive WarehouseFault where
  | api (message : String) (transient : Bool)
  | response (message : String)
  deriving DecidableEq, Repr

namespace WarehouseFault

def message : WarehouseFault → String
  | .api m _ => "warehouse API error: " ++ m
  | .response m => "warehouse response error: " ++ m

def isTransient : WarehouseFault → Bool
  | .api _ transient => transient
  | .response _ => false

end WarehouseFault
end Intake
