import Intake.Sandbox.World
/-!
# Sandbox.Provider — several buckets in one world

The buckets share the clock and the warehouse of the world.  A bucket is there, empty, as soon as it is asked for.
-/
namespace Intake

/-- Buckets by their names, in one world. -/
structure Provider where
  world : World := { bucketName := "" }
  buckets : List (String × Bucket) := []

namespace Provider

variable {α : Type}

def worldOf (p : Provider) (name : String) : World :=
  { p.world with bucketName := name, bucket := (Fields.get? name p.buckets).getD {} }

def after (p : Provider) (name : String) (world : World) : Provider :=
  ⟨world, Fields.insert name world.bucket p.buckets⟩

def perform (p : Provider) (name : String) (step : WorldStep) : WorldReply × Provider :=
  let (reply, world) := (p.worldOf name).perform step
  (reply, p.after name world)

/-- **Runs a computation of the engine on a bucket.** -/
def run (p : Provider) (name : String) (program : CloudProgram α) : Option α × Provider :=
  let (result, world) := (p.worldOf name).run program
  (result, p.after name world)

end Provider
end Intake
