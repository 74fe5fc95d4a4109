import Intake.Batch
import Intake.ConfigFiles
import Intake.Job.Id
import Intake.JobWatch
import Intake.TableLock
/-!
# Submission — a success marker becomes jobs

The files beside a marker are either loaded, in one job per batch, or given to one query that a transformation in SQL
asks for.  Where there is a lock it is taken in the name of a job before the job is submitted, and only one job is
submitted at a time; whatever goes wrong is left in the lock.
-/
namespace Intake

structure Applied where
  jobId : String
  kind : JobKind
  parts : Nat
  deriving DecidableEq, Repr

namespace Submission

def limits (settings : Settings) : BatchLimits := ⟨settings.maxBatchBytes, settings.maxBatchUris⟩

/-- **The batches of the data directly under a prefix.** -/
def gather (bucket start successName : String) (limits : BatchLimits) : Invocation (List Batch) := do
  let listing ← Invocation.list start (some "/")
  match Batch.ofListing bucket start successName limits listing with
  | [] => throw (.noInput start)
  | batches => return batches

/-- Submits a job, and waits a while to see whether it fails. -/
def submitAndWatch (ctx : Context) (job : Job) : Invocation Unit := do
  let _ ← Invocation.submit job
  Invocation.count (.jobsSubmitted job.kind.name)
  match ← JobWatch.wait ctx.patience job.id ctx.settings.jobWait ctx.settings.jobPoll with
  | .done status => JobWatch.check ctx.settings.failOnZeroRows status
  | .running | .notFound => return ()

/-- The labels of a load's configuration, and the configuration without them. -/
def takeLabels : Json → Labels × Json
  | .object fields =>
    let labels := match Fields.get? "labels" fields with
      | some (.object labels) => labels
      | _ => []
    (labels, .object (Fields.erase "labels" fields))
  | other => ([], other)

/-- Loads batches from a part on: the first of them only where there is a lock.  Gives the id of the last job. -/
def loadParts (ctx : Context) (jobId : String) (total : Nat) (jobOf : String → Batch → Job) :
    (index : Nat) → (lastId : String) → List Batch → Leased String
  | _, lastId, [] => return lastId
  | index, _, batch :: rest => do
    let id := JobId.ofPart jobId index total
    let locked ← Leased.claimLock id
    submitAndWatch ctx (jobOf id batch)
    -- with a lock, the other parts wait until the job that it names has ended
    if locked then return id else loadParts ctx jobId total jobOf (index + 1) id rest

def dataPrefix (marker : String) : String :=
  let dir := Key.directory marker
  if dir.isEmpty then "" else dir ++ "/"

def submitJobs (ctx : Context) (marker jobId : String) (firstPart : Nat) : Leased Applied := do
  let destination ← (Invocation.ofExcept (ctx.layout.destination marker) : Leased Destination)
  let batches ← gather ctx.bucket (dataPrefix marker) ctx.layout.successName (limits ctx.settings)
  let labels := Labels.ofJob ctx.settings.functionName ctx.bucket destination.batchId
  match ← ConfigFiles.transformSql marker with
  | some sql =>
    let external ← ConfigFiles.externalConfig marker
    let _ ← Leased.claimLock jobId
    submitAndWatch ctx {
      id := jobId
      destination := destination.table
      uris := batches.flatMap (·.uris)
      labels := labels
      work := .query (ConfigFiles.renderSql sql destination.table.dataset destination.table.tableId)
        externalTableName external }
    return ⟨jobId, .query, 1⟩
  | none =>
    let config ← ConfigFiles.loadConfig marker (ConfigFiles.baseLoadConfig labels)
    let (labels, config) := takeLabels config
    let total := batches.length
    if total ≤ firstPart then
      throw (.jobFailed jobId
        ("batch set changed: no part " ++ decimal firstPart ++ " among " ++ decimal total))
    let jobOf (id : String) (batch : Batch) : Job := ⟨id, destination.table, batch.uris, labels, .load config⟩
    let lastId ← loadParts ctx jobId total jobOf firstPart jobId (batches.drop firstPart)
    return ⟨lastId, .load, total⟩

/-- **Submits the jobs of a marker**, from a part on, and leaves a failure in the lock. -/
def apply (ctx : Context) (marker jobId : String) (firstPart : Nat) : Leased Applied :=
  Leased.recording (submitJobs ctx marker jobId firstPart)

end Submission
end Intake
