import Intake.Cloud
import Intake.Key
import Intake.Text.Blank
/-!
# TableLock — one writer per table

The lock of a table holds the id of the job that is under way.  A handle remembers the version of the lock it has seen
last, or that it saw none, and writes or deletes the lock only if it is still so; if not, somebody else has taken it.  A
text that does not start like one of the engine's job ids is a lock set by hand, which the engine leaves alone.
-/
namespace Intake

inductive LockBody where
  | job (id : String)
  | manual (text : String)
  deriving DecidableEq, Repr

-- what a body is read as matters to the proofs, not how its octets are taken apart
/-- What the body of a lock says; nothing, if it is blank. -/
@[irreducible]
def LockBody.ofOctets? (jobPrefix : String) (body : Octets) : Option LockBody :=
  let text := trim (Utf8.decodeLossy body)
  if text.isEmpty then none
  else if startsWith jobPrefix text then some (.job text)
  else some (.manual text)

structure TableLock where
  key : String
  jobPrefix : String
  /-- The version that was seen last; none, if the lock was not there. -/
  version : Option String
  deriving DecidableEq, Repr

namespace TableLock

def ofTable (tablePrefix jobPrefix : String) : TableLock :=
  ⟨Key.join tablePrefix Key.lockName, jobPrefix, none⟩

def conflict (lock : TableLock) (current : String) : Failure :=
  .lockConflict lock.key ("expected generation " ++ lock.version.getD "0" ++ ", found " ++ current)

/-- **Reads the lock.**  The version is asked for before the body, so that a change in between is noticed by the next
write. -/
def read (lock : TableLock) : CloudProgram (Except Failure (Option LockBody) × TableLock) := do
  match ← CloudProgram.ask (.head lock.key) with
  | .error fault => return (.error (.store fault), lock)
  | .ok none => return (.ok none, { lock with version := none })
  | .ok (some seen) =>
    match ← CloudProgram.ask (.get lock.key) with
    | .ok body => return (.ok (LockBody.ofOctets? lock.jobPrefix body), { lock with version := some seen.version })
    | .error fault =>
      -- it was given up between the two calls
      if fault.isNotFound then return (.ok none, { lock with version := none })
      else return (.error (.store fault), lock)

/-- Writes a text, if the lock is as it was seen. -/
def write (lock : TableLock) (text : String) : CloudProgram (Except Failure Unit × TableLock) := do
  match ← CloudProgram.ask (.put lock.key (Utf8.encode text) (.unchanged lock.version)) with
  | .error fault => return (.error (.store fault), lock)
  | .ok (.written version) => return (.ok (), { lock with version := some version })
  | .ok (.conflict current) => return (.error (lock.conflict current), lock)

/-- **Takes the lock for a job.** -/
def claim (lock : TableLock) (jobId : String) : CloudProgram (Except Failure Unit × TableLock) :=
  lock.write jobId

/-- The text that records a failure; it never looks like a job id. -/
def errorText (lock : TableLock) (message : String) : String :=
  if startsWith lock.jobPrefix message then "ERROR: " ++ message else message

/-- **Leaves a failure in the lock**, which stops the table until somebody removes it. -/
def recordError (lock : TableLock) (message : String) : CloudProgram (Except Failure Unit × TableLock) :=
  lock.write (lock.errorText message)

/-- **Gives the lock up**, if it was seen. -/
def release (lock : TableLock) : CloudProgram (Except Failure Unit × TableLock) :=
  match lock.version with
  | none => return (.ok (), lock)
  | some version => do
    match ← CloudProgram.ask (.delete lock.key (.version version)) with
    | .error fault => return (.error (.store fault), lock)
    | .ok (.conflict current) => return (.error (lock.conflict current), lock)
    | .ok _ => return (.ok (), { lock with version := none })

end TableLock

/-- An invocation that may have a handle on a lock, which it keeps when it fails. -/
abbrev Leased := ExceptT Failure (StateT (Option TableLock) CloudProgram)

namespace Leased

variable {α : Type}

def lift (p : Invocation α) : Leased α :=
  ExceptT.mk fun lock => do
    let result ← p.run
    return (result, lock)

instance : MonadLift Invocation Leased := ⟨lift⟩

/-- What is done with the lock, if there is a handle on it. -/
def withLock (p : TableLock → CloudProgram (Except Failure α × TableLock)) : Leased (Option α) :=
  ExceptT.mk fun
    | none => return (.ok none, none)
    | some lock => do
      let (result, lock) ← p lock
      return (result.map some, some lock)

def readLock : Leased (Option LockBody) := return (← withLock TableLock.read).bind id

/-- Takes the lock for a job; tells whether there is a handle on one. -/
def claimLock (jobId : String) : Leased Bool := return (← withLock (·.claim jobId)).isSome

def releaseLock : Leased Unit := do
  let _ ← withLock TableLock.release

/-- Leaves a failure in the lock.  If that fails too, nothing more is done about it. -/
def recordError (failure : Failure) : Leased Unit := do
  let _ ← ExceptT.mk do
    let result ← (withLock (·.recordError failure.message)).run
    return (.ok result : Except Failure (Except Failure (Option Unit)))

def recording (p : Leased α) : Leased α :=
  tryCatch p fun failure => do
    recordError failure
    throw failure

end Leased
end Intake
