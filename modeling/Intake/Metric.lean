/-!
# Metric — what the engine counts
-/
namespace Intake

/-- Something that is counted, under a label. -/
inductive Metric where
  | notifications (trigger : String)
  | jobsSubmitted (kind : String)
  | jobFailures (reason : String)
  | duplicates
  | backlogOperations (operation : String)
  | subscriberOutcomes (outcome : String)
  | monitorReposts (reason : String)
  | errors (kind : String)
  deriving DecidableEq, Repr

namespace Metric

def name : Metric → String
  | .notifications _ => "landfall_notifications_total"
  | .jobsSubmitted _ => "landfall_jobs_submitted_total"
  | .jobFailures _ => "landfall_job_failures_total"
  | .duplicates => "landfall_duplicates_total"
  | .backlogOperations _ => "landfall_backlog_operations_total"
  | .subscriberOutcomes _ => "landfall_subscriber_outcomes_total"
  | .monitorReposts _ => "landfall_monitor_reposts_total"
  | .errors _ => "landfall_errors_total"

def help : Metric → String
  | .notifications _ => "Notifications received, by classification"
  | .jobsSubmitted _ => "Warehouse jobs submitted"
  | .jobFailures _ => "Warehouse jobs that failed"
  | .duplicates => "Duplicate notifications suppressed"
  | .backlogOperations _ => "Backlog pushes and pops"
  | .subscriberOutcomes _ => "Subscriber exits, by outcome"
  | .monitorReposts _ => "Backfill markers re-posted by the monitor"
  | .errors _ => "Invocations that ended in an error"

/-- The label that tells counts of one name apart. -/
def label? : Metric → Option (String × String)
  | .notifications v => some ("trigger", v)
  | .jobsSubmitted v => some ("kind", v)
  | .jobFailures v => some ("reason", v)
  | .duplicates => none
  | .backlogOperations v => some ("operation", v)
  | .subscriberOutcomes v => some ("outcome", v)
  | .monitorReposts v => some ("reason", v)
  | .errors v => some ("kind", v)

end Metric

abbrev Tally := List (Metric × Nat)

namespace Tally

def add (m : Metric) : Tally → Tally
  | [] => [(m, 1)]
  | (n, count) :: rest => if m = n then (n, count + 1) :: rest else (n, count) :: add m rest

def line (entry : Metric × Nat) : String :=
  let labels := match entry.1.label? with
    | some (label, value) => "\x7b" ++ label ++ "=\"" ++ value ++ "\"\x7d"
    | none => ""
  entry.1.name ++ labels ++ " " ++ toString entry.2

/-- **The published text of the counts**, line by line: what each name counts, its type, and the counts. -/
def lines (tally : Tally) : List String :=
  (tally.map (·.1.name)).eraseDups.flatMap fun name =>
    let entries := tally.filter (·.1.name == name)
    (entries.head?.map fun e => ["# HELP " ++ name ++ " " ++ e.1.help, "# TYPE " ++ name ++ " counter"]).getD [] ++
      entries.map line

end Tally
end Intake
