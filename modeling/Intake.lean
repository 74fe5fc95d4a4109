import Intake.Text.Cut
import Intake.Text.Blank
import Intake.Text.Decimal
import Intake.Text.Utf8
import Intake.Text.Quoted
import Intake.Text.Word
import Intake.Text.Fold
import Intake.Json.Merge
import Intake.Json.Reader
import Intake.Json.Printer
import Intake.Layout
import Intake.Timestamp
import Intake.Batch
import Intake.Job.Id
import Intake.Job.Basic
import Intake.Endpoint
import Intake.Producer
import Intake.Remote.Jobs
import Intake.Sandbox.Peer
import Intake.Main
import Intake.Proofs.JobName
import Intake.Proofs.Naming
import Intake.Proofs.LockText
import Intake.Proofs.Reading
import Intake.Proofs.Store
import Intake.Proofs.Query
import Intake.Proofs.Wire
import Intake.Proofs.Uploads
import Intake.Proofs.Keys
import Intake.Proofs.Site
import Intake.Proofs.Lease
import Intake.Proofs.Modest
import Intake.Proofs.Crew
import Intake.Proofs.Exclusion
import Intake.Proofs.Plan
import Intake.Proofs.Marker
import Intake.Proofs.Scene
import Intake.Proofs.Conduct
import Intake.Proofs.Move
import Intake.Proofs.Relay
import Intake.Proofs.Agenda
import Intake.Proofs.Files
import Intake.Proofs.Sources
import Intake.Proofs.Order
import Intake.Proofs.Serving
import Intake.Proofs.Trial
import Intake.Proofs.Pool
import Intake.Proofs.Manual
import Intake.Proofs.Pop
import Intake.Proofs.Frozen
import Intake.Proofs.Stranded
import Intake.Proofs.Redelivery
import Intake.Proofs.Forfeit
import Intake.Proofs.Frame
import Intake.Proofs.Gate
import Intake.Proofs.Handles
import Intake.Proofs.Yielding
import Intake.Proofs.Margin
import Intake.Proofs.Deadline
import Intake.Proofs.Inheritance
import Intake.Proofs.Pointer
import Intake.Proofs.Segments
import Intake.Proofs.Generations
import Intake.Proofs.Listing
import Intake.Proofs.Paging
import Intake.Proofs.Resubmission
import Intake.Proofs.Schedule
import Intake.Proofs.Verdict
import Intake.Proofs.Calendar
import Intake.Proofs.Stamp
