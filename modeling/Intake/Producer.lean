import Intake.Json.Printer
import Intake.Key
import Intake.Sandbox.World
/-!
# Producer — what the systems that deliver data write

Data files with a success marker after them, and configuration files.
-/
namespace Intake
namespace Producer

def configKey (dir name : String) : String := Key.join (Key.join dir Key.configFolder) name

def markerKey (dir : String) : String := dir ++ "/_SUCCESS"

def data (key body : String) : WorldStep := .produce [(key, Utf8.encode body)] none

def success (dir : String) : WorldStep := .produce [(markerKey dir, [])] (some (markerKey dir))

/-- Data files and their success marker. -/
def batch (dir : String) (files : Nat) : WorldStep :=
  .produce ((List.range files).map (fun i =>
    (dir ++ "/part-" ++ paddedDecimal 5 i ++ ".csv", Utf8.encode "id,value\n1,a\n")) ++ [(markerKey dir, [])])
    (some (markerKey dir))

def jsonConfig (dir name : String) (value : Json) : WorldStep :=
  .produce [(configKey dir name, Utf8.encode value.render)] none

def sql (dir name text : String) : WorldStep := .produce [(configKey dir name, Utf8.encode text)] none

def order (dir : String) : WorldStep := .produce [(configKey dir Key.orderName, [])] none

end Producer
end Intake
