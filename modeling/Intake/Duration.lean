/-!
# Duration — spans of time

A span of time is a whole number of nanoseconds.
-/
namespace Intake

/-- A span of time, in nanoseconds. -/
abbrev Duration := Nat

namespace Duration

def ofMillis (n : Nat) : Duration := n * 1000000

def ofSeconds (n : Nat) : Duration := n * 1000000000

def seconds (d : Duration) : Nat := d / 1000000000

def millis (d : Duration) : Nat := d / 1000000

/-- The full milliseconds of a span after its full seconds. -/
def subsecMillis (d : Duration) : Nat := d % 1000000000 / 1000000

end Duration
end Intake
