-- SUMMARY: The time between two probe cycles, as options and environment set it, and its timer.
import ZonePool.KeyMap
import ZonePool.Span
import ZonePool.Text.Blank
import ZonePool.Text.Decimal

/-!
# Check intervals

The time from one probe cycle to the next is at most a day and never zero;
any other setting stands for the default of fifteen seconds. A pool takes its
interval from its options and, where they leave it open, from the environment.
-/

namespace ZonePool

/-- Values of environment variables by name. -/
abbrev Environment := KeyMap String

namespace CheckInterval

/-- The interval that stands in for an unusable one. -/
def fallback : Span := .ofSecs 15

/-- The longest usable interval in seconds: a day. -/
def maxSecs : Nat := 24 * 60 * 60

/-- The variable that holds an interval in whole seconds. -/
def variableName : String := "ADDRPOOL_HEALTH_CHECK_INTERVAL"

/-- The interval itself, or the default when it is zero or longer than a day. -/
def sanitize (interval : Span) : Span :=
  if interval.isZero || interval.exceeds maxSecs then fallback else interval

/-- Read an interval in whole seconds; a text that is no number stands for the default. -/
def parse (value : Option String) : Span :=
  match value.bind fun v => Text.readWord? (Text.trim v) with
  | some secs => sanitize (.ofSecs secs)
  | none => fallback

def ofEnvironment (env : Environment) : Span :=
  parse (env.get? variableName)

/-- The interval of a pool with the given option: a non-zero one counts, else the environment. -/
def resolve (option : Option Span) (env : Environment) : Span :=
  match option with
  | some interval => if interval.isZero then ofEnvironment env else sanitize interval
  | none => ofEnvironment env

end CheckInterval

/-! ## Timers -/

/-- A timer that goes off once each period, which is not zero. -/
structure Timer where
  period : Span
  pos : 0 < period.inNanos

/-- Set a timer; none goes off without a pause in between. -/
def Timer.set? (period : Span) : Option Timer :=
  if h : 0 < period.inNanos then some ⟨period, h⟩ else none

theorem Timer.exists_set? {period : Span} (h : 0 < period.inNanos) :
    ∃ t, set? period = some t ∧ t.period = period :=
  ⟨⟨period, h⟩, dif_pos h, rfl⟩

end ZonePool
