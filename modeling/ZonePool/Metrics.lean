-- SUMMARY: What a pool counts and measures, and the exposition of it.
import ZonePool.Tier
import ZonePool.Verdict
import ZonePool.Text.Decimal

/-!
# Metrics

Probes by their verdict, finished cycles, resyncs by their outcome, the size of
each tier, and how many endpoints the last committed cycle found available. A
counter appears in the exposition once it has counted something, a gauge once it
was set. Durations are not part of the model; of the histogram of cycle
durations only its count is.
-/

namespace ZonePool

/-- How a resync ended. -/
inductive ResyncOutcome where
  | success
  /-- The directory lists no usable endpoint. -/
  | error
  /-- The directory could not be asked. -/
  | fetchError
  deriving DecidableEq, Repr

/-- The sizes of the three tiers. -/
structure TierSizes where
  default : Nat
  sameAz : Nat
  diffAz : Nat
  deriving DecidableEq, Repr

def Tiers.sizes (t : Tiers) : TierSizes :=
  ⟨t.default.length, t.sameAz.length, t.diffAz.length⟩

structure Metrics where
  probesUp : Nat := 0
  probesDown : Nat := 0
  cycles : Nat := 0
  resyncSuccess : Nat := 0
  resyncError : Nat := 0
  resyncFetchError : Nat := 0
  availableEndpoints : Option Nat := none
  tierSizes : Option TierSizes := none
  deriving DecidableEq, Repr

namespace Metrics

/-! ## Recording -/

/-- Count the probes of a finished cycle. -/
def countCycle (m : Metrics) (verdicts : List Verdict) : Metrics :=
  { m with
    probesUp := m.probesUp + verdicts.countP (·.isAvailable)
    probesDown := m.probesDown + verdicts.countP (!·.isAvailable)
    cycles := m.cycles + 1 }

/-- Note how many endpoints a committed cycle found available. -/
def noteAvailable (m : Metrics) (count : Nat) : Metrics :=
  { m with availableEndpoints := some count }

def noteTiers (m : Metrics) (t : Tiers) : Metrics :=
  { m with tierSizes := some t.sizes }

def countResync (m : Metrics) : ResyncOutcome → Metrics
  | .success => { m with resyncSuccess := m.resyncSuccess + 1 }
  | .error => { m with resyncError := m.resyncError + 1 }
  | .fetchError => { m with resyncFetchError := m.resyncFetchError + 1 }

/-- How many endpoints were probed in all cycles. -/
def probes (m : Metrics) : Nat :=
  m.probesUp + m.probesDown

/-! ## Exposition -/

/-- One metric: its name, meaning and kind, and its samples with what follows the name. -/
structure Family where
  name : String
  help : String
  kind : String
  samples : List (String × Nat)
  deriving DecidableEq, Repr

/-- The part of a sample that tells it from others of its metric. -/
def label (key value : String) : String :=
  "\x7b" ++ key ++ "=\"" ++ value ++ "\"\x7d"

/-- A sample that appears once it is not zero. -/
def counted (suffix : String) (n : Nat) : List (String × Nat) :=
  if n = 0 then [] else [(suffix, n)]

def families (m : Metrics) : List Family := [
  { name := "addrpool_probe_total"
    help := "Endpoint probes by result"
    kind := "counter"
    samples :=
      counted (label "result" "available") m.probesUp ++
        counted (label "result" "unavailable") m.probesDown },
  { name := "addrpool_probe_cycle_duration_seconds"
    help := "Time to probe every tracked endpoint once"
    kind := "histogram"
    samples := counted "_count" m.cycles },
  { name := "addrpool_available_endpoints"
    help := "Endpoints marked available by the last committed cycle"
    kind := "gauge"
    samples := (m.availableEndpoints.map fun n => ("", n)).toList },
  { name := "addrpool_tier_endpoints"
    help := "Endpoints per tier"
    kind := "gauge"
    samples :=
      match m.tierSizes with
      | some s => [
          (label "tier" "same_az", s.sameAz),
          (label "tier" "diff_az", s.diffAz),
          (label "tier" "default", s.default)]
      | none => [] },
  { name := "addrpool_resync_total"
    help := "Directory resync attempts by result"
    kind := "counter"
    samples :=
      counted (label "result" "success") m.resyncSuccess ++
        counted (label "result" "error") m.resyncError ++
        counted (label "result" "fetch_error") m.resyncFetchError }]

/-- The lines that show a metric; there are none before its first sample. -/
def Family.lines (f : Family) : List String :=
  if f.samples.isEmpty then []
  else
    ("# HELP " ++ f.name ++ " " ++ f.help) :: ("# TYPE " ++ f.name ++ " " ++ f.kind) ::
      f.samples.map fun s => f.name ++ s.1 ++ " " ++ String.ofList (Text.decimal s.2)

/-- The exposition of all metrics, a line for each sample. -/
def lines (m : Metrics) : List String :=
  m.families.flatMap (·.lines)

/-- The exposition as one text. -/
def render (m : Metrics) : String :=
  String.join (m.lines.map (· ++ "\n"))

end Metrics

end ZonePool
