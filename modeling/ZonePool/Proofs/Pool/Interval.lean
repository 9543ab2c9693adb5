-- SUMMARY: The check interval of a pool, from its settings to its timer.
import ZonePool.Config.Load
import ZonePool.Proofs.Pool.Reachable
import ZonePool.Proofs.Text.Utf8

/-!
# The check interval

Two readers look at the environment: the loader of settings, which overrides
what the file says, and the pool, when its options leave the interval open. A
zero means open to both of them, and a number out of range means the default to
whoever meets it. Since the default is also what an empty environment stands
for, all of it together is one law: the number in the environment if there is
one, else the number in the file, checked once.
-/

namespace ZonePool

/-! ## Usable intervals -/

namespace CheckInterval

/-- The length is neither zero nor longer than a day. -/
def Usable (s : Span) : Prop :=
  0 < s.inNanos ∧ s.inNanos ≤ 86400 * Span.nanosPerSec

instance (s : Span) : Decidable (Usable s) :=
  inferInstanceAs (Decidable (_ ∧ _))

theorem usable_fallback : Usable fallback := by decide

theorem sanitize_ofParts (secs nanos : Nat) :
    sanitize (.ofParts secs nanos) =
      if Usable (.ofParts secs nanos) then .ofParts secs nanos else .ofSecs 15 := by
  have hday : maxSecs = 86400 := rfl
  have hunusable : (Span.ofParts secs nanos).isZero || (Span.ofParts secs nanos).exceeds maxSecs ↔
      ¬Usable (.ofParts secs nanos) := by
    rw [Bool.or_eq_true, Span.isZero_iff, Span.exceeds_iff (Span.nanos_ofParts_lt _ _), hday, Usable]
    omega
  rw [sanitize, if_congr hunusable rfl rfl, ite_not]
  rfl

theorem usable_sanitize {s : Span} (h : s.nanos < Span.nanosPerSec) : Usable (sanitize s) := by
  rw [sanitize]
  split
  · exact usable_fallback
  · next hin =>
    rw [Bool.or_eq_true, Span.isZero_iff, Span.exceeds_iff h, not_or, Nat.not_lt] at hin
    exact ⟨Nat.pos_of_ne_zero hin.1, hin.2⟩

theorem sanitize_sanitize (s : Span) : sanitize (sanitize s) = sanitize s := by
  by_cases h : s.isZero || s.exceeds maxSecs
  · rw [sanitize, sanitize, if_pos h]
    rfl
  · rw [show sanitize s = s from if_neg h, sanitize, if_neg h]

/-! ## Whole seconds -/

/-- So many seconds, from one to a day of them; any other number stands for fifteen. -/
def ofWhole (secs : Nat) : Span :=
  if 1 ≤ secs ∧ secs ≤ 86400 then .ofSecs secs else .ofSecs 15

theorem sanitize_ofSecs (secs : Nat) : sanitize (.ofSecs secs) = ofWhole secs := by
  have hwhole : Usable (.ofParts secs 0) ↔ 1 ≤ secs ∧ secs ≤ 86400 := by
    rw [Usable, Span.inNanos_ofParts, Span.nanosPerSec]
    omega
  rw [show Span.ofSecs secs = .ofParts secs 0 by simp [Span.ofSecs, Span.ofParts],
    sanitize_ofParts, if_congr hwhole rfl rfl, ofWhole]
  simp [Span.ofSecs, Span.ofParts]

theorem sanitize_ofWhole (secs : Nat) : sanitize (ofWhole secs) = ofWhole secs := by
  rw [← sanitize_ofSecs, sanitize_sanitize]

theorem usable_ofWhole (secs : Nat) : Usable (ofWhole secs) := by
  rw [← sanitize_ofSecs]
  exact usable_sanitize (by decide : 0 < Span.nanosPerSec)

@[simp] theorem ofWhole_zero : ofWhole 0 = .ofSecs 15 := rfl

theorem secs_ofWhole_pos (secs : Nat) : 0 < (ofWhole secs).secs := by
  rw [ofWhole]
  split
  · next h => exact h.1
  · decide

theorem parse_eq (value : Option String) :
    parse value =
      ((value.bind fun v => Text.readWord? (Text.trim v)).map ofWhole).getD (.ofSecs 15) := by
  rw [parse]
  cases value.bind fun v => Text.readWord? (Text.trim v) with
  | none => rfl
  | some secs => exact sanitize_ofSecs secs

/-- The number in the environment: a word in decimal, maybe with blanks around it. -/
def ofEnvironment? (env : Environment) : Option Nat :=
  (env.get? variableName).bind fun v => Text.readWord? (Text.trim v)

theorem ofEnvironment_eq (env : Environment) :
    ofEnvironment env = ((ofEnvironment? env).map ofWhole).getD (.ofSecs 15) :=
  parse_eq _

theorem sanitize_ofEnvironment (env : Environment) :
    sanitize (ofEnvironment env) = ofEnvironment env := by
  rw [ofEnvironment_eq]
  cases ofEnvironment? env with
  | none => rfl
  | some secs => exact sanitize_ofWhole secs

/-! ## Options -/

theorem resolve_of_set {s : Span} (h : 0 < s.inNanos) (env : Environment) :
    resolve (some s) env = sanitize s := by
  have hzero : ¬s.isZero = true := by
    rw [Span.isZero_iff]
    omega
  simp only [resolve, if_neg hzero]

theorem resolve_of_open {option : Option Span} (h : ∀ s ∈ option, s.inNanos = 0)
    (env : Environment) : resolve option env = ofEnvironment env := by
  cases option with
  | none => rfl
  | some s => simp only [resolve, if_pos (Span.isZero_iff.2 (h s rfl))]

/-- What a pool takes for its interval is not checked in vain: the second check finds nothing. -/
theorem sanitize_resolve (option : Option Span) (env : Environment) :
    sanitize (resolve option env) = resolve option env := by
  cases option with
  | none => exact sanitize_ofEnvironment env
  | some s =>
    rw [resolve]
    split
    · exact sanitize_ofEnvironment env
    · exact sanitize_sanitize s

end CheckInterval

/-! ## The interval of a pool -/

namespace Pool

open CheckInterval

theorem interval_act (p : Pool) (a : Action) : (p.act a).checkInterval = p.checkInterval := by
  obtain ⟨metrics, h⟩ := follows_act p a
  rw [checkInterval, h]
  rfl

theorem interval_run (p : Pool) (actions : List Action) :
    (p.run actions).checkInterval = p.checkInterval := by
  induction actions generalizing p with
  | nil => rfl
  | cons a actions ih => rw [run_cons, ih, interval_act]

theorem interval_create (addresses : List String) (options : PoolOptions) (env : Environment) :
    (create addresses options env).checkInterval = resolve options.checkInterval env :=
  sanitize_resolve _ _

theorem interval_launch (addresses : List String) (options : PoolOptions) (env : Environment)
    (n : Network) :
    (launch addresses options env n).1.checkInterval = resolve options.checkInterval env := by
  obtain ⟨actions, h⟩ := reaches_start (create addresses options env) n
  have hlaunch : (launch addresses options env n).1 = (create addresses options env).run actions :=
    h.symm
  rw [hlaunch, interval_run, interval_create]

/-- An interval that is set counts, unless it is too long. -/
theorem interval_of_set {options : PoolOptions} {secs nanos : Nat}
    (hset : options.checkInterval = some (.ofParts secs nanos))
    (hpos : 0 < secs * Span.nanosPerSec + nanos) (addresses : List String) (env : Environment)
    (n : Network) :
    (launch addresses options env n).1.checkInterval =
      if secs * Span.nanosPerSec + nanos ≤ 86400 * Span.nanosPerSec then .ofParts secs nanos
      else .ofSecs 15 := by
  have hlength : (Span.ofParts secs nanos).inNanos = secs * Span.nanosPerSec + nanos :=
    Span.inNanos_ofParts secs nanos
  rw [interval_launch, hset, resolve_of_set (hlength ▸ hpos), sanitize_ofParts]
  simp only [Usable, hlength, hpos, true_and]

end Pool

/-! ## The interval in settings -/

namespace Config

open CheckInterval

theorem healthCheckSecs_override (env : Environment) (c : Config) :
    (c.override env).healthCheckSecs = (ofEnvironment? env).getD c.healthCheckSecs := by
  have haddresses : (overrideAddresses env c).healthCheckSecs = c.healthCheckSecs := by
    rw [overrideAddresses]
    split <;> rfl
  have hdirectory : ∀ c, (overrideDirectory env c).healthCheckSecs = c.healthCheckSecs := by
    intro c
    rw [overrideDirectory]
    split
    · split <;> rfl
    · rfl
  have hadmin : ∀ c, (overrideAdmin env c).healthCheckSecs = c.healthCheckSecs := by
    intro c
    rw [overrideAdmin]
    split <;> rfl
  rw [override, hadmin, hdirectory, overrideInterval, ← ofEnvironment?]
  cases ofEnvironment? env with
  | none => exact haddresses
  | some secs => rfl

/-- Loading settings reads them, overrides them and finds no fault. -/
theorem of_load {file : ConfigFile} {env : Environment} {c : Config} (h : load file env = .ok c) :
    ∃ base, ofFile file = .ok base ∧ c = base.override env ∧ c.fault? = none := by
  unfold load at h
  split at h
  · cases h
  · next base hbase =>
    dsimp only at h
    split at h
    · cases h
    · next hfault =>
      obtain rfl := Except.ok.inj h
      exact ⟨base, hbase, rfl, hfault⟩

/-- The options of the pool leave a zero open and set anything else. -/
theorem resolve_poolOptions (c : Config) (env : Environment) :
    resolve c.poolOptions.checkInterval env =
      if c.healthCheckSecs = 0 then ofEnvironment env else ofWhole c.healthCheckSecs := by
  rw [poolOptions]
  split
  · rfl
  · next hset =>
    have hpos : 0 < (Span.ofSecs c.healthCheckSecs).inNanos := by
      rw [Span.inNanos_ofSecs, Span.nanosPerSec]
      omega
    rw [resolve_of_set hpos, sanitize_ofSecs]

/-- Both readers of the environment agree. -/
theorem interval_of_load {file : ConfigFile} {env : Environment} {c : Config}
    (h : load file env = .ok c) :
    ∃ base, ofFile file = .ok base ∧ ∀ n,
      (Pool.launch c.addresses c.poolOptions env n).1.checkInterval =
        ofWhole ((ofEnvironment? env).getD base.healthCheckSecs) := by
  obtain ⟨base, hbase, rfl, -⟩ := of_load h
  refine ⟨base, hbase, fun n => ?_⟩
  rw [Pool.interval_launch, resolve_poolOptions, healthCheckSecs_override, ofEnvironment_eq]
  cases ofEnvironment? env with
  | none =>
    simp only [Option.map_none, Option.getD_none]
    split
    · next hzero => rw [hzero, ofWhole_zero]
    · rfl
  | some secs => simp only [Option.map_some, Option.getD_some, ite_self]

end Config

/-! ## The law -/

namespace Pool

open CheckInterval

/-- A timer can be set to a usable interval. -/
theorem usable_create {options : PoolOptions}
    (h : ∀ s ∈ options.checkInterval, s.nanos < Span.nanosPerSec) (addresses : List String)
    (env : Environment) : Usable (create addresses options env).checkInterval := by
  rw [interval_create]
  by_cases hopen : ∀ s ∈ options.checkInterval, s.inNanos = 0
  · rw [resolve_of_open hopen, ofEnvironment_eq]
    cases ofEnvironment? env with
    | none => exact usable_fallback
    | some secs => exact usable_ofWhole secs
  · push Not at hopen
    obtain ⟨s, hset, hpos⟩ := hopen
    rw [Option.mem_def] at hset
    rw [hset, resolve_of_set (Nat.pos_of_ne_zero hpos)]
    exact usable_sanitize (h s hset)

/-- The interval of a pool is the number in the environment or else the one in its file, and one that
the options set counts before both; it is what a timer can be set to, in every state of every
pool. -/
theorem checkInterval_of_settings :
    (∀ file env c, Config.load file env = .ok c →
      ∃ base, Config.ofFile file = .ok base ∧ ∀ n,
        (launch c.addresses c.poolOptions env n).1.checkInterval =
          ofWhole ((ofEnvironment? env).getD base.healthCheckSecs)) ∧
    (∀ addresses options env n secs nanos,
      options.checkInterval = some (.ofParts secs nanos) →
      0 < secs * Span.nanosPerSec + nanos →
      (launch addresses options env n).1.checkInterval =
        if secs * Span.nanosPerSec + nanos ≤ 86400 * Span.nanosPerSec then .ofParts secs nanos
        else .ofSecs 15) ∧
    (∀ addresses options env n, (∀ s ∈ options.checkInterval, s.inNanos = 0) →
      (launch addresses options env n).1.checkInterval =
        ((ofEnvironment? env).map ofWhole).getD (.ofSecs 15)) ∧
    (∀ addresses options env actions,
      (∀ s ∈ options.checkInterval, s.nanos < Span.nanosPerSec) →
      let p := (create addresses options env).run actions
      Usable p.checkInterval ∧ ∃ t, Timer.set? p.checkInterval = some t ∧ t.period = p.checkInterval) ∧
    (∀ store probe secs nanos concurrency,
      let m := Monitor.create store probe (.ofParts secs nanos) concurrency
      Usable m.interval ∧ ∃ t, Timer.set? m.interval = some t ∧ t.period = m.interval) := by
  refine ⟨fun file env c hload => Config.interval_of_load hload, ?set, ?left, ?run, ?direct⟩
  case set =>
    intro addresses options env n secs nanos hset hpos
    exact interval_of_set hset hpos addresses env n
  case left =>
    intro addresses options env n hopen
    rw [interval_launch, resolve_of_open hopen, ofEnvironment_eq]
  case run =>
    intro addresses options env actions hnanos p
    have husable : Usable p.checkInterval := by
      rw [interval_run]
      exact usable_create hnanos addresses env
    exact ⟨husable, Timer.exists_set? husable.1⟩
  case direct =>
    intro store probe secs nanos concurrency m
    have husable : Usable m.interval := usable_sanitize (Span.nanos_ofParts_lt secs nanos)
    exact ⟨husable, Timer.exists_set? husable.1⟩

/-- A file that leaves the interval open with a variable that is no number; options of less than a
second; options that leave it open to a variable with blanks around its number. -/
theorem checkInterval_of_settings_of_edges :
    let file : ConfigFile :=
      ⟨"pool.toml", .bytes (Text.octets "health_check_interval_secs = 0")⟩
    let soon : Environment := .ofList [(variableName, "soon")]
    let short : PoolOptions := { checkInterval := some (.ofParts 0 50000000) }
    let zero : PoolOptions := { checkInterval := some (.ofParts 0 0) }
    let spaced : Environment := .ofList [(variableName, " 25 ")]
    (∃ c, Config.load file soon = .ok c ∧
      ∀ n, (launch c.addresses c.poolOptions soon n).1.checkInterval = .ofSecs 15) ∧
    (∀ n, (launch [] short soon n).1.checkInterval = .ofParts 0 50000000) ∧
    (∀ n, (launch [] zero spaced n).1.checkInterval = .ofSecs 25) ∧
    Usable ((create [] short soon).run [.start, .endStart]).checkInterval := by
  intro file soon short zero spaced
  obtain ⟨hloaded, hset, hopen, hrun, -⟩ := checkInterval_of_settings
  refine ⟨?file, fun n => ?short, fun n => ?zero, ?run⟩
  case file =>
    have hfile : Config.ofFile file = .ok { healthCheckSecs := 0 } := by decide +kernel
    have hload : Config.load file soon = .ok { healthCheckSecs := 0 } := by decide +kernel
    obtain ⟨base, hbase, hlaw⟩ := hloaded file soon _ hload
    obtain rfl := Except.ok.inj (hfile.symm.trans hbase)
    have hnone : ofEnvironment? soon = none := by decide
    refine ⟨_, hload, fun n => ?_⟩
    rw [hlaw n, hnone]
    rfl
  case short => exact hset [] short soon n 0 50000000 rfl (by decide)
  case zero =>
    have hnumber : ofEnvironment? spaced = some 25 := by decide
    rw [hopen [] zero spaced n (by decide), hnumber]
    rfl
  case run => exact (hrun [] short soon [.start, .endStart] (by decide)).1

end Pool

end ZonePool
