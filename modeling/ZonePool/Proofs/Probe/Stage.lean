-- SUMMARY: A check as a sequence of steps, each of which makes one connection.
import ZonePool.Proofs.Network.Steady

/-!
# Stages of a check

A check that runs beside others gives way to them between its connections. Its
`Stage` says what is left of it: a request and perhaps redirects, a plain
connection, or nothing. Taking one step after another comes to what the check
comes to when nothing else happens, and ends, because every redirect uses up the
budget.
-/

namespace ZonePool.Probe

open Net (WebUrl)

/-! ## Stages -/

inductive Stage where
  /-- About to ask for a URL, and to follow at most `budget` redirects. -/
  | asking (budget : Nat) (url : WebUrl)
  /-- About to connect, and to succeed by `method` if the connection is accepted. -/
  | connecting (method : ProbeMethod)
  | done (result : Except Failure ProbeMethod)

namespace Stage

/-- What is left of a check after the client's answer. -/
def settle : Except HttpFault Http.Response → Stage
  | .error fault => .done (.error (.http fault))
  | .ok response =>
    if Http.isSuccess response.status then .done (.ok .http)
    else if response.status = 404 then .connecting .tcpFallback
    else .done (.error (badAnswer response))

/-- What is left of a check after one request of the client. -/
def proceed (budget : Nat) (url : WebUrl) : Except HttpFault Reply → Stage
  | .error fault => settle (.error fault)
  | .ok reply =>
    match Http.hop? url reply, budget with
    | none, _ => settle (.ok (.ofReply reply))
    | some _, 0 => settle (.error .tooManyRedirects)
    | some (.web next), budget + 1 => .asking budget next
    | some .other, _ + 1 => settle (.error .badUrl)

/-- A check that has not begun to connect. -/
def begin (p : Probe) (endpoint : String) : Stage :=
  match p.http with
  | none => .connecting .tcp
  | some route =>
    match WebUrl.read? none (route.urlFor endpoint) with
    | some (.web url) => .asking Http.maxRedirects url
    | _ => settle (.error .badUrl)

/-- Make the next connection. -/
def next (endpoint : String) : Stage → Network → Stage × Network
  | .asking budget url, n =>
    let (answer, n) := Http.request url n
    (proceed budget url answer, n)
  | .connecting method, n =>
    let (result, n) := connect method endpoint n
    (.done result, n)
  | .done result, n => (.done result, n)

/-- Carry out all that is left. -/
def finish (endpoint : String) : Stage → Network → Except Failure ProbeMethod × Network
  | .asking budget url, n => conclude endpoint (Http.follow budget url n)
  | .connecting method, n => connect method endpoint n
  | .done result, n => (result, n)

/-! ## Stages and whole checks -/

variable {endpoint : String}

theorem finish_settle (answer : Except HttpFault Http.Response) (n : Network) :
    (settle answer).finish endpoint n = conclude endpoint (answer, n) := by
  cases answer with
  | error fault => rfl
  | ok response =>
    simp only [settle, conclude]
    split
    · rfl
    · split <;> rfl

theorem finish_begin (p : Probe) (endpoint : String) (n : Network) :
    (begin p endpoint).finish endpoint n = p.check endpoint n := by
  cases h : p.http with
  | none => rw [check_of_none h, begin, h, finish]
  | some route =>
    rw [check_of_some h, begin, h, Http.get]
    dsimp only
    rcases WebUrl.read? none (route.urlFor endpoint) with _ | url | _
    · exact finish_settle _ n
    · rfl
    · exact finish_settle _ n

theorem finish_proceed (budget : Nat) (url : WebUrl) (n : Network) :
    (proceed budget url (Http.request url n).1).finish endpoint (Http.request url n).2 =
      conclude endpoint (Http.follow budget url n) := by
  rw [Http.follow_eq]
  rcases Http.request url n with ⟨fault | reply, m⟩
  · rfl
  · dsimp only [proceed]
    rcases Http.hop? url reply with _ | next | _ <;> cases budget
    all_goals first | rfl | exact finish_settle _ m

/-- A step leaves what the check comes to. -/
theorem finish_next (s : Stage) (n : Network) :
    (s.next endpoint n).1.finish endpoint (s.next endpoint n).2 = s.finish endpoint n := by
  cases s with
  | asking budget url => exact finish_proceed budget url n
  | connecting method => rfl
  | done result => rfl

/-! ## Work -/

/-- How many steps are left at most. -/
def work : Stage → Nat
  | .asking budget _ => budget + 2
  | .connecting _ => 1
  | .done _ => 0

theorem work_settle (answer : Except HttpFault Http.Response) : (settle answer).work ≤ 1 := by
  cases answer with
  | error fault => exact Nat.zero_le 1
  | ok response =>
    simp only [settle]
    split
    · exact Nat.zero_le 1
    · split
      · exact Nat.le_refl 1
      · exact Nat.zero_le 1

theorem work_proceed (budget : Nat) (url : WebUrl) (answer : Except HttpFault Reply) :
    (proceed budget url answer).work < budget + 2 := by
  have hsettle : ∀ result, (settle result).work < budget + 2 := fun result =>
    Nat.lt_of_le_of_lt (work_settle result) (Nat.succ_lt_succ (Nat.succ_pos budget))
  rcases answer with fault | reply
  · exact hsettle (.error fault)
  · dsimp only [proceed]
    split
    · exact hsettle _
    · exact hsettle _
    · exact Nat.lt_succ_self _
    · exact hsettle _

theorem work_next (endpoint : String) {s : Stage} (h : s.work ≠ 0) (n : Network) :
    (s.next endpoint n).1.work < s.work := by
  cases s with
  | asking budget url => exact work_proceed budget url _
  | connecting method => exact Nat.one_pos
  | done result => exact absurd rfl h

/-! ## Steadiness -/

variable {outlook : Outlook}

theorem steady_next (endpoint : String) (s : Stage) : Steady outlook (s.next endpoint) := by
  cases s with
  | asking budget url => exact (Steady.request url).bind fun reply => .pure (proceed budget url reply)
  | connecting method => exact (Steady.connect method endpoint).bind fun result => .pure (done result)
  | done result => exact .pure _

theorem steady_finish (endpoint : String) (s : Stage) : Steady outlook (s.finish endpoint) := by
  match s with
  | .asking budget url =>
    have hproceed : (asking budget url).finish endpoint = fun n =>
        (proceed budget url (Http.request url n).1).finish endpoint (Http.request url n).2 :=
      funext fun n => (finish_proceed budget url n).symm
    rw [hproceed]
    exact (Steady.request url).bind fun reply => steady_finish endpoint (proceed budget url reply)
  | .connecting method => exact .connect method endpoint
  | .done result => exact .pure _
termination_by s.work
decreasing_by exact work_proceed budget url reply

/-- A step in any network does its share of what the check does in an empty record. -/
theorem next_forget {n b : Network} (hn : n.Answers outlook) (hb : b.Answers outlook) (s : Stage) :
    ((s.next endpoint n).1.finish endpoint b.forget).1 = (s.finish endpoint b.forget).1 ∧
      (s.next endpoint n).2.dials ++ ((s.next endpoint n).1.finish endpoint b.forget).2.dials =
        n.dials ++ (s.finish endpoint b.forget).2.dials ∧
      (s.next endpoint n).2.hits ++ ((s.next endpoint n).1.finish endpoint b.forget).2.hits =
        n.hits ++ (s.finish endpoint b.forget).2.hits ∧
      (s.next endpoint n).2.Answers outlook := by
  obtain ⟨-, -, -, hanswers⟩ := (steady_next endpoint s).eq_forget hn hb
  obtain ⟨hresult, hdials, hhits, -⟩ := (steady_finish endpoint s).eq_forget hn hb
  obtain ⟨hresult', hdials', hhits', -⟩ :=
    (steady_finish endpoint (s.next endpoint n).1).eq_forget hanswers hb
  rw [finish_next] at hresult' hdials' hhits'
  exact ⟨hresult'.symm.trans hresult, hdials'.symm.trans hdials, hhits'.symm.trans hhits, hanswers⟩

end Stage

end ZonePool.Probe
