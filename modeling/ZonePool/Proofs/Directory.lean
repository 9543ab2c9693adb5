-- SUMMARY: What a directory's answer makes of a pool, and which answers leave it alone.
import ZonePool.Directory
import ZonePool.Proofs.Instance
import ZonePool.Proofs.Pool.Resync
import ZonePool.Proofs.Text.Utf8

/-!
# Rounds of resync

A round with a directory has the effect of a resync with the instances that the
final answer lists. Whatever goes wrong on the way, in the request, in the
answer or in what it lists, touches nothing of the pool but its metrics.
-/

namespace ZonePool

namespace Directory

/-! ## Bodies -/

theorem instances?_eq_ok_iff {body : String} {instances : List Instance} :
    instances? body = .ok instances ↔ Instance.parse? body = some instances := by
  rw [instances?]
  cases Instance.parse? body <;> simp

theorem instances?_eq_error_iff {body : String} {failure : Failure} :
    instances? body = .error failure ↔
      Instance.parse? body = none ∧ failure = .directory decodeDetail := by
  rw [instances?]
  cases Instance.parse? body <;> simp [eq_comm]

/-- The compact text of some instances within the one member of an answer. -/
def answerOf (instances : List Instance) : String :=
  .ofList (['\x7b'] ++ (Json.quote "instances" ++ ([':'] ++ ([' '] ++
    (Json.compact (.list (instances.map Instance.toDocument)) ++ ['\x7d'])))))

theorem writes_answerOf (instances : List Instance) :
    Json.Writes (Instance.listToDocument instances) (answerOf instances).toList := by
  have hlist := Json.writes_compact (Instance.numberless_list instances)
  rw [answerOf, String.toList_ofList]
  exact .cons .recordBegin (.cons (.text "instances") (.cons .colon
    (.blank_append Json.isBlank_space (hlist.append (.lexeme .recordEnd)))))

/-- A list of instances is read back from its text: from the compact one, from the indented one, and
from any other with white space between its tokens. -/
theorem instances?_of_written (instances : List Instance) :
    let d := Instance.listToDocument instances
    instances? (Json.render d) = .ok instances ∧
    instances? (Json.pretty d) = .ok instances ∧
    instances? (answerOf instances) = .ok instances ∧
    ∀ body, Json.Writes d body.toList → instances? body = .ok instances := by
  intro d
  have hnumberless : Json.Numberless d := Instance.numberless_listToDocument instances
  have hwritten : ∀ body, Json.Writes d body.toList → instances? body = .ok instances :=
    fun body h => instances?_eq_ok_iff.2 (Instance.parse?_of_writes h)
  refine ⟨hwritten _ ?_, hwritten _ ?_, hwritten _ (writes_answerOf instances), hwritten⟩
  · rw [Json.render, String.toList_ofList]
    exact Json.writes_compact hnumberless
  · rw [Json.pretty, String.toList_ofList]
    exact Json.writes_indented hnumberless 0

/-- Quotes, backslashes, control characters and characters beyond 16 bits come back. -/
theorem instances?_of_written_of_escapes :
    let instances : List Instance := [{ endpoints := ["\"\\\x01\n𝄞"] }]
    let body := answerOf instances
    body = "\x7b\"instances\": [\x7b\"endpoints\":[\"\\\"\\\\\\u0001\\n𝄞\"]," ++
        "\"dataCenterInfo\":null\x7d]\x7d" ∧
      Json.Writes (Instance.listToDocument instances) body.toList ∧
      instances? body = .ok instances := by
  intro instances body
  have hwrites := writes_answerOf instances
  exact ⟨by decide +kernel, hwrites, (instances?_of_written instances).2.2.2 body hwrites⟩

/-! ## Answers -/

/-- What a final answer, or the want of one, comes to. -/
def outcome : Except HttpFault Http.Response → Except Failure (List Instance)
  | .error fault => .error (.http fault)
  | .ok response =>
    if Http.isSuccess response.status then
      match response.text? with
      | none => .error (.http .cutShort)
      | some body => instances? body
    else .error (badAnswer response)

/-- Asking a directory is one request with its redirects, and nothing more is sent. -/
theorem fetch_eq (d : Directory) (n : Network) :
    d.fetch n = (outcome (Http.get d.url n).1, (Http.get d.url n).2) := by
  rw [fetch]
  rcases Http.get d.url n with ⟨fault | response, m⟩
  · rfl
  · simp only [outcome]
    split
    · cases response.text? <;> rfl
    · rfl

/-- An answer is a success, comes whole and lists instances. -/
def Lists (answer : Except HttpFault Http.Response) (instances : List Instance) : Prop :=
  ∃ response body, answer = .ok response ∧ Http.isSuccess response.status = true ∧
    response.text? = some body ∧ Instance.parse? body = some instances

/-- How an answer fails to list instances, stage by stage. -/
inductive Fails : Except HttpFault Http.Response → Failure → Prop where
  | unanswered {fault : HttpFault} : Fails (.error fault) (.http fault)
  | refused {response : Http.Response} : Http.isSuccess response.status = false →
    Fails (.ok response) (badAnswer response)
  | cutShort {response : Http.Response} : Http.isSuccess response.status = true →
    response.text? = none → Fails (.ok response) (.http .cutShort)
  | unreadable {response : Http.Response} {body : String} :
    Http.isSuccess response.status = true → response.text? = some body →
    Instance.parse? body = none → Fails (.ok response) (.directory decodeDetail)

variable {answer : Except HttpFault Http.Response}

theorem outcome_eq_ok_iff {instances : List Instance} :
    outcome answer = .ok instances ↔ Lists answer instances := by
  rw [Lists]
  cases answer with
  | error fault => simp [outcome]
  | ok response =>
    cases hsuccess : Http.isSuccess response.status <;> cases htext : response.text? <;>
      simp [outcome, hsuccess, htext, instances?_eq_ok_iff]

theorem outcome_eq_error_iff {failure : Failure} :
    outcome answer = .error failure ↔ Fails answer failure := by
  constructor
  · intro h
    cases answer with
    | error fault =>
      cases h
      exact .unanswered
    | ok response =>
      rw [outcome] at h
      split at h
      · next hsuccess =>
        split at h
        · next htext =>
          cases h
          exact .cutShort hsuccess htext
        · next body htext =>
          obtain ⟨hparse, rfl⟩ := instances?_eq_error_iff.1 h
          exact .unreadable hsuccess htext hparse
      · next hsuccess =>
        cases h
        exact .refused (Bool.eq_false_iff.2 hsuccess)
  · intro h
    cases h with
    | unanswered => rfl
    | refused hsuccess => simp [outcome, hsuccess]
    | cutShort hsuccess htext => simp [outcome, hsuccess, htext]
    | unreadable hsuccess htext hparse =>
      simp [outcome, hsuccess, htext, instances?_eq_error_iff, hparse]

/-- An answer lists instances or fails to. -/
theorem lists_or_fails (answer : Except HttpFault Http.Response) :
    (∃ instances, Lists answer instances) ∨ ∃ failure, Fails answer failure := by
  cases h : outcome answer with
  | ok instances => exact .inl ⟨instances, outcome_eq_ok_iff.1 h⟩
  | error failure => exact .inr ⟨failure, outcome_eq_error_iff.1 h⟩

theorem Lists.unique {instances others : List Instance} (h : Lists answer instances)
    (hothers : Lists answer others) : instances = others :=
  Except.ok.inj ((outcome_eq_ok_iff.2 h).symm.trans (outcome_eq_ok_iff.2 hothers))

theorem Lists.not_fails {instances : List Instance} (h : Lists answer instances)
    (failure : Failure) : ¬Fails answer failure := by
  intro hfails
  have houtcome := outcome_eq_ok_iff.2 h
  rw [outcome_eq_error_iff.2 hfails] at houtcome
  cases houtcome

theorem Fails.kind {failure : Failure} (h : Fails answer failure) :
    (∃ fault, failure = .http fault) ∨ ∃ detail, failure = .directory detail := by
  cases h with
  | unanswered | cutShort => exact .inl ⟨_, rfl⟩
  | refused | unreadable => exact .inr ⟨_, rfl⟩

/-- A body that is the text of a list of instances lists these. -/
theorem lists_of_written {response : Http.Response} {text : String} {instances : List Instance}
    (hsuccess : Http.isSuccess response.status = true)
    (hbody : response.body = some (Text.octets text))
    (htext : Json.Writes (Instance.listToDocument instances) text.toList) :
    Lists (.ok response) instances := by
  refine ⟨response, text, rfl, hsuccess, ?_, Instance.parse?_of_writes htext⟩
  simp [Http.Response.text?, hbody, Text.decodeUtf8Lossy_octets]

end Directory

/-! ## Rounds -/

namespace Pool

open Directory (Lists Fails outcome_eq_ok_iff outcome_eq_error_iff lists_or_fails lists_of_written)

variable {p : Pool} {d : Directory} {n : Network}

theorem resyncFrom_of_lists {instances : List Instance}
    (h : Lists (Http.get d.url n).1 instances) :
    p.resyncFrom d n = ((p.resync instances).1, (p.resync instances).2, (Http.get d.url n).2) := by
  rw [resyncFrom, Directory.fetch_eq, outcome_eq_ok_iff.2 h]

theorem resyncFrom_of_fails {failure : Failure} (h : Fails (Http.get d.url n).1 failure) :
    p.resyncFrom d n = (.error failure, p.countResync .fetchError, (Http.get d.url n).2) := by
  rw [resyncFrom, Directory.fetch_eq, outcome_eq_error_iff.2 h]

/-- A round succeeds exactly when the answer lists an instance with a service endpoint, and has the
effect of a resync with the listed instances. A round that fails changes only the metrics. -/
theorem resyncFrom_directory (p : Pool) (d : Directory) (n : Network) :
    let answer := (Http.get d.url n).1
    let m := (Http.get d.url n).2
    ((∃ overwrites, (p.resyncFrom d n).1 = .ok overwrites) ↔
      ∃ instances, Lists answer instances ∧ ∃ i ∈ instances, i.restEndpoint.isSome) ∧
    (∀ instances, Lists answer instances →
      p.resyncFrom d n = ((p.resync instances).1, (p.resync instances).2, m)) ∧
    (∀ response text instances, answer = .ok response →
      Http.isSuccess response.status = true → response.body = some (Text.octets text) →
      Json.Writes (Instance.listToDocument instances) text.toList →
      p.resyncFrom d n = ((p.resync instances).1, (p.resync instances).2, m)) ∧
    ∀ failure, (p.resyncFrom d n).1 = .error failure →
      ((∃ fault, failure = .http fault) ∨ (∃ detail, failure = .directory detail) ∨
        failure = .noUsableEndpoints) ∧
      (failure = .noUsableEndpoints ∨ Fails answer failure) ∧
      ∃ metrics, p.resyncFrom d n = (.error failure, p.withMetrics metrics, m) := by
  intro answer m
  have heffect : ∀ instances, Lists answer instances →
      p.resyncFrom d n = ((p.resync instances).1, (p.resync instances).2, m) :=
    fun _ => resyncFrom_of_lists
  refine ⟨?_, heffect, fun response text instances hanswer hsuccess hbody htext =>
    heffect instances (hanswer ▸ lists_of_written hsuccess hbody htext), fun failure hfailure => ?_⟩
  · constructor
    · rintro ⟨overwrites, hok⟩
      rcases lists_or_fails answer with ⟨instances, hlists⟩ | ⟨fault, hfails⟩
      · rw [heffect instances hlists] at hok
        exact ⟨instances, hlists, fst_resync_eq_ok_iff.1 ⟨overwrites, hok⟩⟩
      · rw [resyncFrom_of_fails hfails] at hok
        cases hok
    · rintro ⟨instances, hlists, hsome⟩
      rw [heffect instances hlists]
      exact fst_resync_eq_ok_iff.2 hsome
  · rcases lists_or_fails answer with ⟨instances, hlists⟩ | ⟨fault, hfails⟩
    · have hround := heffect instances hlists
      have hresult : (p.resync instances).1 = .error failure := by rw [← hfailure, hround]
      obtain ⟨rfl, hresync⟩ := resync_of_error hresult
      rw [hround, hresult, hresync]
      exact ⟨.inr (.inr rfl), .inl rfl, _, rfl⟩
    · have hround : p.resyncFrom d n = (.error fault, p.countResync .fetchError, m) :=
        resyncFrom_of_fails hfails
      rw [hround] at hfailure
      cases hfailure
      exact ⟨hfails.kind.imp_right .inl, .inr hfails, _, hround⟩

/-- A directory on the same host answers with one instance, away from `Default`. -/
theorem resyncFrom_directory_of_answer :
    let p := create ["10.0.0.1:80"] {} .empty
    let instances : List Instance := [
      { endpoints := ["rest://10.0.0.2:80"], dataCenter := some { zone := "az1" } }]
    let text := Directory.answerOf instances
    let d : Directory := ⟨"http://127.0.0.1:80/"⟩
    let n : Network := { peers := [
      (.v4 ⟨127, 0, 0, 1⟩ 80, .accepting none (some [("/", { body := Text.octets text })]))] }
    let response : Http.Response := { status := 200, body := some (Text.octets text) }
    (Http.get d.url n).1 = .ok response ∧ Http.isSuccess response.status = true ∧
      Json.Writes (Instance.listToDocument instances) text.toList ∧
      p.resyncFrom d n = ((p.resync instances).1, (p.resync instances).2, (Http.get d.url n).2) ∧
      (p.resync instances).2.store.tiers = ⟨["10.0.0.1:80"], [], ["10.0.0.2:80"]⟩ := by
  intro p instances text d n response
  have hurl : Net.WebUrl.read? none d.url =
      some (.web ⟨false, .v4 ⟨127, 0, 0, 1⟩, some 80, [[]], none⟩) := by
    decide +kernel
  have hget : (Http.get d.url n).1 = .ok response := by
    rw [Http.get, hurl]
    simp [n, response, Http.maxRedirects, Http.follow, Http.request, Http.answer, Http.isFinal,
      Http.isRedirect, Http.isBodiless, Http.Response.ofReply, Net.WebUrl.locate,
      Net.WebUrl.dialPort, Net.WebUrl.target, Network.dial, Network.peer?]
  have hwrites := Directory.writes_answerOf instances
  exact ⟨hget, by decide, hwrites,
    (resyncFrom_directory p d n).2.2.1 response text instances hget (by decide) rfl hwrites,
    by decide +kernel⟩

end Pool

end ZonePool
