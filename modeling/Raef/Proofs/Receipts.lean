import Raef.Proofs.Verified

/-!
# What the mock target counts and answers

A call that commits adds one record to the action log and one to the count of commits; every other
call leaves the store alone.  The two keyed APIs commit the first request under an id and answer the
later ones from its record.

    a first request commits one record, a later one none           (apply_first, apply_later)
    over a history: every keyed record is that of the first
      request that succeeded under its id                          (history_kept)
    answers, commits and records of any history                    (target_exact)

The log also holds the queryable and counter calls, under the action id they were given, and
payloads are compared as Python compares them: `1`, `1.0` and `true` are equal.
-/

namespace Raef

open Txn

/-! ## Histories -/

/-- The outcome of a call and the store after it. -/
def TargetCall.step (amb : TargetAmbient) (call : TargetCall) (data : TargetData) :
    Except PyError JsonObject × TargetData :=
  match call.run amb data with
  | .ok (answer, data') => (.ok answer, data')
  | .error e => (.error e, data)

structure TargetEntry where
  amb : TargetAmbient
  call : TargetCall
  result : Except PyError JsonObject
  before : TargetData
  after : TargetData

/-- Calls one after the other, from an empty store. -/
inductive TargetHistory : List TargetEntry → TargetData → Prop
  | init : TargetHistory [] {}
  | call {es : List TargetEntry} {data : TargetData} (before : TargetHistory es data) (amb : TargetAmbient)
      (call : TargetCall) : TargetHistory
        (es ++ [⟨amb, call, (call.step amb data).1, data, (call.step amb data).2⟩]) (call.step amb data).2

structure KeyedRequest where
  actionName : String
  payload : JsonObject
  executionId : String

/-- The keyed request of a call; the action API of an idempotent service makes one too. -/
def TargetCall.keyed (amb : TargetAmbient) : TargetCall → Option (KeyedApi × KeyedRequest)
  | .action .idempotent actionName payload executionId =>
    some (idempotentApi, ⟨actionName, payload, match executionId with
      | some e => if e = "" then amb.executionUuid else e
      | none => amb.executionUuid⟩)
  | .idempotent actionName payload executionId => some (idempotentApi, ⟨actionName, payload, executionId⟩)
  | .rifl actionName payload executionId => some (riflApi, ⟨actionName, payload, executionId⟩)
  | .action .nonIdempotent _ _ _ | .queryableDistinguishable _ _ | .incrementCounter _ _ => none

/-- The id a call's record stands under: the execution id of an apply call, else the new action id. -/
def TargetCall.recordId (amb : TargetAmbient) (call : TargetCall) : String :=
  (call.executionId amb).getD amb.actionUuid

/-- One action and payload, as Python compares them. -/
def KeyedRequest.Same (q q0 : KeyedRequest) : Prop :=
  q.actionName = q0.actionName ∧ Json.Same (.obj q0.payload) (.obj q.payload)

/-- The entry is a request under the id that succeeded. -/
def TargetEntry.Applied (x : TargetEntry) (api : KeyedApi) (e : String) : Prop :=
  ∃ q answer, x.call.keyed x.amb = some (api, q) ∧ q.executionId = e ∧ x.result = .ok answer

/-- The first of them. -/
structure FirstApplied (es : List TargetEntry) (api : KeyedApi) (x : TargetEntry) (q : KeyedRequest)
    (answer : JsonObject) : Prop where
  request : x.call.keyed x.amb = some (api, q)
  succeeded : x.result = .ok answer
  first : ∃ before after, es = before ++ x :: after ∧ ∀ y ∈ before, ¬ y.Applied api q.executionId

/-! ## One call -/

section
variable {data data' : TargetData} {amb : TargetAmbient} {call : TargetCall} {answer : JsonObject}

/-- One record more, under the id, and one commit. -/
structure Commits (data data' : TargetData) (id : String) : Prop where
  log : ∃ r, data'.actionLog = data.actionLog.set id (.obj r)
  count : data'.stats.totalCommits = data.stats.totalCommits + 1

theorem Commits.changed {id : String} (h : Commits data data' id) : data' ≠ data := by
  rintro rfl
  have := h.count
  omega

/-- The APIs the requests of a store are kept for. -/
def KeyedApi.Known (api : KeyedApi) : Prop := api = idempotentApi ∨ api = riflApi

theorem keyed_known {api : KeyedApi} {q : KeyedRequest} (h : call.keyed amb = some (api, q)) : api.Known := by
  unfold TargetCall.keyed at h
  split at h <;> cases h
  · exact .inl rfl
  · exact .inl rfl
  · exact .inr rfl

theorem keyed_recordId {api : KeyedApi} {q : KeyedRequest} (h : call.keyed amb = some (api, q)) :
    call.executionId amb = some q.executionId := by
  unfold TargetCall.keyed at h
  split at h <;> cases h
  · unfold TargetCall.executionId
    split <;> simp_all
  · rfl
  · rfl

theorem recordId_keyed {api : KeyedApi} {q : KeyedRequest} (h : call.keyed amb = some (api, q)) :
    call.recordId amb = q.executionId := by
  unfold TargetCall.recordId
  rw [keyed_recordId h]
  rfl

theorem step_ok (h : call.run amb data = .ok (answer, data')) : call.step amb data = (.ok answer, data') := by
  unfold TargetCall.step
  rw [h]

theorem step_error {err : PyError} (h : call.run amb data = .error err) :
    call.step amb data = (.error err, data) := by
  unfold TargetCall.step
  rw [h]

/-- A keyed call is the request it makes. -/
theorem keyed_run {api : KeyedApi} {q : KeyedRequest} (h : call.keyed amb = some (api, q)) :
    call.run amb = api.apply amb q.actionName q.payload q.executionId := by
  unfold TargetCall.keyed at h
  split at h <;> cases h
  · next actionName payload executionId =>
    funext data
    show applyAction .idempotent amb actionName payload executionId data = _
    unfold applyAction
    by_cases hname : actionName = ""
    · subst hname
      rfl
    · have hreq : require (σ := TargetData) (decide (actionName ≠ "")) (.value "action_name is required") =
          (pure () : TargetTx Unit) := by
        simp [require, hname]
      rw [hreq]
      cases executionId <;> rfl
  · rfl
  · rfl

variable {api : KeyedApi} {actionName actionName0 : String} {payload payload0 : JsonObject} {e : String}

/-- A keyed commit: the record stands in the log and in the requests of its API, and no other. -/
structure KeyedApi.Stores (api : KeyedApi) (data data' : TargetData) (e : String) (record : JsonObject) :
    Prop extends Commits data data' e where
  requests : api.requests data' = (api.requests data).set e (.obj record)
  others : ∀ api', api'.Known → api' ≠ api → api'.requests data' = api'.requests data

/-- A first request under an id commits, or raises. -/
theorem apply_first (hapi : api.Known) (hget : (api.requests data).get e = none) :
    (∃ err, api.apply amb actionName payload e data = .error err) ∨
      ∃ data', api.apply amb actionName payload e data =
          .ok (api.answer (buildReceipt amb (some e)) false none, data') ∧ actionName ≠ "" ∧ e ≠ "" ∧
        api.Stores data data' e (api.record amb actionName payload e) := by
  cases hrun : api.apply amb actionName payload e data with
  | error err => exact .inl ⟨err, rfl⟩
  | ok p =>
    obtain ⟨answer, data'⟩ := p
    unfold KeyedApi.apply at hrun
    simp only [bind_ok, require_ok, read_ok, decide_eq_true_eq] at hrun
    obtain ⟨_, _, ⟨hname, h1⟩, _, _, ⟨hid, h2⟩, d, _, h3, hrun⟩ := hrun
    cases h1; cases h2; cases h3
    rw [hget] at hrun
    simp only [bind_ok, lift_ok, write_ok, pure_ok] at hrun
    obtain ⟨domainState, _, ⟨-, h4⟩, _, _, h5, hrun⟩ := hrun
    cases h4; cases h5; cases hrun
    refine .inr ⟨_, rfl, hname, hid, ?_⟩
    rcases hapi with rfl | rfl
    · refine ⟨⟨⟨_, rfl⟩, rfl⟩, rfl, ?_⟩
      rintro api' (rfl | rfl) hne
      · exact absurd rfl hne
      · rfl
    · refine ⟨⟨⟨_, rfl⟩, rfl⟩, rfl, ?_⟩
      rintro api' (rfl | rfl) hne
      · rfl
      · exact absurd rfl hne

/-- What a record says of the request it is the record of. -/
theorem record_fields (amb0 : TargetAmbient) (actionName : String) (payload : JsonObject) (e : String)
    (hapi : api.Known) :
    JsonObject.getD (api.record amb0 actionName payload e) "action_name" .null = .str actionName ∧
      JsonObject.getD (api.record amb0 actionName payload e) "payload" .null = .obj payload ∧
      JsonObject.getD (api.record amb0 actionName payload e) "receipt" .null = buildReceipt amb0 (some e) := by
  rcases hapi with rfl | rfl <;> exact ⟨rfl, rfl, rfl⟩

/-- A later request is answered from the record when it is the same, and else refused. -/
theorem apply_later {amb0 : TargetAmbient} (amb : TargetAmbient) (hapi : api.Known)
    (hname : actionName0 ≠ "") (hid : e ≠ "")
    (hget : (api.requests data).get e = some (.obj (api.record amb0 actionName0 payload0 e))) :
    (actionName = actionName0 ∧ (Json.obj payload0).pyEq (.obj payload) = true →
      api.apply amb actionName payload e data =
        .ok (api.answer (buildReceipt amb0 (some e)) true (some (api.record amb0 actionName0 payload0 e)), data)) ∧
      (¬ (actionName = actionName0 ∧ (Json.obj payload0).pyEq (.obj payload) = true) →
        ∃ err, api.apply amb actionName payload e data = .error err) := by
  obtain ⟨haction, hpayload, hreceipt⟩ := record_fields amb0 actionName0 payload0 e hapi
  constructor
  · rintro ⟨rfl, hsame⟩
    have hmatch : ((Json.str actionName).pyEq (.str actionName) &&
        (Json.obj payload0).pyEq (.obj payload)) = true := by
      rw [hsame, Json.pyEq, beq_self_eq_true]
      rfl
    unfold KeyedApi.apply
    refine (bind_run (require_ok.2 ⟨decide_eq_true hname, rfl⟩)).trans ?_
    refine (bind_run (require_ok.2 ⟨decide_eq_true hid, rfl⟩)).trans ?_
    refine (bind_run (read_ok.2 rfl)).trans ?_
    rw [hget]
    dsimp only
    rw [haction, hpayload, hreceipt, hmatch]
    rfl
  · intro hother
    cases hrun : api.apply amb actionName payload e data with
    | error err => exact ⟨err, rfl⟩
    | ok p =>
      exfalso
      unfold KeyedApi.apply at hrun
      simp only [bind_ok, require_ok, read_ok, decide_eq_true_eq] at hrun
      obtain ⟨_, _, ⟨-, h1⟩, _, _, ⟨-, h2⟩, d, _, h3, hrun⟩ := hrun
      cases h1; cases h2; cases h3
      rw [hget] at hrun
      simp only [bind_ok, require_ok, haction, hpayload] at hrun
      obtain ⟨_, _, ⟨hsame, -⟩, -⟩ := hrun
      obtain ⟨hsame, hpayload⟩ := Bool.and_eq_true_iff.1 hsame
      rw [Json.pyEq, beq_iff_eq] at hsame
      exact hother ⟨hsame.symm, hpayload⟩

theorem run_other (h : call.keyed amb = none) (hok : call.run amb data = .ok (answer, data')) :
    Commits data data' (call.recordId amb) ∧ data'.idempotentRequests = data.idempotentRequests ∧
      data'.riflRequests = data.riflRequests := by
  cases call with
  | action mode actionName payload executionId =>
    cases mode with
    | idempotent => cases h
    | nonIdempotent =>
      have hok : applyAction .nonIdempotent amb actionName payload executionId data = .ok (answer, data') := hok
      unfold applyAction at hok
      simp only [bind_ok, require_ok, read_ok, lift_ok, write_ok, pure_ok] at hok
      obtain ⟨_, _, ⟨-, h1⟩, d, _, h2, domainState, _, ⟨-, h3⟩, _, _, h4, hok⟩ := hok
      cases h1; cases h2; cases h3; cases h4; cases hok
      cases executionId with
      | none => exact ⟨⟨⟨_, rfl⟩, rfl⟩, rfl, rfl⟩
      | some e => exact ⟨⟨⟨_, rfl⟩, rfl⟩, rfl, rfl⟩
  | idempotent actionName payload e => cases h
  | rifl actionName payload e => cases h
  | queryableDistinguishable actionName payload =>
    have hok : applyQueryableDistinguishable amb actionName payload data = .ok (answer, data') := hok
    unfold applyQueryableDistinguishable at hok
    simp only [bind_ok, require_ok, lift_ok, read_ok, write_ok, pure_ok] at hok
    obtain ⟨_, _, ⟨-, h1⟩, key, _, ⟨-, h2⟩, d, _, h3, history, _, ⟨-, h4⟩, _, _, h5, hok⟩ := hok
    cases h1; cases h2; cases h3; cases h4; cases h5; cases hok
    exact ⟨⟨⟨_, rfl⟩, rfl⟩, rfl, rfl⟩
  | incrementCounter counterName delta =>
    have hok : incrementCounter amb counterName delta data = .ok (answer, data') := hok
    unfold incrementCounter at hok
    simp only [bind_ok, require_ok, lift_ok, read_ok, write_ok, pure_ok] at hok
    obtain ⟨_, _, ⟨-, h1⟩, _, _, ⟨-, h2⟩, d, _, h3, _, _, ⟨-, h4⟩, newValue, _, ⟨-, h5⟩, _, _, h6, hok⟩ := hok
    cases h1; cases h2; cases h3; cases h4; cases h5; cases h6; cases hok
    exact ⟨⟨⟨_, rfl⟩, rfl⟩, rfl, rfl⟩

end

/-! ## Histories keep their records -/

open Classical in
/-- How many calls changed the store. -/
noncomputable def changes (es : List TargetEntry) : ℕ := (es.filter fun x => x.after ≠ x.before).length

/-- The entry succeeded, with its record under the id. -/
def TargetEntry.RecordedAs (x : TargetEntry) (e : String) : Prop :=
  (∃ answer, x.result = .ok answer) ∧ x.call.recordId x.amb = e

/-- What a store keeps of the history that led to it. -/
structure HistoryKept (es : List TargetEntry) (data : TargetData) : Prop where
  count : data.stats.totalCommits = changes es
  log : ∀ e, (data.actionLog.get e).isSome ↔ ∃ x ∈ es, x.RecordedAs e
  objects : ∀ e r, data.actionLog.get e = some r → ∃ fields, r = .obj fields
  requests : ∀ api, api.Known → ∀ e,
    ((api.requests data).get e = none ∧ ∀ x ∈ es, ¬ x.Applied api e) ∨
      ∃ x q answer, FirstApplied es api x q answer ∧ q.executionId = e ∧ q.actionName ≠ "" ∧ e ≠ "" ∧
        answer.get "receipt" = some (buildReceipt x.amb (some e)) ∧
        (api.requests data).get e = some (.obj (api.record x.amb q.actionName q.payload e))

section
variable {es : List TargetEntry} {data data' : TargetData} {x y : TargetEntry}

theorem changes_concat_changed (h : x.after ≠ x.before) : changes (es ++ [x]) = changes es + 1 := by
  unfold changes
  rw [List.filter_append, List.length_append, List.filter_cons_of_pos (by simpa using h)]
  rfl

theorem changes_concat_same (h : x.after = x.before) : changes (es ++ [x]) = changes es := by
  unfold changes
  rw [List.filter_append, List.length_append, List.filter_cons_of_neg (by simpa using h)]
  rfl

theorem FirstApplied.concat {api : KeyedApi} {q : KeyedRequest} {answer : JsonObject}
    (h : FirstApplied es api x q answer) : FirstApplied (es ++ [y]) api x q answer := by
  obtain ⟨hrequest, hok, before, after, rfl, hnone⟩ := h
  exact ⟨hrequest, hok, before, after ++ [y], by rw [List.append_assoc, List.cons_append], hnone⟩

/-- One more entry under its id, where the log has one more record. -/
theorem log_concat (h : ∀ e, (data.actionLog.get e).isSome ↔ ∃ x ∈ es, x.RecordedAs e) {id : String} {r : JsonObject}
    (hlog : data'.actionLog = data.actionLog.set id (.obj r)) (hx : x.RecordedAs id) (e : String) :
    (data'.actionLog.get e).isSome ↔ ∃ y ∈ es ++ [x], y.RecordedAs e := by
  rw [hlog]
  by_cases he : e = id
  · subst he
    rw [JsonObject.get_set_self]
    exact ⟨fun _ => ⟨x, List.mem_append_right _ (List.mem_singleton_self x), hx⟩, fun _ => rfl⟩
  · rw [JsonObject.get_set_ne he, h e]
    constructor
    · rintro ⟨y, hy, hrec⟩
      exact ⟨y, List.mem_append_left _ hy, hrec⟩
    · rintro ⟨y, hy, hrec⟩
      rcases List.mem_append.1 hy with hy | hy
      · exact ⟨y, hy, hrec⟩
      · rw [List.mem_singleton.1 hy] at hrec
        exact absurd (hrec.2.symm.trans hx.2) he

/-- An entry that commits. -/
theorem HistoryKept.commits (h : HistoryKept es data) (hx : x.before = data) {id : String}
    (hc : Commits data x.after id) (hrec : x.RecordedAs id) (hrequests : ∀ api, api.Known → ∀ e,
      ((api.requests x.after).get e = none ∧ ∀ y ∈ es ++ [x], ¬ y.Applied api e) ∨
        ∃ y q answer, FirstApplied (es ++ [x]) api y q answer ∧ q.executionId = e ∧ q.actionName ≠ "" ∧ e ≠ "" ∧
          answer.get "receipt" = some (buildReceipt y.amb (some e)) ∧
          (api.requests x.after).get e = some (.obj (api.record y.amb q.actionName q.payload e))) :
    HistoryKept (es ++ [x]) x.after := by
  obtain ⟨⟨r, hlog⟩, hcount⟩ := hc
  refine ⟨?_, log_concat h.log hlog hrec, ?_, hrequests⟩
  · rw [changes_concat_changed (by rw [hx]; exact Commits.changed ⟨⟨r, hlog⟩, hcount⟩), hcount, h.count]
    push_cast
    rfl
  · intro e row hrow
    rw [hlog] at hrow
    by_cases he : e = id
    · subst he
      rw [JsonObject.get_set_self] at hrow
      exact ⟨r, (Option.some.inj hrow).symm⟩
    · rw [JsonObject.get_set_ne he] at hrow
      exact h.objects e row hrow

/-- An entry that leaves the store and is the first success of nothing. -/
theorem HistoryKept.same (h : HistoryKept es data) (hx : x.before = data) (hafter : x.after = data)
    (hrec : ∀ e, x.RecordedAs e → ∃ y ∈ es, y.RecordedAs e)
    (happlied : ∀ api e, x.Applied api e → ∃ y ∈ es, y.Applied api e) : HistoryKept (es ++ [x]) x.after := by
  rw [hafter]
  refine ⟨?_, fun e => ?_, h.objects, fun api hapi e => ?_⟩
  · rw [changes_concat_same (hafter.trans hx.symm)]
    exact h.count
  · rw [h.log e]
    constructor
    · rintro ⟨y, hy, hrec⟩
      exact ⟨y, List.mem_append_left _ hy, hrec⟩
    · rintro ⟨y, hy, hyrec⟩
      rcases List.mem_append.1 hy with hy | hy
      · exact ⟨y, hy, hyrec⟩
      · rw [List.mem_singleton.1 hy] at hyrec
        exact hrec e hyrec
  · rcases h.requests api hapi e with ⟨hnone, hno⟩ | ⟨y, q, answer, hfirst, hrest⟩
    · refine .inl ⟨hnone, fun y hy hyapp => ?_⟩
      rcases List.mem_append.1 hy with hy | hy
      · exact hno y hy hyapp
      · rw [List.mem_singleton.1 hy] at hyapp
        obtain ⟨z, hz, hzapp⟩ := happlied api e hyapp
        exact hno z hz hzapp
    · exact .inr ⟨y, q, answer, hfirst.concat, hrest⟩

/-- An entry that raised. -/
theorem HistoryKept.failed (h : HistoryKept es data) (hx : x.before = data) (hafter : x.after = data) {err : PyError}
    (hfail : x.result = .error err) : HistoryKept (es ++ [x]) x.after := by
  refine h.same hx hafter ?_ ?_
  · rintro e ⟨⟨answer, hok⟩, -⟩
    rw [hfail] at hok
    cases hok
  · rintro api e ⟨q, answer, -, -, hok⟩
    rw [hfail] at hok
    cases hok

theorem FirstApplied.mem {api : KeyedApi} {q : KeyedRequest} {answer : JsonObject}
    (h : FirstApplied es api x q answer) : x ∈ es := by
  obtain ⟨before, after, rfl, -⟩ := h.first
  exact List.mem_append_right _ List.mem_cons_self

/-- A first request that commits is the first success under its id. -/
theorem HistoryKept.stored (h : HistoryKept es data) (hx : x.before = data) {api : KeyedApi} {q : KeyedRequest}
    (hrequest : x.call.keyed x.amb = some (api, q)) (hnone : ∀ y ∈ es, ¬ y.Applied api q.executionId)
    (hok : x.result = .ok (api.answer (buildReceipt x.amb (some q.executionId)) false none))
    (hname : q.actionName ≠ "") (hid : q.executionId ≠ "")
    (hstores : api.Stores data x.after q.executionId (api.record x.amb q.actionName q.payload q.executionId)) :
    HistoryKept (es ++ [x]) x.after := by
  refine h.commits hx hstores.toCommits ⟨⟨_, hok⟩, recordId_keyed hrequest⟩ fun api' hapi' e => ?_
  by_cases hsame : api' = api ∧ e = q.executionId
  · obtain ⟨rfl, rfl⟩ := hsame
    refine .inr ⟨x, q, _, ⟨hrequest, hok, es, [], rfl, hnone⟩, rfl, hname, hid, rfl, ?_⟩
    rw [hstores.requests, JsonObject.get_set_self]
  · have hget : (api'.requests x.after).get e = (api'.requests data).get e := by
      by_cases hapi : api' = api
      · subst hapi
        rw [hstores.requests, JsonObject.get_set_ne fun he => hsame ⟨rfl, he⟩]
      · rw [hstores.others api' hapi' hapi]
    rw [hget]
    rcases h.requests api' hapi' e with ⟨hnone', hno⟩ | ⟨y, q', answer, hfirst, hrest⟩
    · refine .inl ⟨hnone', fun y hy hyapp => ?_⟩
      rcases List.mem_append.1 hy with hy | hy
      · exact hno y hy hyapp
      · rw [List.mem_singleton.1 hy] at hyapp
        obtain ⟨q', answer, hkeyed, rfl, -⟩ := hyapp
        rw [hrequest] at hkeyed
        cases hkeyed
        exact hsame ⟨rfl, rfl⟩
    · exact .inr ⟨y, q', answer, hfirst.concat, hrest⟩

/-- A call of another API that commits. -/
theorem HistoryKept.other (h : HistoryKept es data) (hx : x.before = data) (hkeyed : x.call.keyed x.amb = none)
    {answer : JsonObject} (hok : x.result = .ok answer)
    (hc : Commits data x.after (x.call.recordId x.amb)) (hidem : x.after.idempotentRequests = data.idempotentRequests)
    (hrifl : x.after.riflRequests = data.riflRequests) : HistoryKept (es ++ [x]) x.after := by
  refine h.commits hx hc ⟨⟨_, hok⟩, rfl⟩ fun api hapi e => ?_
  have hrequests : api.requests x.after = api.requests data := by
    rcases hapi with rfl | rfl
    · exact hidem
    · exact hrifl
  rw [hrequests]
  rcases h.requests api hapi e with ⟨hnone, hno⟩ | ⟨y, q, answer, hfirst, hrest⟩
  · refine .inl ⟨hnone, fun y hy hyapp => ?_⟩
    rcases List.mem_append.1 hy with hy | hy
    · exact hno y hy hyapp
    · rw [List.mem_singleton.1 hy] at hyapp
      obtain ⟨q, answer, hsome, -⟩ := hyapp
      rw [hkeyed] at hsome
      cases hsome
  · exact .inr ⟨y, q, answer, hfirst.concat, hrest⟩

/-- **Histories.**  A store keeps the count, the log and the first requests of the calls that led to it. -/
theorem history_kept (h : TargetHistory es data) : HistoryKept es data := by
  induction h with
  | init =>
    refine ⟨?_, fun e => ?_, fun e r hr => ?_, fun api hapi e => .inl ⟨?_, fun x hx => ?_⟩⟩
    · simp [changes]
    · simp [JsonObject.get]
    · cases hr
    · rcases hapi with rfl | rfl
      · exact JsonObject.get_nil e
      · exact JsonObject.get_nil e
    · cases hx
  | @call es data _ amb call ih =>
    cases hkeyed : call.keyed amb with
    | none =>
      cases hrun : call.run amb data with
      | error err =>
        rw [step_error hrun]
        exact ih.failed rfl rfl rfl
      | ok p =>
        obtain ⟨answer, data'⟩ := p
        rw [step_ok hrun]
        obtain ⟨hc, hidem, hrifl⟩ := run_other hkeyed hrun
        exact ih.other rfl hkeyed rfl hc hidem hrifl
    | some p =>
      obtain ⟨api, q⟩ := p
      have hapi := keyed_known hkeyed
      rcases ih.requests api hapi q.executionId with ⟨hget, hnone⟩ |
        ⟨y, q0, answer0, hfirst, hid, hname, hne, hreceipt, hget⟩
      · rcases apply_first hapi hget with ⟨err, herr⟩ | ⟨data', hok, hname, hid, hstores⟩
        · rw [step_error (keyed_run hkeyed ▸ herr)]
          exact ih.failed rfl rfl rfl
        · rw [step_ok (keyed_run hkeyed ▸ hok)]
          exact ih.stored rfl hkeyed hnone rfl hname hid hstores
      · obtain ⟨hsame, hother⟩ := apply_later amb hapi hname hne hget
        by_cases h : q.actionName = q0.actionName ∧ (Json.obj q0.payload).pyEq (.obj q.payload) = true
        · rw [step_ok (keyed_run hkeyed ▸ hsame h)]
          refine ih.same rfl rfl ?_ ?_
          · rintro e ⟨-, rfl⟩
            refine ⟨y, hfirst.mem, ⟨_, hfirst.succeeded⟩, ?_⟩
            rw [recordId_keyed hfirst.request, hid]
            exact (recordId_keyed hkeyed).symm
          · rintro api' e ⟨q', answer, hkeyed', rfl, -⟩
            rw [hkeyed] at hkeyed'
            cases hkeyed'
            exact ⟨y, hfirst.mem, q0, answer0, hfirst.request, hid, hfirst.succeeded⟩
        · obtain ⟨err, herr⟩ := hother h
          rw [step_error (keyed_run hkeyed ▸ herr)]
          exact ih.failed rfl rfl rfl

/-- There is one first success under an id. -/
theorem FirstApplied.unique {api : KeyedApi} {q q' : KeyedRequest} {answer answer' : JsonObject}
    (h : FirstApplied es api x q answer) (h' : FirstApplied es api y q' answer')
    (hid : q.executionId = q'.executionId) : x = y ∧ q = q' ∧ answer = answer' := by
  obtain ⟨before, after, hes, hnone⟩ := h.first
  obtain ⟨before', after', hes', hnone'⟩ := h'.first
  have hx : x.Applied api q'.executionId := ⟨q, answer, h.request, hid, h.succeeded⟩
  have hy : y.Applied api q.executionId := ⟨q', answer', h'.request, hid.symm, h'.succeeded⟩
  have hxy : x = y := by
    rw [hes, List.append_eq_append_iff] at hes'
    rcases hes' with ⟨rest, hbefore, hrest⟩ | ⟨rest, hbefore, hrest⟩
    · cases rest with
      | nil => exact (List.cons.inj hrest).1
      | cons z rest =>
        obtain ⟨rfl, -⟩ := List.cons.inj hrest
        refine absurd hx (hnone' _ ?_)
        rw [hbefore]
        exact List.mem_append_right _ List.mem_cons_self
    · cases rest with
      | nil => exact (List.cons.inj hrest).1.symm
      | cons z rest =>
        obtain ⟨rfl, -⟩ := List.cons.inj hrest
        refine absurd hy (hnone _ ?_)
        rw [hbefore]
        exact List.mem_append_right _ List.mem_cons_self
  subst hxy
  have hq := h.request.symm.trans h'.request
  have ha := h.succeeded.symm.trans h'.succeeded
  cases hq
  cases ha
  exact ⟨rfl, rfl, rfl⟩

/-- A request under an id that has succeeded before: answered, or refused, and the store is left alone. -/
theorem HistoryKept.later (h : HistoryKept es data) {api : KeyedApi} {q q0 : KeyedRequest} {answer0 : JsonObject}
    {amb : TargetAmbient} {call : TargetCall} (hrequest : call.keyed amb = some (api, q))
    (hfirst : FirstApplied es api y q0 answer0) (hid : q0.executionId = q.executionId)
    (hjson : Json.wf (.obj q.payload) = true) :
    (call.step amb data).2 = data ∧
      (q.Same q0 → ∃ answer, (call.step amb data).1 = .ok answer ∧ answer.get "receipt" = answer0.get "receipt") ∧
      (¬ q.Same q0 → ∃ err, (call.step amb data).1 = .error err) := by
  have hapi := keyed_known hrequest
  have hcmp : q.Same q0 ↔ q.actionName = q0.actionName ∧ (Json.obj q0.payload).pyEq (.obj q.payload) = true := by
    unfold KeyedRequest.Same Json.Same
    refine and_congr_right fun _ => ⟨?_, .inr⟩
    rintro (heq | heq)
    · rw [heq]
      exact Json.pyEq_refl _ hjson
    · exact heq
  rcases h.requests api hapi q.executionId with ⟨-, hnone⟩ |
    ⟨z, q1, answer1, hfirst', hid', hname, hne, hreceipt, hget⟩
  · exact absurd ⟨q0, answer0, hfirst.request, hid, hfirst.succeeded⟩ (hnone y hfirst.mem)
  obtain ⟨rfl, rfl, rfl⟩ := hfirst.unique hfirst' (hid.trans hid'.symm)
  obtain ⟨hsame, hother⟩ := apply_later amb hapi hname hne hget
  rw [hcmp]
  by_cases hq : q.actionName = q0.actionName ∧ (Json.obj q0.payload).pyEq (.obj q.payload) = true
  · rw [step_ok (keyed_run hrequest ▸ hsame hq)]
    exact ⟨rfl, fun _ => ⟨_, rfl, hreceipt.symm⟩, fun hno => absurd hq hno⟩
  · obtain ⟨err, herr⟩ := hother hq
    rw [step_error (keyed_run hrequest ▸ herr)]
    exact ⟨rfl, fun hyes => absurd hyes hq, fun _ => ⟨err, rfl⟩⟩

/-- The first success under an id changes the store. -/
theorem HistoryKept.first (h : HistoryKept es data) {api : KeyedApi} {q : KeyedRequest} {answer : JsonObject}
    {amb : TargetAmbient} {call : TargetCall} (hrequest : call.keyed amb = some (api, q))
    (hnone : ∀ y ∈ es, ¬ y.Applied api q.executionId) (hok : (call.step amb data).1 = .ok answer) :
    (call.step amb data).2 ≠ data := by
  have hapi := keyed_known hrequest
  rcases h.requests api hapi q.executionId with ⟨hget, -⟩ | ⟨z, q1, answer1, hfirst, hid, -⟩
  · rcases apply_first hapi hget with ⟨err, herr⟩ | ⟨data', hrun, -, -, hstores⟩
    · rw [step_error (keyed_run hrequest ▸ herr)] at hok
      cases hok
    · rw [step_ok (keyed_run hrequest ▸ hrun)]
      exact hstores.toCommits.changed
  · exact absurd ⟨q1, answer1, hfirst.request, hid, hfirst.succeeded⟩ (hnone z hfirst.mem)

/-- What is found under an id. -/
theorem HistoryKept.found_iff (h : HistoryKept es data) (e : String) :
    (∃ record, data.getActionByExecutionId e = .ok (some record)) ↔ e ≠ "" ∧ ∃ x ∈ es, x.RecordedAs e := by
  unfold TargetData.getActionByExecutionId
  by_cases he : e = ""
  · simp [he]
  · rw [if_neg he, ← h.log e]
    cases hget : data.actionLog.get e with
    | some r =>
      obtain ⟨fields, rfl⟩ := h.objects e r hget
      simp [he]
    | none =>
      have hno : ∀ api : KeyedApi, api.Known → (api.requests data).get e = none := by
        intro api hapi
        rcases h.requests api hapi e with ⟨hnone, -⟩ | ⟨x, q, answer, hfirst, rfl, -⟩
        · exact hnone
        · have hlog := (h.log q.executionId).2 ⟨x, hfirst.mem, ⟨_, hfirst.succeeded⟩, recordId_keyed hfirst.request⟩
          rw [hget] at hlog
          cases hlog
      have hidem : data.idempotentRequests.get e = none := hno idempotentApi (.inl rfl)
      have hrifl : data.riflRequests.get e = none := hno riflApi (.inr rfl)
      rw [hidem, hrifl]
      simp

end

/-- What a call does after the history, and what the store has of it. -/
structure TargetExact (es : List TargetEntry) (data : TargetData) : Prop where
  first : ∀ (amb : TargetAmbient) (call : TargetCall) (api : KeyedApi) (q : KeyedRequest) (answer : JsonObject),
    call.keyed amb = some (api, q) → (∀ x ∈ es, ¬ x.Applied api q.executionId) →
      (call.step amb data).1 = .ok answer → (call.step amb data).2 ≠ data
  later : ∀ (amb : TargetAmbient) (call : TargetCall) (api : KeyedApi) (q q0 : KeyedRequest) (x : TargetEntry)
    (answer0 : JsonObject), call.keyed amb = some (api, q) → Json.wf (.obj q.payload) = true →
      FirstApplied es api x q0 answer0 → q0.executionId = q.executionId →
      (call.step amb data).2 = data ∧
        (q.Same q0 → ∃ answer, (call.step amb data).1 = .ok answer ∧
          answer.get "receipt" = answer0.get "receipt") ∧
        (¬ q.Same q0 → ∃ err, (call.step amb data).1 = .error err)
  commits : data.stats.totalCommits = changes es
  found : ∀ e, (∃ record, data.getActionByExecutionId e = .ok (some record)) ↔
    e ≠ "" ∧ ∃ x ∈ es, x.RecordedAs e

/-- **The mock target.**  After any history of calls: a keyed request whose id has not succeeded changes the
store when it succeeds; one whose id has is answered with the first receipt when it is the same, refused
otherwise, and leaves the store; the commits are the calls that changed the store; and a record is found
under the execution ids of the applies that succeeded and the action ids of the other calls. -/
theorem target_exact {es : List TargetEntry} {data : TargetData} (h : TargetHistory es data) :
    TargetExact es data := by
  have hkept := history_kept h
  exact ⟨fun amb call api q answer hrequest hnone hok => hkept.first hrequest hnone hok,
    fun amb call api q q0 x answer0 hrequest hjson hfirst hid => hkept.later hrequest hfirst hid hjson,
    hkept.count, hkept.found_iff⟩

/-! ## Two histories -/

/-- A queryable call leaves a record under its action id. -/
def queryableCall : TargetCall := .queryableDistinguishable "set_value" [("key", .str "k"), ("value", .int 1)]

/-- One id, with the value `1` and then `true`. -/
def setCall (value : Json) : TargetCall := .idempotent "set_value" [("key", .str "k"), ("value", value)] "e"

def afterQueryable : TargetData := (queryableCall.step plainAmbient {}).2

def afterSet : TargetData := ((setCall (.int 1)).step plainAmbient {}).2

/-- No apply call has succeeded, and yet a record is found; a request with another payload is answered. -/
theorem target_inexact : (∃ x, TargetHistory [x] afterQueryable ∧ x.call.executionId x.amb = none ∧
      ∃ record, afterQueryable.getActionByExecutionId "a" = .ok (some record)) ∧
    ∃ x, TargetHistory [x] afterSet ∧ x.call = setCall (.int 1) ∧
      ((setCall (.bool true)).step plainAmbient afterSet).1.toBool = true := by
  refine ⟨⟨_, .call .init plainAmbient queryableCall, rfl, ?_⟩,
    ⟨_, .call .init plainAmbient (setCall (.int 1)), rfl, ?_⟩⟩
  · exact ⟨_, rfl⟩
  · decide +kernel

def setEntry : TargetEntry :=
  ⟨plainAmbient, setCall (.int 1), ((setCall (.int 1)).step plainAmbient {}).1, {}, afterSet⟩

/-- The first request under its id, and the same request again. -/
theorem target_exact_set : ((setCall (.int 1)).step plainAmbient afterSet).2 = afterSet ∧
    afterSet.stats.totalCommits = changes [setEntry] := by
  have hhistory : TargetHistory [setEntry] afterSet := .call .init plainAmbient (setCall (.int 1))
  have hkeyed : (setCall (.int 1)).keyed plainAmbient =
      some (idempotentApi, ⟨"set_value", [("key", .str "k"), ("value", .int 1)], "e"⟩) := rfl
  have hok : setEntry.result =
      .ok (idempotentApi.answer (buildReceipt plainAmbient (some "e")) false none) := rfl
  have hexact := target_exact hhistory
  refine ⟨?_, hexact.commits⟩
  refine (hexact.later plainAmbient _ _ _ _ setEntry _ hkeyed (by decide +kernel)
    ⟨hkeyed, hok, [], [], rfl, fun y hy => ?_⟩ rfl).1
  cases hy

end Raef
