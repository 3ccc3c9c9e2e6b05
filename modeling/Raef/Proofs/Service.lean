import Raef.Proofs.Receipts
import Raef.Proofs.LogFirst
import Raef.Proofs.Audited
import Raef.Proofs.Issued

/-!
# Acknowledged writes are committed once

The mock target behind an adapter that forwards the execution id, as the tests drive it: a request
may be lost on its way, an answer on its way back, the process at any point, and other clients call
the target in between.

    what a target answers under an id is the receipt of its one commit   (history_once)
    an acknowledged record holds an answer of the adapter                (reach_answered)
    what the target holds under an id was sent by a call for it          (reach_served)
    → an acknowledged write is committed exactly once                    (acknowledged_once)

The target alone would commit once per id; that an acknowledged record is backed by that commit, and
that a commit has a record recovery can find, is the protocol's.
-/

namespace Raef

open Text Txn Program

/-! ## The service -/

/-- The mock target with the calls it has answered. -/
structure Service where
  data : TargetData := {}
  history : List TargetEntry := []

namespace Service

def serve (t : Service) (amb : TargetAmbient) (call : TargetCall) : Service where
  data := (call.step amb t.data).2
  history := t.history ++ [⟨amb, call, (call.step amb t.data).1, t.data, (call.step amb t.data).2⟩]

/-- Calls of other clients, none of them under an id of `own`. -/
abbrev Others (own : String → Prop) : Service → Service → Prop :=
  Relation.ReflTransGen fun t t' => ∃ amb call, ¬ own (call.recordId amb) ∧ t' = t.serve amb call

/-- `FaultyTargetAdapter.invoke`, where `read` takes the action and its payload from the request: an
answer, a refusal of the target, a request or an answer that is lost, or an error before the request. -/
inductive Invoked (read : JsonObject → Option (String × JsonObject)) (mode : IdempotencyMode)
    (own : String → Prop) (call : Invocation) (t : Service) : InvokeOutcome → Service → Prop
  | raised (error : String) : Invoked read mode own call t (.raised error) t
  | requestLost (error : String) : Invoked read mode own call t (.ambiguous error) t
  | answered {amb : TargetAmbient} {actionName : String} {payload answer : JsonObject}
      (reads : read call.requestPayload = some (actionName, payload)) (fresh : ¬ own amb.executionUuid)
      (accepts : ((TargetCall.action mode actionName payload call.executionId).step amb t.data).1 = .ok answer) :
      Invoked read mode own call t (.returned answer)
        (t.serve amb (.action mode actionName payload call.executionId))
  | answerLost {amb : TargetAmbient} {actionName : String} {payload answer : JsonObject} (error : String)
      (reads : read call.requestPayload = some (actionName, payload)) (fresh : ¬ own amb.executionUuid)
      (accepts : ((TargetCall.action mode actionName payload call.executionId).step amb t.data).1 = .ok answer) :
      Invoked read mode own call t (.ambiguous error)
        (t.serve amb (.action mode actionName payload call.executionId))
  | refused {amb : TargetAmbient} {actionName : String} {payload : JsonObject} {error : PyError}
      (reads : read call.requestPayload = some (actionName, payload)) (fresh : ¬ own amb.executionUuid)
      (refuses : ((TargetCall.action mode actionName payload call.executionId).step amb t.data).1 = .error error) :
      Invoked read mode own call t (.raised error.message)
        (t.serve amb (.action mode actionName payload call.executionId))

/-- The adapter and `MockTargetVerifier` over the service; a probe may find no answer. -/
def environment (read : JsonObject → Option (String × JsonObject)) (mode : IdempotencyMode)
    (own : String → Prop) : Environment Service where
  invoke call t outcome t' := ∃ t1 t2, Others own t t1 ∧ Invoked read mode own call t1 outcome t2 ∧ Others own t2 t'
  verify probe t answer t' := ∃ t1, Others own t t1 ∧ Others own t1 t' ∧
    (answer = none ∨ ∃ v, t1.data.verifyWrite probe = .ok v ∧ answer = some v.toVerification)
  onHandoff _ _ := True

/-- The data is what the calls have left. -/
abbrev Wf (t : Service) : Prop := TargetHistory t.history t.data

end Service

/-! ## Statements -/

open Classical in
/-- The calls that changed the store under the id. -/
noncomputable def commitsOf (es : List TargetEntry) (e : String) : List TargetEntry :=
  es.filter fun x => x.RecordedAs e ∧ x.after ≠ x.before

/-- The calls for the id are writes whose adapter is given the id. -/
def ForwardsId {ι : Type} (calls : ι → Call) (e : String) : Prop :=
  ∀ i mgr c, calls i = .executeTool mgr c → c.executionId = e →
    normalizeOperationType c.operationType = .ok .write ∧ c.idempotencySupported = true

/-- What an acknowledged record of the id is backed by: one commit, asked for by a call of the pool, whose
receipt is in the payload of the record. -/
def Backed {ι : Type} (read : JsonObject → Option (String × JsonObject)) (calls : ι → Call) (t : Service)
    (e : String) (row : ExternalResultRecord) : Prop :=
  ∃ x q payload, commitsOf t.history e = [x] ∧ x.call.keyed x.amb = some (idempotentApi, q) ∧
    (∃ i mgr c, calls i = .executeTool mgr c ∧ c.executionId = e ∧
      read c.requestPayload = some (q.actionName, q.payload)) ∧
    row.responsePayload = some payload ∧ payload.get "receipt" = some (buildReceipt x.amb (some e))

/-! ## One commit under an id -/

/-- Whatever is called under the id is a request of the API. -/
def OnlyKeyed (api : KeyedApi) (es : List TargetEntry) (e : String) : Prop :=
  ∀ x ∈ es, x.call.recordId x.amb = e → ∃ q, x.call.keyed x.amb = some (api, q)

/-- The one commit under an id, whose receipt every answer repeats. -/
structure OneCommit (es : List TargetEntry) (e : String) (x : TargetEntry) : Prop where
  mem : x ∈ es
  commits : commitsOf es e = [x]
  receipt : ∀ y ∈ es, ∀ answer, y.call.recordId y.amb = e → y.result = .ok answer →
    answer.get "receipt" = some (buildReceipt x.amb (some e))

section
variable {es : List TargetEntry} {data : TargetData} {x y : TargetEntry} {e : String} {api : KeyedApi}

theorem mem_commitsOf : x ∈ commitsOf es e ↔ x ∈ es ∧ x.RecordedAs e ∧ x.after ≠ x.before := by
  unfold commitsOf
  simp

theorem commitsOf_concat_pos (h : y.RecordedAs e) (hc : y.after ≠ y.before) :
    commitsOf (es ++ [y]) e = commitsOf es e ++ [y] := by
  unfold commitsOf
  rw [List.filter_append, List.filter_cons_of_pos (by simpa using ⟨h, hc⟩), List.filter_nil]

theorem commitsOf_concat_neg (h : ¬ (y.RecordedAs e ∧ y.after ≠ y.before)) :
    commitsOf (es ++ [y]) e = commitsOf es e := by
  unfold commitsOf
  rw [List.filter_append, List.filter_cons_of_neg (by simpa using h), List.filter_nil, List.append_nil]

/-- An entry that does not commit under the id, and answers the receipt if it answers. -/
theorem OneCommit.concat (h : OneCommit es e x) (hno : ¬ (y.RecordedAs e ∧ y.after ≠ y.before))
    (hreceipt : ∀ answer, y.call.recordId y.amb = e → y.result = .ok answer →
      answer.get "receipt" = some (buildReceipt x.amb (some e))) : OneCommit (es ++ [y]) e x := by
  refine ⟨List.mem_append_left _ h.mem, (commitsOf_concat_neg hno).trans h.commits, fun z hz answer hid hok => ?_⟩
  rcases List.mem_append.1 hz with hz | hz
  · exact h.receipt z hz answer hid hok
  · rw [List.mem_singleton.1 hz] at hid hok
    exact hreceipt answer hid hok

/-- Nothing has been recorded under the id, nor is it by the new entry. -/
theorem commitsOf_none (h : ∀ y ∈ es, ¬ y.RecordedAs e) : commitsOf es e = [] := by
  unfold commitsOf
  refine List.filter_eq_nil_iff.2 fun y hy => ?_
  simp [h y hy]

/-- **Histories commit an id once.**  Under an id that only one keyed API is called for, nothing has been
recorded, or one call has committed and every answer has its receipt. -/
theorem history_once (h : TargetHistory es data) (hapi : api.Known) (hkeyed : OnlyKeyed api es e) :
    (∀ y ∈ es, ¬ y.RecordedAs e) ∨ ∃ x, OneCommit es e x := by
  induction h with
  | init => exact .inl fun y hy => by cases hy
  | @call es data hbefore amb call ih =>
    have hkept := history_kept hbefore
    have ih := ih fun x hx => hkeyed x (List.mem_append_left _ hx)
    have hother {y : TargetEntry} (hno : ¬ y.RecordedAs e)
        (hreceipt : ∀ answer, y.call.recordId y.amb = e → y.result ≠ .ok answer) :
        (∀ z ∈ es ++ [y], ¬ z.RecordedAs e) ∨ ∃ x, OneCommit (es ++ [y]) e x := by
      rcases ih with hnone | ⟨x, hx⟩
      · refine .inl fun z hz => ?_
        rcases List.mem_append.1 hz with hz | hz
        · exact hnone z hz
        · rwa [List.mem_singleton.1 hz]
      · exact .inr ⟨x, hx.concat (fun hboth => hno hboth.1) fun answer hid hok => absurd hok (hreceipt answer hid)⟩
    by_cases hid : call.recordId amb = e
    · obtain ⟨q, hq⟩ := hkeyed _ (List.mem_append_right _ (List.mem_singleton_self _)) hid
      have hqe : q.executionId = e := (recordId_keyed hq).symm.trans hid
      have hfailed {err : PyError} (herr : api.apply amb q.actionName q.payload q.executionId data = .error err) :
          (call.step amb data) = (.error err, data) := step_error (keyed_run hq ▸ herr)
      rcases hkept.requests api hapi q.executionId with ⟨hget, hno⟩ |
        ⟨z, q0, answer0, hfirst, hid0, hname, hne, hreceipt0, hget⟩
      · -- the first request under the id that may succeed
        rcases apply_first hapi hget with ⟨err, herr⟩ | ⟨data', hok, -, -, hstores⟩
        · rw [hfailed herr]
          refine hother ?_ fun answer _ hok => by cases hok
          rintro ⟨⟨answer, hok⟩, -⟩
          cases hok
        · have hstep : call.step amb data = (.ok (api.answer (buildReceipt amb (some q.executionId)) false none), data') :=
            step_ok (keyed_run hq ▸ hok)
          have hnone : ∀ y ∈ es, ¬ y.RecordedAs e := by
            rintro y hy ⟨⟨answer, hyok⟩, hyid⟩
            obtain ⟨qy, hqy⟩ := hkeyed y (List.mem_append_left _ hy) hyid
            exact hno y hy ⟨qy, answer, hqy, ((recordId_keyed hqy).symm.trans hyid).trans hqe.symm, hyok⟩
          rw [hstep]
          refine .inr ⟨_, List.mem_append_right _ (List.mem_singleton_self _), ?_, fun y hy answer hyid hyok => ?_⟩
          · rw [commitsOf_concat_pos ⟨⟨_, rfl⟩, hid⟩ hstores.toCommits.changed, commitsOf_none hnone, List.nil_append]
          · rcases List.mem_append.1 hy with hy | hy
            · exact absurd ⟨⟨answer, hyok⟩, hyid⟩ (hnone y hy)
            · rw [List.mem_singleton.1 hy] at hyok
              cases hyok
              rw [hqe]
              rfl
      · -- a request under an id that has its record
        have hz : z.RecordedAs e := ⟨⟨_, hfirst.succeeded⟩, (recordId_keyed hfirst.request).trans (hid0.trans hqe)⟩
        obtain ⟨x, hx⟩ := ih.resolve_left fun hnone => hnone z hfirst.mem hz
        have hsame : some (buildReceipt z.amb (some e)) = some (buildReceipt x.amb (some e)) := by
          rw [← hx.receipt z hfirst.mem answer0 hz.2 hfirst.succeeded, hreceipt0, hqe]
        obtain ⟨happly, hrefuse⟩ := apply_later amb hapi hname hne hget
        by_cases hq0 : q.actionName = q0.actionName ∧ (Json.obj q0.payload).pyEq (.obj q.payload) = true
        · rw [step_ok (keyed_run hq ▸ happly hq0)]
          refine .inr ⟨x, hx.concat (fun hboth => hboth.2 rfl) fun answer _ hok => ?_⟩
          cases hok
          rw [← hsame, ← hqe]
          rfl
        · obtain ⟨err, herr⟩ := hrefuse hq0
          rw [hfailed herr]
          refine .inr ⟨x, hx.concat (fun hboth => hboth.2 rfl) fun answer _ hok => ?_⟩
          cases hok
    · exact hother (fun hrec => hid hrec.2) fun answer hyid => absurd hyid hid

end

/-! ## What the service has answered -/

namespace Service

variable {read : JsonObject → Option (String × JsonObject)} {mode : IdempotencyMode} {own : String → Prop}
  {t t' : Service}

theorem wf_serve (h : t.Wf) (amb : TargetAmbient) (call : TargetCall) : (t.serve amb call).Wf := .call h amb call

theorem Others.wf (h : Others own t t') (ht : t.Wf) : t'.Wf := by
  induction h with
  | refl => exact ht
  | tail _ hstep ih =>
    obtain ⟨amb, call, -, rfl⟩ := hstep
    exact wf_serve ih amb call

/-- Others add entries, none of them under our ids. -/
theorem Others.history (h : Others own t t') :
    ∃ added, t'.history = t.history ++ added ∧ ∀ x ∈ added, ¬ own (x.call.recordId x.amb) := by
  induction h with
  | refl => exact ⟨[], (List.append_nil _).symm, fun x hx => by cases hx⟩
  | @tail t1 t2 _ hstep ih =>
    obtain ⟨amb, call, hown, rfl⟩ := hstep
    obtain ⟨added, hadded, hfree⟩ := ih
    refine ⟨added ++ [⟨amb, call, (call.step amb t1.data).1, t1.data, (call.step amb t1.data).2⟩], ?_, fun x hx => ?_⟩
    · show t1.history ++ _ = _
      rw [hadded, List.append_assoc]
    · rcases List.mem_append.1 hx with hx | hx
      · exact hfree x hx
      · rw [List.mem_singleton.1 hx]
        exact hown

end Service

/-- The entry is the request of a call of the pool, made under its id, which the trace has as sent. -/
def TargetEntry.Served {ι : Type} (read : JsonObject → Option (String × JsonObject)) (mode : IdempotencyMode)
    (calls : ι → Call) (trace : List Mark) (x : TargetEntry) : Prop :=
  ∃ i mgr c actionName payload, calls i = .executeTool mgr c ∧ read c.requestPayload = some (actionName, payload) ∧
    x.call = .action mode actionName payload (some c.executionId) ∧ ∃ outcome, .sent c.executionId outcome ∈ trace

/-- What the service and the trace of a pool have in common. -/
structure ServedBy {ι : Type} (read : JsonObject → Option (String × JsonObject)) (mode : IdempotencyMode)
    (own : String → Prop) (calls : ι → Call) (w : World Service) : Prop where
  wf : w.target.Wf
  served : ∀ x ∈ w.target.history, own (x.call.recordId x.amb) → x.Served read mode calls w.trace
  answered : ∀ e payload, ForwardsId calls e → .sent e (.returned payload) ∈ w.trace →
    ∃ y ∈ w.target.history, y.call.recordId y.amb = e ∧ y.result = .ok payload

section
variable {ι : Type} {cfg : LoggingServiceConfig} {read : JsonObject → Option (String × JsonObject)}
  {mode : IdempotencyMode} {own : String → Prop} {calls : ι → Call} {w w' : World Service}

theorem TargetEntry.Served.mono {trace trace' : List Mark} {x : TargetEntry} (h : x.Served read mode calls trace)
    (hsub : trace ⊆ trace') : x.Served read mode calls trace' := by
  obtain ⟨i, mgr, c, actionName, payload, hi, hread, hcall, outcome, hsent⟩ := h
  exact ⟨i, mgr, c, actionName, payload, hi, hread, hcall, outcome, hsub hsent⟩

/-- A target that went on, with a trace that has no new answer. -/
theorem ServedBy.others (h : ServedBy read mode own calls w) (ht : Service.Others own w.target w'.target)
    (hsub : w.trace ⊆ w'.trace)
    (hmarks : ∀ e payload, .sent e (.returned payload) ∈ w'.trace → .sent e (.returned payload) ∈ w.trace) :
    ServedBy read mode own calls w' := by
  obtain ⟨added, hadded, hfree⟩ := ht.history
  refine ⟨ht.wf h.wf, fun x hx hown => ?_, fun e payload he hsent => ?_⟩
  · rw [hadded] at hx
    rcases List.mem_append.1 hx with hx | hx
    · exact (h.served x hx hown).mono hsub
    · exact absurd hown (hfree x hx)
  · obtain ⟨y, hy, hyid, hyok⟩ := h.answered e payload he (hmarks e payload hsent)
    rw [hadded]
    exact ⟨y, List.mem_append_left _ hy, hyid, hyok⟩

/-- A store that changed, and nothing else. -/
theorem ServedBy.store (h : ServedBy read mode own calls w) (ht : w'.target = w.target) (htr : w'.trace = w.trace) :
    ServedBy read mode own calls w' := by
  refine h.others ?_ ?_ fun e payload hsent => ?_
  · rw [ht]
  · rw [htr]
    exact List.Subset.refl _
  · rwa [htr] at hsent

theorem recordId_action {amb : TargetAmbient} {actionName e : String} {payload : JsonObject} (he : e ≠ "") :
    (TargetCall.action mode actionName payload (some e)).recordId amb = e := by
  show (if e = "" then amb.executionUuid else e) = e
  rw [if_neg he]

/-- The request of the adapter is served: under the id of its call, or under a fresh one. -/
theorem ServedBy.serve (h : ServedBy read mode own calls w) {call : Invocation} {outcome : InvokeOutcome}
    {i : ι} {mgr : TransactionManager} {c : ToolCall} {op : OperationType} (hi : calls i = .executeTool mgr c)
    (hop : normalizeOperationType c.operationType = .ok op) (hcall : call = c.invocation op) {amb : TargetAmbient}
    {actionName : String} {payload : JsonObject} (hreads : read call.requestPayload = some (actionName, payload))
    (hfresh : ¬ own amb.executionUuid)
    (hanswer : ∀ answer, outcome = .returned answer →
      ((TargetCall.action mode actionName payload call.executionId).step amb w.target.data).1 = .ok answer)
    (hw : w' = { w with
      target := w.target.serve amb (.action mode actionName payload call.executionId)
      trace := w.trace ++ [.sent call.identity outcome] }) : ServedBy read mode own calls w' := by
  subst hcall hw
  have hne : c.executionId ≠ "" := buildExecutionId_ne_empty _ _ _ _ _
  refine ⟨Service.wf_serve h.wf _ _, fun x hx hown => ?_, fun e p he hsent => ?_⟩
  · rcases List.mem_append.1 hx with hx | hx
    · exact (h.served x hx hown).mono (List.subset_append_left _ _)
    · rw [List.mem_singleton.1 hx] at hown ⊢
      unfold ToolCall.invocation at hown ⊢
      dsimp only at hown ⊢
      split at hown
      · next hforwards =>
        rw [if_pos hforwards]
        exact ⟨i, mgr, c, actionName, payload, hi, hreads, rfl, outcome,
          List.mem_append_right _ (List.mem_singleton_self _)⟩
      · exact absurd hown hfresh
  · rcases List.mem_append.1 hsent with hsent | hsent
    · obtain ⟨y, hy, hyid, hyok⟩ := h.answered e p he hsent
      exact ⟨y, List.mem_append_left _ hy, hyid, hyok⟩
    · cases List.mem_singleton.1 hsent
      obtain ⟨hwrite, hidem⟩ := he i mgr c hi rfl
      cases hop.symm.trans hwrite
      have hid : (c.invocation .write).executionId = some c.executionId := if_pos ⟨rfl, hidem⟩
      refine ⟨_, List.mem_append_right _ (List.mem_singleton_self _), ?_, hanswer p rfl⟩
      rw [hid]
      exact recordId_action hne

/-- The adapter is called by tool calls only. -/
theorem issued_send {c : Call} {inv : Invocation} (h : IssuedBy c (.invoke inv)) : ∃ mgr c' op,
    c = .executeTool mgr c' ∧ normalizeOperationType c'.operationType = .ok op ∧ inv = c'.invocation op := by
  cases h with
  | send mgr type => exact ⟨mgr, _, _, rfl, type, rfl⟩

/-- Every operation of a call keeps what the service and the trace have in common, if a tool call is the pool's. -/
theorem servedBy_op {call : Call} (hcall : ∀ mgr tool, call = .executeTool mgr tool → ∃ i, calls i = call) {o : Op}
    {r : Except PyError o.Res} (ho : IssuedBy call o) (h : ServedBy read mode own calls w)
    (hs : sem cfg (Service.environment read mode own) w o r w') : ServedBy read mode own calls w' := by
  cases o with
  | facade o => exact sem_facade (P := ServedBy read mode own calls) hs h fun _ _ _ _ => h.store rfl rfl
  | invoke inv =>
    obtain ⟨outcome, t', ⟨t1, t2, hbefore, hinvoked, hafter⟩, rfl, rfl⟩ := sem_invoke.1 hs
    obtain ⟨mgr, c, op, rfl, hop, hinv⟩ := issued_send ho
    obtain ⟨i, hi⟩ := hcall mgr c rfl
    have h1 : ServedBy read mode own calls { w with target := t1 } :=
      h.others hbefore (List.Subset.refl _) fun _ _ hsent => hsent
    -- an outcome with no answer, the target left as it is
    have hunheard (hno : ∀ answer, outcome ≠ .returned answer) (ht : t2 = t1) :
        ServedBy read mode own calls { w with target := t2, trace := w.trace ++ [.sent inv.identity outcome] } := by
      subst ht
      refine h1.others .refl (List.subset_append_left _ _) fun e payload hsent => ?_
      rcases List.mem_append.1 hsent with hsent | hsent
      · exact hsent
      · cases List.mem_singleton.1 hsent
        exact absurd rfl (hno payload)
    have h2 : ServedBy read mode own calls { w with target := t2, trace := w.trace ++ [.sent inv.identity outcome] } := by
      cases hinvoked with
      | raised error => exact hunheard (fun answer heq => by cases heq) rfl
      | requestLost error => exact hunheard (fun answer heq => by cases heq) rfl
      | answered reads fresh accepts =>
        exact h1.serve hi hop hinv reads fresh (fun answer heq => by cases heq; exact accepts) rfl
      | answerLost error reads fresh accepts =>
        exact h1.serve hi hop hinv reads fresh (fun answer heq => by cases heq) rfl
      | refused reads fresh refuses => exact h1.serve hi hop hinv reads fresh (fun answer heq => by cases heq) rfl
    exact h2.others hafter (List.Subset.refl _) fun _ _ hsent => hsent
  | verify probe =>
    obtain ⟨answer, t', ⟨t1, hbefore, hafter, -⟩, rfl, rfl⟩ := sem_verify.1 hs
    refine h.others (hbefore.trans hafter) (List.subset_append_left _ _) fun e payload hsent => ?_
    rcases List.mem_append.1 hsent with hsent | hsent
    · exact hsent
    · cases List.mem_singleton.1 hsent
  | handoff d =>
    rcases sem_handoff hs with rfl | ⟨keys, rfl⟩
    · exact h
    · refine h.others .refl (List.subset_append_left _ _) fun e payload hsent => ?_
      rcases List.mem_append.1 hsent with hsent | hsent
      · exact hsent
      · cases List.mem_singleton.1 hsent

theorem servedBy_start : ServedBy read mode own calls { target := {} } := by
  refine ⟨.init, fun x hx => ?_, fun e payload _ hsent => ?_⟩
  · cases hx
  · cases hsent

/-- **The service holds what was sent.** -/
theorem reach_served [DecidableEq ι] {w : World Service} {pool : Pool ι Op Op.Res PyError fun i => (calls i).Result}
    (hr : Reach (fun _ => sem cfg (Service.environment read mode own))
      ({ target := {} }, fun i => some (calls i).program) (w, pool)) : ServedBy read mode own calls w :=
  reach_issued (fun i _ _ _ _ ho h hs => servedBy_op (fun _ _ _ => ⟨i, rfl⟩) ho h hs) servedBy_start hr

end

/-! ## Acknowledged records -/

/-- An acknowledged record holds an answer of the adapter. -/
def Answered {τ : Type} (w : World τ) : Prop :=
  ∀ e row, w.store.externalResults.get e = some row → row.executionStatus = .acked →
    ∃ payload, row.responsePayload = some payload ∧ .sent e (.returned payload) ∈ w.trace

section
variable {τ : Type} {cfg : LoggingServiceConfig} {env : Environment τ} {w w' : World τ}

/-- The trace goes on. -/
abbrev Onward (w w' : World τ) : Prop := w.trace <+: w'.trace

theorem Answered.mono {w w' : World τ} (h : Answered w) (hrows : w'.store.externalResults = w.store.externalResults)
    (ht : Onward w w') : Answered w' := by
  intro e row hrow hst
  rw [hrows] at hrow
  obtain ⟨payload, hp, hsent⟩ := h e row hrow hst
  exact ⟨payload, hp, ht.subset hsent⟩

/-- One record written: if it is acknowledged, with an answer that was given for its id. -/
theorem answered_put {s : Store} {new : ExternalResultRecord} (h : Answered w)
    (hput : s.externalResults = w.store.externalResults.put new)
    (hnew : new.executionStatus = .acked → ∃ payload, new.responsePayload = some payload ∧
      .sent new.executionId (.returned payload) ∈ w.trace) : Answered { w with store := s } := by
  intro e row hrow hst
  have hrow : s.externalResults.get e = some row := hrow
  rw [hput, Table.get_put] at hrow
  split at hrow
  · next heq =>
    cases hrow
    rw [heq]
    exact hnew hst
  · exact h e row hrow hst

theorem answered_result {a : ToolResult} {st : ExecutionStatus} (hst : a.executionStatus = some st.value)
    (hacked : st = .acked → ∃ payload, a.responsePayload = some payload ∧
      .sent a.executionId (.returned payload) ∈ w.trace) {r : Except PyError ExternalResultRecord} (h : Answered w)
    (hs : sem cfg env w (.facade (.recordToolResult a)) r w') : Answered w' ∧ Onward w w' := by
  refine sem_facade (P := fun w' => Answered w' ∧ Onward w w') hs ⟨h, List.prefix_refl _⟩ fun amb p s hx => ?_
  obtain ⟨es, new, hr, -⟩ := result_records (FacadeOp.exec_recordToolResult.1 hx)
  refine ⟨answered_put h hr.externalResults fun hnew => ?_, List.prefix_refl _⟩
  rw [hr.executionStatus, hr.status_eq hst] at hnew
  rw [hr.responsePayload, hr.executionId]
  exact hacked hnew

/-- Every operation but a result keeps the acknowledged records. -/
theorem answered_op {o : Op} {r : Except PyError o.Res} (hno : ∀ a, o ≠ .facade (.recordToolResult a)) (h : Answered w)
    (hs : sem cfg env w o r w') : Answered w' ∧ Onward w w' := by
  cases o with
  | facade o =>
    refine sem_facade (P := fun w' => Answered w' ∧ Onward w w') hs ⟨h, List.prefix_refl _⟩ fun amb p s hx => ?_
    refine ⟨?_, List.prefix_refl _⟩
    cases ho : o.plain with
    | true => exact h.mono (exec_framed ho hx).externalResults (List.prefix_refl _)
    | false =>
      cases o with
      | recordToolIntent a =>
        rcases intent_records (FacadeOp.exec_recordToolIntent.1 hx) with hf | ⟨-, -, hput, -, -⟩
        · exact h.mono hf.externalResults (List.prefix_refl _)
        · exact answered_put h hput fun hst => by cases hst
      | recordToolDispatch runId e =>
        obtain ⟨row, new, hd, -⟩ := dispatch_records (FacadeOp.exec_recordToolDispatch.1 hx)
        refine answered_put h hd.externalResults fun hst => ?_
        rw [hd.executionStatus] at hst
        cases hst
      | recordToolResult a => exact absurd rfl (hno a)
      | _ => cases ho
  | invoke call =>
    obtain ⟨_, _, -, -, rfl⟩ := sem_invoke.1 hs
    exact ⟨h.mono rfl (List.prefix_append _ _), List.prefix_append _ _⟩
  | verify probe =>
    obtain ⟨_, _, -, -, rfl⟩ := sem_verify.1 hs
    exact ⟨h.mono rfl (List.prefix_append _ _), List.prefix_append _ _⟩
  | handoff d =>
    rcases sem_handoff hs with rfl | ⟨keys, rfl⟩
    · exact ⟨h, List.prefix_refl _⟩
    · exact ⟨h.mono rfl (List.prefix_append _ _), List.prefix_append _ _⟩

/-- Safe in a pool, whatever the result. -/
abbrev AnsweredSafe (cfg : LoggingServiceConfig) (env : Environment τ) {α : Type} (p : Prog α) (w : World τ) : Prop :=
  Safe (sem cfg env) Answered Onward Onward (fun _ _ => True) p w

theorem resultOf_answer (c : ToolCall) (op : OperationType) (replay : Bool) (outcome : InvokeOutcome) :
    ∃ st, (c.resultOf op replay outcome).executionStatus = some (ExecutionStatus.value st) ∧
      (st = .acked → ∃ payload, (c.resultOf op replay outcome).responsePayload = some payload ∧
        outcome = .returned payload) := by
  cases outcome with
  | returned payload => exact ⟨.acked, rfl, fun _ => ⟨payload, rfl, rfl⟩⟩
  | returnedOther => exact ⟨.failed, rfl, fun h => by cases h⟩
  | raised error => exact ⟨.failed, rfl, fun h => by cases h⟩
  | ambiguous error =>
    cases op with
    | read => exact ⟨.failed, rfl, fun h => by cases h⟩
    | write =>
      cases replay with
      | true => exact ⟨.verifiedNotFound, rfl, fun h => by cases h⟩
      | false => exact ⟨.dispatched, rfl, fun h => by cases h⟩

/-- What is sent and answered is recorded with its answer. -/
theorem answeredSafe_invokeAndRecord (c : ToolCall) (op : OperationType) (replay : Bool) (w : World τ) :
    AnsweredSafe cfg env (invokeAndRecord c op replay) w := by
  refine Safe.call (fun w1 r w2 _ hI hs => answered_op (fun a ho => by cases ho) hI hs) (fun w1 outcome w2 _ _ hs _ => ?_)
    fun _ _ _ _ _ _ _ => trivial
  have hsent : .sent c.executionId outcome ∈ w2.trace := by
    obtain ⟨_, _, -, hout, rfl⟩ := sem_invoke.1 hs
    cases hout
    exact List.mem_append_right _ (List.mem_singleton_self _)
  refine Safe.call (fun w3 r w4 hR hI hs => ?_) (fun _ _ _ _ _ _ _ => trivial) fun _ _ _ _ _ _ _ => trivial
  obtain ⟨st, hst, hanswer⟩ := resultOf_answer c op replay outcome
  refine answered_result hst (fun hacked => ?_) hI hs
  obtain ⟨payload, hp, rfl⟩ := hanswer hacked
  refine ⟨payload, hp, ?_⟩
  rw [resultOf_executionId]
  exact hR.subset hsent

theorem answeredSafe_executeTool (mgr : TransactionManager) (c : ToolCall) (w : World τ) :
    AnsweredSafe cfg env (executeTool mgr c) w := by
  unfold executeTool
  cases normalizeOperationType c.operationType with
  | error e => trivial
  | ok op =>
    rw [lift_ok_bind]
    refine Safe.call (fun w1 r w2 _ hI hs => answered_op (fun a ho => by cases ho) hI hs)
      (fun w1 existing w2 _ _ _ _ => ?_) fun _ _ _ _ _ _ _ => trivial
    cases existing with
    | none =>
      refine Safe.call (fun w1 r w2 _ hI hs => answered_op (fun a ho => by cases ho) hI hs)
        (fun w1 _ w2 _ _ _ _ => ?_) fun _ _ _ _ _ _ _ => trivial
      refine Safe.call (fun w1 r w2 _ hI hs => answered_op (fun a ho => by cases ho) hI hs)
        (fun w1 current w2 _ _ _ _ => ?_) fun _ _ _ _ _ _ _ => trivial
      cases current with
      | none => trivial
      | some current =>
        dsimp only
        split
        · trivial
        · unfold markDispatched
          split
          · exact Safe.call (fun w1 r w2 _ hI hs => answered_op (fun a ho => by cases ho) hI hs)
              (fun w1 _ w2 _ _ _ _ => answeredSafe_invokeAndRecord c op false w2) fun _ _ _ _ _ _ _ => trivial
          · exact answeredSafe_invokeAndRecord c op false w2
    | some existing =>
      dsimp only
      split
      · trivial
      · exact answeredSafe_invokeAndRecord c op true w2

/-- The operations of a pass and of single operations that write no tool record. -/
theorem answered_issued {c : Call} {o : Op} (hc : c.Framework) (hno : ∀ mgr c', c ≠ .executeTool mgr c')
    (ho : IssuedBy c o) {r : Except PyError o.Res} (h : Answered w) (hs : sem cfg env w o r w') :
    Answered w' ∧ Onward w w' := by
  cases ho with
  | verdict rc runId now e v committed =>
    refine answered_result (verdictResult_status runId e v committed) (fun hst => ?_) h hs
    cases committed <;> cases hst
  | facade o => exact answered_op (fun a heq => by cases heq; cases hc) h hs
  | lookup mgr c => exact absurd rfl (hno mgr c)
  | intent mgr _ => exact absurd rfl (hno mgr _)
  | dispatch mgr c => exact absurd rfl (hno mgr c)
  | send mgr _ => exact absurd rfl (hno mgr _)
  | result mgr _ _ _ => exact absurd rfl (hno mgr _)
  | _ => exact answered_op (fun a heq => by cases heq) h hs

theorem answeredSafe_call {c : Call} (hc : c.Framework) (w : World τ) : AnsweredSafe cfg env c.program w := by
  have huses (hno : ∀ mgr c', c ≠ .executeTool mgr c') : AnsweredSafe cfg env c.program w := by
    refine Uses.keeping (F := fun _ => True) ?_ (fun _ _ _ _ => trivial) (call_issues c) trivial
    intro w o r w' ho hI _ hs
    obtain ⟨hI', hon⟩ := answered_issued hc hno ho hI hs
    exact ⟨hI', hon, trivial⟩
  cases c with
  | executeTool mgr c => exact answeredSafe_executeTool mgr c w
  | recoverRun rc runId now => exact huses fun mgr c' heq => by cases heq
  | facade o => exact huses fun mgr c' heq => by cases heq

/-- **Acknowledged with an answer.**  In every state of a pool, an acknowledged record holds what the adapter
returned for its id. -/
theorem reach_answered {ι : Type} [DecidableEq ι] {calls : ι → Call} (hcalls : ∀ i, (calls i).Framework)
    (h : Answered w) {pool : Pool ι Op Op.Res PyError fun i => (calls i).Result}
    (hr : Reach (fun _ => sem cfg env) (w, fun i => some (calls i).program) (w', pool)) : Answered w' := by
  refine (reach_safe (I := Answered) (R := fun _ => Onward) (G := fun _ => Onward) (Q := fun _ _ _ => True)
    (fun _ _ => List.prefix_refl _) (fun _ _ _ _ h h' => h.trans h') (fun _ _ _ _ _ _ => trivial)
    (fun _ _ _ _ _ h => h) ⟨h, fun i p hp => ?_⟩ hr).1
  cases hp
  exact answeredSafe_call (hcalls i) w

end

/-! ## The pool -/

theorem Call.WritesOnly.framework {c : Call} (h : c.WritesOnly) : c.Framework := by
  cases c with
  | executeTool mgr c => trivial
  | recoverRun rc runId now => trivial
  | facade o => exact h

section
variable {ι : Type} {read : JsonObject → Option (String × JsonObject)} {own : String → Prop} {calls : ι → Call}
  {w : World Service} {e : String}

/-- Under an id of ours the service has committed nothing, or once. -/
theorem ServedBy.once (h : ServedBy read .idempotent own calls w) (hown : own e) :
    (∀ y ∈ w.target.history, ¬ y.RecordedAs e) ∨ ∃ x, OneCommit w.target.history e x := by
  refine history_once h.wf (.inl rfl) fun x hx hid => ?_
  obtain ⟨i, mgr, c, actionName, payload, -, -, hcall, -⟩ := h.served x hx (hid ▸ hown)
  rw [hcall]
  exact ⟨_, rfl⟩

/-- The one commit was asked for by a call of the pool, which sent it. -/
theorem ServedBy.asked {x : TargetEntry} (h : ServedBy read .idempotent own calls w) (hown : own e)
    (hx : OneCommit w.target.history e x) : ∃ q, x.call.keyed x.amb = some (idempotentApi, q) ∧
      (∃ i mgr c, calls i = .executeTool mgr c ∧ c.executionId = e ∧
        read c.requestPayload = some (q.actionName, q.payload)) ∧ ∃ outcome, .sent e outcome ∈ w.trace := by
  have hxid : x.call.recordId x.amb = e := by
    have hmem : x ∈ commitsOf w.target.history e := by
      rw [hx.commits]
      exact List.mem_singleton_self x
    exact (mem_commitsOf.1 hmem).2.1.2
  obtain ⟨i, mgr, c, actionName, payload, hi, hread, hcall, outcome, hsent⟩ := h.served x hx.mem (hxid ▸ hown)
  have hce : c.executionId = e := by
    rw [← hxid, hcall]
    exact (recordId_action (buildExecutionId_ne_empty _ _ _ _ _)).symm
  subst hce
  have hkeyed : x.call.keyed x.amb = some (idempotentApi, ⟨actionName, payload,
      if c.executionId = "" then x.amb.executionUuid else c.executionId⟩) := by
    rw [hcall]
    rfl
  exact ⟨_, hkeyed, ⟨i, mgr, c, hi, rfl, hread⟩, outcome, hsent⟩

/-- An acknowledged record is backed by a commit. -/
theorem ServedBy.backed (h : ServedBy read .idempotent own calls w) (hanswered : Answered w) (hown : own e)
    (hforwards : ForwardsId calls e) {row : ExternalResultRecord} (hrow : w.store.externalResults.get e = some row)
    (hst : row.executionStatus = .acked) : Backed read calls w.target e row := by
  obtain ⟨answer, hpayload, hsent⟩ := hanswered e row hrow hst
  obtain ⟨y, hy, hyid, hyok⟩ := h.answered e answer hforwards hsent
  rcases h.once hown with hnone | ⟨x, hx⟩
  · exact absurd ⟨⟨answer, hyok⟩, hyid⟩ (hnone y hy)
  · obtain ⟨q, hq, hasked, -⟩ := h.asked hown hx
    exact ⟨x, q, answer, hx.commits, hq, hasked, hpayload, hx.receipt y hy answer hyid hyok⟩

end

section
variable {ι : Type} [DecidableEq ι]

/-- **Acknowledged writes are committed once.**  In every state of a pool of writes, passes and other
operations over an idempotent service, with requests, answers and processes lost anywhere and other clients
calling the service: an id whose calls forward it is committed at most once, after its dispatch was logged;
and a record of it that is acknowledged holds the receipt of that commit. -/
theorem acknowledged_once (cfg : LoggingServiceConfig) (read : JsonObject → Option (String × JsonObject))
    (own : String → Prop) {calls : ι → Call} (hcalls : ∀ i, (calls i).WritesOnly) {w : World Service}
    {pool : Pool ι Op Op.Res PyError fun i => (calls i).Result}
    (hr : Reach (fun _ => sem cfg (Service.environment read .idempotent own))
      ({ target := {} }, fun i => some (calls i).program) (w, pool))
    {e : String} (hown : own e) (hforwards : ForwardsId calls e) :
    (commitsOf w.target.history e).length ≤ 1 ∧
    (commitsOf w.target.history e ≠ [] → Sequenced w.store.walEvents e ∧ w.store.Started e) ∧
    ∀ row, w.store.externalResults.get e = some row → row.executionStatus = .acked →
      Backed read calls w.target e row := by
  have hserved := reach_served hr
  have hlog := reach_logFirst hcalls (logFirst_start _) hr
  have hanswered : Answered w :=
    reach_answered (fun i => (hcalls i).framework) (fun e row hrow => by cases hrow) hr
  refine ⟨?_, fun hcommitted => ?_, fun row hrow hst => hserved.backed hanswered hown hforwards hrow hst⟩
  · rcases hserved.once hown with hnone | ⟨x, hx⟩
    · rw [commitsOf_none hnone]
      exact Nat.zero_le _
    · exact le_of_eq (congrArg List.length hx.commits)
  · rcases hserved.once hown with hnone | ⟨x, hx⟩
    · exact absurd (commitsOf_none hnone) hcommitted
    · obtain ⟨-, -, -, outcome, hsent⟩ := hserved.asked hown hx
      exact hlog.sent _ outcome hsent

end

/-! ## A booking over the service -/

/-- The action of a request, as `FaultyTargetAdapter` takes it. -/
def readAction (request : JsonObject) : Option (String × JsonObject) :=
  match request.get "action_name", request.get "payload" with
  | some (.str actionName), some (.obj payload) => some (actionName, payload)
  | _, _ => none

def InvokeOutcome.ofAnswer : Except PyError JsonObject → InvokeOutcome
  | .ok answer => .returned answer
  | .error e => .raised e.message

/-- Every operation answered at one instant, nothing lost. -/
def serving (w : World Service) : (o : Op) → Except PyError o.Res × World Service
  | .facade o => match o.exec {} stillAmbient w.store with
    | .ok (a, s) => (.ok a, { w with store := s })
    | .error e => (.error e, w)
  | .invoke call => match readAction call.requestPayload with
    | none =>
      let outcome : InvokeOutcome := .raised "request"
      (.ok outcome, { w with trace := w.trace ++ [.sent call.identity outcome] })
    | some (actionName, payload) =>
      let request := TargetCall.action .idempotent actionName payload call.executionId
      let outcome := InvokeOutcome.ofAnswer (request.step plainAmbient w.target.data).1
      (.ok outcome, { w with
        target := w.target.serve plainAmbient request
        trace := w.trace ++ [.sent call.identity outcome] })
  | .verify probe =>
    let answer := (w.target.data.verifyWrite probe).toOption.map VerificationDecision.toVerification
    (.ok answer, { w with
      trace := w.trace ++ [.probed probe.executionId (answer.bind WriteVerification.committed)] })
  | .handoff decision =>
    if decision.handoffKey ∈ w.handoffEmitted then (.ok (), w)
    else (.ok (), { w with
      trace := w.trace ++ [.handedOff decision]
      handoffEmitted := w.handoffEmitted ++ [decision.handoffKey] })

theorem serving_sem {own : String → Prop} (hown : ¬ own plainAmbient.executionUuid) (w : World Service) (o : Op) :
    sem {} (Service.environment readAction .idempotent own) w o (serving w o).1 (serving w o).2 := by
  cases o with
  | facade o =>
    refine ⟨stillAmbient, ?_⟩
    unfold serving
    dsimp only
    cases o.exec {} stillAmbient w.store with
    | ok p => exact ⟨rfl, rfl⟩
    | error e => exact ⟨rfl, rfl⟩
  | invoke call =>
    unfold serving
    dsimp only
    cases hread : readAction call.requestPayload with
    | none => exact sem_invoke.2 ⟨_, w.target, ⟨_, _, .refl, .raised _, .refl⟩, rfl, rfl⟩
    | some p =>
      obtain ⟨actionName, payload⟩ := p
      refine sem_invoke.2 ⟨_, _, ⟨_, _, .refl, ?_, .refl⟩, rfl, rfl⟩
      cases hstep : ((TargetCall.action .idempotent actionName payload call.executionId).step plainAmbient
        w.target.data).1 with
      | ok answer => exact .answered hread hown hstep
      | error e => exact .refused hread hown hstep
  | verify probe =>
    refine sem_verify.2 ⟨_, w.target, ⟨w.target, .refl, .refl, ?_⟩, rfl, rfl⟩
    cases w.target.data.verifyWrite probe with
    | ok v => exact .inr ⟨v, rfl, rfl⟩
    | error e => exact .inl rfl
  | handoff d =>
    show if _ then _ else _
    unfold serving
    dsimp only
    split
    · exact ⟨rfl, rfl⟩
    · exact ⟨trivial, rfl⟩

/-- The calls of a pool played in turns over the service. -/
def serveTurns {ι : Type} [DecidableEq ι] (calls : ι → Call) (turns : List (ι × ℕ)) (w : World Service) :
    World Service × Pool ι Op Op.Res PyError fun i => (calls i).Result :=
  takeTurns serving turns (w, fun i => some (calls i).program)

theorem serveTurns_reach {ι : Type} [DecidableEq ι] {own : String → Prop} (hown : ¬ own plainAmbient.executionUuid)
    (calls : ι → Call) (turns : List (ι × ℕ)) (w : World Service) :
    Reach (fun _ => sem {} (Service.environment readAction .idempotent own)) (w, fun i => some (calls i).program)
      ((serveTurns calls turns w).1, (serveTurns calls turns w).2) :=
  takeTurns_reach (fun _ => serving_sem hown) turns _

/-- A write whose adapter is given its id. -/
def seatCall : ToolCall :=
  { bookingCall with
    requestPayload := [("action_name", .str "set_value"),
      ("payload", .obj [("key", .str "seat"), ("value", .str "12A")])]
    idempotencySupported := true }

/-- A run started, and its write. -/
def seatPool : Bool → Call
  | false => .facade (.startRun tripRun)
  | true => .executeTool {} seatCall

def seatWorld : World Service := (serveTurns seatPool [(false, 1), (true, 6)] { target := {} }).1

theorem seatPool_forwards : ForwardsId seatPool seatCall.executionId := by
  intro i mgr c hi _
  cases i with
  | false => cases hi
  | true =>
    cases hi
    exact ⟨bookingCall_write, rfl⟩

theorem seatPool_writesOnly (i : Bool) : (seatPool i).WritesOnly := by
  cases i with
  | false => rfl
  | true => exact bookingCall_write

theorem acknowledged_once_seat : ∃ row, seatWorld.store.externalResults.get seatCall.executionId = some row ∧
    Backed readAction seatPool seatWorld.target seatCall.executionId row := by
  have hacked : (seatWorld.store.externalResults.get seatCall.executionId).any
      (fun row => row.executionStatus = .acked) = true := by decide +kernel
  obtain ⟨hsome, hst⟩ := (Option.any_eq_true_iff_get _ _).1 hacked
  have huuid : ¬ plainAmbient.executionUuid = seatCall.executionId := by decide +kernel
  refine ⟨_, (Option.some_get hsome).symm, ?_⟩
  exact (acknowledged_once {} readAction (fun e => e = seatCall.executionId) seatPool_writesOnly
    (serveTurns_reach huuid seatPool _ _) rfl seatPool_forwards).2.2 _ (Option.some_get hsome).symm
    (of_decide_eq_true hst)

end Raef
