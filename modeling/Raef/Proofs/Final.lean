import Raef.Proofs.Audited

/-!
# Committed executions are final

Calls one after the other, each run to some point and cut there.  A record that
is `ACKED` or `VERIFIED_COMMITTED` stays committed with the payload it has, the
adapter is not called for its id again, and `execute_tool` answers from it.

What a step may do to committed records is `Final`; `PayloadKept` is the
invariant that gives every one of them a payload.

    History w w' ⇒ committed records of w are those of w'   (history_final)
    a committed record ⇒ execute_tool answers REUSED        (executeTool_reused)
-/

namespace Raef

open Text Txn Program

variable {τ : Type}

/-! ## Sequential histories -/

/-- One call alone, run to some point. -/
def Session (cfg : LoggingServiceConfig) (env : Environment τ) (allowed : Call → Prop)
    (w w' : World τ) : Prop :=
  ∃ c p', allowed c ∧ Runs (sem cfg env) w (Call.program c) w' p'

abbrev History (cfg : LoggingServiceConfig) (env : Environment τ) (allowed : Call → Prop) :
    World τ → World τ → Prop :=
  Relation.ReflTransGen (Session cfg env allowed)

/-- What every call keeps and guarantees when it runs alone holds along a history. -/
theorem history_safe {cfg : LoggingServiceConfig} {env : Environment τ} {allowed : Call → Prop}
    {I : World τ → Prop} {G : World τ → World τ → Prop} (hrefl : ∀ w, G w w)
    (htrans : ∀ a b c, G a b → G b c → G a c)
    (hcall : ∀ c w, allowed c → Safe (sem cfg env) I Eq G (fun _ _ => True) (Call.program c) w)
    {w w' : World τ} (h : History cfg env allowed w w') (hI : I w) : I w' ∧ G w w' := by
  induction h with
  | refl => exact ⟨hI, hrefl _⟩
  | tail _ hs ih =>
    obtain ⟨hI', hG⟩ := ih
    obtain ⟨c, p', hc, hr⟩ := hs
    obtain ⟨h1, h2, -⟩ := hr.safe hrefl htrans hI' (hcall c _ hc)
    exact ⟨h1, htrans _ _ _ hG h2⟩

/-! ## Committed records -/

/-- The record of the id, when it is committed. -/
def World.Committed (w : World τ) (e : String) (row : ExternalResultRecord) : Prop :=
  w.store.externalResults.get e = some row ∧ row.executionStatus.committed = true

/-- The id has no committed record. -/
def World.Open (w : World τ) (e : String) : Prop := ∀ row, ¬ w.Committed e row

/-- Committed records stay committed with their payload, and are not sent again. -/
def Final (w w' : World τ) : Prop :=
  ∀ e row, w.Committed e row → ∃ row', w'.Committed e row' ∧
    row'.responsePayload = row.responsePayload ∧
    w'.trace.filter (Mark.sends e) = w.trace.filter (Mark.sends e)

/-- Every row decodes, and committed ones have a payload. -/
structure PayloadKept (w : World τ) : Prop where
  sound : w.store.Sound
  payload : ∀ e row, w.Committed e row → row.responsePayload.isSome = true

theorem Final.refl (w : World τ) : Final w w := fun _ row h => ⟨row, h, rfl, rfl⟩

theorem Final.trans (a b c : World τ) (h : Final a b) (h' : Final b c) : Final a c := by
  intro e row hrow
  obtain ⟨row', h1, h2, h3⟩ := h e row hrow
  obtain ⟨row'', h4, h5, h6⟩ := h' e row' h1
  exact ⟨row'', h4, h5.trans h2, h6.trans h3⟩

section
variable {cfg : LoggingServiceConfig} {env : Environment τ} {w w' : World τ}

/-- A step that touches neither records nor sends. -/
theorem final_of_eq (h : PayloadKept w) (hsound : w.store.Sound → w'.store.Sound)
    (hrows : w'.store.externalResults = w.store.externalResults)
    (htrace : ∀ e, w'.trace.filter (Mark.sends e) = w.trace.filter (Mark.sends e)) :
    PayloadKept w' ∧ Final w w' := by
  refine ⟨⟨hsound h.sound, fun e row hrow => h.payload e row ⟨hrows ▸ hrow.1, hrow.2⟩⟩, ?_⟩
  exact fun e row hrow => ⟨row, ⟨hrows ▸ hrow.1, hrow.2⟩, rfl, htrace e⟩

/-- Writing the record of an open id. -/
theorem final_put {s : Store} {new : ExternalResultRecord} (h : PayloadKept w) (hk : Kept w.store s)
    (hput : s.externalResults = w.store.externalResults.put new) (hopen : w.Open new.executionId)
    (hpayload : new.executionStatus.committed = true → new.responsePayload.isSome = true) :
    PayloadKept { w with store := s } ∧ Final w { w with store := s } := by
  refine ⟨⟨hk.sound h.sound, fun e row hrow => ?_⟩, fun e row hrow => ⟨row, ⟨?_, hrow.2⟩, rfl, rfl⟩⟩
  · obtain ⟨hget, hc⟩ := hrow
    rw [show ({ w with store := s } : World τ).store = s from rfl, hput, Table.get_put] at hget
    split at hget
    · cases hget
      exact hpayload hc
    · exact h.payload e row ⟨hget, hc⟩
  · show s.externalResults.get e = some row
    rw [hput, Table.get_put_ne _ _ _]
    · exact hrow.1
    · rintro rfl
      exact hopen row hrow

theorem final_facade {o : FacadeOp} {r : Except PyError o.Res} (h : PayloadKept w)
    (hs : sem cfg env w (.facade o) r w')
    (hok : ∀ amb res s, o.exec cfg amb w.store = .ok (res, s) →
      PayloadKept { w with store := s } ∧ Final w { w with store := s }) : PayloadKept w' ∧ Final w w' := by
  cases r with
  | error e =>
    rw [(sem_facade_error.1 hs).2]
    exact ⟨h, .refl w⟩
  | ok a =>
    obtain ⟨amb, s, hx, rfl⟩ := sem_facade_ok.1 hs
    exact hok amb a s hx

theorem final_plain {o : FacadeOp} (ho : o.plain = true) {r : Except PyError o.Res} (h : PayloadKept w)
    (hs : sem cfg env w (.facade o) r w') : PayloadKept w' ∧ Final w w' :=
  final_facade h hs fun _ _ _ hx =>
    final_of_eq h (exec_kept hx).sound (exec_framed ho hx).externalResults fun _ => rfl

theorem final_intent {a : ToolIntent} (ha : Trimmed a.executionId) {r : Except PyError RunProjections}
    (h : PayloadKept w) (hs : sem cfg env w (.facade (.recordToolIntent a)) r w') :
    PayloadKept w' ∧ Final w w' := by
  refine final_facade h hs fun amb res s hx => ?_
  have hk := exec_kept hx
  rcases intent_records (FacadeOp.exec_recordToolIntent.1 hx) with hf | ⟨hnone, -, hput, -, -⟩
  · exact final_of_eq h hk.sound hf.externalResults fun _ => rfl
  · rw [ha] at hnone
    refine final_put h hk hput (fun row hrow => ?_) fun hc => by cases hc
    have hget : w.store.externalResults.get a.executionId = some row := hrow.1
    rw [hnone] at hget
    cases hget

theorem final_dispatch {runId e : String} {r : Except PyError ExternalResultRecord} (h : PayloadKept w)
    (hs : sem cfg env w (.facade (.recordToolDispatch runId e)) r w') : PayloadKept w' ∧ Final w w' := by
  refine final_facade h hs fun amb res s hx => ?_
  obtain ⟨row, new, hd, -⟩ := dispatch_records (FacadeOp.exec_recordToolDispatch.1 hx)
  refine final_put h (exec_kept hx) hd.externalResults (fun row' hrow' => ?_) fun hc => ?_
  · have hget := hrow'.1
    rw [hd.executionId, hd.found] at hget
    cases hget
    have := hd.moves.committed hrow'.2
    cases this
  · rw [hd.executionStatus] at hc
    cases hc

/-- A result for an open id. -/
theorem final_result {a : ToolResult} {st : ExecutionStatus} (hst : a.executionStatus = some st.value)
    (hpayload : st.committed = true → a.responsePayload.isSome = true) (hopen : w.Open a.executionId)
    {r : Except PyError ExternalResultRecord} (h : PayloadKept w)
    (hs : sem cfg env w (.facade (.recordToolResult a)) r w') : PayloadKept w' ∧ Final w w' := by
  refine final_facade h hs fun amb res s hx => ?_
  obtain ⟨es, new, hr, -⟩ := result_records (FacadeOp.exec_recordToolResult.1 hx)
  refine final_put h (exec_kept hx) hr.externalResults (hr.executionId ▸ hopen) fun hc => ?_
  rw [hr.executionStatus, hr.status_eq hst] at hc
  rw [hr.responsePayload]
  exact hpayload hc

theorem filter_sends_append {e : String} {m : Mark} (l : List Mark) (h : Mark.sends e m = false) :
    (l ++ [m]).filter (Mark.sends e) = l.filter (Mark.sends e) := by
  rw [List.filter_append, List.filter_cons_of_neg (by simp [h]), List.filter_nil, List.append_nil]

/-- Sending for an open id. -/
theorem final_invoke {call : Invocation} (hopen : w.Open call.identity) {r : Except PyError InvokeOutcome}
    (h : PayloadKept w) (hs : sem cfg env w (.invoke call) r w') : PayloadKept w' ∧ Final w w' := by
  obtain ⟨outcome, target, -, -, rfl⟩ := hs
  refine ⟨⟨h.sound, h.payload⟩, fun e row hrow => ⟨row, hrow, rfl, filter_sends_append _ ?_⟩⟩
  have hne : call.identity ≠ e := by
    rintro rfl
    exact hopen row hrow
  simpa [Mark.sends] using hne

theorem final_verify {probe : Probe} {r : Except PyError (Option WriteVerification)} (h : PayloadKept w)
    (hs : sem cfg env w (.verify probe) r w') : PayloadKept w' ∧ Final w w' := by
  obtain ⟨answer, target, -, -, rfl⟩ := hs
  exact final_of_eq h id rfl fun e => filter_sends_append _ rfl

theorem final_handoff {d : RecoveryDecision} {r : Except PyError Unit} (h : PayloadKept w)
    (hs : sem cfg env w (.handoff d) r w') : PayloadKept w' ∧ Final w w' := by
  rcases sem_handoff hs with rfl | ⟨keys, rfl⟩
  · exact ⟨h, .refl _⟩
  · exact final_of_eq h id rfl fun e => filter_sends_append _ rfl

theorem final_neutral {o : Op} {r : Except PyError o.Res} (ho : Neutral o) (h : PayloadKept w)
    (hs : sem cfg env w o r w') : PayloadKept w' ∧ Final w w' := by
  cases ho with
  | loadContext runId => exact final_plain rfl h hs
  | message a => exact final_plain rfl h hs
  | handoff d => exact final_handoff h hs

/-! ## Tool calls -/

/-- Alone: the invariant, the guarantee, and no condition on the result. -/
abbrev FinalSafe (cfg : LoggingServiceConfig) (env : Environment τ) {α : Type} (p : Prog α)
    (w : World τ) : Prop :=
  Safe (sem cfg env) PayloadKept Eq Final (fun _ _ => True) p w

theorem resultOf_payload (c : ToolCall) (op : OperationType) (replay : Bool) (outcome : InvokeOutcome) :
    ∃ st, (c.resultOf op replay outcome).executionStatus = some (ExecutionStatus.value st) ∧
      (st.committed = true → (c.resultOf op replay outcome).responsePayload.isSome = true) := by
  cases outcome with
  | returned payload => exact ⟨.acked, rfl, fun _ => rfl⟩
  | returnedOther => exact ⟨.failed, rfl, fun h => by cases h⟩
  | raised error => exact ⟨.failed, rfl, fun h => by cases h⟩
  | ambiguous error =>
    cases op with
    | read => exact ⟨.failed, rfl, fun h => by cases h⟩
    | write =>
      cases replay with
      | true => exact ⟨.verifiedNotFound, rfl, fun h => by cases h⟩
      | false => exact ⟨.dispatched, rfl, fun h => by cases h⟩

theorem finalSafe_invokeAndRecord {c : ToolCall} {op : OperationType} {replay : Bool} {w : World τ}
    (hopen : w.Open c.executionId) : FinalSafe cfg env (invokeAndRecord c op replay) w := by
  refine Safe.call (fun w1 r w2 hR hI hs => ?_) (fun w1 outcome w2 hR hI hs _ => ?_)
    fun _ _ _ _ _ _ _ => trivial
  · subst hR
    exact final_invoke (show w.Open (c.invocation op).identity from hopen) hI hs
  · subst hR
    have hopen2 : w2.Open c.executionId := by
      obtain ⟨_, _, -, -, rfl⟩ := hs
      exact hopen
    refine Safe.call (fun w3 r w4 hR hI hs => ?_) (fun _ _ _ _ _ _ _ => trivial)
      fun _ _ _ _ _ _ _ => trivial
    subst hR
    obtain ⟨st, hst, hpayload⟩ := resultOf_payload c op replay outcome
    exact final_result hst hpayload ((resultOf_executionId c op replay outcome).symm ▸ hopen2) hI hs

/-- A record found with a status that is not committed. -/
theorem open_of_lookup {e : String} {found : Option ExternalResultRecord} (he : Trimmed e)
    (h : w.store.getExternalResult e = .ok found)
    (hst : ∀ rec, found = some rec → rec.executionStatus.committed = false) : w.Open e := by
  rintro row ⟨hrow, hc⟩
  have hlook := (getExternalResult_ok.1 h).2
  rw [he, hrow] at hlook
  obtain ⟨-, rfl⟩ := hlook
  have : row.executionStatus.committed = false := hst row.stripped rfl
  rw [hc] at this
  cases this

theorem finalSafe_firstExecution {mgr : TransactionManager} {c : ToolCall} {op : OperationType}
    (w : World τ) : FinalSafe cfg env (firstExecution mgr c op) w := by
  unfold firstExecution
  refine Safe.call (fun w1 r w2 hR hI hs => final_intent (a := c.intent op) c.trimmed_executionId hI hs)
    (fun w1 _ w2 _ _ _ _ => ?_) fun _ _ _ _ _ _ _ => trivial
  refine Safe.call (fun w3 r w4 hR hI hs => final_plain rfl hI hs)
    (fun w3 current w4 hR hI hs _ => ?_) fun _ _ _ _ _ _ _ => trivial
  obtain ⟨hget, rfl⟩ := sem_getExternalResult hs
  cases current with
  | none => trivial
  | some current =>
    dsimp only
    split
    · trivial
    · next hst =>
      have hopen : w4.Open c.executionId := by
        refine open_of_lookup c.trimmed_executionId hget fun rec hrec => ?_
        cases hrec
        rw [not_not.1 hst]
        rfl
      unfold markDispatched
      split
      · refine Safe.call (fun w5 r w6 hR hI hs => final_dispatch hI hs)
          (fun w5 rec w6 hR hI hs _ => ?_) fun _ _ _ _ _ _ _ => trivial
        refine finalSafe_invokeAndRecord ?_
        obtain ⟨amb, s, hx, rfl⟩ := sem_facade_ok.1 hs
        obtain ⟨row, new, hd, -⟩ := dispatch_records (FacadeOp.exec_recordToolDispatch.1 hx)
        rintro row' ⟨hrow', hc⟩
        have hget' : s.externalResults.get c.executionId = some row' := hrow'
        have hkey : c.executionId = new.executionId := by rw [hd.executionId, c.trimmed_executionId]
        rw [hd.externalResults, hkey, Table.get_put_self] at hget'
        cases hget'
        rw [hd.executionStatus] at hc
        cases hc
      · exact finalSafe_invokeAndRecord hopen

theorem finalSafe_executeTool {mgr : TransactionManager} {c : ToolCall} (w : World τ) :
    FinalSafe cfg env (executeTool mgr c) w := by
  unfold executeTool
  cases normalizeOperationType c.operationType with
  | error e => trivial
  | ok op =>
    rw [lift_ok_bind]
    refine Safe.call (fun w1 r w2 hR hI hs => final_plain rfl hI hs)
      (fun w1 existing w2 hR hI hs _ => ?_) fun _ _ _ _ _ _ _ => trivial
    obtain ⟨hget, rfl⟩ := sem_getExternalResult hs
    cases existing with
    | none => exact finalSafe_firstExecution w2
    | some existing =>
      dsimp only
      split
      · trivial
      · next hst =>
        refine finalSafe_invokeAndRecord (open_of_lookup c.trimmed_executionId hget fun rec hrec => ?_)
        cases hrec
        rw [not_not.1 hst]
        rfl

/-! ## Recovery passes -/

theorem records_neutral {o : Op} {r : Except PyError o.Res} (ho : Neutral o) (hs : sem cfg env w o r w') :
    w'.store.externalResults = w.store.externalResults := by
  have hplain : ∀ {o : FacadeOp} {r : Except PyError o.Res}, o.plain = true →
      sem cfg env w (.facade o) r w' → w'.store.externalResults = w.store.externalResults := by
    intro o r ho hs
    cases r with
    | error e => rw [(sem_facade_error.1 hs).2]
    | ok a =>
      obtain ⟨amb, s, hx, rfl⟩ := sem_facade_ok.1 hs
      exact (exec_framed ho hx).externalResults
  cases ho with
  | loadContext runId => exact hplain rfl hs
  | message a => exact hplain rfl hs
  | handoff d => rcases sem_handoff hs with rfl | ⟨keys, rfl⟩ <;> rfl

/-- A result leaves the records of other ids alone. -/
theorem get_result_ne {a : ToolResult} {r : Except PyError ExternalResultRecord}
    (hs : sem cfg env w (.facade (.recordToolResult a)) r w') {e : String} (he : e ≠ a.executionId) :
    w'.store.externalResults.get e = w.store.externalResults.get e := by
  cases r with
  | error e => rw [(sem_facade_error.1 hs).2]
  | ok res =>
    obtain ⟨amb, s, hx, rfl⟩ := sem_facade_ok.1 hs
    obtain ⟨es, new, hr, -⟩ := result_records (FacadeOp.exec_recordToolResult.1 hx)
    show s.externalResults.get e = _
    rw [hr.externalResults, Table.get_put_ne _ _ (hr.executionId ▸ he)]

/-- What a pass knows of the ids still to do: none comes twice, and those it read
as dispatched are open. -/
structure PassOpen (records : List ExternalResultRecord) (ids : List String) (w : World τ) : Prop where
  nodup : ids.Nodup
  isOpen : ∀ e ∈ ids, ∀ rec, recordOf records e = some rec → rec.executionStatus = .dispatched → w.Open e

theorem PassOpen.tail {records : List ExternalResultRecord} {e : String} {es : List String}
    (h : PassOpen records (e :: es) w) : PassOpen records es w :=
  ⟨(List.nodup_cons.1 h.nodup).2, fun e' he' => h.isOpen e' (List.mem_cons_of_mem _ he')⟩

theorem PassOpen.of_get {records : List ExternalResultRecord} {ids : List String} (h : PassOpen records ids w)
    (hget : ∀ e ∈ ids, w'.store.externalResults.get e = w.store.externalResults.get e) :
    PassOpen records ids w' :=
  ⟨h.nodup, fun e he rec hrec hst row hrow => h.isOpen e he rec hrec hst row ⟨hget e he ▸ hrow.1, hrow.2⟩⟩

theorem nodup_candidateIds (records : List ExternalResultRecord) (pending : List String) :
    (candidateIds records pending).Nodup :=
  (List.perm_insertionSort _ _).nodup_iff.2 (List.nodup_dedup _)

theorem open_of_listed {runId e : String} {records : List ExternalResultRecord} {rec : ExternalResultRecord}
    (h : w.store.listExternalResults runId = .ok records) (hrec : recordOf records e = some rec)
    (hst : rec.executionStatus = .dispatched) : w.Open e := by
  rintro row' ⟨hrow', hc⟩
  obtain ⟨hmem, rfl⟩ := recordOf_some hrec
  obtain ⟨-, row, hrow, -, hrec'⟩ := listed_row h hmem
  have hst' : row.executionStatus = .dispatched := by rw [← hst, hrec']; rfl
  rw [hrow] at hrow'
  cases hrow'
  rw [hst'] at hc
  cases hc

theorem finalSafe_recoverRun {rc : RecoveryCoordinator} {runId : String} {now : Datetime} (w : World τ) :
    FinalSafe cfg env (recoverRun rc runId now) w := by
  refine recoverRun_safe (K := PassOpen) ?_ ?_ (fun _ _ _ _ h => h.tail) ?_ (fun _ => trivial) w
  · rintro w o r w' hI (rfl | rfl | rfl) hs
    · exact final_plain rfl hI hs
    · exact final_plain rfl hI hs
    · exact final_plain rfl hI hs
  · rintro w records hI hlist _ pending rfl - -
    exact ⟨nodup_candidateIds _ _, fun e _ rec hrec hst => open_of_listed hlist hrec hst⟩
  · intro records e es w hK
    refine recoverOne_safe (F := PassOpen records (e :: es)) (Q := PassOpen records es)
      (V := fun _ _ w => PassOpen records (e :: es) w ∧ w.Open e)
      (fun _ _ h hR => hR ▸ h) (fun _ _ h hR => hR ▸ h) (fun _ _ _ _ h hR => hR ▸ h) (fun _ h => h.tail) ?_ ?_ ?_ hK
    · intro w o r w' ho hI hq hs
      obtain ⟨h1, h2⟩ := final_neutral ho hI hs
      exact ⟨h1, h2, hq.of_get fun _ _ => by rw [records_neutral ho hs]⟩
    · intro record w r w' hrec hst hop hI hF hs
      obtain ⟨h1, h2⟩ := final_verify hI hs
      have hget : w'.store.externalResults = w.store.externalResults := by
        obtain ⟨_, _, -, -, rfl⟩ := hs
        rfl
      have hF' : PassOpen records (e :: es) w' := hF.of_get fun _ _ => by rw [hget]
      exact ⟨h1, h2, hF', fun _ _ _ _ => ⟨hF', hF'.isOpen e List.mem_cons_self record hrec hst⟩⟩
    · intro record v b w r w' hrec hc hI hV hs
      obtain ⟨hF, hopen⟩ := hV
      have hkey := verdictResult_executionId runId e v b
      obtain ⟨h1, h2⟩ := final_result (verdictResult_status runId e v b) (by cases b <;> simp [verdictStatus, verdictResult, ExecutionStatus.committed])
        (hkey.symm ▸ hopen) hI hs
      refine ⟨h1, h2, hF.tail.of_get fun e' he' => get_result_ne hs ?_⟩
      rw [hkey]
      rintro rfl
      exact (List.nodup_cons.1 hF.nodup).1 he'

/-! ## Histories -/

theorem finalSafe_call {c : Call} (hc : c.Framework) (w : World τ) : FinalSafe cfg env c.program w := by
  cases c with
  | executeTool mgr c => exact finalSafe_executeTool w
  | recoverRun rc runId now => exact finalSafe_recoverRun w
  | facade o =>
    intro w1 hR hI r w2 hs
    obtain ⟨h1, h2⟩ := final_plain hc hI hs
    refine ⟨h1, h2, ?_⟩
    cases r <;> trivial

theorem payloadKept_start (target : τ) : PayloadKept { target := target : World τ } :=
  ⟨sound_empty, fun e row h => by cases h.1⟩

theorem history_final (h : History cfg env Call.Framework w w') (hI : PayloadKept w) :
    PayloadKept w' ∧ Final w w' :=
  history_safe Final.refl Final.trans (fun _ w hc => finalSafe_call hc w) h hI

/-! ## Reuse -/

/-- A call for a committed record reads it and ends. -/
theorem executeTool_reused (mgr : TransactionManager) {c : ToolCall} {op : OperationType}
    (hop : normalizeOperationType c.operationType = .ok op) {row : ExternalResultRecord} (hs : w.store.Sound)
    (hrow : w.Committed c.executionId row) :
    Sure (sem cfg env) (fun x w' => w' = w ∧ ∃ res, x = .ok res ∧ res.disposition = .reused ∧
      res.record.responsePayload = row.responsePayload) (executeTool mgr c) w := by
  have hget := getExternalResult_run hs c.not_blank_executionId
  rw [c.trimmed_executionId, hrow.1] at hget
  unfold executeTool
  rw [hop, lift_ok_bind]
  refine Sure.facade (fun amb => succeeds_fetch hget) fun amb existing s hx => ?_
  obtain ⟨hx', rfl⟩ := FacadeOp.exec_getExternalResult.1 hx
  rw [hget] at hx'
  cases hx'
  have hst : row.stripped.executionStatus.committed = true := hrow.2
  dsimp only [Option.map_some]
  rw [if_pos (by rintro h; rw [h] at hst; cases hst)]
  refine ⟨rfl, _, rfl, ?_, rfl⟩
  unfold handleExisting
  cases h : row.stripped.executionStatus <;> rw [h] at hst <;> first | rfl | cases hst

end

/-- **Finality.**  Along a history of calls, each run to some point: once the record
of an id is committed it stays committed with the payload it has, which is there;
the adapter is not called for the id again, and `execute_tool` answers `REUSED`
with that payload. -/
theorem committed_final (cfg : LoggingServiceConfig) (env : Environment τ) (target : τ) (w w' : World τ)
    (h0 : History cfg env Call.Framework { target := target } w)
    (h : History cfg env Call.Framework w w') (e : String) (row : ExternalResultRecord)
    (hrow : w.store.externalResults.get e = some row) (hc : row.executionStatus.committed = true) :
    row.responsePayload.isSome = true ∧
    (∃ row', w'.store.externalResults.get e = some row' ∧ row'.executionStatus.committed = true ∧
      row'.responsePayload = row.responsePayload) ∧
    w'.trace.filter (Mark.sends e) = w.trace.filter (Mark.sends e) ∧
    ∀ mgr c op, normalizeOperationType c.operationType = .ok op → c.executionId = e →
      Sure (sem cfg env) (fun x w'' => w'' = w' ∧ ∃ res, x = .ok res ∧ res.disposition = .reused ∧
        res.record.responsePayload = row.responsePayload) (executeTool mgr c) w' := by
  obtain ⟨hI, -⟩ := history_final h0 (payloadKept_start target)
  obtain ⟨hI', hG⟩ := history_final h hI
  obtain ⟨row', hrow', hpayload, htrace⟩ := hG e row ⟨hrow, hc⟩
  refine ⟨hI.payload e row ⟨hrow, hc⟩, ⟨row', hrow'.1, hrow'.2, hpayload⟩, htrace, ?_⟩
  rintro mgr c op hop rfl
  exact hpayload ▸ executeTool_reused mgr hop hI'.sound hrow'

/-! ## A booked run -/

theorem session_play {allowed : Call → Prop} (n : ℕ) {c : Call} (hc : allowed c) (w : World Script) :
    Session {} (Environment.any Script) allowed w (play n c w) :=
  (play_runs n c w).elim fun p' h => ⟨c, p', hc, h⟩

/-- The trip started, with an adapter that answers. -/
def startedTrip (outcomes : List InvokeOutcome) (verdicts : List (Option WriteVerification)) : World Script :=
  play 1 (.facade (.startRun tripRun)) { target := ⟨outcomes, verdicts⟩ }

theorem startedTrip_history {allowed : Call → Prop} (h : allowed (.facade (.startRun tripRun)))
    (outcomes : List InvokeOutcome) (verdicts : List (Option WriteVerification)) :
    History {} (Environment.any Script) allowed { target := ⟨outcomes, verdicts⟩ }
      (startedTrip outcomes verdicts) :=
  .single (session_play 1 h _)

/-- The trip, booked. -/
def bookedTrip : World Script := play 6 (.executeTool {} bookingCall) (startedTrip [.returned []] [])

theorem bookedTrip_committed : ∃ row, bookedTrip.store.externalResults.get bookingCall.executionId = some row ∧
    row.executionStatus.committed = true := by
  have h : (bookedTrip.store.externalResults.get bookingCall.executionId).any
      (fun row => row.executionStatus.committed) = true := by decide +kernel
  obtain ⟨hsome, hc⟩ := (Option.any_eq_true_iff_get _ _).1 h
  exact ⟨_, (Option.some_get hsome).symm, hc⟩

/-- Booked again, the call is not sent again. -/
theorem committed_final_booked :
    (play 6 (.executeTool {} bookingCall) bookedTrip).trace.filter (Mark.sends bookingCall.executionId) =
      bookedTrip.trace.filter (Mark.sends bookingCall.executionId) := by
  obtain ⟨row, hrow, hc⟩ := bookedTrip_committed
  have hstart : Call.Framework (.facade (.startRun tripRun)) := rfl
  have h0 := (startedTrip_history hstart [.returned []] []).tail (session_play 6 (c := .executeTool {} bookingCall) trivial _)
  exact (committed_final {} (Environment.any Script) _ _ _ h0
    (.single (session_play 6 (c := .executeTool {} bookingCall) trivial _)) _ row hrow hc).2.2.1

end Raef
