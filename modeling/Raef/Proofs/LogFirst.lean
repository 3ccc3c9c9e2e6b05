import Raef.Proofs.Passes
import Raef.Proofs.Script

/-!
# Log before send

Any number of `execute_tool` calls for writes, recovery passes and other
operations run in a pool, each losable at any operation.  The adapter is never
called for an id before its intent and then its dispatch are in the log, and
from then on the record of the id is past `INTENT_LOGGED`.

The invariant is `LogFirst`; what a process relies on and guarantees is
`Forward`: the log grows and no record falls back to `INTENT_LOGGED`.

    LogFirst w, reached from the empty store            (reach_logFirst)
    an adapter call ⇒ intent before dispatch in the log  (log_before_send)
-/

namespace Raef

open Text Txn Program

variable {τ : Type}

/-! ## The log of an id -/

/-- The log has an intent of the id. -/
def Named (log : List WalEvent) (executionId : String) : Prop :=
  ∃ ev ∈ log, ev.marks .toolIntentRecorded executionId

/-- The log has an intent of the id and, after it, a dispatch. -/
def Sequenced (log : List WalEvent) (executionId : String) : Prop :=
  ∃ before intent between dispatch after, log = before ++ intent :: (between ++ dispatch :: after) ∧
    intent.marks .toolIntentRecorded executionId ∧ dispatch.marks .toolDispatched executionId

theorem Named.mono {log log' : List WalEvent} {e : String} (h : Named log e) (hp : log <+: log') :
    Named log' e := by
  obtain ⟨ev, hev, hm⟩ := h
  exact ⟨ev, hp.subset hev, hm⟩

theorem Sequenced.mono {log log' : List WalEvent} {e : String} (h : Sequenced log e) (hp : log <+: log') :
    Sequenced log' e := by
  obtain ⟨before, i, between, d, after, rfl, hi, hd⟩ := h
  obtain ⟨more, rfl⟩ := hp
  exact ⟨before, i, between, d, after ++ more, by simp, hi, hd⟩

theorem Sequenced.named {log : List WalEvent} {e : String} (h : Sequenced log e) : Named log e := by
  obtain ⟨before, i, between, d, after, rfl, hi, -⟩ := h
  exact ⟨i, by simp, hi⟩

/-- A dispatch appended to a log that names the id. -/
theorem Named.dispatch {log : List WalEvent} {e : String} (h : Named log e) {ev : WalEvent}
    (hev : ev.marks .toolDispatched e) : Sequenced (log ++ [ev]) e := by
  obtain ⟨i, hi, hm⟩ := h
  obtain ⟨before, after, rfl⟩ := List.append_of_mem hi
  exact ⟨before, i, after, ev, [], by simp, hm, hev⟩

/-! ## The invariant and what processes rely on -/

/-- The record of the id is past `INTENT_LOGGED`. -/
def Store.Started (s : Store) (executionId : String) : Prop :=
  ∃ row, s.externalResults.get executionId = some row ∧ row.executionStatus ≠ .intentLogged

structure LogFirst (w : World τ) : Prop where
  named : ∀ k row, w.store.externalResults.get k = some row → Named w.store.walEvents (strip k)
  sequenced : ∀ k, w.store.Started k → Sequenced w.store.walEvents (strip k)
  sent : ∀ e outcome, .sent e outcome ∈ w.trace →
    Sequenced w.store.walEvents e ∧ w.store.Started e

/-- The log grows and no record falls back to `INTENT_LOGGED`. -/
structure Forward (w w' : World τ) : Prop where
  log : w.store.walEvents <+: w'.store.walEvents
  started : ∀ k, w.store.Started k → w'.store.Started k

theorem Forward.refl (w : World τ) : Forward w w := ⟨List.prefix_refl _, fun _ h => h⟩

theorem Forward.trans (a b c : World τ) (h : Forward a b) (h' : Forward b c) : Forward a c :=
  ⟨h.log.trans h'.log, fun k hk => h'.started k (h.started k hk)⟩

/-- The store of a world changes by an operation that keeps the records. -/
theorem LogFirst.framed {w : World τ} {s : Store} (h : LogFirst w) (hs : Framed w.store s) :
    LogFirst { w with store := s } ∧ Forward w { w with store := s } := by
  have hst : ∀ k, s.Started k ↔ w.store.Started k := by
    intro k
    unfold Store.Started
    rw [hs.externalResults]
  refine ⟨⟨?_, ?_, ?_⟩, hs.walEvents, fun k => (hst k).2⟩
  · intro k row hk
    rw [hs.externalResults] at hk
    exact (h.named k row hk).mono hs.walEvents
  · intro k hk
    exact (h.sequenced k ((hst k).1 hk)).mono hs.walEvents
  · intro e outcome he
    obtain ⟨h1, h2⟩ := h.sent e outcome he
    exact ⟨h1.mono hs.walEvents, (hst e).2 h2⟩

/-- The store of a world changes by writing one record. -/
theorem LogFirst.put {w : World τ} {s : Store} {new : ExternalResultRecord} (h : LogFirst w)
    (hlog : w.store.walEvents <+: s.walEvents)
    (hput : s.externalResults = w.store.externalResults.put new)
    (hnamed : Named s.walEvents (strip new.executionId))
    (hseq : new.executionStatus ≠ .intentLogged → Sequenced s.walEvents (strip new.executionId))
    (hback : w.store.Started new.executionId → new.executionStatus ≠ .intentLogged) :
    LogFirst { w with store := s } ∧ Forward w { w with store := s } := by
  have hget : ∀ k, s.externalResults.get k =
      if k = new.executionId then some new else w.store.externalResults.get k := by
    intro k
    rw [hput, Table.get_put]
  have hkeep : ∀ k, w.store.Started k → s.Started k := by
    intro k hk
    unfold Store.Started
    rw [hget]
    split
    · next heq => exact ⟨new, rfl, hback (heq ▸ hk)⟩
    · exact hk
  refine ⟨⟨?_, ?_, ?_⟩, hlog, hkeep⟩
  · intro k row hk
    rw [show ({ w with store := s } : World τ).store = s from rfl, hget] at hk
    split at hk
    · next heq => exact heq ▸ hnamed
    · exact (h.named k row hk).mono hlog
  · rintro k ⟨row, hk, hne⟩
    rw [show ({ w with store := s } : World τ).store = s from rfl, hget] at hk
    split at hk
    · next heq =>
      cases hk
      exact heq ▸ hseq hne
    · exact (h.sequenced k ⟨row, hk, hne⟩).mono hlog
  · intro e outcome he
    obtain ⟨h1, h2⟩ := h.sent e outcome he
    exact ⟨h1.mono hlog, hkeep e h2⟩

/-! ## One operation -/

section
variable {cfg : LoggingServiceConfig} {env : Environment τ} {w w' : World τ}

theorem logFirst_facade {o : FacadeOp} {r : Except PyError o.Res} (h : LogFirst w)
    (hs : sem cfg env w (.facade o) r w')
    (hok : ∀ amb a s, o.exec cfg amb w.store = .ok (a, s) →
      LogFirst { w with store := s } ∧ Forward w { w with store := s }) :
    LogFirst w' ∧ Forward w w' := by
  cases r with
  | ok a =>
    obtain ⟨amb, s, hx, rfl⟩ := sem_facade_ok.1 hs
    exact hok amb a s hx
  | error e =>
    obtain ⟨-, rfl⟩ := sem_facade_error.1 hs
    exact ⟨h, .refl _⟩

theorem logFirst_plain {o : FacadeOp} (ho : o.plain = true) {r : Except PyError o.Res} (h : LogFirst w)
    (hs : sem cfg env w (.facade o) r w') : LogFirst w' ∧ Forward w w' :=
  logFirst_facade h hs fun _ _ _ hx => h.framed (exec_framed ho hx)

theorem logFirst_intent {a : ToolIntent} (ha : Trimmed a.executionId) {r : Except PyError RunProjections}
    (h : LogFirst w) (hs : sem cfg env w (.facade (.recordToolIntent a)) r w') :
    LogFirst w' ∧ Forward w w' := by
  refine logFirst_facade h hs fun amb res s hx => ?_
  rcases intent_records (FacadeOp.exec_recordToolIntent.1 hx) with hf | ⟨hnone, -, hput, hlog, hnamed⟩
  · exact h.framed hf
  · refine h.put hlog hput hnamed (fun hne => absurd rfl hne) ?_
    rintro ⟨row, hrow, -⟩
    have hrow : w.store.externalResults.get a.executionId = some row := hrow
    rw [ha] at hnone
    rw [hnone] at hrow
    cases hrow

theorem logFirst_dispatch {runId e : String} {r : Except PyError ExternalResultRecord} (h : LogFirst w)
    (hs : sem cfg env w (.facade (.recordToolDispatch runId e)) r w') : LogFirst w' ∧ Forward w w' := by
  refine logFirst_facade h hs fun amb res s hx => ?_
  obtain ⟨row, new, hd, -⟩ := dispatch_records (FacadeOp.exec_recordToolDispatch.1 hx)
  obtain ⟨ev, hlog, hev⟩ := hd.log
  have hnamed := h.named _ _ hd.found
  rw [strip_strip] at hnamed
  have hseq := (hnamed.dispatch hev).mono hlog
  refine h.put hd.grows hd.externalResults ?_ (fun _ => ?_) (fun _ => ?_)
  · rw [hd.executionId, strip_strip]
    exact hseq.named
  · rw [hd.executionId, strip_strip]
    exact hseq
  · rw [hd.executionStatus]
    decide

/-- A dispatch that succeeds leaves its id logged in order. -/
theorem sequenced_of_dispatch {runId e : String} {r : ExternalResultRecord} (h : LogFirst w)
    (hs : sem cfg env w (.facade (.recordToolDispatch runId e)) (.ok r) w') :
    Sequenced w'.store.walEvents (strip e) ∧ w'.store.Started (strip e) := by
  obtain ⟨amb, s, hx, rfl⟩ := sem_facade_ok.1 hs
  obtain ⟨row, new, hd, -⟩ := dispatch_records (FacadeOp.exec_recordToolDispatch.1 hx)
  obtain ⟨ev, hlog, hev⟩ := hd.log
  have hnamed := h.named _ _ hd.found
  rw [strip_strip] at hnamed
  refine ⟨(hnamed.dispatch hev).mono hlog, new, ?_, ?_⟩
  · rw [hd.externalResults, ← hd.executionId, Table.get_put_self]
  · rw [hd.executionStatus]
    decide

theorem logFirst_result {a : ToolResult} (ha : Trimmed a.executionId) {st : ExecutionStatus}
    (hst : a.executionStatus = some st.value) (hne : st ≠ .intentLogged)
    (hseq : Sequenced w.store.walEvents a.executionId) {r : Except PyError ExternalResultRecord}
    (h : LogFirst w) (hs : sem cfg env w (.facade (.recordToolResult a)) r w') :
    LogFirst w' ∧ Forward w w' := by
  refine logFirst_facade h hs fun amb res s hx => ?_
  obtain ⟨es, new, hr, -⟩ := result_records (FacadeOp.exec_recordToolResult.1 hx)
  have hseq' := hseq.mono hr.log
  refine h.put hr.log hr.externalResults ?_ (fun _ => ?_) (fun _ => ?_)
  · rw [hr.executionId, ha]
    exact hseq'.named
  · rw [hr.executionId, ha]
    exact hseq'
  · rw [hr.executionStatus, hr.status_eq hst]
    exact hne

theorem logFirst_invoke {call : Invocation} {r : Except PyError InvokeOutcome}
    (hseq : Sequenced w.store.walEvents call.identity) (hst : w.store.Started call.identity)
    (h : LogFirst w) (hs : sem cfg env w (.invoke call) r w') : LogFirst w' ∧ Forward w w' := by
  obtain ⟨outcome, target, -, -, rfl⟩ := hs
  refine ⟨⟨h.named, h.sequenced, ?_⟩, List.prefix_refl _, fun _ hk => hk⟩
  intro e o he
  rcases List.mem_append.1 he with he | he
  · exact h.sent e o he
  · cases List.mem_singleton.1 he
    exact ⟨hseq, hst⟩

theorem logFirst_verify {probe : Probe} {r : Except PyError (Option WriteVerification)}
    (h : LogFirst w) (hs : sem cfg env w (.verify probe) r w') : LogFirst w' ∧ Forward w w' := by
  obtain ⟨answer, target, -, -, rfl⟩ := hs
  refine ⟨⟨h.named, h.sequenced, ?_⟩, List.prefix_refl _, fun _ hk => hk⟩
  intro e o he
  rcases List.mem_append.1 he with he | he
  · exact h.sent e o he
  · cases List.mem_singleton.1 he

theorem logFirst_handoff {d : RecoveryDecision} {r : Except PyError Unit}
    (h : LogFirst w) (hs : sem cfg env w (.handoff d) r w') : LogFirst w' ∧ Forward w w' := by
  rcases sem_handoff hs with rfl | ⟨keys, rfl⟩
  · exact ⟨h, .refl _⟩
  · refine ⟨⟨h.named, h.sequenced, ?_⟩, List.prefix_refl _, fun _ hk => hk⟩
    intro e o he
    rcases List.mem_append.1 he with he | he
    · exact h.sent e o he
    · cases List.mem_singleton.1 he

end

/-! ## Processes -/

/-- Safe for the pool: the invariant and the guarantee, with no condition on the result. -/
abbrev LogSafe (cfg : LoggingServiceConfig) (env : Environment τ) {α : Type} (p : Prog α)
    (w : World τ) : Prop :=
  Safe (sem cfg env) LogFirst Forward Forward (fun _ _ => True) p w

section
variable {cfg : LoggingServiceConfig} {env : Environment τ}

/-- The record a lookup returns is the one in the table. -/
theorem started_of_lookup {s : Store} {e : String} {rec : ExternalResultRecord}
    (h : s.getExternalResult e = .ok (some rec)) (hne : rec.executionStatus ≠ .intentLogged) :
    s.Started (strip e) := by
  obtain ⟨row, hrow, -, rfl⟩ := getExternalResult_some h
  exact ⟨row, hrow, hne⟩

/-- Sending is safe once the id is logged in order. -/
theorem logSafe_invokeAndRecord {c : ToolCall} {replay : Bool} {w : World τ}
    (hseq : Sequenced w.store.walEvents c.executionId) (hst : w.store.Started c.executionId) :
    LogSafe cfg env (invokeAndRecord c .write replay) w := by
  refine Safe.call (fun w1 r w2 hR hI hs => ?_) (fun w1 outcome w2 hR hI hs hI2 => ?_)
    fun _ _ _ _ _ _ _ => trivial
  · exact logFirst_invoke (hseq.mono hR.log) (hR.started _ hst) hI hs
  · have hseq2 : Sequenced w2.store.walEvents c.executionId := by
      obtain ⟨_, _, -, -, rfl⟩ := hs
      exact hseq.mono hR.log
    refine Safe.call (fun w3 r w4 hR' hI hs => ?_) (fun _ _ _ _ _ _ _ => trivial)
      fun _ _ _ _ _ _ _ => trivial
    obtain ⟨st, hstatus, hne⟩ := resultOf_status c replay outcome
    refine logFirst_result ?_ hstatus hne ?_ hI hs
    · rw [resultOf_executionId]
      exact c.trimmed_executionId
    · rw [resultOf_executionId]
      exact hseq2.mono hR'.log

theorem logSafe_firstExecution {mgr : TransactionManager} {c : ToolCall} (w : World τ) :
    LogSafe cfg env (firstExecution mgr c .write) w := by
  unfold firstExecution
  refine Safe.call (fun w1 r w2 hR hI hs => logFirst_intent (a := c.intent .write) c.trimmed_executionId hI hs)
    (fun w1 _ w2 hR hI hs hI2 => ?_) fun _ _ _ _ _ _ _ => trivial
  refine Safe.call (fun w3 r w4 hR hI hs => logFirst_plain rfl hI hs)
    (fun w3 current w4 hR hI hs hI2 => ?_) fun _ _ _ _ _ _ _ => trivial
  cases current with
  | none => trivial
  | some current =>
    dsimp only
    split
    · trivial
    · unfold markDispatched
      rw [if_pos (.inl rfl)]
      refine Safe.call (fun w5 r w6 hR hI hs => logFirst_dispatch hI hs)
        (fun w5 rec w6 hR hI hs hI2 => ?_) fun _ _ _ _ _ _ _ => trivial
      have h := sequenced_of_dispatch hI hs
      rw [c.trimmed_executionId] at h
      exact logSafe_invokeAndRecord h.1 h.2

theorem logSafe_executeTool {mgr : TransactionManager} {c : ToolCall}
    (hc : normalizeOperationType c.operationType = .ok .write) (w : World τ) :
    LogSafe cfg env (executeTool mgr c) w := by
  unfold executeTool
  rw [hc, lift_ok_bind]
  refine Safe.call (fun w1 r w2 hR hI hs => logFirst_plain rfl hI hs)
    (fun w1 existing w2 hR hI hs hI2 => ?_) fun _ _ _ _ _ _ _ => trivial
  cases existing with
  | none => exact logSafe_firstExecution w2
  | some existing =>
    dsimp only
    split
    · trivial
    · next hst =>
      obtain ⟨hget, rfl⟩ := sem_getExternalResult hs
      have hstarted := started_of_lookup hget (by rw [not_not.1 hst]; decide)
      rw [c.trimmed_executionId] at hstarted
      refine logSafe_invokeAndRecord ?_ hstarted
      have := hI.sequenced _ hstarted
      rwa [c.trimmed_executionId] at this

/-! ## Recovery passes -/

/-- What a pass knows of the records it read: their ids are stripped, and those
past `INTENT_LOGGED` are logged in order. -/
def RecordsKnown (records : List ExternalResultRecord) (w : World τ) : Prop :=
  ∀ r ∈ records, Trimmed r.executionId ∧
    (r.executionStatus ≠ .intentLogged → Sequenced w.store.walEvents r.executionId)

theorem RecordsKnown.mono {records : List ExternalResultRecord} {w w' : World τ}
    (h : RecordsKnown records w) (hf : Forward w w') : RecordsKnown records w' :=
  fun r hr => ⟨(h r hr).1, fun hne => ((h r hr).2 hne).mono hf.log⟩

theorem logFirst_neutral {w w' : World τ} {o : Op} {r : Except PyError o.Res} (ho : Neutral o)
    (h : LogFirst w) (hs : sem cfg env w o r w') : LogFirst w' ∧ Forward w w' := by
  cases ho with
  | loadContext runId => exact logFirst_plain rfl h hs
  | message a => exact logFirst_plain rfl h hs
  | handoff d => exact logFirst_handoff h hs

theorem logSafe_recoverRun {rc : RecoveryCoordinator} {runId : String} {now : Datetime} (w : World τ) :
    LogSafe cfg env (recoverRun rc runId now) w := by
  refine recoverRun_safe (K := fun records _ w => RecordsKnown records w) ?_ ?_ (fun _ _ _ _ h => h) ?_
    (fun _ => trivial) w
  · rintro w o r w' hI (rfl | rfl | rfl) hs
    · exact logFirst_plain rfl hI hs
    · exact logFirst_plain rfl hI hs
    · exact logFirst_plain rfl hI hs
  · intro w records hI hlist w' pending hR hI' _ r hr
    obtain ⟨htr, row, hrow, -, rfl⟩ := listed_row hlist hr
    refine ⟨htr, fun hne => ?_⟩
    have := (hI.sequenced _ ⟨row, hrow, hne⟩).mono hR.log
    rwa [htr] at this
  · intro records e es w hK
    refine recoverOne_safe (F := RecordsKnown records) (Q := RecordsKnown records)
      (V := fun _ _ w => RecordsKnown records w ∧ Trimmed e ∧ Sequenced w.store.walEvents e)
      (fun _ _ h hR => h.mono hR) (fun _ _ h hR => h.mono hR)
      (fun _ _ _ _ h hR => ⟨h.1.mono hR, h.2.1, h.2.2.mono hR.log⟩) (fun _ h => h) ?_ ?_ ?_ hK
    · intro w o r w' ho hI hq hs
      obtain ⟨h1, h2⟩ := logFirst_neutral ho hI hs
      exact ⟨h1, h2, hq.mono h2⟩
    · intro record w r w' hrec hst hop hI hF hs
      obtain ⟨h1, h2⟩ := logFirst_verify hI hs
      refine ⟨h1, h2, hF.mono h2, fun _ _ _ _ => ⟨hF.mono h2, ?_⟩⟩
      obtain ⟨hmem, rfl⟩ := recordOf_some hrec
      obtain ⟨htr, hseq⟩ := hF record hmem
      exact ⟨htr, (hseq (by rw [hst]; decide)).mono h2.log⟩
    · intro record v b w r w' hrec hc hI hV hs
      obtain ⟨hK, htr, hseq⟩ := hV
      have hkey := verdictResult_executionId runId e v b
      have hne : verdictStatus b ≠ .intentLogged := by cases b <;> decide
      obtain ⟨h1, h2⟩ := logFirst_result (by rwa [hkey]) (verdictResult_status runId e v b) hne (by rwa [hkey])
        hI hs
      exact ⟨h1, h2, hK.mono h2⟩

/-! ## The pool -/

/-- A call of the pool: a write, a recovery pass, or an operation that writes no tool record. -/
def Call.WritesOnly : Call → Prop
  | .executeTool _ c => normalizeOperationType c.operationType = .ok .write
  | .recoverRun _ _ _ => True
  | .facade o => o.plain = true

theorem logSafe_call {c : Call} (hc : c.WritesOnly) (w : World τ) : LogSafe cfg env c.program w := by
  cases c with
  | executeTool mgr c => exact logSafe_executeTool (c := c) hc w
  | recoverRun rc runId now => exact logSafe_recoverRun w
  | facade o =>
    intro w1 hR hI r w2 hs
    obtain ⟨h1, h2⟩ := logFirst_plain hc hI hs
    refine ⟨h1, h2, ?_⟩
    cases r <;> trivial

theorem logFirst_start (target : τ) : LogFirst { target := target : World τ } := by
  refine ⟨?_, ?_, ?_⟩
  · intro k row h
    cases h
  · rintro k ⟨row, h, -⟩
    cases h
  · intro e o h
    cases h

variable {ι : Type} [DecidableEq ι]

theorem reach_logFirst {calls : ι → Call} (hcalls : ∀ i, (calls i).WritesOnly) {w0 w : World τ}
    (h0 : LogFirst w0) {pool : Pool ι Op Op.Res PyError fun i => (calls i).Result}
    (hr : Reach (fun _ => sem cfg env) (w0, fun i => some (calls i).program) (w, pool)) : LogFirst w := by
  refine (reach_safe (I := LogFirst) (R := fun _ => Forward)
    (G := fun _ => Forward) (Q := fun _ _ _ => True) (fun _ => .refl) (fun _ => Forward.trans)
    (fun _ _ _ _ _ _ => trivial) (fun _ _ _ _ _ h => h) ⟨h0, ?_⟩ hr).1
  intro i p hp
  cases hp
  exact logSafe_call (hcalls i) w0

end

/-- **Log before send.**  In every state of a pool of writes, recovery passes and
other operations, each losable at any point: an id the adapter was called for has
its intent and then its dispatch in the log and a record past `INTENT_LOGGED`;
an id without such a record was never sent. -/
theorem log_before_send {ι : Type} [DecidableEq ι] (cfg : LoggingServiceConfig) (env : Environment τ)
    (calls : ι → Call) (hcalls : ∀ i, (calls i).WritesOnly) (target : τ) (w : World τ)
    (pool : Pool ι Op Op.Res PyError fun i => (calls i).Result)
    (hr : Reach (fun _ => sem cfg env) ({ target := target }, fun i => some (calls i).program) (w, pool))
    (executionId : String) :
    ((∃ outcome, .sent executionId outcome ∈ w.trace) →
      Sequenced w.store.walEvents executionId ∧
        ∃ row, w.store.externalResults.get executionId = some row ∧ row.executionStatus ≠ .intentLogged) ∧
    ((∀ row, w.store.externalResults.get executionId = some row → row.executionStatus = .intentLogged) →
      ∀ outcome, .sent executionId outcome ∉ w.trace) := by
  have hI := reach_logFirst hcalls (logFirst_start target) hr
  refine ⟨fun ⟨outcome, h⟩ => hI.sent _ outcome h, fun hall outcome h => ?_⟩
  obtain ⟨-, row, hrow, hne⟩ := hI.sent _ outcome h
  exact hne (hall row hrow)

theorem exists_sent_of_sends {trace : List Mark} {e : String} (h : trace.any (Mark.sends e) = true) :
    ∃ outcome, .sent e outcome ∈ trace := by
  obtain ⟨m, hm, hs⟩ := List.any_eq_true.1 h
  cases m with
  | sent e' outcome =>
    have he : e' = e := by simpa [Mark.sends] using hs
    exact ⟨outcome, he ▸ hm⟩
  | probed => cases hs
  | handedOff => cases hs

theorem bookingPool_writesOnly : ∀ i, (bookingPool i).WritesOnly
  | false => rfl
  | true => bookingCall_write

theorem log_before_send_booked : Sequenced bookedWorld.store.walEvents bookingCall.executionId ∧
    ∃ row, bookedWorld.store.externalResults.get bookingCall.executionId = some row ∧
      row.executionStatus ≠ .intentLogged :=
  (log_before_send {} (Environment.any Script) bookingPool bookingPool_writesOnly _ _ _
    (playTurns_reach bookingPool _ _) bookingCall.executionId).1 (exists_sent_of_sends (by decide +kernel))

end Raef
