import Raef.Model.Bundle
import Raef.Proofs.Changes
import Raef.Proofs.Issued
import Raef.Proofs.Script

/-!
# Runs are kept apart

One database holds every run.  Whatever processes do on other runs, in any
interleaving, with crashes anywhere and any adapter, what a run's own reads give
stays the same: its recovery bundle, its records, its pending list, its events.

    an operation elsewhere leaves the rows and the log of the run alone     (exec_untouched)
    calls on other runs issue operations elsewhere                          (issued_elsewhere)
    → the reads of the run never change                                     (runs_apart)

The records are the delicate part: they are found by the stripped execution id
and written under the id as given, so the run's own ids have to be stripped.
-/

namespace Raef

open Text Txn Program

/-! ## Statements -/

/-- The operation is not about the run. -/
def FacadeOp.Elsewhere (k : String) (o : FacadeOp) : Prop := ∀ runId, o.run = some runId → strip runId ≠ k

/-- The call is about another run. -/
def Call.Elsewhere (k : String) : Call → Prop
  | .executeTool _ c => strip c.runId ≠ k
  | .recoverRun _ runId _ => strip runId ≠ k
  | .facade o => o.Elsewhere k

/-- The rows of the run are filed under stripped execution ids. -/
def Store.OwnIds (s : Store) (k : String) : Prop :=
  ∀ e row, s.externalResults.get e = some row → row.runId = k → Trimmed e

/-- Everything that can be read of the run is the same in both stores. -/
structure Store.ReadsAlike (runId : String) (s s' : Store) : Prop where
  bundle : ∀ snapshotType limit, s'.rebuildState runId snapshotType limit = s.rebuildState runId snapshotType limit
  results : s'.listExternalResults runId = s.listExternalResults runId
  pending : s'.listPendingExecutions runId = s.listPendingExecutions runId
  events : ∀ afterSeq limit, s'.readEvents runId afterSeq limit = s.readEvents runId afterSeq limit
  record : ∀ e row, s.externalResults.get e = some row → row.runId = strip runId →
    s'.getExternalResult e = s.getExternalResult e

/-! ## What a run has in the store -/

namespace Store

/-- The rows of the run, with their keys. -/
def resultsOf (s : Store) (k : String) : List ((_ : String) × ExternalResultRecord) :=
  s.externalResults.rows.entries.filter fun e => e.2.runId = k

def checkpointsOf (s : Store) (k : String) : List WalCheckpoint :=
  s.walCheckpoints.filter fun c => c.runId = k

end Store

/-- What belongs to the run `k` is the same in both stores, the records included. -/
structure Untouched (k : String) (s s' : Store) : Prop where
  beside : Beside k s s'
  results : s'.resultsOf k = s.resultsOf k
  checkpoints : s'.checkpointsOf k = s.checkpointsOf k

/-- Erasing a row that the filter drops anyway. -/
theorem filter_eraseP {α : Type} {p q : α → Bool} {l : List α} (h : ∀ x ∈ l, q x = true → p x = false) :
    (l.eraseP q).filter p = l.filter p := by
  induction l with
  | nil => rfl
  | cons x l ih =>
    by_cases hq : q x = true
    · rw [List.eraseP_cons_of_pos hq, List.filter_cons_of_neg (by simp [h x List.mem_cons_self hq])]
    · rw [List.eraseP_cons_of_neg hq, List.filter_cons, List.filter_cons,
        ih fun y hy => h y (List.mem_cons_of_mem _ hy)]

section
variable {cfg : LoggingServiceConfig} {amb : Ambient} {o : FacadeOp} {runId k e : String}
  {s s' s'' : Store} {owed : Option PlannerState}

theorem mem_resultsOf {row : ExternalResultRecord} :
    ⟨e, row⟩ ∈ s.resultsOf k ↔ s.externalResults.get e = some row ∧ row.runId = k := by
  unfold Store.resultsOf
  rw [List.mem_filter, Table.mem_entries_iff, decide_eq_true_eq]

theorem Untouched.refl (s : Store) : Untouched k s s := ⟨.refl s, rfl, rfl⟩

theorem Untouched.trans (h : Untouched k s s') (h' : Untouched k s' s'') : Untouched k s s'' :=
  ⟨h.beside.trans h'.beside, h'.results.trans h.results, h'.checkpoints.trans h.checkpoints⟩

theorem Untouched.ownIds (h : Untouched k s s') (hids : s.OwnIds k) : s'.OwnIds k := by
  intro e row hrow hrun
  have hmem := mem_resultsOf.2 ⟨hrow, hrun⟩
  rw [h.results, mem_resultsOf] at hmem
  exact hids e row hmem.1 hmem.2

theorem Untouched.of_beside (h : Beside k s s') (hres : s'.externalResults = s.externalResults)
    (hcp : s'.walCheckpoints = s.walCheckpoints) : Untouched k s s' := by
  refine ⟨h, ?_, ?_⟩
  · unfold Store.resultsOf
    rw [hres]
  · unfold Store.checkpointsOf
    rw [hcp]

/-- A row of another run, written over nothing of this run. -/
theorem untouched_putResult {row : ExternalResultRecord} (hrun : row.runId ≠ k)
    (hover : ∀ old, s.externalResults.get row.executionId = some old → old.runId ≠ k) :
    Untouched k s (s.putResult row) := by
  refine ⟨beside_putResult row, ?_, rfl⟩
  show (AList.insert row.executionId row s.externalResults.rows).entries.filter _ = _
  rw [AList.entries_insert, List.filter_cons_of_neg (by simpa using hrun)]
  refine filter_eraseP fun entry hentry hkey => ?_
  obtain ⟨e, old⟩ := entry
  have hkey : row.executionId = e := by simpa using hkey
  rw [Table.mem_entries_iff, ← hkey] at hentry
  simpa using hover old hentry

/-- A run id is not `k` when it does not strip to it. -/
theorem ne_of_strip_ne (hk : Trimmed k) (h : strip runId ≠ k) : runId ≠ k := by
  rintro rfl
  exact h hk

/-! ## The parts of an operation elsewhere -/

theorem PendingCleared.untouched {a : ToolResult} {es : ExecutionStatus} (h : PendingCleared amb a es s s')
    (hr : strip a.runId ≠ k) : Untouched k s s' := by
  refine .of_beside (h.beside hr) ?_ ?_
  · cases h <;> rfl
  · cases h <;> rfl

/-- The plan and the context of a new run are filed under its own id. -/
theorem planStarted_untouched {a : StartRun} {st : PlannerState} (hrun : st.runId = a.runId) (hk : Trimmed k)
    (hr : strip a.runId ≠ k) : Untouched k s (s.planStarted amb a st) := by
  refine .of_beside (.trans (beside_newEvent hr) (.trans (beside_newEvent hr)
    (.trans (beside_putPlan ?_) (beside_newEvent hr)))) rfl rfl
  show st.runId ≠ k
  rw [hrun]
  exact ne_of_strip_ne hk hr

theorem IntentSaved.untouched {a : ToolIntent} (h : IntentSaved amb a s s') (hk : Trimmed k)
    (hr : strip a.runId ≠ k) (hids : s.OwnIds k) : Untouched k s s' := by
  cases h with
  | present => exact .refl _
  | written hnone =>
    have hrow : (s.rowOf amb (a.record amb)).runId ≠ k := ne_of_strip_ne hk hr
    refine untouched_putResult hrow fun old hold hrun => ?_
    have hold : s.externalResults.get a.executionId = some old := hold
    rw [← hids _ old hold hrun, hnone] at hold
    cases hold

/-- What an operation does first, elsewhere.  A record of the run is found by the
operation before it is written over, and then its run is compared. -/
theorem Act.untouched (h : Act cfg amb o runId s owed s') (hk : Trimmed k) (hr : strip runId ≠ k)
    (hids : s.OwnIds k) : Untouched k s s' := by
  cases h with
  | idle hrun => exact .refl _
  | created a st out messages hst hout hmsgs hdec hcase =>
    have hplan : Untouched k s (s.planStarted amb a st) := planStarted_untouched (createPlanState_ok hst).runId hk hr
    refine hplan.trans (.of_beside (s := s.planStarted amb a st) ?_ rfl rfl)
    exact beside_putContext (c := freshContext amb a.runId messages a.initialMemory) (ne_of_strip_ne hk hr)
  | replanned a st out c hst hout hplan hctx =>
    exact planStarted_untouched (createPlanState_ok hst).runId hk hr
  | edited st st' out hedit hload hst hout =>
    have hact : Act cfg amb o _ s _ _ := .edited st st' out hedit hload hst hout
    refine .of_beside (hact.beside ?_ hr) rfl rfl
    rintro a rfl
    cases hedit
  | intended a st st' out c hknown hload hst hout hctx hblank hsaved =>
    have hlogged : Untouched k s (s.intentLogged amb a st' c) := by
      refine .of_beside (intentLogged_beside ?_ (loadContext_runId hctx) hr) rfl rfl
      rw [(attachToolCallRefState_ok hst).1.runId, loadPlan_runId hload]
    exact hlogged.trans (hsaved.untouched hk hr (hlogged.ownIds hids))
  | dispatched runId e row hfound hrun hparent hmoves =>
    refine .trans (.of_beside (beside_newEvent hr) rfl rfl) (untouched_putResult ?_ fun old hold hold' => ?_)
    · show strip row.runId ≠ k
      rw [hrun]
      exact ne_of_strip_ne hk hr
    · have hold : s.externalResults.get (strip row.executionId) = some old := hold
      rw [Table.key_of_get hfound, strip_strip, hfound] at hold
      cases hold
      rw [hold', hk] at hrun
      exact ne_of_strip_ne hk hr hrun.symm
  | resulted a rs es cached record hparent hrs hes hget hcheck hrecord hcleared =>
    obtain ⟨hid, hrun, -⟩ := toolResult_record_ok hrecord
    refine .trans (.trans (.of_beside (beside_newEvent hr) rfl rfl) (untouched_putResult ?_ fun old hold hold' => ?_))
      (hcleared.untouched hr)
    · show record.runId ≠ k
      rw [hrun]
      exact ne_of_strip_ne hk hr
    · have hold : s.externalResults.get record.executionId = some old := hold
      rw [hid] at hold
      have hcached := (getExternalResult_ok.1 hget).2
      rw [hids _ old hold hold', hold] at hcached
      obtain ⟨-, rfl⟩ := hcached
      unfold ToolResult.check at hcheck
      dsimp only at hcheck
      split at hcheck
      · cases hcheck
      · next hsame =>
        have hsame : strip old.runId = a.runId := not_not.1 hsame
        rw [hold', hk] at hsame
        exact ne_of_strip_ne hk hr hsame.symm

theorem Checkpointed.untouched (h : Checkpointed amb runId s s') (hr : strip runId ≠ k) : Untouched k s s' := by
  refine ⟨h.beside hr, ?_, ?_⟩
  · unfold Store.resultsOf
    rw [h.externalResults]
  · cases h with
    | none => rfl
    | bare cp hrun =>
      show (s.walCheckpoints ++ [cp]).filter _ = _
      rw [List.filter_append, List.filter_cons_of_neg (by simpa [hrun] using hr), List.filter_nil, List.append_nil]
      rfl
    | withContext cp c hrun =>
      show (s.walCheckpoints ++ [cp]).filter _ = _
      rw [List.filter_append, List.filter_cons_of_neg (by simpa [hrun] using hr), List.filter_nil, List.append_nil]
      rfl

/-- An operation on another run leaves the run untouched. -/
theorem exec_untouched {r : o.Res} (hx : o.exec cfg amb s = .ok (r, s')) (ho : o.Elsewhere k) (hk : Trimmed k)
    (hids : s.OwnIds k) : Untouched k s s' := by
  rcases exec_parts hx with ⟨rfl, -⟩ | ⟨runId, hrun, owed, s1, s2, s3, hact, hspoken, hsettled, hcp⟩
  · exact .refl _
  · have hr := ho runId hrun
    have hmid : Untouched k s1 s2 := by
      refine .of_beside (hspoken.beside hact.run hr) ?_ ?_
      · cases hspoken <;> rfl
      · cases hspoken <;> rfl
    have hback : Untouched k s2 s3 := by
      refine .of_beside (hsettled.beside hr) ?_ ?_
      · cases hsettled <;> rfl
      · cases hsettled <;> rfl
    exact .trans (hact.untouched hk hr hids) (.trans hmid (.trans hback (hcp.checkpointed.untouched hr)))

end

/-! ## The reads of a run -/

section
variable {runId k : String} {s s' : Store}

theorem except_bind_congr {ε α β : Type} {x : Except ε α} {f g : α → Except ε β}
    (h : ∀ a, x = .ok a → f a = g a) : (x >>= f) = x >>= g := by
  cases x with
  | error e => rfl
  | ok a => exact h a rfl

/-- A read by run id sees the stripped id. -/
theorem byRun_congr {β : Type} {f g : String → Except PyError β} (h : f (strip runId) = g (strip runId)) :
    (requireNonEmptyStr runId "run_id" >>= f) = requireNonEmptyStr runId "run_id" >>= g := by
  refine except_bind_congr fun a ha => ?_
  obtain ⟨-, rfl⟩ := requireNonEmptyStr_ok.1 ha
  exact h

theorem Untouched.loadPlan (h : Untouched (strip runId) s s') : s'.loadPlan runId = s.loadPlan runId := by
  unfold Store.loadPlan
  refine byRun_congr ?_
  rw [h.beside.plan]

theorem Untouched.loadContext (h : Untouched (strip runId) s s') : s'.loadContext runId = s.loadContext runId := by
  unfold Store.loadContext
  refine byRun_congr ?_
  rw [h.beside.context]

theorem Untouched.readWalEvents (h : Untouched (strip runId) s s') (afterSeq : Option ℕ) (limit : ℕ) :
    s'.readWalEvents runId afterSeq limit = s.readWalEvents runId afterSeq limit := by
  have hrows (t : Store) (p : WalEvent → Bool) :
      (t.walEvents.filter fun e => e.runId = strip runId && p e) = (t.eventsOf (strip runId)).filter p := by
    unfold Store.eventsOf
    rw [List.filter_filter]
    exact List.filter_congr fun e _ => Bool.and_comm _ _
  unfold Store.readWalEvents
  refine byRun_congr ?_
  dsimp only
  rw [hrows, hrows, h.beside.log]

theorem Untouched.latestWalSeq (h : Untouched (strip runId) s s') : s'.latestWalSeq runId = s.latestWalSeq runId := by
  have hlog : (s'.walEvents.filter fun e => e.runId = strip runId) =
      s.walEvents.filter fun e => e.runId = strip runId := h.beside.log
  unfold Store.latestWalSeq
  refine byRun_congr ?_
  rw [hlog]

theorem Untouched.readLatestWalCheckpoint (h : Untouched (strip runId) s s') (snapshotType : Option String) :
    s'.readLatestWalCheckpoint runId snapshotType = s.readLatestWalCheckpoint runId snapshotType := by
  have hrows (t : Store) (p : WalCheckpoint → Bool) :
      (t.walCheckpoints.filter fun c => c.runId = strip runId && p c) =
        (t.checkpointsOf (strip runId)).filter p := by
    unfold Store.checkpointsOf
    rw [List.filter_filter]
    exact List.filter_congr fun c _ => Bool.and_comm _ _
  unfold Store.readLatestWalCheckpoint
  refine byRun_congr ?_
  cases snapshotType <;>
  · refine except_bind_congr fun t _ => ?_
    dsimp only
    rw [hrows, hrows, h.checkpoints]

/-- A row of the run is found as before. -/
theorem Untouched.getExternalResult (h : Untouched k s s') (hids : s.OwnIds k) {e : String}
    {row : ExternalResultRecord} (hrow : s.externalResults.get e = some row) (hrun : row.runId = k) :
    s'.getExternalResult e = s.getExternalResult e := by
  have hsame : s'.externalResults.get e = s.externalResults.get e := by
    have hmem := mem_resultsOf.2 ⟨hrow, hrun⟩
    rw [← h.results, mem_resultsOf] at hmem
    rw [hrow, hmem.1]
  unfold Store.getExternalResult
  refine except_bind_congr fun a ha => ?_
  obtain ⟨-, rfl⟩ := requireNonEmptyStr_ok.1 ha
  rw [hids e row hrow hrun, hsame]

theorem getExternalResults_congr {ids : List String}
    (h : ∀ e ∈ ids, s'.getExternalResult e = s.getExternalResult e) :
    s'.getExternalResults ids = s.getExternalResults ids := by
  induction ids with
  | nil => rfl
  | cons e ids ih =>
    unfold Store.getExternalResults
    rw [h e List.mem_cons_self, ih fun e' he' => h e' (List.mem_cons_of_mem _ he')]

theorem Untouched.listExternalResults (h : Untouched (strip runId) s s') (hids : s.OwnIds (strip runId)) :
    s'.listExternalResults runId = s.listExternalResults runId := by
  have hkeys : s'.executionIdsOf (strip runId) = s.executionIdsOf (strip runId) := by
    have hrows : (s'.externalResults.rows.entries.filter fun e => e.2.runId = strip runId) =
        s.externalResults.rows.entries.filter fun e => e.2.runId = strip runId := h.results
    unfold Store.executionIdsOf
    rw [hrows]
  unfold Store.listExternalResults Store.loadRequiredContext
  rw [h.loadContext]
  refine except_bind_congr fun c _ => byRun_congr ?_
  rw [hkeys]
  refine getExternalResults_congr fun e he => ?_
  obtain ⟨row, hrow, hrun⟩ := mem_executionIdsOf.1 he
  exact h.getExternalResult hids hrow hrun

/-- What is untouched reads alike. -/
theorem Untouched.reads (h : Untouched (strip runId) s s') (hids : s.OwnIds (strip runId)) :
    s.ReadsAlike runId s' where
  bundle snapshotType limit := by
    have hresults (context : Option AgentContextSnapshot) :
        s'.bundleResults runId context = s.bundleResults runId context := by
      cases context with
      | none => rfl
      | some c => exact h.listExternalResults hids
    unfold Store.rebuildState
    simp only [h.readLatestWalCheckpoint, h.readWalEvents, h.loadPlan, h.loadContext, hresults, h.latestWalSeq]
  results := h.listExternalResults hids
  pending := by
    unfold Store.listPendingExecutions
    rw [h.loadContext]
  events afterSeq limit := by
    unfold Store.readEvents Store.queryEvents
    simp only [h.readWalEvents]
  record e row hrow hrun := h.getExternalResult hids hrow hrun

end

/-! ## Pools of calls elsewhere -/

/-- An operation of a process that is not about the run. -/
def Op.Elsewhere (k : String) : Op → Prop
  | .facade o => o.Elsewhere k
  | _ => True

section
variable {τ : Type} {cfg : LoggingServiceConfig} {env : Environment τ} {k : String}

/-- The operation of the run `r` is not about `k`. -/
theorem elsewhere_of_run {o : FacadeOp} {r : String} (hr : strip r ≠ k) (ho : o.run = some r) :
    (Op.facade o).Elsewhere k := by
  intro runId hrun
  rw [ho] at hrun
  cases hrun
  exact hr

theorem op_untouched {w w' : World τ} {o : Op} {r : Except PyError o.Res} (hs : sem cfg env w o r w')
    (ho : o.Elsewhere k) (hk : Trimmed k) (hids : w.store.OwnIds k) : Untouched k w.store w'.store := by
  cases o with
  | facade o =>
    refine sem_facade (P := fun w' => Untouched k w.store w'.store) hs (.refl _) fun amb a s hx => ?_
    exact exec_untouched hx ho hk hids
  | invoke call =>
    obtain ⟨_, _, -, -, rfl⟩ := sem_invoke.1 hs
    exact .refl _
  | verify probe =>
    obtain ⟨_, _, -, -, rfl⟩ := sem_verify.1 hs
    exact .refl _
  | handoff d =>
    rcases sem_handoff hs with rfl | ⟨keys, rfl⟩
    · exact .refl _
    · exact .refl _

/-- A call elsewhere issues operations elsewhere. -/
theorem issued_elsewhere {c : Call} {o : Op} (h : IssuedBy c o) (hc : c.Elsewhere k) : o.Elsewhere k := by
  cases h with
  | facade o => exact hc
  | lookup mgr c => exact fun runId hrun => by cases hrun
  | intent mgr type => exact elsewhere_of_run hc rfl
  | dispatch mgr c => exact elsewhere_of_run hc rfl
  | send mgr type => trivial
  | @result c op mgr type replay outcome =>
    refine elsewhere_of_run hc ?_
    show some (c.resultOf op replay outcome).runId = some c.runId
    rw [resultOf_runId]
  | context rc runId now => exact elsewhere_of_run hc rfl
  | listed rc runId now => exact elsewhere_of_run hc rfl
  | pending rc runId now => exact elsewhere_of_run hc rfl
  | probe rc runId now probe => trivial
  | verdict rc runId now e v committed =>
    refine elsewhere_of_run hc ?_
    show some (verdictResult runId e v committed).runId = some runId
    rw [verdictResult_runId]
  | message rc runId now record payload => exact elsewhere_of_run hc rfl
  | handoff rc runId now d => trivial

/-- **Runs are kept apart.**  Calls on other runs, in any interleaving and lost anywhere,
leave every read of the run as it was. -/
theorem runs_apart {ι : Type} [DecidableEq ι] (cfg : LoggingServiceConfig) (env : Environment τ) (runId : String)
    {calls : ι → Call} (hcalls : ∀ i, (calls i).Elsewhere (strip runId)) {w w' : World τ}
    (hids : w.store.OwnIds (strip runId)) {pool : Pool ι Op Op.Res PyError fun i => (calls i).Result}
    (hr : Reach (fun _ => sem cfg env) (w, fun i => some (calls i).program) (w', pool)) :
    w.store.ReadsAlike runId w'.store := by
  have hkept : Untouched (strip runId) w.store w'.store := by
    refine reach_issued (I := fun w' : World τ => Untouched (strip runId) w.store w'.store) ?_ (.refl _) hr
    intro i w1 o r w2 ho hI hs
    exact hI.trans (op_untouched hs (issued_elsewhere ho (hcalls i)) (trimmed_strip runId) (hI.ownIds hids))
  exact hkept.reads hids

end

/-- A second run, started and booked while the trip is there. -/
def cruisePool : Bool → Call
  | false => .facade (.startRun { tripRun with runId := "cruise" })
  | true => .executeTool {} { bookingCall with runId := "cruise" }

theorem cruisePool_elsewhere (i : Bool) : (cruisePool i).Elsewhere "trip" := by
  have hcruise : strip "cruise" ≠ "trip" := by decide +kernel
  cases i with
  | false =>
    intro runId hrun
    cases hrun
    exact hcruise
  | true => exact hcruise

theorem bookedWorld_ownIds : bookedWorld.store.OwnIds "trip" := by
  have hall : (bookedWorld.store.externalResults.rows.entries.all fun entry => strip entry.1 = entry.1) = true := by
    decide +kernel
  intro e row hrow _
  exact of_decide_eq_true (List.all_eq_true.1 hall ⟨e, row⟩ ((Table.mem_entries_iff _ e row).2 hrow))

theorem runs_apart_cruise : bookedWorld.store.ReadsAlike "trip"
    (playTurns cruisePool [(false, 1), (true, 6)] bookedWorld).1.store := by
  have htrip : strip "trip" = "trip" := by decide +kernel
  have helse : ∀ i, (cruisePool i).Elsewhere (strip "trip") := by
    rw [htrip]
    exact cruisePool_elsewhere
  refine runs_apart {} (Environment.any Script) "trip" helse ?_ (playTurns_reach cruisePool _ _)
  rw [htrip]
  exact bookedWorld_ownIds

end Raef
