import Raef.Proofs.Changes
import Raef.Proofs.Lifecycle

/-!
# The replay window

`_maybe_auto_checkpoint_locked` writes a checkpoint when the sequence number of the last event is a
multiple of the interval.  The numbers are shared by all runs of the store, and the test is made once,
after all events of an operation: a multiple in between, or in an operation of another run, is missed.

    the events of an operation go to the window of its run            (Parts.grown)
    a due checkpoint leaves only its own event in the window          (Checkpointed.windowed)
    no step from a full window misses a multiple → the window stays   (window_bounded)
    every step misses it → the window grows past the bound            (window_overrun)
-/

namespace Raef

open Text Txn

/-! ## The window and what an operation adds -/

/-- The number after which the run is replayed: that of its latest checkpoint, or 0. -/
def Store.replayFrom (s : Store) (runId : String) : Except PyError ℕ := do
  match ← s.readLatestWalCheckpoint runId none with
  | some checkpoint => return checkpoint.seqId
  | none => return 0

/-- The number of events of the run after its latest checkpoint. -/
def Store.replayWindow (s : Store) (runId : String) : Except PyError ℕ := do
  let after ← s.replayFrom runId
  return ((s.eventsOf (strip runId)).filter fun e => decide (after < e.seqId)).length

/-- The run is started or reset, not resumed. -/
def Store.startsFresh (s : Store) (a : StartRun) : Bool :=
  match s.loadPlan a.runId, s.loadContext a.runId, a.forceReset with
  | .ok (some _), .ok (some _), false => false
  | _, _, _ => true

/-- The result takes its execution off the pending list. -/
def Store.drops (s : Store) (a : ToolResult) : Bool :=
  match parseResultStatus a.resultStatus, s.loadContext a.runId with
  | .ok resultStatus, .ok (some context) =>
    match resolveExecutionStatus a.executionStatus resultStatus with
    | .ok executionStatus => a.clears executionStatus && decide (a.executionId ∈ context.pendingExecutionIds)
    | .error _ => false
  | _, _ => false

/-- The events an operation writes before it comes to a checkpoint. -/
def FacadeOp.eventCount (cfg : LoggingServiceConfig) (s : Store) : FacadeOp → ℕ
  | .startRun a => if s.startsFresh a then 4 else 0
  | .recordContextMessage _ => 1
  | .recordLlmTurn _ => 3
  | .recordToolIntent a => match s.intentKnown cfg a.runId a.executionId with
    | .ok true => 0
    | _ => 3
  | .recordToolDispatch _ _ => 1
  | .recordToolResult a => if s.drops a then 2 else 1
  | .advancePlanItem _ => 2
  | .setActivePlanItem _ _ => 2
  | _ => 0

/-- The most events of one operation: a new run, and its checkpoint. -/
def mostEvents : ℕ := 5

/-- An operation that writes events where the window of its run has an interval of them already ends at a
multiple of the interval. -/
def FacadeOp.meetsInterval (cfg : LoggingServiceConfig) (s : Store) (o : FacadeOp) : Bool :=
  match o.run.map s.replayWindow with
  | some (.ok window) =>
    decide (o.eventCount cfg s = 0) || decide ((window : ℤ) < cfg.checkpointEveryNEvents) ||
      decide ((s.walEvents.length + o.eventCount cfg s : ℤ) % cfg.checkpointEveryNEvents = 0)
  | _ => true

/-! ## Sums over the log -/

/-- The greatest number of a checkpoint of the run. -/
def Store.lastCheckpoint (s : Store) (k : String) : ℕ :=
  ((s.walCheckpoints.filter fun c => c.runId = k).map WalCheckpoint.seqId).foldr max 0

/-- The window, as a number. -/
def Store.window (s : Store) (k : String) : ℕ :=
  ((s.eventsOf k).filter fun e => decide (s.lastCheckpoint k < e.seqId)).length

section
variable {s : Store} {runId k : String}

/-- Greater numbers first. -/
abbrev WalCheckpoint.Before (a b : WalCheckpoint) : Prop :=
  b.seqId < a.seqId ∨ (a.seqId = b.seqId ∧ b.createdAt ≤ a.createdAt)

instance : Std.Total WalCheckpoint.Before := ⟨fun a b => by
  rcases lt_trichotomy a.seqId b.seqId with h | h | h
  · exact .inr (.inl h)
  · rcases le_total a.createdAt b.createdAt with h' | h'
    · exact .inr (.inr ⟨h.symm, h'⟩)
    · exact .inl (.inr ⟨h, h'⟩)
  · exact .inl (.inl h)⟩

instance : IsTrans WalCheckpoint WalCheckpoint.Before := ⟨fun a b c h h' => by
  rcases h with h | ⟨h, ht⟩
  · rcases h' with h' | ⟨h', -⟩
    · exact .inl (h'.trans h)
    · exact .inl (h' ▸ h)
  · rcases h' with h' | ⟨h', ht'⟩
    · exact .inl (h ▸ h')
    · exact .inr ⟨h.trans h', ht'.trans ht⟩⟩

theorem head_greatest (rows : List WalCheckpoint) :
    (match (rows.insertionSort WalCheckpoint.Before).head? with
      | some checkpoint => checkpoint.seqId
      | none => 0) = (rows.map WalCheckpoint.seqId).foldr max 0 := by
  have hsorted := List.pairwise_insertionSort WalCheckpoint.Before rows
  have hmem : ∀ c, c ∈ rows.insertionSort WalCheckpoint.Before ↔ c ∈ rows :=
    fun c => List.mem_insertionSort WalCheckpoint.Before
  cases hl : rows.insertionSort WalCheckpoint.Before with
  | nil =>
    have hnone : rows = [] := List.eq_nil_iff_forall_not_mem.2 fun c hc => by
      rw [← hmem, hl] at hc
      cases hc
    rw [hnone]
    rfl
  | cons first rest =>
    rw [hl] at hsorted hmem
    refine le_antisymm ?_ (List.max_le_of_forall_le _ _ fun n hn => ?_)
    · exact List.le_max_of_le (List.mem_map_of_mem ((hmem first).1 List.mem_cons_self)) le_rfl
    · obtain ⟨c, hc, rfl⟩ := List.mem_map.1 hn
      rcases List.mem_cons.1 ((hmem c).2 hc) with rfl | hc
      · exact le_rfl
      · rcases List.rel_of_pairwise_cons hsorted hc with h | h
        · exact h.le
        · exact h.1.ge

/-- The number the log of a run is replayed from. -/
theorem replayFrom_eq (hr : blank runId = false) :
    s.replayFrom runId = .ok (s.lastCheckpoint (strip runId)) := by
  unfold Store.replayFrom Store.readLatestWalCheckpoint
  rw [requireNonEmptyStr_run _ hr]
  simp only [except_bind_ok]
  refine ⟨_, ⟨_, rfl, _, rfl, rfl⟩, ?_⟩
  unfold Store.lastCheckpoint
  rw [← head_greatest]
  simp only [Bool.and_true]
  split
  · next hhead =>
    rw [hhead]
    rfl
  · next hhead =>
    rw [hhead]
    rfl

theorem replayWindow_eq (hr : blank runId = false) :
    s.replayWindow runId = .ok (s.window (strip runId)) := by
  unfold Store.replayWindow
  rw [replayFrom_eq hr]
  rfl

end

/-! ## Growth -/

/-- Every number, of an event or in a checkpoint, is one of the log. -/
structure Store.Numbered (s : Store) : Prop where
  events : ∀ e ∈ s.walEvents, e.seqId ≤ s.walEvents.length
  checkpoints : ∀ c ∈ s.walCheckpoints, c.seqId ≤ s.walEvents.length

/-- The log has `n` more events, all of the run `k`, and no checkpoint. -/
inductive Grown (k : String) (s : Store) : ℕ → Store → Prop
  | refl : Grown k s 0 s
  | event {n : ℕ} {s' : Store} (h : Grown k s n s') (e : WalEvent) (hrun : e.runId = k)
      (hseq : e.seqId = s'.walEvents.length + 1) : Grown k s (n + 1) (s'.addEvent e)
  | rows {n : ℕ} {s' s'' : Store} (h : Grown k s n s') (hlog : s''.walEvents = s'.walEvents)
      (hcp : s''.walCheckpoints = s'.walCheckpoints) : Grown k s n s''

section
variable {k j : String} {s s' s'' : Store} {n m : ℕ}

theorem Grown.trans (h : Grown k s n s') (h' : Grown k s' m s'') : Grown k s (n + m) s'' := by
  induction h' with
  | refl => exact h
  | event _ e hrun hseq ih => exact ih.event e hrun hseq
  | rows _ hlog hcp ih => exact ih.rows hlog hcp

theorem Grown.newEvent {runId entityType entityId : String} (h : Grown (strip runId) s n s') (amb : Ambient)
    (payload : EventPayload) :
    Grown (strip runId) s (n + 1) (s'.addEvent (s'.newEvent amb runId payload entityType entityId)) :=
  h.event _ rfl rfl

theorem Grown.putPlan (h : Grown k s n s') (st : PlannerState) : Grown k s n (s'.putPlan st) := h.rows rfl rfl

theorem Grown.putContext (h : Grown k s n s') (c : AgentContextSnapshot) : Grown k s n (s'.putContext c) :=
  h.rows rfl rfl

theorem Grown.putResult (h : Grown k s n s') (row : ExternalResultRecord) : Grown k s n (s'.putResult row) :=
  h.rows rfl rfl

theorem Grown.length (h : Grown k s n s') : s'.walEvents.length = s.walEvents.length + n := by
  induction h with
  | refl => rfl
  | event _ e _ _ ih =>
    rw [Store.addEvent_walEvents, List.length_append, ih]
    rfl
  | rows _ hlog _ ih => rw [hlog, ih]

theorem Store.Numbered.addEvent (hs : s.Numbered) {e : WalEvent} (hseq : e.seqId = s.walEvents.length + 1) :
    (s.addEvent e).Numbered := by
  refine ⟨fun x hx => ?_, fun c hc => ?_⟩
  · rw [Store.addEvent_walEvents] at hx ⊢
    rw [List.length_append, List.length_singleton]
    rcases List.mem_append.1 hx with hx | hx
    · exact (hs.events x hx).trans (Nat.le_succ _)
    · rw [List.mem_singleton.1 hx, hseq]
  · rw [Store.addEvent_walEvents, List.length_append]
    exact (hs.checkpoints c hc).trans (Nat.le_add_right _ _)

theorem Grown.numbered (h : Grown k s n s') (hs : s.Numbered) : s'.Numbered := by
  induction h with
  | refl => exact hs
  | event _ e _ hseq ih => exact ih.addEvent hseq
  | rows _ hlog hcp ih => exact ⟨by rw [hlog]; exact ih.events, by rw [hlog, hcp]; exact ih.checkpoints⟩

/-- The window depends on the log and the checkpoints only. -/
theorem window_congr (hlog : s'.walEvents = s.walEvents) (hcp : s'.walCheckpoints = s.walCheckpoints) :
    s'.window j = s.window j := by
  unfold Store.window Store.lastCheckpoint Store.eventsOf
  rw [hlog, hcp]

theorem Store.Numbered.lastCheckpoint_le (hs : s.Numbered) : s.lastCheckpoint k ≤ s.walEvents.length := by
  refine List.max_le_of_forall_le _ _ fun n hn => ?_
  obtain ⟨c, hc, rfl⟩ := List.mem_map.1 hn
  exact hs.checkpoints c (List.mem_of_mem_filter hc)

/-- An event is in the window of its run. -/
theorem window_addEvent (hs : s.Numbered) {e : WalEvent} (hseq : e.seqId = s.walEvents.length + 1) :
    (s.addEvent e).window j = s.window j + if j = e.runId then 1 else 0 := by
  have hlast : (s.addEvent e).lastCheckpoint j = s.lastCheckpoint j := rfl
  have hafter : s.lastCheckpoint j < e.seqId := by
    rw [hseq]
    exact Nat.lt_succ_of_le hs.lastCheckpoint_le
  unfold Store.window
  rw [hlast, eventsOf_addEvent]
  by_cases hj : j = e.runId
  · rw [if_pos hj.symm, if_pos hj, List.filter_append, List.length_append,
      List.filter_cons_of_pos (by simpa using hafter)]
    rfl
  · rw [if_neg (Ne.symm hj), if_neg hj]
    rfl

theorem Grown.window (h : Grown k s n s') (hs : s.Numbered) (j : String) :
    s'.window j = s.window j + if j = k then n else 0 := by
  induction h with
  | refl => simp
  | @event n s' h e hrun hseq ih =>
    rw [window_addEvent (h.numbered hs) hseq, ih, hrun]
    split
    · omega
    · rfl
  | rows _ hlog hcp ih => rw [window_congr hlog hcp, ih]

/-- After an event of the run its latest number is the one of the whole log. -/
theorem Grown.latest (h : Grown k s n s') (hs : s.Numbered) (hn : 0 < n) :
    ((s'.walEvents.filter fun e => e.runId = k).map WalEvent.seqId).max? = some s'.walEvents.length := by
  induction h with
  | refl => omega
  | @event n s' h e hrun hseq ih =>
    have hnum := (h.numbered hs).addEvent (e := e) hseq
    have hlen : (s'.addEvent e).walEvents.length = e.seqId := by
      rw [Store.addEvent_walEvents, List.length_append, hseq]
      rfl
    rw [List.max?_eq_some_iff]
    refine ⟨List.mem_map.2 ⟨e, List.mem_filter.2 ⟨?_, by simpa using hrun⟩, hlen.symm⟩, fun m hm => ?_⟩
    · rw [Store.addEvent_walEvents]
      exact List.mem_append_right _ (List.mem_singleton.2 rfl)
    · obtain ⟨x, hx, rfl⟩ := List.mem_map.1 hm
      exact hnum.events x (List.mem_of_mem_filter hx)
  | rows _ hlog _ ih =>
    rw [hlog]
    exact ih hn

end

/-! ## The events of an operation -/

section
variable {cfg : LoggingServiceConfig} {amb : Ambient} {o : FacadeOp} {runId k : String} {s s' : Store}
  {owed : Option PlannerState}

theorem Spoken.grown (h : Spoken amb o s s') (hrun : o.run = some runId) :
    Grown (strip runId) s o.message.toList.length s' := by
  cases h with
  | silent hnone =>
    rw [hnone]
    exact .refl
  | said m c hm hload hdec =>
    rw [hm]
    have hkey : m.runId = runId := Option.some.inj ((FacadeOp.message_run hm).symm.trans hrun)
    subst hkey
    exact (Grown.refl.newEvent amb _).putContext _

theorem Settled.grown (h : Settled amb runId s owed s') : Grown (strip runId) s owed.toList.length s' := by
  cases h with
  | same => exact .refl
  | synced st c hload => exact (Grown.refl.newEvent amb _).putContext _

theorem IntentSaved.grown {a : ToolIntent} {n : ℕ} {s0 : Store} (h : IntentSaved amb a s s')
    (hg : Grown k s0 n s) : Grown k s0 n s' := by
  cases h with
  | present row hrow => exact hg
  | written hnone hfk hdec => exact hg.putResult _

theorem drops_loaded {a : ToolResult} {rs : ExternalResultStatus} {es : ExecutionStatus}
    {c : AgentContextSnapshot} (hrs : parseResultStatus a.resultStatus = .ok rs)
    (hes : resolveExecutionStatus a.executionStatus rs = .ok es) (hc : s.loadContext a.runId = .ok (some c)) :
    s.drops a = (a.clears es && decide (a.executionId ∈ c.pendingExecutionIds)) := by
  unfold Store.drops
  simp only [hrs, hc, hes]

theorem drops_congr {a : ToolResult} (h : s'.loadContext a.runId = s.loadContext a.runId) :
    s'.drops a = s.drops a := by
  unfold Store.drops
  rw [h]

theorem drops_off {a : ToolResult} {rs : ExternalResultStatus} {es : ExecutionStatus}
    (hrs : parseResultStatus a.resultStatus = .ok rs)
    (hes : resolveExecutionStatus a.executionStatus rs = .ok es) (hoff : a.clears es = false) :
    s.drops a = false := by
  unfold Store.drops
  rw [hrs]
  rcases s.loadContext a.runId with e | (_ | c)
  · rfl
  · rfl
  · dsimp only
    rw [hes]
    dsimp only
    rw [hoff, Bool.false_and]

/-- A result writes one event more when its execution leaves the pending list. -/
theorem PendingCleared.grown {a : ToolResult} {rs : ExternalResultStatus} {es : ExecutionStatus} {n : ℕ}
    {s0 : Store} (h : PendingCleared amb a es s s') (hg : Grown (strip a.runId) s0 n s)
    (hrs : parseResultStatus a.resultStatus = .ok rs)
    (hes : resolveExecutionStatus a.executionStatus rs = .ok es) {d : Bool} (hd : s.drops a = d) :
    Grown (strip a.runId) s0 (n + if d then 1 else 0) s' := by
  rw [← hd]
  cases h with
  | off hoff =>
    rw [drops_off hrs hes hoff]
    exact hg
  | absent c hc hnot =>
    rw [drops_loaded hrs hes hc, decide_eq_false hnot, Bool.and_false]
    exact hg
  | dropped c ids hcl hc hin hids hsave =>
    rw [drops_loaded hrs hes hc, hcl, decide_eq_true hin]
    exact (hg.newEvent amb _).putContext _

theorem startsFresh_created {a : StartRun} (h : a.forceReset = true ∨ s.loadContext a.runId = .ok none) :
    s.startsFresh a = true := by
  unfold Store.startsFresh
  rcases h with h | h
  · rw [h]
    split <;> first | rfl | contradiction
  · rw [h]
    rcases s.loadPlan a.runId with e | (_ | st) <;> rfl

theorem startsFresh_replanned {a : StartRun} (h : s.loadPlan a.runId = .ok none) : s.startsFresh a = true := by
  unfold Store.startsFresh
  rw [h]

theorem planStarted_grown {a : StartRun} {st : PlannerState} :
    Grown (strip a.runId) s 3 (s.planStarted amb a st) := by
  unfold Store.planStarted
  exact (((Grown.refl.newEvent amb _).newEvent amb _).putPlan _).newEvent amb _

theorem Act.grown (h : Act cfg amb o runId s owed s') :
    ∃ n, Grown (strip runId) s n s' ∧
      n + o.message.toList.length + owed.toList.length = o.eventCount cfg s := by
  cases h with
  | idle hrun hrest =>
    refine ⟨0, .refl, ?_⟩
    cases o with
    | recordContextMessage a => rfl
    | checkpoint runId snapshotType inc => rfl
    | _ => cases hrest
  | created a st out messages hst hout hmsgs hdec hcase =>
    exact ⟨3, planStarted_grown.putContext _, (if_pos (startsFresh_created hcase)).symm⟩
  | replanned a st out c hst hout hplan hctx =>
    exact ⟨3, planStarted_grown, (if_pos (startsFresh_replanned hplan)).symm⟩
  | edited st st' out hedit =>
    refine ⟨1, (Grown.refl.newEvent amb _).putPlan _, ?_⟩
    cases hedit <;> rfl
  | intended a st st' out c hknown hload hst hout hctx hblank hsaved =>
    have hlogged : Grown (strip a.runId) s 2 (s.intentLogged amb a st' c) :=
      (((Grown.refl.newEvent amb _).putPlan _).newEvent amb _).putContext _
    refine ⟨2, hsaved.grown hlogged, ?_⟩
    simp only [FacadeOp.eventCount, hknown]
    rfl
  | dispatched _ executionId row hfound hrun hparent hmoves =>
    exact ⟨1, (Grown.refl.newEvent amb _).putResult _, rfl⟩
  | resulted a rs es cached record hparent hrs hes hget hcheck hrecord hcleared =>
    refine ⟨_, hcleared.grown ((Grown.refl.newEvent amb _).putResult _) hrs hes
      (drops_congr (s := s) rfl), ?_⟩
    simp only [FacadeOp.eventCount, FacadeOp.message, Option.toList_none, List.length_nil]
    split <;> rfl

/-- An operation on a run adds its events to the log, then closes. -/
theorem Parts.grown (h : Parts cfg amb o runId s s') (hrun : o.run = some runId) :
    ∃ s3, Grown (strip runId) s (o.eventCount cfg s) s3 ∧ Closed cfg amb runId s3 s' := by
  obtain ⟨owed, s1, s2, s3, hact, hspoken, hsettled, hcp⟩ := h
  obtain ⟨n, hgrown, hcount⟩ := hact.grown
  refine ⟨s3, ?_, hcp⟩
  rw [← hcount]
  exact (hgrown.trans (hspoken.grown hrun)).trans hsettled.grown

theorem FacadeOp.eventCount_le : o.eventCount cfg s ≤ 4 := by
  unfold FacadeOp.eventCount
  split
  · split <;> omega
  · omega
  · omega
  · split <;> omega
  · omega
  · split <;> omega
  all_goals omega

/-! ## Checkpoints -/

theorem lastCheckpoint_addCheckpoint {cp : WalCheckpoint} :
    cp.runId = k → cp.seqId ≤ (s.addCheckpoint cp).lastCheckpoint k := by
  intro hrun
  refine List.le_max_of_le (List.mem_map.2 ⟨cp, List.mem_filter.2 ⟨?_, by simpa using hrun⟩, rfl⟩) le_rfl
  rw [Store.addCheckpoint_walCheckpoints]
  exact List.mem_append_right _ (List.mem_singleton.2 rfl)

/-- A checkpoint at the last event of the run empties its window, and no other. -/
theorem window_addCheckpoint {cp : WalCheckpoint} (hrun : cp.runId = strip runId)
    (hseq : s.latestWalSeq runId = .ok (some cp.seqId)) (j : String) :
    (s.addCheckpoint cp).window j = if j = strip runId then 0 else s.window j := by
  by_cases hj : j = strip runId
  · rw [if_pos hj]
    subst hj
    have hmax := (List.max?_eq_some_iff.1 (latestWalSeq_ok.1 hseq).2.symm).2
    refine List.length_eq_zero_iff.2 (List.filter_eq_nil_iff.2 fun e he => ?_)
    have hle := hmax e.seqId (List.mem_map_of_mem he)
    have hlast : cp.seqId ≤ (s.addCheckpoint cp).lastCheckpoint (strip runId) := lastCheckpoint_addCheckpoint hrun
    simp only [decide_eq_true_eq]
    omega
  · rw [if_neg hj]
    have hlast : (s.addCheckpoint cp).lastCheckpoint j = s.lastCheckpoint j := by
      unfold Store.lastCheckpoint
      rw [Store.addCheckpoint_walCheckpoints, List.filter_append,
        List.filter_cons_of_neg (by simpa [hrun] using Ne.symm hj), List.filter_nil, List.append_nil]
    unfold Store.window
    rw [hlast]
    rfl

theorem Store.Numbered.addCheckpoint (hs : s.Numbered) {cp : WalCheckpoint}
    (hseq : s.latestWalSeq runId = .ok (some cp.seqId)) : (s.addCheckpoint cp).Numbered := by
  refine ⟨hs.events, fun c hc => ?_⟩
  rcases List.mem_append.1 hc with hc | hc
  · exact hs.checkpoints c hc
  · rw [List.mem_singleton.1 hc]
    obtain ⟨e, he, hseq⟩ := List.mem_map.1 (List.max?_eq_some_iff.1 (latestWalSeq_ok.1 hseq).2.symm).1
    rw [← hseq]
    exact hs.events e (List.mem_of_mem_filter he)

/-- What a checkpoint does to the windows: nothing, or its own event is left. -/
structure Windowed (k : String) (s s' : Store) : Prop where
  numbered : s'.Numbered
  written : s'.walCheckpoints ≠ s.walCheckpoints → s'.window k = 1
  kept : s'.walCheckpoints = s.walCheckpoints → s'.window k = s.window k
  others : ∀ j, j ≠ k → s'.window j = s.window j

/-- A checkpoint row and its event, whatever becomes of the context. -/
theorem checkpoint_windowed (hs : s.Numbered) {cp : WalCheckpoint} (hrun : cp.runId = strip runId)
    (hseq : s.latestWalSeq runId = .ok (some cp.seqId)) {s1 : Store} (hlog : s1.walEvents = s.walEvents)
    (hcps : s1.walCheckpoints = (s.addCheckpoint cp).walCheckpoints) :
    Windowed (strip runId) s (s1.addEvent (s.checkpointEvent amb runId cp)) := by
  have hnum : s1.Numbered := by
    have hadd := hs.addCheckpoint hseq
    exact ⟨by rw [hlog]; exact hadd.events, by rw [hlog, hcps]; exact hadd.checkpoints⟩
  have hnext : (s.checkpointEvent amb runId cp).seqId = s1.walEvents.length + 1 := by
    rw [hlog]
    rfl
  have hwindow : ∀ j, (s1.addEvent (s.checkpointEvent amb runId cp)).window j =
      (if j = strip runId then 0 else s.window j) + if j = strip runId then 1 else 0 := by
    intro j
    rw [window_addEvent hnum hnext, window_congr (s := s.addCheckpoint cp) hlog hcps,
      window_addCheckpoint hrun hseq]
    rfl
  refine ⟨hnum.addEvent hnext, fun _ => ?_, fun hsame => ?_, fun j hj => ?_⟩
  · rw [hwindow, if_pos rfl, if_pos rfl]
  · exact absurd (hcps.symm.trans hsame) (by simp)
  · rw [hwindow, if_neg hj, if_neg hj]
    rfl

theorem Checkpointed.windowed (h : Checkpointed amb runId s s') (hs : s.Numbered) :
    Windowed (strip runId) s s' := by
  cases h with
  | none => exact ⟨hs, fun hne => absurd rfl hne, fun _ => rfl, fun _ _ => rfl⟩
  | bare cp hrun hseq => exact checkpoint_windowed hs hrun hseq rfl rfl
  | withContext cp c hrun hseq hc hsave => exact checkpoint_windowed hs hrun hseq rfl rfl

theorem Checkpointed.length_le (h : Checkpointed amb runId s s') :
    s'.walEvents.length ≤ s.walEvents.length + 1 := by
  cases h with
  | none => exact Nat.le_succ _
  | bare cp => exact (List.length_append).le
  | withContext cp => exact (List.length_append).le

/-- No operation writes more events than a new run with its checkpoint. -/
theorem exec_most_events {r : o.Res} (h : o.exec cfg amb s = .ok (r, s')) :
    s'.walEvents.length ≤ s.walEvents.length + mostEvents := by
  rcases exec_parts h with ⟨rfl, -⟩ | ⟨runId, hrun, hparts⟩
  · exact Nat.le_add_right _ _
  · obtain ⟨s3, hgrown, hclosed⟩ := hparts.grown hrun
    have hlen := hgrown.length
    have hcp := hclosed.checkpointed.length_le
    have hcount : o.eventCount cfg s ≤ 4 := FacadeOp.eventCount_le
    unfold mostEvents
    omega

/-! ## Every run -/

/-- An operation that succeeds names its run, or is a read. -/
theorem exec_named {r : o.Res} (h : o.exec cfg amb s = .ok (r, s')) (hrun : o.run = some runId) :
    s' = s ∨ blank runId = false := by
  cases o with
  | startRun a =>
    cases hrun
    obtain ⟨plan, ctx, hplan, -, -⟩ := startRun_ok h
    cases plan with
    | none => exact .inr (loadPlan_none.1 hplan).1
    | some st => exact .inr (loadPlan_ok.1 hplan).1
  | recordContextMessage a =>
    cases hrun
    obtain ⟨s1, -, hb, -⟩ := recordContextMessage_ok h
    exact .inr hb
  | recordLlmTurn a =>
    cases hrun
    obtain ⟨s1, s2, s3, hb, -⟩ := recordLlmTurn_ok h
    exact .inr hb
  | recordToolIntent a =>
    cases hrun
    rcases recordToolIntent_ok (FacadeOp.exec_recordToolIntent.1 h) with ⟨-, -, rfl⟩ | ⟨-, h⟩
    · exact .inl rfl
    · obtain ⟨ctx, s1, s2, s3, s4, s5, hb, -⟩ := recordNewIntent_ok h
      exact .inr hb
  | recordToolDispatch runId' e =>
    cases hrun
    obtain ⟨row, new, -, -, -, -, hb, -⟩ := recordToolDispatch_ok (FacadeOp.exec_recordToolDispatch.1 h)
    exact .inr hb
  | recordToolResult a =>
    cases hrun
    obtain ⟨rs, es, cached, record, new, s1, -, -, -, -, -, hb, -⟩ :=
      recordToolResult_ok (FacadeOp.exec_recordToolResult.1 h)
    exact .inr hb
  | advancePlanItem a =>
    cases hrun
    obtain ⟨s1, s2, hb, -⟩ := advancePlanItem_ok h
    exact .inr hb
  | setActivePlanItem runId' planItemId =>
    cases hrun
    obtain ⟨s1, s2, hb, -⟩ := setActivePlanItem_ok h
    exact .inr hb
  | checkpoint runId' snapshotType inc =>
    cases hrun
    obtain ⟨latest, s1, h1, -⟩ := bind_ok.1 h
    exact .inr (latestWalSeq_ok.1 (fetch_pair.1 h1).1).1
  | getExternalResult e => exact .inl (fetch_pair.1 h).2
  | listExternalResults runId' => exact .inl (fetch_pair.1 h).2
  | listPendingExecutions runId' => exact .inl (fetch_pair.1 h).2
  | loadContext runId' => exact .inl (fetch_pair.1 h).2

/-- The numbers are in order, and the window of every run is within the bound. -/
structure Bounded (cfg : LoggingServiceConfig) (s : Store) : Prop where
  numbered : s.Numbered
  window : ∀ k, (s.window k : ℤ) ≤ cfg.checkpointEveryNEvents + mostEvents

/-- An operation that meets the interval keeps the windows within the bound. -/
theorem Parts.bounded (h : Parts cfg amb o runId s s') (hrun : o.run = some runId) (hr : blank runId = false)
    (hn : 0 < cfg.checkpointEveryNEvents) (ho : o.meetsInterval cfg s = true) (hs : Bounded cfg s) :
    Bounded cfg s' := by
  obtain ⟨s3, hgrown, hclosed⟩ := h.grown hrun
  have hnum := hgrown.numbered hs.numbered
  have hwindowed := hclosed.checkpointed.windowed hnum
  have hmost : (mostEvents : ℤ) = 5 := rfl
  refine ⟨hwindowed.numbered, fun k => ?_⟩
  by_cases hk : k = strip runId
  · subst hk
    by_cases hwritten : s'.walCheckpoints = s3.walCheckpoints
    · have hafter := hgrown.window hs.numbered (strip runId)
      rw [if_pos rfl] at hafter
      rw [hwindowed.kept hwritten, hafter]
      unfold FacadeOp.meetsInterval at ho
      rw [hrun, Option.map_some, replayWindow_eq hr] at ho
      simp only [Bool.or_eq_true, decide_eq_true_eq] at ho
      have hcount : o.eventCount cfg s ≤ 4 := FacadeOp.eventCount_le
      rcases Nat.eq_zero_or_pos (o.eventCount cfg s) with hzero | hpos
      · rw [hzero]
        exact hs.window _
      rcases ho with (hzero | hroom) | hmultiple
      · omega
      · push_cast
        omega
      · -- the multiple is the number of the last event of the run
        have hlatest := hgrown.latest hs.numbered hpos
        have hlen := hgrown.length
        exact absurd hwritten (hclosed.written ⟨_, latestWalSeq_ok.2 ⟨hr, hlatest.symm⟩, by omega, hn,
          by rw [hlen]; exact_mod_cast hmultiple⟩)
    · rw [hwindowed.written hwritten]
      omega
  · have hafter := hgrown.window hs.numbered k
    rw [if_neg hk] at hafter
    rw [hwindowed.others k hk, hafter]
    exact hs.window k

theorem bounded_empty (hn : 0 < cfg.checkpointEveryNEvents) : Bounded cfg {} := by
  refine ⟨⟨fun e he => absurd he List.not_mem_nil, fun c hc => absurd hc List.not_mem_nil⟩, fun k => ?_⟩
  have hwindow : ({} : Store).window k = 0 := rfl
  have hmost : (mostEvents : ℤ) = 5 := rfl
  rw [hwindow]
  omega

end

/-- **The replay window is bounded.**  While every operation that finds an interval of events in the
window of its run, and adds to them, ends at a multiple of the interval, no run has more events after
its latest checkpoint than the interval and the most events of one operation. -/
theorem window_bounded (cfg : LoggingServiceConfig) (hn : 0 < cfg.checkpointEveryNEvents) (s : Store)
    (h : Relation.ReflTransGen (FacadeStep cfg fun s o => o.meetsInterval cfg s = true) {} s) (runId : String)
    (hr : blank runId = false) : ∃ window, s.replayWindow runId = .ok window ∧
      (window : ℤ) ≤ cfg.checkpointEveryNEvents + mostEvents := by
  have hbounded : Bounded cfg s := by
    induction h with
    | refl => exact bounded_empty hn
    | tail _ hstep ih =>
      obtain ⟨amb, o, r, ho, hx⟩ := hstep
      rcases exec_parts hx with ⟨rfl, -⟩ | ⟨k, hrun, hparts⟩
      · exact ih
      · rcases exec_named hx hrun with rfl | hb
        · exact ih
        · exact hparts.bounded hrun hb hn ho ih
  exact ⟨_, replayWindow_eq hr, hbounded.window _⟩

/-! ## Hit and missed multiples -/

/-- Operations one after the other, each when it is allowed. -/
def execWhile (cfg : LoggingServiceConfig) (allowed : Store → FacadeOp → Bool) :
    List FacadeOp → Store → Option Store
  | [], s => some s
  | o :: os, s =>
    if allowed s o then
      match o.exec cfg stillAmbient s with
      | .ok p => execWhile cfg allowed os p.2
      | .error _ => none
    else none

theorem execWhile_reach {cfg : LoggingServiceConfig} {allowed : Store → FacadeOp → Bool} {os : List FacadeOp}
    {s s' : Store} (h : execWhile cfg allowed os s = some s') :
    Relation.ReflTransGen (FacadeStep cfg fun s o => allowed s o = true) s s' := by
  induction os generalizing s with
  | nil =>
    cases h
    exact .refl
  | cons o os ih =>
    unfold execWhile at h
    split at h
    · next hallowed =>
      split at h
      · next p hx => exact .head ⟨stillAmbient, o, p.1, hallowed, hx⟩ (ih h)
      · cases h
    · cases h

/-- A checkpoint every two events. -/
def everyTwo : LoggingServiceConfig := { checkpointEveryNEvents := 2 }

/-- The run is started, then its item is made the active one again and again. -/
def activations (n : ℕ) : List FacadeOp :=
  .startRun tripRun :: List.replicate n (.setActivePlanItem "trip" "step_0")

/-- The checkpoint of the new run is at the fourth event, its own event is the fifth: from then on
every operation steps over an even number. -/
theorem window_overrun : ∃ s, Relation.ReflTransGen (FacadeStep everyTwo fun _ _ => True) {} s ∧
    s.replayWindow "trip" = .ok 9 ∧ ¬ (9 : ℤ) ≤ everyTwo.checkpointEveryNEvents + mostEvents := by
  have hrun : (execWhile everyTwo (fun _ _ => true) (activations 4) {}).map (·.replayWindow "trip") =
      some (.ok 9) := by decide +kernel
  obtain ⟨s, hs, hwindow⟩ := Option.map_eq_some_iff.1 hrun
  refine ⟨s, (execWhile_reach hs).lift id fun s s' h => ?_, hwindow, by decide +kernel⟩
  obtain ⟨amb, o, r, -, hx⟩ := h
  exact ⟨amb, o, r, trivial, hx⟩

/-- With a message before each, the operations end at a multiple in time. -/
def activationsAndMessage : List FacadeOp :=
  [.startRun tripRun, .recordContextMessage { runId := "trip", role := "user", content := "go on" },
    .setActivePlanItem "trip" "step_0",
    .recordContextMessage { runId := "trip", role := "user", content := "go on" },
    .setActivePlanItem "trip" "step_0"]

theorem window_bounded_message : ∃ s window,
    execWhile everyTwo (fun s o => o.meetsInterval everyTwo s) activationsAndMessage {} = some s ∧
    s.replayWindow "trip" = .ok window ∧ (window : ℤ) ≤ everyTwo.checkpointEveryNEvents + mostEvents := by
  have hrun : (execWhile everyTwo (fun s o => o.meetsInterval everyTwo s) activationsAndMessage {}).isSome := by
    decide +kernel
  obtain ⟨s, hs⟩ := Option.isSome_iff_exists.1 hrun
  obtain ⟨window, hwindow⟩ := window_bounded everyTwo (by decide +kernel) s (execWhile_reach hs) "trip"
    (by decide +kernel)
  exact ⟨s, window, hs, hwindow⟩

end Raef
