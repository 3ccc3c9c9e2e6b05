import Raef.Model.World

/-!
# What each operation does to the store

One inversion lemma for each read, each service call and each operation of the
facade: from a success, the rows it found and the store it left, written as the
updates of `Raef.Model.Store` applied in order.  Everything proved about runs
starts from these and never unfolds an operation again.

* `recordToolIntent_ok`, `recordToolDispatch_ok`, `recordToolResult_ok`: the tool operations.
* `startFresh_ok`, `recordLlmTurn_ok`, …: plan and context.
* `maybeAutoCheckpoint_ok`: the checkpoint every operation may end with.
-/

namespace Raef

open Text Txn

/-! ## Reads see only their own table -/

section
variable (s : Store) (ev : WalEvent) (st : PlannerState) (c : AgentContextSnapshot)
  (row : ExternalResultRecord) (cp : WalCheckpoint) (r : String)

@[simp] theorem loadPlan_addEvent : (s.addEvent ev).loadPlan r = s.loadPlan r := rfl
@[simp] theorem loadPlan_putContext : (s.putContext c).loadPlan r = s.loadPlan r := rfl
@[simp] theorem loadPlan_putResult : (s.putResult row).loadPlan r = s.loadPlan r := rfl
@[simp] theorem loadPlan_addCheckpoint : (s.addCheckpoint cp).loadPlan r = s.loadPlan r := rfl

@[simp] theorem loadContext_addEvent : (s.addEvent ev).loadContext r = s.loadContext r := rfl
@[simp] theorem loadContext_putPlan : (s.putPlan st).loadContext r = s.loadContext r := rfl
@[simp] theorem loadContext_putResult : (s.putResult row).loadContext r = s.loadContext r := rfl
@[simp] theorem loadContext_addCheckpoint : (s.addCheckpoint cp).loadContext r = s.loadContext r := rfl

@[simp] theorem getExternalResult_addEvent : (s.addEvent ev).getExternalResult r = s.getExternalResult r := rfl
@[simp] theorem getExternalResult_putPlan : (s.putPlan st).getExternalResult r = s.getExternalResult r := rfl
@[simp] theorem getExternalResult_putContext :
    (s.putContext c).getExternalResult r = s.getExternalResult r := rfl

@[simp] theorem loadRequiredPlan_addEvent :
    (s.addEvent ev).loadRequiredPlan r = s.loadRequiredPlan r := rfl
@[simp] theorem loadRequiredPlan_putContext :
    (s.putContext c).loadRequiredPlan r = s.loadRequiredPlan r := rfl
@[simp] theorem loadRequiredPlan_putResult :
    (s.putResult row).loadRequiredPlan r = s.loadRequiredPlan r := rfl

@[simp] theorem loadRequiredContext_addEvent :
    (s.addEvent ev).loadRequiredContext r = s.loadRequiredContext r := rfl
@[simp] theorem loadRequiredContext_putPlan :
    (s.putPlan st).loadRequiredContext r = s.loadRequiredContext r := rfl
@[simp] theorem loadRequiredContext_putResult :
    (s.putResult row).loadRequiredContext r = s.loadRequiredContext r := rfl
@[simp] theorem loadRequiredContext_addCheckpoint :
    (s.addCheckpoint cp).loadRequiredContext r = s.loadRequiredContext r := rfl

@[simp] theorem rowOf_addEvent (amb : Ambient) : (s.addEvent ev).rowOf amb row = s.rowOf amb row := rfl
@[simp] theorem rowOf_putPlan (amb : Ambient) : (s.putPlan st).rowOf amb row = s.rowOf amb row := rfl
@[simp] theorem rowOf_putContext (amb : Ambient) : (s.putContext c).rowOf amb row = s.rowOf amb row := rfl

end

/-! ## Records -/

/-- The four texts `from_dict` requires are there. -/
structure ExternalResultRecord.Decodes (r : ExternalResultRecord) : Prop where
  executionId : blank r.executionId = false
  runId : blank r.runId = false
  toolName : blank r.toolName = false
  operationType : blank r.operationType = false

/-- What `from_dict` makes of a record it accepts. -/
def ExternalResultRecord.stripped (r : ExternalResultRecord) : ExternalResultRecord :=
  { r with
    executionId := strip r.executionId
    runId := strip r.runId
    toolName := strip r.toolName
    operationType := strip r.operationType }

theorem fromDict_result_ok {r r' : ExternalResultRecord} :
    r.fromDict = .ok r' ↔ r.Decodes ∧ r' = r.stripped := by
  unfold ExternalResultRecord.fromDict
  simp only [except_bind_ok, except_pure_ok, requireNonEmptyStr_ok]
  constructor
  · rintro ⟨_, ⟨h1, rfl⟩, _, ⟨h2, rfl⟩, _, ⟨h3, rfl⟩, _, ⟨h4, rfl⟩, rfl⟩
    exact ⟨⟨h1, h2, h3, h4⟩, rfl⟩
  · rintro ⟨⟨h1, h2, h3, h4⟩, rfl⟩
    exact ⟨_, ⟨h1, rfl⟩, _, ⟨h2, rfl⟩, _, ⟨h3, rfl⟩, _, ⟨h4, rfl⟩, rfl⟩

/-- A successful lookup: no row, or a row that decodes. -/
theorem getExternalResult_ok {s : Store} {e : String} {r : Option ExternalResultRecord} :
    s.getExternalResult e = .ok r ↔ blank e = false ∧
      match s.externalResults.get (strip e) with
      | none => r = none
      | some row => row.Decodes ∧ r = some row.stripped := by
  unfold Store.getExternalResult
  simp only [except_bind_ok, requireNonEmptyStr_ok]
  constructor
  · rintro ⟨_, ⟨h1, rfl⟩, h2⟩
    refine ⟨h1, ?_⟩
    cases hg : s.externalResults.get (strip e) with
    | none =>
      rw [hg] at h2
      exact except_pure_ok.1 h2
    | some row =>
      rw [hg] at h2
      simp only [except_bind_ok, except_pure_ok, fromDict_result_ok] at h2
      obtain ⟨_, ⟨h3, rfl⟩, rfl⟩ := h2
      exact ⟨h3, rfl⟩
  · rintro ⟨h1, h2⟩
    refine ⟨_, ⟨h1, rfl⟩, ?_⟩
    cases hg : s.externalResults.get (strip e) with
    | none =>
      rw [hg] at h2
      exact except_pure_ok.2 h2
    | some row =>
      rw [hg] at h2
      simp only [except_bind_ok, except_pure_ok, fromDict_result_ok]
      exact ⟨_, ⟨h2.1, rfl⟩, h2.2⟩

theorem getExternalResult_none {s : Store} {e : String} (h : s.getExternalResult e = .ok none) :
    s.externalResults.get (strip e) = none := by
  obtain ⟨-, h⟩ := getExternalResult_ok.1 h
  cases hg : s.externalResults.get (strip e) with
  | none => rfl
  | some row => rw [hg] at h; simp at h

theorem getExternalResult_some {s : Store} {e : String} {r : ExternalResultRecord}
    (h : s.getExternalResult e = .ok (some r)) :
    ∃ row, s.externalResults.get (strip e) = some row ∧ row.Decodes ∧ r = row.stripped := by
  obtain ⟨-, h⟩ := getExternalResult_ok.1 h
  cases hg : s.externalResults.get (strip e) with
  | none => rw [hg] at h; simp at h
  | some row =>
    rw [hg] at h
    obtain ⟨h1, h2⟩ := h
    exact ⟨row, rfl, h1, Option.some.inj h2⟩

/-! ## Checkpoints -/

/-- The event of a checkpoint. -/
def Store.checkpointEvent (s : Store) (amb : Ambient) (runId : String) (cp : WalCheckpoint) : WalEvent :=
  s.newEvent amb runId (.checkpointWritten cp.checkpointId cp.seqId cp.snapshotType) "checkpoint"
    cp.checkpointId

theorem latestWalSeq_ok {s : Store} {r : String} {n : Option ℕ} :
    s.latestWalSeq r = .ok n ↔ blank r = false ∧
      n = ((s.walEvents.filter fun e => e.runId = strip r).map WalEvent.seqId).max? := by
  unfold Store.latestWalSeq
  simp only [except_bind_ok, except_pure_ok, requireNonEmptyStr_ok]
  constructor
  · rintro ⟨_, ⟨h1, rfl⟩, h2⟩
    exact ⟨h1, h2⟩
  · rintro ⟨h1, h2⟩
    exact ⟨_, ⟨h1, rfl⟩, h2⟩

theorem writeWalCheckpoint_ok {amb : Ambient} {runId : String} {seqId : ℕ} {snapshotType : String}
    {payload : SnapshotPayload} {s s' : Store} {cp : WalCheckpoint}
    (h : writeWalCheckpoint amb runId seqId snapshotType payload s = .ok (cp, s')) :
    cp.runId = strip runId ∧ cp.seqId = seqId ∧ s' = s.addCheckpoint cp := by
  unfold writeWalCheckpoint at h
  simp only [bind_ok, require_ok, lift_ok, read_ok, write_ok, pure_ok, requireNonEmptyStr_ok] at h
  obtain ⟨_, _, ⟨-, h1⟩, _, _, ⟨⟨-, h2⟩, h3⟩, _, _, ⟨⟨-, h4⟩, h5⟩, _, _, h6, _, _, ⟨-, h7⟩, _, _, h8, h9⟩ := h
  cases h1
  cases h6
  cases h7
  cases h8
  cases h9
  cases h2
  cases h3
  cases h5
  exact ⟨rfl, rfl, rfl⟩

/-- A checkpoint is a row, the sequence number in the context, and an event. -/
inductive Checkpointed (amb : Ambient) (runId : String) (s : Store) : Store → Prop
  | none : Checkpointed amb runId s s
  | bare (cp : WalCheckpoint) (hrun : cp.runId = strip runId)
      (hseq : s.latestWalSeq runId = .ok (some cp.seqId)) :
      Checkpointed amb runId s ((s.addCheckpoint cp).addEvent (s.checkpointEvent amb runId cp))
  | withContext (cp : WalCheckpoint) (c : AgentContextSnapshot) (hrun : cp.runId = strip runId)
      (hseq : s.latestWalSeq runId = .ok (some cp.seqId)) (hc : s.loadContext runId = .ok (some c))
      (hsave : ∃ c', AgentContextSnapshot.fromDict
        { c with lastCheckpointSeq := some (cp.seqId : ℤ), updatedAt := amb.now } = .ok c') :
      Checkpointed amb runId s (((s.addCheckpoint cp).putContext
        { c with lastCheckpointSeq := some (cp.seqId : ℤ), updatedAt := amb.now }).addEvent
          (s.checkpointEvent amb runId cp))

/-- The automatic checkpoint is due: the last event of the run is at a multiple of the interval. -/
def Store.Due (s : Store) (cfg : LoggingServiceConfig) (runId : String) : Prop :=
  ∃ seq, s.latestWalSeq runId = .ok (some seq) ∧ 0 < seq ∧ 0 < cfg.checkpointEveryNEvents ∧
    (seq : ℤ) % cfg.checkpointEveryNEvents = 0

/-- The end of an operation: perhaps a checkpoint, and one when it is due. -/
structure Closed (cfg : LoggingServiceConfig) (amb : Ambient) (runId : String) (s s' : Store) : Prop where
  checkpointed : Checkpointed amb runId s s'
  written : s.Due cfg runId → s'.walCheckpoints ≠ s.walCheckpoints

theorem loadRequiredContext_ok {s : Store} {r : String} {c : AgentContextSnapshot} :
    s.loadRequiredContext r = .ok c ↔ s.loadContext r = .ok (some c) := by
  unfold Store.loadRequiredContext
  rw [except_bind_ok]
  constructor
  · rintro ⟨o, h1, h2⟩
    cases o with
    | none => exact (except_throw_ok.1 h2).elim
    | some c' => rw [except_pure_ok.1 h2, h1]
  · intro h
    exact ⟨some c, h, rfl⟩

theorem loadRequiredPlan_ok {s : Store} {r : String} {st : PlannerState} :
    s.loadRequiredPlan r = .ok st ↔ s.loadPlan r = .ok (some st) := by
  unfold Store.loadRequiredPlan
  rw [except_bind_ok]
  constructor
  · rintro ⟨o, h1, h2⟩
    cases o with
    | none => exact (except_throw_ok.1 h2).elim
    | some c' => rw [except_pure_ok.1 h2, h1]
  · intro h
    exact ⟨some st, h, rfl⟩

/-- `updateContext`, down to the saved row. -/
theorem updateContext_saved {amb : Ambient} {runId : String}
    {f : AgentContextSnapshot → Except PyError AgentContextSnapshot} {s s' : Store}
    {r : AgentContextSnapshot} (h : updateContext amb runId f s = .ok (r, s')) :
    ∃ c c', s.loadContext runId = .ok (some c) ∧ f c = .ok c' ∧
      AgentContextSnapshot.fromDict { c' with updatedAt := amb.now } = .ok r ∧
      s' = s.putContext { c' with updatedAt := amb.now } := by
  rw [updateContext_ok] at h
  obtain ⟨c, c', h1, h2, h3⟩ := h
  rw [saveContext_ok] at h3
  exact ⟨c, c', loadRequiredContext_ok.1 h1, h2, h3⟩

/-- `updatePlan`, down to the saved row. -/
theorem updatePlan_saved {amb : Ambient} {runId : String}
    {f : PlannerState → Except PyError PlannerState} {s s' : Store} {r : PlannerState}
    (h : updatePlan amb runId f s = .ok (r, s')) :
    ∃ st st', s.loadPlan runId = .ok (some st) ∧ f st = .ok st' ∧
      PlannerState.validateIntegrity { st' with version := st'.version + 1, updatedAt := amb.now } = .ok () ∧
      PlannerState.fromDict { st' with version := st'.version + 1, updatedAt := amb.now } = .ok r ∧
      s' = s.putPlan { st' with version := st'.version + 1, updatedAt := amb.now } := by
  rw [updatePlan_ok] at h
  obtain ⟨st, st', h1, h2, h3⟩ := h
  rw [savePlan_ok] at h3
  exact ⟨st, st', loadRequiredPlan_ok.1 h1, h2, h3⟩

/-- A checkpoint that is asked for is written when the run has an event. -/
theorem checkpointLocked_closed {amb : Ambient} {runId snapshotType : String} {inc : Bool} {s s' : Store}
    {r : Option WalCheckpoint} (h : checkpointLocked amb runId snapshotType inc s = .ok (r, s'))
    (cfg : LoggingServiceConfig) : Closed cfg amb runId s s' := by
  unfold checkpointLocked at h
  rw [bind_ok] at h
  obtain ⟨latest, s1, h1, h⟩ := h
  rw [fetch_ok] at h1
  obtain ⟨h1, hs1⟩ := h1
  dsimp only at h1 hs1
  subst hs1
  cases latest with
  | none =>
    rw [pure_ok] at h
    cases h
    refine ⟨.none, ?_⟩
    rintro ⟨seq, hseq, -⟩
    rw [h1] at hseq
    cases hseq
  | some latest =>
    simp only [bind_ok, fetch_ok, appendEvent_ok, pure_ok] at h
    obtain ⟨plan, _, ⟨-, rfl⟩, ctx, _, ⟨hctx, rfl⟩, ext, _, ⟨-, rfl⟩, cp, s3, hcp, _, s4, hnote, _, _, ⟨-, -, h3⟩,
      h4⟩ := h
    obtain ⟨hrun, hseq, rfl⟩ := writeWalCheckpoint_ok hcp
    subst hseq
    cases h3
    cases h4
    cases ctx with
    | none =>
      rw [noteCheckpoint, pure_ok] at hnote
      cases hnote
      exact ⟨.bare cp hrun h1, fun _ => by simp⟩
    | some c =>
      simp only [noteCheckpoint, bind_ok, pure_ok] at hnote
      obtain ⟨c', s5, h5, h6⟩ := hnote
      cases h6
      obtain ⟨d, d', hd, hd', hsave, rfl⟩ := updateContext_saved h5
      rw [loadContext_addCheckpoint, hctx] at hd
      cases hd
      cases hd'
      exact ⟨.withContext cp c hrun h1 hctx ⟨_, hsave⟩, fun _ => by simp⟩

theorem checkpointLocked_ok {amb : Ambient} {runId snapshotType : String} {inc : Bool} {s s' : Store}
    {r : Option WalCheckpoint} (h : checkpointLocked amb runId snapshotType inc s = .ok (r, s')) :
    Checkpointed amb runId s s' :=
  (checkpointLocked_closed h {}).checkpointed

theorem maybeAutoCheckpoint_ok {cfg : LoggingServiceConfig} {amb : Ambient} {runId : String}
    {s s' : Store} {r : Option WalCheckpoint} (h : maybeAutoCheckpoint cfg amb runId s = .ok (r, s')) :
    Closed cfg amb runId s s' := by
  unfold maybeAutoCheckpoint at h
  split at h
  · next hoff =>
    rw [pure_ok] at h
    cases h
    refine ⟨.none, ?_⟩
    rintro ⟨seq, -, -, hpos, -⟩
    omega
  · rw [bind_ok] at h
    obtain ⟨latest, s1, h1, h⟩ := h
    obtain ⟨hlatest, rfl⟩ := fetch_pair.1 h1
    cases latest with
    | none =>
      rw [pure_ok] at h
      cases h
      refine ⟨.none, ?_⟩
      rintro ⟨seq, hseq, -⟩
      rw [hlatest] at hseq
      cases hseq
    | some seq =>
      dsimp only at h
      split at h
      · next hskip =>
        rw [pure_ok] at h
        cases h
        refine ⟨.none, ?_⟩
        rintro ⟨seq', hseq, hpos, -, hdvd⟩
        rw [hlatest] at hseq
        cases hseq
        rcases hskip with hzero | hnot
        · omega
        · exact absurd hdvd hnot
      · exact checkpointLocked_closed h cfg

section
variable {amb : Ambient} {runId : String} {s s' : Store} (h : Checkpointed amb runId s s')

include h

theorem Checkpointed.plannerStates : s'.plannerStates = s.plannerStates := by cases h <;> rfl

theorem Checkpointed.externalResults : s'.externalResults = s.externalResults := by cases h <;> rfl

theorem Checkpointed.loadPlan (r : String) : s'.loadPlan r = s.loadPlan r := by cases h <;> rfl

end

/-! ## Plan and context -/

/-- The context row a synchronisation saves. -/
def AgentContextSnapshot.synced (c : AgentContextSnapshot) (amb : Ambient) (st : PlannerState) :
    AgentContextSnapshot :=
  { c with
    plannerVersion := st.version
    stepIndex := st.cursorIndex.getD c.stepIndex
    updatedAt := amb.now }

theorem syncContextWithPlanner_ok {amb : Ambient} {runId : String} {st : PlannerState} {s s' : Store}
    {u : Unit} (h : syncContextWithPlanner amb runId st s = .ok (u, s')) :
    ∃ c, s.loadContext runId = .ok (some c) ∧
      (∃ c', (c.synced amb st).fromDict = .ok c') ∧
      s' = (s.addEvent (s.newEvent amb runId (.contextSynchronized st.version st.cursorIndex) "context"
        runId)).putContext (c.synced amb st) := by
  unfold syncContextWithPlanner at h
  simp only [bind_ok, fetch_ok, appendEvent_ok, pure_ok] at h
  obtain ⟨c, _, ⟨h1, rfl⟩, _, _, ⟨-, -, h2⟩, c', s2, h3, h4⟩ := h
  cases h2
  cases h4
  obtain ⟨d, d', hd, hd', hsave, rfl⟩ := updateContext_saved h3
  rw [loadContext_addEvent, loadRequiredContext_ok.1 h1] at hd
  cases hd
  simp only [syncPlannerStateState, except_bind_ok, raiseIf_ok, except_pure_ok] at hd'
  obtain ⟨_, -, _, -, rfl⟩ := hd'
  exact ⟨c, loadRequiredContext_ok.1 h1, ⟨_, hsave⟩, rfl⟩

/-- The context row a run starts with. -/
def freshContext (amb : Ambient) (runId : String) (messages : List AgentMessage)
    (initialMemory : Option JsonObject) : AgentContextSnapshot :=
  { runId := runId
    turnIndex := messages.length
    messages := messages
    memory := initialMemory.getD []
    updatedAt := amb.now }

/-- The context is the one there is, or a fresh one. -/
theorem initContext_ok {amb : Ambient} {runId : String} {msgs : List RawMessage} {mem : Option JsonObject}
    {force : Bool} {s s' : Store} {r : AgentContextSnapshot}
    (h : initContext amb runId msgs mem force s = .ok (r, s')) :
    (s.loadContext runId = .ok (some r) ∧ force = false ∧ s' = s) ∨
    ∃ messages, (force = true ∨ s.loadContext runId = .ok none) ∧
      msgs.mapM (RawMessage.decode amb.now) = .ok messages ∧
      (freshContext amb runId messages mem).fromDict = .ok r ∧
      s' = s.putContext (freshContext amb runId messages mem) := by
  unfold initContext at h
  rw [bind_ok] at h
  obtain ⟨existing, s1, h1, h⟩ := h
  obtain ⟨hload, rfl⟩ := fetch_pair.1 h1
  split at h
  · rw [pure_ok] at h
    cases h
    exact .inl ⟨hload, rfl, rfl⟩
  · next hne =>
    simp only [bind_ok, lift_ok, saveContext_ok] at h
    obtain ⟨messages, _, ⟨hmsgs, rfl⟩, hsave, rfl⟩ := h
    refine .inr ⟨messages, ?_, hmsgs, hsave, rfl⟩
    cases existing with
    | none => exact .inr hload
    | some c =>
      cases force with
      | true => exact .inl rfl
      | false => exact absurd rfl (hne c rfl)

theorem startFresh_ok {cfg : LoggingServiceConfig} {amb : Ambient} {a : StartRun} {s s' : Store}
    {r : RunProjections} (h : startFresh cfg amb a s = .ok (r, s')) :
    ∃ st s1 s2 s3, blank a.runId = false ∧
      createPlanState amb.now a.runId a.planSourceText a.planItems a.planSchema = .ok st ∧
      PlannerState.validateIntegrity { st with updatedAt := amb.now } = .ok () ∧
      PlannerState.fromDict { st with updatedAt := amb.now } = .ok r.plannerState ∧
      s1 = ((s.addEvent (s.newEvent amb a.runId
        (.runStarted a.initialMessages.length a.planItems.length) "run" a.runId)) ) ∧
      s2 = ((s1.addEvent (s1.newEvent amb a.runId
        (.planCreated a.planSourceText a.planItems (a.planSchema.getD {})) "planner" a.runId)).putPlan
          { st with updatedAt := amb.now }) ∧
      initContext amb a.runId a.initialMessages a.initialMemory a.forceReset
        (s2.addEvent (s2.newEvent amb a.runId
          (.contextInitialized a.initialMessages (a.initialMemory.getD [])) "context" a.runId)) =
        .ok (r.context, s3) ∧
      ∃ s4, syncContextWithPlanner amb a.runId r.plannerState s3 = .ok ((), s4) ∧
        Closed cfg amb a.runId s4 s' := by
  unfold startFresh at h
  simp only [bind_ok, lift_ok, appendEvent_ok, pure_ok] at h
  obtain ⟨_, _, ⟨hb, -, h1⟩, _, _, ⟨-, -, h2⟩, st', s2, h3, _, _, ⟨-, rfl⟩, _, _, ⟨-, -, h4⟩, c, s3, h5, _, s4, h6, _, s5, h7, h8⟩ := h
  cases h1
  cases h2
  cases h4
  cases h8
  simp only [createPlan, bind_ok, lift_ok, savePlan_ok] at h3
  obtain ⟨st, _, ⟨h9, rfl⟩, h10, h11, rfl⟩ := h3
  exact ⟨st, _, _, s3, hb, h9, h10, h11, rfl, rfl, h5, s4, h6, maybeAutoCheckpoint_ok h7⟩

/-- A run is resumed, and nothing changes, or started afresh. -/
theorem startRun_ok {cfg : LoggingServiceConfig} {amb : Ambient} {a : StartRun} {s s' : Store}
    {r : RunProjections} (h : startRun cfg amb a s = .ok (r, s')) :
    ∃ plan ctx, s.loadPlan a.runId = .ok plan ∧ s.loadContext a.runId = .ok ctx ∧
      ((plan = some r.plannerState ∧ ctx = some r.context ∧ a.forceReset = false ∧ s' = s) ∨
        ((a.forceReset = true ∨ plan = none ∨ ctx = none) ∧ startFresh cfg amb a s = .ok (r, s'))) := by
  unfold startRun at h
  rw [bind_ok] at h
  obtain ⟨plan, s1, h1, h⟩ := h
  obtain ⟨h1, rfl⟩ := fetch_pair.1 h1
  rw [bind_ok] at h
  obtain ⟨ctx, s2, h2, h⟩ := h
  obtain ⟨h2, rfl⟩ := fetch_pair.1 h2
  refine ⟨plan, ctx, h1, h2, ?_⟩
  cases plan with
  | none => exact .inr ⟨.inr (.inl rfl), h⟩
  | some plan =>
    cases ctx with
    | none => exact .inr ⟨.inr (.inr rfl), h⟩
    | some ctx =>
      cases hf : a.forceReset with
      | true =>
        rw [hf] at h
        exact .inr ⟨.inl rfl, h⟩
      | false =>
        rw [hf] at h
        dsimp only at h
        rw [pure_ok] at h
        cases h
        exact .inl ⟨rfl, rfl, rfl, rfl⟩

theorem recordContextMessage_ok {cfg : LoggingServiceConfig} {amb : Ambient} {a : ContextMessage}
    {s s' : Store} {r : AgentContextSnapshot} (h : recordContextMessage cfg amb a s = .ok (r, s')) :
    ∃ s1, appendMessage amb a.runId a.role a.content a.metadata a.name a.toolCallId
        (s.addEvent (s.newEvent amb a.runId
          (.contextMessageAppended a.role a.content (a.metadata.getD []) a.name a.toolCallId)
          "context" a.runId)) = .ok (r, s1) ∧ blank a.runId = false ∧ Closed cfg amb a.runId s1 s' := by
  unfold recordContextMessage at h
  simp only [bind_ok, lift_ok, appendEvent_ok, pure_ok] at h
  obtain ⟨_, _, ⟨-, rfl⟩, _, _, ⟨hb, -, h1⟩, c, s1, h2, _, s2, h3, h4⟩ := h
  cases h1
  cases h4
  exact ⟨s1, h2, hb, maybeAutoCheckpoint_ok h3⟩

/-- The shape the plan operations share: an event, a plan update, more, then the
synchronisation of the context. -/
theorem advancePlanItem_ok {cfg : LoggingServiceConfig} {amb : Ambient} {a : PlanItemAdvance}
    {s s' : Store} {r : PlannerState} (h : advancePlanItem cfg amb a s = .ok (r, s')) :
    ∃ s1 s2, blank a.runId = false ∧ blank a.planItemId = false ∧
      updateItemStatus amb a.runId a.planItemId a.newStatus a.note
        (s.addEvent (s.newEvent amb a.runId (.planItemStatusUpdated a.newStatus a.note) "planner_item"
          a.planItemId)) = .ok (r, s1) ∧
      syncContextWithPlanner amb a.runId r s1 = .ok ((), s2) ∧ Closed cfg amb a.runId s2 s' := by
  unfold advancePlanItem at h
  simp only [bind_ok, appendEvent_ok, pure_ok] at h
  obtain ⟨_, _, ⟨hb, hb', h1⟩, st, s1, h2, _, s2, h3, _, s3, h4, h5⟩ := h
  cases h1
  cases h5
  exact ⟨s1, s2, hb, hb', h2, h3, maybeAutoCheckpoint_ok h4⟩

theorem setActivePlanItem_ok {cfg : LoggingServiceConfig} {amb : Ambient} {runId planItemId : String}
    {s s' : Store} {r : PlannerState} (h : setActivePlanItem cfg amb runId planItemId s = .ok (r, s')) :
    ∃ s1 s2, blank runId = false ∧
      setActiveItem amb runId planItemId
        (s.addEvent (s.newEvent amb runId (.planActiveItemSet planItemId) "planner" runId)) = .ok (r, s1) ∧
      syncContextWithPlanner amb runId r s1 = .ok ((), s2) ∧ Closed cfg amb runId s2 s' := by
  unfold setActivePlanItem at h
  simp only [bind_ok, appendEvent_ok, pure_ok] at h
  obtain ⟨_, _, ⟨hb, -, h1⟩, st, s1, h2, _, s2, h3, _, s3, h4, h5⟩ := h
  cases h1
  cases h5
  exact ⟨s1, s2, hb, h2, h3, maybeAutoCheckpoint_ok h4⟩

theorem recordLlmTurn_ok {cfg : LoggingServiceConfig} {amb : Ambient} {a : LlmTurn}
    {s s' : Store} {r : RunProjections} (h : recordLlmTurn cfg amb a s = .ok (r, s')) :
    ∃ s1 s2 s3, blank a.runId = false ∧ blank a.planItemId = false ∧
      attachLlmOutput amb a.runId a.planItemId a.llmOutput
        (s.addEvent (s.newEvent amb a.runId (.planItemLlmOutputAttached a.llmOutput) "planner_item"
          a.planItemId)) = .ok (r.plannerState, s1) ∧
      appendMessage amb a.runId "assistant" a.assistantMessage a.assistantMetadata none none
        (s1.addEvent (s1.newEvent amb a.runId (.contextMessageAppended "assistant" a.assistantMessage
          (a.assistantMetadata.getD []) none none) "context" a.runId)) = .ok (r.context, s2) ∧
      syncContextWithPlanner amb a.runId r.plannerState s2 = .ok ((), s3) ∧
      Closed cfg amb a.runId s3 s' := by
  unfold recordLlmTurn at h
  simp only [bind_ok, lift_ok, appendEvent_ok, pure_ok] at h
  obtain ⟨_, _, ⟨hb, hb', h1⟩, st, _, h2, _, s1, ⟨-, rfl⟩, _, _, ⟨-, -, h3⟩, c, s2, h4, _, s3, h5, _, s4, h6, h7⟩ := h
  cases h1
  cases h3
  cases h7
  exact ⟨s1, s2, s3, hb, hb', h2, h4, h5, maybeAutoCheckpoint_ok h6⟩

/-! ## Tool operations -/

/-- Saving a record: the run has a context, the row decodes. -/
theorem saveExternalResult_saved {limits : PyLimits} {amb : Ambient} {runId : String}
    {result r : ExternalResultRecord} {s s' : Store}
    (h : saveExternalResult limits amb runId result s = .ok (r, s')) :
    (∃ c, s.loadContext runId = .ok (some c)) ∧ result.runId = runId ∧
      (s.agentContexts.get runId).isSome ∧ (s.rowOf amb result).Decodes ∧
      r = (s.rowOf amb result).stripped ∧ s' = s.putResult (s.rowOf amb result) := by
  rw [saveExternalResult_ok, upsertExternalResult_ok] at h
  obtain ⟨⟨c, h1⟩, h2, -, h3, h4, h5⟩ := h
  obtain ⟨h6, h7⟩ := fromDict_result_ok.1 h4
  exact ⟨⟨c, loadRequiredContext_ok.1 h1⟩, h2, h2 ▸ h3, h6, h7, h5⟩

theorem recordToolDispatch_ok {cfg : LoggingServiceConfig} {amb : Ambient} {runId executionId : String}
    {s s' : Store} {r : ExternalResultRecord}
    (h : recordToolDispatch cfg amb runId executionId s = .ok (r, s')) :
    ∃ row new, s.externalResults.get (strip executionId) = some row ∧ row.Decodes ∧
      strip row.runId = runId ∧ ExecutionStatus.Moves row.executionStatus .dispatched ∧
      blank runId = false ∧ blank executionId = false ∧ (s.agentContexts.get runId).isSome ∧
      new = s.rowOf amb { row.stripped with executionStatus := .dispatched } ∧ new.Decodes ∧
      r = new.stripped ∧
      Closed cfg amb runId ((s.addEvent (s.newEvent amb runId (.toolDispatched .dispatched (strip row.toolName))
        "tool_intent" executionId)).putResult new) s' := by
  unfold recordToolDispatch at h
  rw [bind_ok] at h
  obtain ⟨cached, s1, h1, h⟩ := h
  obtain ⟨h1, hs1⟩ := fetch_ok.1 h1
  dsimp only at h1 hs1
  subst hs1
  cases cached with
  | none => exact (raise_ok.1 h).elim
  | some cached =>
    obtain ⟨row, hrow, hdec, rfl⟩ := getExternalResult_some h1
    simp only [bind_ok, require_ok, lift_ok, appendEvent_ok, pure_ok, decide_eq_true_eq] at h
    obtain ⟨_, _, ⟨h2, h3⟩, _, _, ⟨h4, rfl⟩, _, _, ⟨h5, h6, h7⟩, rec, s2, h8, _, s3, h9, h10⟩ := h
    cases h3
    cases h7
    cases h10
    obtain ⟨-, -, h11, h12, h13, rfl⟩ := saveExternalResult_saved h8
    exact ⟨row, _, hrow, hdec, h2, assertExecutionTransition_ok.1 h4, h5, h6, h11, rfl, h12, h13,
      maybeAutoCheckpoint_ok h9⟩

/-- What a result does to the pending list. -/
inductive PendingCleared (amb : Ambient) (a : ToolResult) (executionStatus : ExecutionStatus) (s : Store) :
    Store → Prop
  | off (h : a.clears executionStatus = false) : PendingCleared amb a executionStatus s s
  | absent (c : AgentContextSnapshot) (hc : s.loadContext a.runId = .ok (some c))
      (h : a.executionId ∉ c.pendingExecutionIds) : PendingCleared amb a executionStatus s s
  | dropped (c : AgentContextSnapshot) (ids : List String) (hcl : a.clears executionStatus = true)
      (hc : s.loadContext a.runId = .ok (some c)) (h : a.executionId ∈ c.pendingExecutionIds)
      (hids : ids = c.pendingExecutionIds.filter fun value => value ≠ strip a.executionId)
      (hsave : ∃ c', AgentContextSnapshot.fromDict { c with
        pendingExecutionIds := ids, pendingExecutionId := ids.getLast?, updatedAt := amb.now } = .ok c') :
      PendingCleared amb a executionStatus s ((s.addEvent (s.newEvent amb a.runId
        (.contextPendingExecutionSet
          (c.pendingExecutionIds.filter fun value => value ≠ a.executionId).getLast?
          (c.pendingExecutionIds.filter fun value => value ≠ a.executionId)) "context" a.runId)).putContext
        { c with pendingExecutionIds := ids, pendingExecutionId := ids.getLast?, updatedAt := amb.now })

theorem mem_of_mem_addEvent {s : Store} {ev x : WalEvent} (hx : x ∈ s.walEvents ++ [ev])
    (ht : x.payload.type = .toolIntentRecorded) (hev : ev.payload.type ≠ .toolIntentRecorded) :
    x ∈ s.walEvents := by
  rcases List.mem_append.1 hx with hx | hx
  · exact hx
  · cases List.mem_singleton.1 hx
    exact absurd ht hev

section
variable {amb : Ambient} {a : ToolResult} {executionStatus : ExecutionStatus} {s s' : Store}

theorem PendingCleared.externalResults (h : PendingCleared amb a executionStatus s s') :
    s'.externalResults = s.externalResults := by cases h <;> rfl

theorem PendingCleared.walCheckpoints (h : PendingCleared amb a executionStatus s s') :
    s'.walCheckpoints = s.walCheckpoints := by cases h <;> rfl

theorem PendingCleared.log (h : PendingCleared amb a executionStatus s s') : s.walEvents <+: s'.walEvents := by
  cases h with
  | off => exact List.prefix_rfl
  | absent => exact List.prefix_rfl
  | dropped => exact List.prefix_append _ _

theorem PendingCleared.intents (h : PendingCleared amb a executionStatus s s') :
    ∀ ev ∈ s'.walEvents, ev.payload.type = .toolIntentRecorded → ev ∈ s.walEvents := by
  cases h with
  | off => exact fun _ hev _ => hev
  | absent => exact fun _ hev _ => hev
  | dropped c ids => exact fun _ hev ht => mem_of_mem_addEvent hev ht (by nofun)

end

theorem clearPendingOfResult_ok {amb : Ambient} {a : ToolResult} {executionStatus : ExecutionStatus}
    {s s' : Store} {u : Unit} (hctx : ∃ c, s.loadContext a.runId = .ok (some c))
    (h : clearPendingOfResult amb a executionStatus s = .ok (u, s')) :
    PendingCleared amb a executionStatus s s' := by
  unfold clearPendingOfResult at h
  split at h
  · next hcl =>
    obtain ⟨c, hc⟩ := hctx
    rw [bind_ok] at h
    obtain ⟨c', s1, h1, h⟩ := h
    obtain ⟨h1, hs1⟩ := fetch_ok.1 h1
    dsimp only at h1 hs1
    subst hs1
    rw [hc] at h1
    cases h1
    dsimp only [dropPending] at h
    split at h
    · next hin =>
      simp only [bind_ok, appendEvent_ok, pure_ok] at h
      obtain ⟨_, _, ⟨-, -, h2⟩, c2, s2, h3, h4⟩ := h
      cases h2
      cases h4
      obtain ⟨d, d', hd, hd', hsave, rfl⟩ := updateContext_saved h3
      rw [loadContext_addEvent, hc] at hd
      cases hd
      simp only [clearPendingExecutionState, except_bind_ok, requireNonEmptyStr_ok, except_pure_ok] at hd'
      obtain ⟨_, ⟨-, rfl⟩, rfl⟩ := hd'
      exact .dropped c _ hcl hc hin rfl ⟨_, hsave⟩
    · next hout =>
      rw [pure_ok] at h
      cases h
      exact .absent c hc hout
  · next hcl =>
    rw [pure_ok] at h
    cases h
    exact .off (by simpa using hcl)

theorem recordToolResult_ok {cfg : LoggingServiceConfig} {amb : Ambient} {a : ToolResult}
    {s s' : Store} {r : ExternalResultRecord} (h : recordToolResult cfg amb a s = .ok (r, s')) :
    ∃ resultStatus executionStatus cached record new s1,
      parseResultStatus a.resultStatus = .ok resultStatus ∧
      resolveExecutionStatus a.executionStatus resultStatus = .ok executionStatus ∧
      s.getExternalResult a.executionId = .ok cached ∧ a.check executionStatus cached = .ok () ∧
      a.record amb resultStatus executionStatus cached = .ok record ∧
      blank a.runId = false ∧ blank a.executionId = false ∧ record.runId = a.runId ∧
      (∃ c, s.loadContext a.runId = .ok (some c)) ∧
      (s.agentContexts.get a.runId).isSome ∧ new = s.rowOf amb record ∧ new.Decodes ∧ r = new.stripped ∧
      PendingCleared amb a executionStatus ((s.addEvent (s.newEvent amb a.runId
        (.externalResultRecorded resultStatus executionStatus record.toolName record.operationType
          record.planItemId a.responsePayload.isSome a.errorMessage) "external_result"
        a.executionId)).putResult new) s1 ∧
      Closed cfg amb a.runId s1 s' := by
  unfold recordToolResult at h
  simp only [bind_ok, lift_ok, fetch_ok, appendEvent_ok, pure_ok] at h
  obtain ⟨rs, _, ⟨h1, rfl⟩, es, _, ⟨h2, rfl⟩, cached, _, ⟨h3, rfl⟩, _, _, ⟨h4, rfl⟩, rec, _, ⟨h5, rfl⟩, _, _,
    ⟨hb, hb', h6⟩, stored, s2, h7, _, s3, h8, _, s4, h9, h10⟩ := h
  cases h6
  cases h10
  obtain ⟨hc, h11, h12, h13, h14, rfl⟩ := saveExternalResult_saved h7
  exact ⟨rs, es, cached, rec, _, s3, h1, h2, h3, h4, h5, hb, hb', h11, hc, h12, rfl, h13, h14,
    clearPendingOfResult_ok hc h8, maybeAutoCheckpoint_ok h9⟩

/-- The record of a new intent: written unless there is one. -/
inductive IntentSaved (amb : Ambient) (a : ToolIntent) (s : Store) : Store → Prop
  | present (row : ExternalResultRecord) (h : s.externalResults.get (strip a.executionId) = some row) :
      IntentSaved amb a s s
  | written (h : s.externalResults.get (strip a.executionId) = none)
      (hfk : (s.agentContexts.get a.runId).isSome) (hdec : (s.rowOf amb (a.record amb)).Decodes) :
      IntentSaved amb a s (s.putResult (s.rowOf amb (a.record amb)))

theorem saveIntentRecord_ok {cfg : LoggingServiceConfig} {amb : Ambient} {a : ToolIntent} {s s' : Store}
    {u : Unit} (h : saveIntentRecord cfg amb a s = .ok (u, s')) : IntentSaved amb a s s' := by
  unfold saveIntentRecord at h
  rw [bind_ok] at h
  obtain ⟨known, s1, h1, h⟩ := h
  obtain ⟨h1, hs1⟩ := fetch_ok.1 h1
  dsimp only at h1 hs1
  subst hs1
  cases known with
  | some r =>
    rw [pure_ok] at h
    cases h
    obtain ⟨row, hrow, -⟩ := getExternalResult_some h1
    exact .present row hrow
  | none =>
    simp only [bind_ok, pure_ok] at h
    obtain ⟨rec, s2, h2, h3⟩ := h
    cases h3
    obtain ⟨-, -, h4, h5, -, rfl⟩ := saveExternalResult_saved h2
    exact .written (getExternalResult_none h1) h4 h5

theorem recordNewIntent_ok {cfg : LoggingServiceConfig} {amb : Ambient} {a : ToolIntent} {s s' : Store}
    {r : RunProjections} (h : recordNewIntent cfg amb a s = .ok (r, s')) :
    ∃ ctx s1 s2 s3 s4 s5, blank a.runId = false ∧ blank a.executionId = false ∧
      s.loadContext a.runId = .ok ctx ∧
      attachToolCallRef amb a.runId a.planItemId a.executionId
        (s.addEvent (s.newEvent amb a.runId (.toolIntentRecorded a.planItemId a.toolName a.operationType
          a.requestPayload .intentLogged) "tool_intent" a.executionId)) = .ok (r.plannerState, s1) ∧
      s2 = s1.addEvent (s1.newEvent amb a.runId (.contextPendingExecutionSet
        (projectPendingIdsWithAdd ctx a.executionId).getLast?
        (projectPendingIdsWithAdd ctx a.executionId)) "context" a.runId) ∧
      addPendingExecution amb a.runId a.executionId s2 = .ok (r.context, s3) ∧
      IntentSaved amb a s3 s4 ∧
      syncContextWithPlanner amb a.runId r.plannerState s4 = .ok ((), s5) ∧
      Closed cfg amb a.runId s5 s' := by
  unfold recordNewIntent at h
  simp only [bind_ok, fetch_ok, lift_ok, appendEvent_ok, pure_ok] at h
  obtain ⟨ctx, _, ⟨h1, rfl⟩, _, _, ⟨-, rfl⟩, _, _, ⟨hb, hb', h2⟩, st, s1, h3, _, _, ⟨-, -, h4⟩, c, s3, h5, _, s4, h6, _, s5, h7, _, s6,
    h8, h9⟩ := h
  cases h2
  cases h4
  cases h9
  exact ⟨ctx, s1, _, s3, s4, s5, hb, hb', h1, h3, rfl, h5, saveIntentRecord_ok h6, h7,
    maybeAutoCheckpoint_ok h8⟩

/-- An intent is known, and nothing changes, or it is new. -/
theorem recordToolIntent_ok {cfg : LoggingServiceConfig} {amb : Ambient} {a : ToolIntent} {s s' : Store}
    {r : RunProjections} (h : recordToolIntent cfg amb a s = .ok (r, s')) :
    (s.intentKnown cfg a.runId a.executionId = .ok true ∧ s.loadProjections a.runId = .ok r ∧ s' = s) ∨
    (s.intentKnown cfg a.runId a.executionId = .ok false ∧ recordNewIntent cfg amb a s = .ok (r, s')) := by
  unfold recordToolIntent at h
  rw [bind_ok] at h
  obtain ⟨known, s1, h1, h⟩ := h
  obtain ⟨h1, hs1⟩ := fetch_ok.1 h1
  dsimp only at h1 hs1
  subst hs1
  cases known with
  | true =>
    rw [if_pos rfl, fetch_ok] at h
    exact .inl ⟨h1, h.1, h.2⟩
  | false =>
    rw [if_neg (by simp)] at h
    exact .inr ⟨h1, h⟩

end Raef
