import Raef.Proofs.Decode
import Raef.Proofs.Records

/-!
# Rows stay and stay readable

Every row the operations save passes the decoder it is read back with, and no
row is ever deleted.  `Kept` says so of two stores; it is closed under
composition, so each operation is a chain of the updates it makes.

* `exec_kept`: every successful operation keeps all rows, readable.
* `loadContext_run`, `getExternalResult_run`: reads of a sound store succeed.
-/

namespace Raef

open Text Txn

/-- Every stored row decodes. -/
structure Store.Sound (s : Store) : Prop where
  contexts : ∀ k c, s.agentContexts.get k = some c → c.Decodes
  plans : ∀ k st, s.plannerStates.get k = some st → st.Decodes
  records : ∀ k row, s.externalResults.get k = some row → row.Decodes

theorem sound_empty : ({} : Store).Sound := by
  refine ⟨?_, ?_, ?_⟩
  all_goals intro k row h; cases h

/-- No row is lost, and a sound store stays sound. -/
structure Kept (s s' : Store) : Prop where
  contexts : ∀ k, (s.agentContexts.get k).isSome → (s'.agentContexts.get k).isSome
  plans : ∀ k, (s.plannerStates.get k).isSome → (s'.plannerStates.get k).isSome
  sound : s.Sound → s'.Sound

theorem Kept.refl (s : Store) : Kept s s := ⟨fun _ => id, fun _ => id, id⟩

theorem Kept.trans {s s' s'' : Store} (h : Kept s s') (h' : Kept s' s'') : Kept s s'' :=
  ⟨fun k hk => h'.contexts k (h.contexts k hk), fun k hk => h'.plans k (h.plans k hk),
    fun hs => h'.sound (h.sound hs)⟩

/-! ## Updates -/

theorem kept_addEvent (s : Store) (ev : WalEvent) : Kept s (s.addEvent ev) :=
  ⟨fun _ => id, fun _ => id, fun h => ⟨h.contexts, h.plans, h.records⟩⟩

theorem kept_addCheckpoint (s : Store) (cp : WalCheckpoint) : Kept s (s.addCheckpoint cp) :=
  ⟨fun _ => id, fun _ => id, fun h => ⟨h.contexts, h.plans, h.records⟩⟩

theorem Table.isSome_put {ν : Type} {key : ν → String} {t : Table ν key} {row : ν} {k : String}
    (h : (t.get k).isSome) : ((t.put row).get k).isSome := by
  rw [Table.get_put]
  split
  · rfl
  · exact h

/-- A property of all rows survives a put of a row that has it. -/
theorem Table.forall_put {ν : Type} {key : ν → String} {t : Table ν key} {row : ν} {P : ν → Prop}
    (h : ∀ k row, t.get k = some row → P row) (hrow : P row) :
    ∀ k row', (t.put row).get k = some row' → P row' := by
  intro k row' hk
  rw [Table.get_put] at hk
  split at hk
  · cases hk
    exact hrow
  · exact h k row' hk

theorem kept_putContext (s : Store) {c c' : AgentContextSnapshot} (hc : c.fromDict = .ok c') :
    Kept s (s.putContext c) :=
  ⟨fun _ => Table.isSome_put, fun _ => id,
    fun h => ⟨Table.forall_put h.contexts (fromDict_context_ok.1 hc).1, h.plans, h.records⟩⟩

theorem kept_putPlan (s : Store) {st st' : PlannerState} (hst : st.fromDict = .ok st') :
    Kept s (s.putPlan st) :=
  ⟨fun _ => id, fun _ => Table.isSome_put,
    fun h => ⟨h.contexts, Table.forall_put h.plans (fromDict_plan_ok hst).1, h.records⟩⟩

theorem kept_putResult (s : Store) {row : ExternalResultRecord} (h : row.Decodes) :
    Kept s (s.putResult row) :=
  ⟨fun _ => id, fun _ => id, fun hs => ⟨hs.contexts, hs.plans, Table.forall_put hs.records h⟩⟩

theorem Checkpointed.kept {amb : Ambient} {r : String} {s s' : Store} (h : Checkpointed amb r s s') :
    Kept s s' := by
  cases h with
  | none => exact .refl _
  | bare cp => exact (kept_addCheckpoint _ _).trans (kept_addEvent _ _)
  | withContext cp c hrun hseq hc hsave =>
    obtain ⟨c', hsave⟩ := hsave
    exact (kept_addCheckpoint _ _).trans ((kept_putContext _ hsave).trans (kept_addEvent _ _))

theorem Closed.kept {cfg : LoggingServiceConfig} {amb : Ambient} {r : String} {s s' : Store}
    (h : Closed cfg amb r s s') : Kept s s' := h.checkpointed.kept

/-! ## Operations -/

section
variable {cfg : LoggingServiceConfig} {amb : Ambient} {runId : String} {s s' : Store}

theorem updatePlan_kept {f : PlannerState → Except PyError PlannerState} {r : PlannerState}
    (h : updatePlan amb runId f s = .ok (r, s')) : Kept s s' := by
  obtain ⟨st, st', -, -, -, hst, rfl⟩ := updatePlan_saved h
  exact kept_putPlan _ hst

theorem updateContext_kept {f : AgentContextSnapshot → Except PyError AgentContextSnapshot}
    {r : AgentContextSnapshot} (h : updateContext amb runId f s = .ok (r, s')) : Kept s s' := by
  obtain ⟨c, c', -, -, hsave, rfl⟩ := updateContext_saved h
  exact kept_putContext _ hsave

theorem syncContextWithPlanner_kept {st : PlannerState} {u : Unit}
    (h : syncContextWithPlanner amb runId st s = .ok (u, s')) : Kept s s' := by
  obtain ⟨c, -, ⟨c', hsave⟩, rfl⟩ := syncContextWithPlanner_ok h
  exact (kept_addEvent _ _).trans (kept_putContext _ hsave)

theorem initContext_kept {msgs : List RawMessage} {mem : Option JsonObject} {force : Bool}
    {r : AgentContextSnapshot} (h : initContext amb runId msgs mem force s = .ok (r, s')) : Kept s s' := by
  rcases initContext_ok h with ⟨-, -, rfl⟩ | ⟨messages, -, -, hsave, rfl⟩
  · exact .refl _
  · exact kept_putContext _ hsave

theorem IntentSaved.kept {a : ToolIntent} (h : IntentSaved amb a s s') : Kept s s' := by
  cases h with
  | present => exact .refl _
  | written _ _ hdec => exact kept_putResult _ hdec

theorem PendingCleared.kept {a : ToolResult} {es : ExecutionStatus} (h : PendingCleared amb a es s s') :
    Kept s s' := by
  cases h with
  | off => exact .refl _
  | absent => exact .refl _
  | dropped c ids hcl hc hin hids hsave =>
    obtain ⟨c', hsave⟩ := hsave
    exact (kept_addEvent _ _).trans (kept_putContext _ hsave)

theorem startFresh_kept {a : StartRun} {r : RunProjections} (h : startFresh cfg amb a s = .ok (r, s')) :
    Kept s s' := by
  obtain ⟨st, s1, s2, s3, -, -, -, hst, rfl, rfl, h1, s4, h2, h3⟩ := startFresh_ok h
  exact (kept_addEvent _ _).trans <| (kept_addEvent _ _).trans <| (kept_putPlan _ hst).trans <|
    (kept_addEvent _ _).trans <| (initContext_kept h1).trans <| (syncContextWithPlanner_kept h2).trans h3.kept

/-- Every operation keeps all rows, readable. -/
theorem exec_kept {o : FacadeOp} {r : o.Res} (h : o.exec cfg amb s = .ok (r, s')) : Kept s s' := by
  cases o with
  | startRun a =>
    obtain ⟨-, -, -, -, ⟨-, -, -, rfl⟩ | ⟨-, h⟩⟩ := startRun_ok h
    · exact .refl _
    · exact startFresh_kept h
  | recordContextMessage a =>
    obtain ⟨s1, h1, -, h2⟩ := recordContextMessage_ok h
    exact (kept_addEvent _ _).trans ((updateContext_kept h1).trans h2.kept)
  | recordLlmTurn a =>
    obtain ⟨s1, s2, s3, -, -, h1, h2, h3, h4⟩ := recordLlmTurn_ok h
    exact (kept_addEvent _ _).trans <| (updatePlan_kept h1).trans <| (kept_addEvent _ _).trans <|
      (updateContext_kept h2).trans <| (syncContextWithPlanner_kept h3).trans h4.kept
  | recordToolIntent a =>
    rcases recordToolIntent_ok (FacadeOp.exec_recordToolIntent.1 h) with ⟨-, -, rfl⟩ | ⟨-, h⟩
    · exact .refl _
    · obtain ⟨ctx, s1, s2, s3, s4, s5, -, -, -, h1, rfl, h2, h3, h4, h5⟩ := recordNewIntent_ok h
      exact (kept_addEvent _ _).trans <| (updatePlan_kept h1).trans <| (kept_addEvent _ _).trans <|
        (updateContext_kept h2).trans <| h3.kept.trans <| (syncContextWithPlanner_kept h4).trans h5.kept
  | recordToolDispatch runId e =>
    obtain ⟨row, new, -, -, -, -, -, -, -, -, hdec, -, h1⟩ :=
      recordToolDispatch_ok (FacadeOp.exec_recordToolDispatch.1 h)
    exact (kept_addEvent _ _).trans ((kept_putResult _ hdec).trans h1.kept)
  | recordToolResult a =>
    obtain ⟨rs, es, cached, record, new, s1, -, -, -, -, -, -, -, -, -, -, -, hdec, -, h1, h2⟩ :=
      recordToolResult_ok (FacadeOp.exec_recordToolResult.1 h)
    exact (kept_addEvent _ _).trans ((kept_putResult _ hdec).trans (h1.kept.trans h2.kept))
  | advancePlanItem a =>
    obtain ⟨s1, s2, -, -, h1, h2, h3⟩ := advancePlanItem_ok h
    exact (kept_addEvent _ _).trans <| (updatePlan_kept h1).trans <|
      (syncContextWithPlanner_kept h2).trans h3.kept
  | setActivePlanItem runId planItemId =>
    obtain ⟨s1, s2, -, h1, h2, h3⟩ := setActivePlanItem_ok h
    exact (kept_addEvent _ _).trans <| (updatePlan_kept h1).trans <|
      (syncContextWithPlanner_kept h2).trans h3.kept
  | checkpoint runId snapshotType inc => exact (checkpointLocked_ok h).kept
  | getExternalResult e => exact (fetch_pair.1 h).2 ▸ .refl _
  | listExternalResults runId => exact (fetch_pair.1 h).2 ▸ .refl _
  | listPendingExecutions runId => exact (fetch_pair.1 h).2 ▸ .refl _
  | loadContext runId => exact (fetch_pair.1 h).2 ▸ .refl _

end

/-! ## Reads of a sound store -/

/-- A loaded context is the row under the stripped id, decoded. -/
theorem loadContext_ok {s : Store} {r : String} {c : AgentContextSnapshot} :
    s.loadContext r = .ok (some c) ↔ blank r = false ∧
      ∃ row, s.agentContexts.get (strip r) = some row ∧ row.Decodes ∧ c = row.decoded := by
  unfold Store.loadContext
  simp only [except_bind_ok, requireNonEmptyStr_ok]
  constructor
  · rintro ⟨_, ⟨h1, rfl⟩, h2⟩
    cases hg : s.agentContexts.get (strip r) with
    | none =>
      rw [hg] at h2
      cases except_pure_ok.1 h2
    | some row =>
      rw [hg] at h2
      simp only [except_bind_ok, except_pure_ok, fromDict_context_ok] at h2
      obtain ⟨_, ⟨h3, rfl⟩, h4⟩ := h2
      cases h4
      exact ⟨h1, row, rfl, h3, rfl⟩
  · rintro ⟨h1, row, hg, h2, rfl⟩
    refine ⟨_, ⟨h1, rfl⟩, ?_⟩
    rw [hg]
    simp only [except_bind_ok, except_pure_ok, fromDict_context_ok]
    exact ⟨_, ⟨h2, rfl⟩, rfl⟩

theorem loadContext_none {s : Store} {r : String} (h : s.loadContext r = .ok none) :
    s.agentContexts.get (strip r) = none := by
  unfold Store.loadContext at h
  simp only [except_bind_ok, requireNonEmptyStr_ok] at h
  obtain ⟨_, ⟨-, rfl⟩, h⟩ := h
  cases hg : s.agentContexts.get (strip r) with
  | none => rfl
  | some row =>
    rw [hg] at h
    simp only [except_bind_ok, except_pure_ok] at h
    obtain ⟨_, -, h⟩ := h
    cases h

theorem loadContext_runId {s : Store} {r : String} {c : AgentContextSnapshot}
    (h : s.loadContext r = .ok (some c)) : c.runId = strip r := by
  obtain ⟨-, row, hrow, -, rfl⟩ := loadContext_ok.1 h
  show strip row.runId = _
  rw [Table.key_of_get hrow, strip_strip]

section
variable {s : Store} (hs : s.Sound)

include hs

/-- A lookup of a context finds what is stored under the stripped id, decoded. -/
theorem loadContext_run {r : String} (hr : blank r = false) :
    s.loadContext r = .ok ((s.agentContexts.get (strip r)).map AgentContextSnapshot.decoded) := by
  unfold Store.loadContext
  rw [requireNonEmptyStr_run _ hr]
  dsimp only [bind, Except.bind]
  cases hg : s.agentContexts.get (strip r) with
  | none => rfl
  | some row =>
    show (row.fromDict >>= fun c => pure (some c)) = _
    rw [fromDict_context_ok.2 ⟨hs.contexts _ row hg, rfl⟩]
    rfl

theorem loadPlan_run {r : String} (hr : blank r = false) :
    ∃ plan, s.loadPlan r = .ok plan := by
  unfold Store.loadPlan
  rw [requireNonEmptyStr_run _ hr]
  dsimp only [bind, Except.bind]
  cases hg : s.plannerStates.get (strip r) with
  | none => exact ⟨none, rfl⟩
  | some row =>
    obtain ⟨st, hst⟩ := decode_plan_run (hs.plans _ row hg)
    refine ⟨some st, ?_⟩
    show (row.decode >>= fun st => pure (some st)) = _
    rw [hst]
    rfl

/-- A lookup finds what is stored under the stripped id. -/
theorem getExternalResult_run {e : String} (he : blank e = false) :
    s.getExternalResult e = .ok ((s.externalResults.get (strip e)).map ExternalResultRecord.stripped) := by
  rw [getExternalResult_ok]
  refine ⟨he, ?_⟩
  cases hg : s.externalResults.get (strip e) with
  | none => rfl
  | some row => exact ⟨hs.records _ row hg, rfl⟩

theorem getExternalResults_run {ids : List String} (hids : ∀ id ∈ ids, blank id = false) :
    ∃ records, s.getExternalResults ids = .ok records := by
  induction ids with
  | nil => exact ⟨[], rfl⟩
  | cons id ids ih =>
    obtain ⟨records, h⟩ := ih fun id' hid' => hids id' (List.mem_cons_of_mem _ hid')
    have hid := getExternalResult_run hs (hids id List.mem_cons_self)
    refine ⟨((s.externalResults.get (strip id)).map ExternalResultRecord.stripped).toList ++ records, ?_⟩
    unfold Store.getExternalResults
    rw [hid, h]
    rfl

/-- The records of a run with a context are listed. -/
theorem listExternalResults_run {r : String} {c : AgentContextSnapshot}
    (hload : s.loadContext r = .ok (some c)) : ∃ records, s.listExternalResults r = .ok records := by
  have hids : ∀ id ∈ s.executionIdsOf (strip r), blank id = false := by
    intro id hid
    obtain ⟨row, hrow, -⟩ := mem_executionIdsOf.1 hid
    rw [← Table.key_of_get hrow]
    exact (hs.records id row hrow).executionId
  obtain ⟨records, h⟩ := getExternalResults_run hs hids
  refine ⟨records, ?_⟩
  unfold Store.listExternalResults
  rw [loadRequiredContext_ok.2 hload, requireNonEmptyStr_run _ (loadContext_ok.1 hload).1]
  exact h

end

end Raef
