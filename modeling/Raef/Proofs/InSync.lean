import Raef.Proofs.Changes
import Raef.Proofs.Lifecycle

/-!
# Context and plan stay together

Plan and context are rows of two tables.  An operation that changes the plan leaves the
context behind until it settles; what it owes is the plan it has just saved.  A reset
under an id with white space around it pays the wrong run: its rows are saved under the
id as given, the synchronisation goes to the run under the stripped id.

    Tracked is kept by every operation whose resets are stripped       (tracked_parts)
    plan and context exist together, and agree                         (context_in_sync)
    a padded reset leaves a context behind its plan                    (padded_reset_desyncs)
-/

namespace Raef

open Text Txn

/-! ## Statements -/

/-- The cursor is where the active item is, or there is neither. -/
def PlannerState.AtItem (st : PlannerState) : Prop :=
  (st.activeItemId = none ∧ st.cursorIndex = none) ∨
    ∃ it ∈ st.items, st.activeItemId = some it.planItemId ∧ st.cursorIndex = some it.sequenceIndex

/-- The context has the version of the plan, and its step when there is a cursor. -/
structure AgentContextSnapshot.Follows (c : AgentContextSnapshot) (st : PlannerState) : Prop where
  version : c.plannerVersion = st.version
  step : ∀ i ∈ st.cursorIndex, c.stepIndex = i

/-- The run has neither plan nor context, or both, in step. -/
def Store.InSync (s : Store) (runId : String) : Prop :=
  (s.loadPlan runId = .ok none ∧ s.loadContext runId = .ok none) ∨
    ∃ st c, s.loadPlan runId = .ok (some st) ∧ s.loadContext runId = .ok (some c) ∧ c.Follows st ∧ st.AtItem

/-- A run is only reset under its stripped id. -/
def FacadeOp.ResetsStripped (_ : Store) (o : FacadeOp) : Prop :=
  ∀ a, o = .startRun a → a.forceReset = true → Trimmed a.runId

/-! ## Where a plan stands -/

section
variable {now : Time} {p : String} {f : PlannerItem → PlannerItem} {st st' : PlannerState}

theorem exists_mem_modifyItem (hf : ∀ it : PlannerItem, it.Kept (f it)) {items : List PlannerItem}
    {it : PlannerItem} (h : it ∈ items) : ∃ it' ∈ modifyItem p f items,
      it'.planItemId = it.planItemId ∧ it'.sequenceIndex = it.sequenceIndex := by
  induction items with
  | nil => cases h
  | cons it0 items ih =>
    unfold modifyItem
    rcases List.mem_cons.1 h with rfl | h
    · split
      · exact ⟨f it, List.mem_cons_self, (hf it).planItemId, (hf it).sequenceIndex⟩
      · exact ⟨it, List.mem_cons_self, rfl, rfl⟩
    · split
      · exact ⟨it, List.mem_cons_of_mem _ h, rfl, rfl⟩
      · obtain ⟨it', hit', hkeys⟩ := ih h
        exact ⟨it', List.mem_cons_of_mem _ hit', hkeys⟩

/-- Standing at an item of the plan before an update is standing at one after it. -/
theorem PlanUpdate.atItem {item : PlannerItem} (hu : PlanUpdate p f st st') (hitem : item ∈ st.items)
    (hactive : st'.activeItemId = some item.planItemId) (hcursor : st'.cursorIndex = some item.sequenceIndex) :
    st'.AtItem := by
  obtain ⟨it', hit', hid, hseq⟩ := exists_mem_modifyItem (p := p) hu.kept hitem
  rw [← hu.items] at hit'
  exact .inr ⟨it', hit', hactive.trans (congrArg some hid.symm), hcursor.trans (congrArg some hseq.symm)⟩

theorem PlanUpdate.atItem_same (hu : PlanUpdate p f st st') (h : st.AtItem)
    (hactive : st'.activeItemId = st.activeItemId) (hcursor : st'.cursorIndex = st.cursorIndex) :
    st'.AtItem := by
  rcases h with ⟨h1, h2⟩ | ⟨item, hitem, h1, h2⟩
  · exact .inl ⟨hactive.trans h1, hcursor.trans h2⟩
  · exact hu.atItem hitem (hactive.trans h1) (hcursor.trans h2)

theorem PlannerState.AtFirst.atItem (h : st.AtFirst) : st.AtItem := by
  have h1 := h.active
  have h2 := h.cursor
  cases hnext : nextRunnableItem st with
  | none =>
    rw [hnext] at h1 h2
    exact .inl ⟨h1, h2⟩
  | some it =>
    rw [hnext] at h1 h2
    exact .inr ⟨it, (nextRunnableItem_some hnext).1, h1, h2⟩

theorem moveOn_atItem {next : PlannerItemStatus} (h : st.AtItem) : (st.moveOn p next).AtItem := by
  unfold PlannerState.moveOn
  split
  · split
    · next item hitem => exact .inr ⟨item, (nextRunnableItem_some hitem).1, rfl, rfl⟩
    · exact h
  · exact h

theorem setActiveItemState_atItem (h : setActiveItemState now p st = .ok st') : st'.AtItem := by
  have hu := setActiveItemState_ok h
  unfold setActiveItemState at h
  simp only [except_bind_ok, except_pure_ok] at h
  obtain ⟨item, hitem, rfl⟩ := h
  exact hu.atItem (findItem_ok hitem).1 rfl rfl

theorem updateItemStatusState_atItem {status : String} {note : Option String} (hat : st.AtItem)
    (h : updateItemStatusState now p status note st = .ok st') : st'.AtItem := by
  unfold updateItemStatusState at h
  simp only [except_bind_ok, raiseIf_ok, except_pure_ok] at h
  obtain ⟨item, hitem, next, -, _, -, rfl⟩ := h
  obtain ⟨hmem, rfl⟩ := findItem_ok hitem
  have hu : PlanUpdate item.planItemId (PlannerItem.updated now next note) st
      (st.setItem item.planItemId (PlannerItem.updated now next note)) :=
    ⟨rfl, rfl, rfl, rfl, List.mem_map_of_mem hmem, PlannerItem.kept_updated now next note⟩
  exact moveOn_atItem (hu.atItem_same hat rfl rfl)

theorem attachLlmOutputState_atItem {output : String} (hat : st.AtItem)
    (h : attachLlmOutputState now p output st = .ok st') : st'.AtItem := by
  have hu := (attachLlmOutputState_ok h).1
  unfold attachLlmOutputState at h
  simp only [except_bind_ok, raiseIf_ok, except_pure_ok] at h
  obtain ⟨item, -, _, -, rfl⟩ := h
  exact hu.atItem_same hat rfl rfl

theorem PlanEdit.atItem {o : FacadeOp} {runId entityType entityId : String} {payload : EventPayload}
    {g : PlannerState → Except PyError PlannerState} (hedit : PlanEdit now o runId payload entityType entityId g)
    (hat : st.AtItem) (h : g st = .ok st') : st'.AtItem := by
  cases hedit with
  | llmOutput a => exact attachLlmOutputState_atItem hat h
  | status a => exact updateItemStatusState_atItem hat h
  | active runId planItemId => exact setActiveItemState_atItem h

/-- A normal row stands where the loaded plan stands. -/
theorem atItem_decoded {row : PlannerState} (hn : row.ItemsNormal) (hat : row.AtItem)
    (h : row.decode = .ok st) : st.AtItem := by
  have hto := (decode_plan_ok h).2
  rcases hat with ⟨h1, h2⟩ | ⟨item, hitem, h1, h2⟩
  · exact .inl ⟨hto.activeItemId.trans h1, hto.cursorIndex.trans h2⟩
  · refine .inr ⟨item, ?_, hto.activeItemId.trans h1, hto.cursorIndex.trans h2⟩
    rw [decode_of_normal hn h]
    exact row.queried_perm.mem_iff.2 hitem

end

/-! ## The invariant -/

/-- The rows of a run: both or neither, the plan at an item, the context in step with it. -/
structure Store.Tracked (s : Store) (k : String) : Prop where
  together : (s.plannerStates.get k).isSome = (s.agentContexts.get k).isSome
  stands : ∀ st, s.plannerStates.get k = some st → st.ItemsNormal ∧ st.AtItem
  follows : ∀ st c, s.plannerStates.get k = some st → s.agentContexts.get k = some c → c.Follows st

/-- The rows of a run whose plan was changed: the context waits for this plan. -/
structure Store.Awaits (s : Store) (k : String) (st : PlannerState) : Prop where
  context : (s.agentContexts.get k).isSome
  plan : ∃ row, s.plannerStates.get k = some row ∧ row.ItemsNormal ∧ row.AtItem ∧
    row.version = st.version ∧ row.cursorIndex = st.cursorIndex

/-- In step, or waiting for what is owed. -/
def Store.Keeps (s : Store) (k : String) : Option PlannerState → Prop
  | none => s.Tracked k
  | some st => s.Awaits k st

section
variable {cfg : LoggingServiceConfig} {amb : Ambient} {o : FacadeOp} {runId k : String}
  {s s' : Store} {owed : Option PlannerState}

theorem tracked_empty (k : String) : ({} : Store).Tracked k :=
  ⟨rfl, (fun _ h => nomatch h), (fun _ _ h => nomatch h)⟩

theorem Store.Tracked.beside (h : s.Tracked k) (hb : Beside k s s') : s'.Tracked k := by
  refine ⟨?_, fun st hst => h.stands st (hb.plan ▸ hst),
    fun st c hst hc => h.follows st c (hb.plan ▸ hst) (hb.context ▸ hc)⟩
  rw [hb.plan, hb.context]
  exact h.together

/-- Saving a loaded context with the version and the step it was loaded with. -/
theorem Store.Keeps.putContext {c d : AgentContextSnapshot} (h : s.Keeps (strip runId) owed)
    (hload : s.loadContext runId = .ok (some c)) (hrun : d.runId = c.runId)
    (hv : d.plannerVersion = c.plannerVersion) (hi : d.stepIndex = c.stepIndex) :
    (s.putContext d).Keeps (strip runId) owed := by
  have hkey : d.runId = strip runId := hrun.trans (loadContext_runId hload)
  have hget : (s.putContext d).agentContexts.get (strip runId) = some d := by
    rw [← hkey]
    exact Table.get_put_self _ d
  obtain ⟨-, row, hrow, -, rfl⟩ := loadContext_ok.1 hload
  cases owed with
  | some st => exact ⟨by rw [hget]; rfl, h.plan⟩
  | none =>
    refine ⟨?_, h.stands, fun st c hst hc => ?_⟩
    · rw [hget]
      refine h.together.trans ?_
      rw [hrow]
      rfl
    · rw [hget] at hc
      cases hc
      have hfollows := h.follows st row hst hrow
      refine ⟨hv.trans hfollows.version, fun i hcur => ?_⟩
      rw [hi]
      exact hfollows.step i hcur

theorem Store.Keeps.of_eq (h : s.Keeps k owed) (hp : s'.plannerStates = s.plannerStates)
    (hc : s'.agentContexts = s.agentContexts) : s'.Keeps k owed := by
  cases owed with
  | none =>
    refine ⟨by rw [hp, hc]; exact h.together, fun st hst => h.stands st (hp ▸ hst), fun st c hst hctx => ?_⟩
    exact h.follows st c (hp ▸ hst) (hc ▸ hctx)
  | some st => exact ⟨by rw [hc]; exact h.context, by rw [hp]; exact h.plan⟩

/-! ## The parts keep it -/

/-- The row of a created plan. -/
theorem awaits_created {a : StartRun} {st out : PlannerState} (hrun : Trimmed a.runId)
    (hst : createPlanState amb.now a.runId a.planSourceText a.planItems a.planSchema = .ok st)
    (hout : (st.saved amb).fromDict = .ok out)
    (hp : s'.plannerStates = s.plannerStates.put (st.saved amb))
    (hc : (s'.agentContexts.get (strip a.runId)).isSome) : s'.Awaits (strip a.runId) out := by
  have hcreated := createPlanState_ok hst
  have hto := (fromDict_plan_ok hout).2
  refine ⟨hc, st.saved amb, ?_, hcreated.normal, hcreated.atFirst.atItem, hto.version.symm,
    hto.cursorIndex.symm⟩
  rw [hp, show strip a.runId = (st.saved amb).runId from hrun.trans hcreated.runId.symm]
  exact Table.get_put_self _ _

/-- The row of an updated plan. -/
theorem awaits_bumped {st st' out : PlannerState} {p : String} {f : PlannerItem → PlannerItem}
    (h : s.Tracked (strip runId)) (hload : s.loadPlan runId = .ok (some st)) (hu : PlanUpdate p f st st')
    (hat : st.AtItem → st'.AtItem) (hout : (st'.bumped amb).fromDict = .ok out)
    (hp : s'.plannerStates = s.plannerStates.put (st'.bumped amb))
    (hc : (s'.agentContexts.get (strip runId)).isSome) : s'.Awaits (strip runId) out := by
  obtain ⟨-, row, hrow, hdec⟩ := loadPlan_ok.1 hload
  obtain ⟨hn, hrowAt⟩ := h.stands row hrow
  have hto := (fromDict_plan_ok hout).2
  have hstAt := hat (atItem_decoded hn hrowAt hdec)
  refine ⟨hc, st'.bumped amb, ?_, hu.itemsNormal (loadPlan_normal hload).2, hstAt, hto.version.symm,
    hto.cursorIndex.symm⟩
  have hkey : strip runId = (st'.bumped amb).runId := by
    show _ = st'.runId
    rw [hu.runId, loadPlan_runId hload]
  rw [hp, hkey]
  exact Table.get_put_self _ _

/-- A run with a plan has a context. -/
theorem Store.Tracked.context {st : PlannerState} (h : s.Tracked (strip runId))
    (hload : s.loadPlan runId = .ok (some st)) : (s.agentContexts.get (strip runId)).isSome := by
  obtain ⟨-, row, hrow, -⟩ := loadPlan_ok.1 hload
  rw [← h.together, hrow]
  rfl

theorem IntentSaved.agentContexts {a : ToolIntent} (h : IntentSaved amb a s s') :
    s'.agentContexts = s.agentContexts := by cases h <;> rfl

theorem PendingCleared.keeps {a : ToolResult} {es : ExecutionStatus} (h : PendingCleared amb a es s s')
    (hk : s.Tracked (strip a.runId)) : s'.Tracked (strip a.runId) := by
  have hkeeps : s.Keeps (strip a.runId) none := hk
  cases h with
  | off => exact hk
  | absent => exact hk
  | dropped c ids hcl hc hin hids hsave =>
    have hkeeps' : (s.addEvent (s.newEvent amb a.runId (.contextPendingExecutionSet
        (c.pendingExecutionIds.filter fun value => value ≠ a.executionId).getLast?
        (c.pendingExecutionIds.filter fun value => value ≠ a.executionId)) "context" a.runId)).Keeps
        (strip a.runId) none := hkeeps.of_eq rfl rfl
    exact hkeeps'.putContext (d := { c with
      pendingExecutionIds := ids, pendingExecutionId := ids.getLast?, updatedAt := amb.now }) hc rfl rfl rfl

theorem Act.keeps (h : Act cfg amb o runId s owed s') (hstart : ∀ a, o = .startRun a → Trimmed a.runId)
    (hk : s.Tracked (strip runId)) : s'.Keeps (strip runId) owed := by
  have hkeeps : s.Keeps (strip runId) none := hk
  cases h with
  | idle hrun => exact hk
  | created a st out messages hst hout hmsgs hdec hcase =>
    have hrun := hstart a rfl
    refine awaits_created hrun hst hout rfl ?_
    have hself := Table.get_put_self s.agentContexts (freshContext amb a.runId messages a.initialMemory)
    show ((s.agentContexts.put (freshContext amb a.runId messages a.initialMemory)).get (strip a.runId)).isSome
    rw [show strip a.runId = (freshContext amb a.runId messages a.initialMemory).runId from hrun, hself]
    rfl
  | replanned a st out c hst hout hplan hctx =>
    obtain ⟨-, crow, hcrow, -⟩ := loadContext_ok.1 hctx
    refine awaits_created (hstart a rfl) hst hout rfl ?_
    show (s.agentContexts.get (strip a.runId)).isSome
    rw [hcrow]
    rfl
  | edited st st' out hedit hload hst hout =>
    obtain ⟨p, f, hu⟩ := hedit.update hst
    exact awaits_bumped hk hload hu (fun hat => hedit.atItem hat hst) hout rfl (hk.context hload)
  | intended a st st' out c hknown hload hst hout hctx hblank hsaved =>
    obtain ⟨hu, -, hactive, hcursor⟩ := attachToolCallRefState_ok hst
    refine awaits_bumped hk hload hu (fun hat => hu.atItem_same hat hactive hcursor) hout
      hsaved.plannerStates ?_
    rw [hsaved.agentContexts]
    exact Table.isSome_put (hk.context hload)
  | dispatched runId e row hfound hrun hparent hmoves => exact hkeeps.of_eq rfl rfl
  | resulted a rs es cached record hparent hrs hes hget hcheck hrecord hcleared =>
    exact hcleared.keeps (hkeeps.of_eq rfl rfl)

theorem Spoken.keeps (h : Spoken amb o s s') (hrun : o.run = some runId)
    (hk : s.Keeps (strip runId) owed) : s'.Keeps (strip runId) owed := by
  cases h with
  | silent => exact hk
  | said m c hm hload hdec =>
    rw [FacadeOp.message_run hm] at hrun
    cases hrun
    have hk' : (s.addEvent (s.newEvent amb m.runId
        (.contextMessageAppended m.role m.content (m.metadata.getD []) m.name m.toolCallId)
        "context" m.runId)).Keeps (strip m.runId) owed := hk.of_eq rfl rfl
    exact hk'.putContext (d := c.told amb m) hload rfl rfl rfl

/-- Settling pays what is owed. -/
theorem Settled.tracked (h : Settled amb runId s owed s') (hk : s.Keeps (strip runId) owed) :
    s'.Tracked (strip runId) := by
  cases h with
  | same => exact hk
  | synced st c hload =>
    have hkey : (c.synced amb st).runId = strip runId := by
      show c.runId = _
      exact loadContext_runId hload
    have hget : (s.agentContexts.put (c.synced amb st)).get (strip runId) = some (c.synced amb st) := by
      rw [← hkey]
      exact Table.get_put_self _ _
    obtain ⟨row, hrow, hn, hat, hv, hcur⟩ := hk.plan
    refine ⟨?_, fun st' hst' => ?_, fun st' c' hst' hc' => ?_⟩
    · show (s.plannerStates.get _).isSome = ((s.agentContexts.put (c.synced amb st)).get _).isSome
      rw [hrow, hget]
      rfl
    · have hst' : s.plannerStates.get (strip runId) = some st' := hst'
      rw [hrow] at hst'
      cases hst'
      exact ⟨hn, hat⟩
    · have hst' : s.plannerStates.get (strip runId) = some st' := hst'
      have hc' : (s.agentContexts.put (c.synced amb st)).get (strip runId) = some c' := hc'
      rw [hrow] at hst'
      rw [hget] at hc'
      cases hst'
      cases hc'
      refine ⟨hv.symm, fun i hi => ?_⟩
      show st.cursorIndex.getD c.stepIndex = i
      rw [← hcur, Option.mem_def.1 hi]
      rfl

theorem Checkpointed.tracked (h : Checkpointed amb runId s s') (hk : s.Tracked (strip runId)) :
    s'.Tracked (strip runId) := by
  have hkeeps : s.Keeps (strip runId) Option.none := hk
  cases h with
  | none => exact hk
  | bare cp => exact hkeeps.of_eq rfl rfl
  | withContext cp c hrun hseq hc hsave =>
    have hkeeps' : (s.addCheckpoint cp).Keeps (strip runId) Option.none := hkeeps.of_eq rfl rfl
    have hput := hkeeps'.putContext (d := { c with
      lastCheckpointSeq := some (cp.seqId : ℤ), updatedAt := amb.now }) hc rfl rfl rfl
    exact hput.of_eq rfl rfl

/-- A run is only started afresh under its stripped id: another row would not be found
by the synchronisation. -/
theorem Parts.start_trimmed (h : Parts cfg amb o runId s s')
    (hreset : ∀ a, o = .startRun a → a.forceReset = true → Trimmed a.runId)
    (htogether : (s.plannerStates.get (strip runId)).isSome = (s.agentContexts.get (strip runId)).isSome) :
    ∀ a, o = .startRun a → Trimmed a.runId := by
  rintro a rfl
  obtain ⟨owed, s1, s2, s3, hact, hspoken, hsettled, -⟩ := h
  cases hspoken with
  | said m c hm => cases hm
  | silent =>
    cases hact with
    | idle hrun hrest => cases hrest
    | edited st st' out hedit => cases hedit
    | created _ st out messages hst hout hmsgs hdec hcase =>
      rcases hcase with hforce | hnone
      · exact hreset a rfl hforce
      · cases hsettled with
        | synced _ c hload =>
          obtain ⟨-, row, hrow, -⟩ := loadContext_ok.1 hload
          have hrow : (s.agentContexts.put (freshContext amb a.runId messages a.initialMemory)).get
              (strip a.runId) = some row := hrow
          rw [Table.get_put] at hrow
          split at hrow
          · next hk => exact hk
          · rw [loadContext_none hnone] at hrow
            cases hrow
    | replanned _ st out c hst hout hplan hctx =>
      obtain ⟨-, crow, hcrow, -⟩ := loadContext_ok.1 hctx
      rw [hcrow, (loadPlan_none.1 hplan).2] at htogether
      cases htogether

/-- One operation keeps every run tracked. -/
theorem tracked_parts (h : Parts cfg amb o runId s s')
    (hreset : ∀ a, o = .startRun a → a.forceReset = true → Trimmed a.runId)
    (hk : ∀ k, s.Tracked k) (k : String) : s'.Tracked k := by
  have hstart := h.start_trimmed hreset (hk _).together
  by_cases hkey : strip runId = k
  · subst hkey
    obtain ⟨owed, s1, s2, s3, hact, hspoken, hsettled, hcp⟩ := h
    exact hcp.checkpointed.tracked (hsettled.tracked (hspoken.keeps hact.run (hact.keeps hstart (hk _))))
  · exact (hk k).beside (h.beside hstart hkey)

theorem tracked_step (h : FacadeStep cfg FacadeOp.ResetsStripped s s') (hk : ∀ k, s.Tracked k) (k : String) :
    s'.Tracked k := by
  obtain ⟨amb, o, r, ho, hx⟩ := h
  rcases exec_parts hx with ⟨rfl, -⟩ | ⟨runId, -, hparts⟩
  · exact hk k
  · exact tracked_parts hparts ho hk k

theorem tracked_reachable (h : Relation.ReflTransGen (FacadeStep cfg FacadeOp.ResetsStripped) {} s) :
    s.Sound ∧ ∀ k, s.Tracked k := by
  induction h with
  | refl => exact ⟨sound_empty, tracked_empty⟩
  | tail _ hstep ih =>
    refine ⟨?_, tracked_step hstep ih.2⟩
    obtain ⟨amb, o, r, -, hx⟩ := hstep
    exact (exec_kept hx).sound ih.1

/-- A tracked run, as it is loaded. -/
theorem Store.Tracked.inSync (h : s.Tracked (strip runId)) (hs : s.Sound) (hr : blank runId = false) :
    s.InSync runId := by
  have hctx := loadContext_run hs hr
  have htogether := h.together
  cases hp : s.plannerStates.get (strip runId) with
  | none =>
    rw [hp] at htogether
    have hc : s.agentContexts.get (strip runId) = none := by simpa using htogether.symm
    rw [hc] at hctx
    exact .inl ⟨loadPlan_none.2 ⟨hr, hp⟩, hctx⟩
  | some row =>
    rw [hp] at htogether
    obtain ⟨c, hc⟩ := Option.isSome_iff_exists.1 htogether.symm
    rw [hc] at hctx
    obtain ⟨st, hst⟩ := decode_plan_run (hs.plans _ row hp)
    obtain ⟨hn, hat⟩ := h.stands row hp
    have hto := (decode_plan_ok hst).2
    have hfollows := h.follows row c hp hc
    refine .inr ⟨st, _, loadPlan_ok.2 ⟨hr, row, hp, hst⟩, hctx, ⟨?_, fun i hi => ?_⟩, atItem_decoded hn hat hst⟩
    · exact hfollows.version.trans hto.version.symm
    · exact hfollows.step i (hto.cursorIndex ▸ hi)

end

/-- **Context and plan stay synchronised.**  While resets name their run without white space
around the id, every run has plan and context or neither, the context has the version of the
plan and its cursor, and the cursor is at the active item. -/
theorem context_in_sync (cfg : LoggingServiceConfig) (s : Store)
    (h : Relation.ReflTransGen (FacadeStep cfg FacadeOp.ResetsStripped) {} s) (runId : String)
    (hr : blank runId = false) : s.InSync runId :=
  ((tracked_reachable h).2 _).inSync (tracked_reachable h).1 hr

/-! ## With and without padding -/

/-- A run is started, its first item completed, and it is reset under another spelling of its id. -/
def resetOps (runId : String) : List FacadeOp :=
  [.startRun tripRun,
    .advancePlanItem { runId := "trip", planItemId := "step_0", newStatus := "done" },
    .startRun { tripRun with runId := runId, forceReset := true }]

/-- The version of the plan and the version the context has. -/
def versionsAfter (os : List FacadeOp) (runId : String) : Option (ℤ × ℤ) :=
  match execAll os {} with
  | .error _ => none
  | .ok s => match s.loadPlan runId, s.loadContext runId with
    | .ok (some st), .ok (some c) => some (st.version, c.plannerVersion)
    | _, _ => none

/-- A padded reset: the plan is at version 2, its context at version 1. -/
theorem padded_reset_desyncs : versionsAfter (resetOps " trip ") "trip" = some (2, 1) := by
  decide +kernel

/-- Reset under its own id, the run is in step. -/
theorem context_in_sync_reset : ∃ s, execAll (resetOps "trip") {} = .ok s ∧ s.InSync "trip" := by
  obtain ⟨s, hs⟩ : ∃ s, execAll (resetOps "trip") {} = .ok s := except_ok_of_toBool (by decide +kernel)
  refine ⟨s, hs, context_in_sync {} s (execAll_reach ?_ hs) "trip" (by decide +kernel)⟩
  intro o ho s' a ha _
  subst ha
  unfold resetOps at ho
  simp only [List.mem_cons, FacadeOp.startRun.injEq, List.not_mem_nil, or_false] at ho
  rcases ho with rfl | ho | rfl
  · exact trimmed_trip
  · cases ho
  · exact trimmed_trip

end Raef
