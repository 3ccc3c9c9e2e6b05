import Raef.Proofs.Audited
import Raef.Proofs.InSync

/-!
# The log tells the projections

Folding the events of a run gives its projections back: the items and the version of the
plan, the pending list, the last synchronisation, the status of every execution.  Each
operation writes its events and its rows by separate code; a part of an operation keeps
what the log tells and what the tables hold together.

    PlanRead, PendingRead, SyncRead, StatusRead      one for each projection, kept by each part
    journal_agrees                                   all of them, after any operations
-/

namespace Raef

open Text Txn

/-! ## Statements -/

/-- The execution an operation is about. -/
def FacadeOp.execution : FacadeOp → Option String
  | .recordToolIntent a => some a.executionId
  | .recordToolDispatch _ executionId => some executionId
  | .recordToolResult a => some a.executionId
  | .getExternalResult executionId => some executionId
  | _ => none

/-- Run and execution are named without white space around the ids. -/
def FacadeOp.NamesStripped (_ : Store) (o : FacadeOp) : Prop :=
  (∀ r ∈ o.run, Trimmed r) ∧ ∀ e ∈ o.execution, Trimmed e

/-- The plan has the version and, in some order, the items of the view. -/
structure PlannerState.ReadAs (st : PlannerState) (view : PlanView) : Prop where
  version : st.version = view.version
  items : (st.items.map PlannerItem.view).Perm view.items

/-- The context has the version, and the step when there is a cursor. -/
structure AgentContextSnapshot.SyncedAs (c : AgentContextSnapshot) (last : ℤ × Option ℤ) : Prop where
  version : c.plannerVersion = last.1
  step : ∀ i ∈ last.2, c.stepIndex = i

/-- What is stored of a run is what its events tell. -/
structure Store.Agrees (s : Store) (runId : String) : Prop where
  plan : ∃ plan, s.loadPlan runId = .ok plan ∧ Option.Rel PlannerState.ReadAs plan (s.journal runId).plan
  context : ∃ ctx, s.loadContext runId = .ok ctx ∧
    Option.Rel AgentContextSnapshot.SyncedAs ctx (s.journal runId).synchronized
  pending : s.listPendingExecutions runId = .ok (s.journal runId).pending
  statuses : ∀ e, (s.journal runId).statuses e =
    ((s.externalResults.get e).filter fun row => row.runId = runId).map ExternalResultRecord.executionStatus

/-! ## Items and views -/

theorem plannerItemsOfRaw_views {now : Time} {index : ℕ} {seen : List String} {raws : List RawPlanItem}
    {items : List PlannerItem} (h : plannerItemsOfRaw now index seen raws = .ok items) :
    items.map PlannerItem.view = (raws.zipIdx index).map ItemView.created := by
  induction raws generalizing index seen items with
  | nil =>
    cases h
    rfl
  | cons raw raws ih =>
    unfold plannerItemsOfRaw at h
    simp only [except_bind_ok, except_pure_ok] at h
    obtain ⟨item, hitem, items', hitems, rfl⟩ := h
    unfold plannerItemOfRaw at hitem
    simp only [except_bind_ok, raiseIf_ok, except_pure_ok] at hitem
    obtain ⟨_, -, _, -, _, -, _, -, status, hstatus, rfl⟩ := hitem
    rw [List.map_cons, List.zipIdx_cons, List.map_cons, ih hitems]
    refine congrArg (· :: _) ?_
    unfold ItemView.created PlannerItem.view
    dsimp only
    rw [hstatus]

theorem createPlanState_readAs {now : Time} {runId text : String} {raws : List RawPlanItem}
    {schema : Option RawPlanSchema} {st : PlannerState}
    (h : createPlanState now runId text raws schema = .ok st) :
    st.ReadAs { version := 1, items := raws.zipIdx.map ItemView.created } := by
  unfold createPlanState at h
  simp only [except_bind_ok, raiseIf_ok, except_pure_ok] at h
  obtain ⟨_, -, _, -, items, hitems, _, -, rfl⟩ := h
  have hperm := (List.perm_insertionSort (fun a b : PlannerItem => a.sequenceIndex ≤ b.sequenceIndex) items).map
    PlannerItem.view
  rw [plannerItemsOfRaw_views hitems] at hperm
  split
  · exact ⟨rfl, hperm⟩
  · exact ⟨rfl, hperm⟩

section
variable {now : Time} {p : String}

/-- An update of the item named `p` is an edit of the view. -/
theorem PlanUpdate.readAs {amb : Ambient} {f : PlannerItem → PlannerItem} {F : ItemView → ItemView}
    {st st' : PlannerState} {view : PlanView} (hu : PlanUpdate p f st st') (h : st.ReadAs view)
    (hnodup : (st.items.map PlannerItem.planItemId).Nodup)
    (hf : ∀ it, (f it).view = F it.view) : (st'.bumped amb).ReadAs (view.edit p F) := by
  refine ⟨?_, ?_⟩
  · show st'.version + 1 = view.version + 1
    rw [hu.version, h.version]
  · show (st'.items.map PlannerItem.view).Perm (view.items.map fun item => if item.planItemId = p then F item else item)
    have hview : st'.items.map PlannerItem.view =
        (st.items.map PlannerItem.view).map fun item => if item.planItemId = p then F item else item := by
      rw [hu.items, modifyItem_eq_map hnodup, List.map_map, List.map_map]
      refine List.map_congr_left fun it _ => ?_
      show (if it.planItemId = p then f it else it).view = if it.planItemId = p then F it.view else it.view
      split
      · exact hf it
      · rfl
    rw [hview]
    exact h.items.map _

theorem view_updated {next : PlannerItemStatus} {newStatus : String} (hparse : parseStatus newStatus = .ok next)
    (note : Option String) (it : PlannerItem) :
    (it.updated now next note).view = ItemView.updated newStatus note it.view := by
  unfold PlannerItem.updated ItemView.updated
  rw [hparse]
  dsimp only
  by_cases hnext : next = it.status
  · rw [if_neg (not_not.2 hnext), hnext]
    cases noteText note with
    | none => simp [PlannerItem.view]
    | some text => simp [PlannerItem.view]
  · rw [if_pos hnext]
    cases noteText note with
    | none => simp [PlannerItem.view]
    | some text => simp [PlannerItem.view]

theorem view_withToolCallRef (ref : String) (it : PlannerItem) :
    (it.withToolCallRef now ref).view = ItemView.called ref it.view := by
  have hrefs : it.view.toolCallRefs = it.toolCallRefs := rfl
  unfold PlannerItem.withToolCallRef ItemView.called addOnce
  rw [hrefs]
  by_cases href : ref ∈ it.toolCallRefs
  · rw [if_pos href, if_pos href]
    rfl
  · rw [if_neg href, if_neg href]
    rfl

/-- The id of an item that was found is stripped. -/
theorem PlanUpdate.trimmed {f : PlannerItem → PlannerItem} {st st' : PlannerState}
    (hu : PlanUpdate p f st st') (hn : st.ItemsNormal) : Trimmed p := by
  obtain ⟨it, hit, rfl⟩ := List.mem_map.1 hu.found
  exact congrArg PlannerItem.planItemId (hn it hit)

/-- What an edit does to a plan is what its event tells. -/
theorem PlanEdit.readAs {amb : Ambient} {o : FacadeOp} {runId entityType entityId : String}
    {payload : EventPayload} {g : PlannerState → Except PyError PlannerState} {st st' : PlannerState}
    {view : PlanView} (hedit : PlanEdit amb.now o runId payload entityType entityId g) (hst : g st = .ok st')
    (hn : st.ItemsNormal) (hnodup : (st.items.map PlannerItem.planItemId).Nodup) (h : st.ReadAs view)
    (s : Store) (j : Journal) (hj : j.plan = some view) :
    ∃ view', (j.read (s.newEvent amb runId payload entityType entityId)).plan = some view' ∧
      (st'.bumped amb).ReadAs view' := by
  cases hedit with
  | llmOutput a =>
    have hu := (attachLlmOutputState_ok hst).1
    have hid : strip a.planItemId = a.planItemId := hu.trimmed hn
    refine ⟨view.edit a.planItemId (ItemView.answered a.llmOutput), ?_, hu.readAs h hnodup fun _ => rfl⟩
    show (j.plan.map (PlanView.edit (strip a.planItemId) _)) = _
    rw [hj, hid]
    rfl
  | status a =>
    obtain ⟨next, hparse, hu⟩ := updateItemStatusState_ok hst
    have hid : strip a.planItemId = a.planItemId := hu.trimmed hn
    refine ⟨view.edit a.planItemId (ItemView.updated a.newStatus a.note), ?_,
      hu.readAs h hnodup (view_updated hparse a.note)⟩
    show (j.plan.map (PlanView.edit (strip a.planItemId) _)) = _
    rw [hj, hid]
    rfl
  | active runId planItemId =>
    have hu := setActiveItemState_ok hst
    refine ⟨view.edit planItemId id, ?_, hu.readAs h hnodup fun _ => rfl⟩
    show (j.plan.map (PlanView.edit planItemId id)) = _
    rw [hj]
    rfl

end

/-! ## The plan -/

def Store.PlanRead (s : Store) (k : String) : Prop :=
  Option.Rel PlannerState.ReadAs (s.plannerStates.get k) (s.journal k).plan

section
variable {cfg : LoggingServiceConfig} {amb : Ambient} {o : FacadeOp} {runId k : String}
  {s s' : Store} {owed : Option PlannerState}

theorem Store.PlanRead.of_eq (h : s.PlanRead k) (hp : s'.plannerStates.get k = s.plannerStates.get k)
    (hj : (s'.journal k).plan = (s.journal k).plan) : s'.PlanRead k := by
  unfold Store.PlanRead at h ⊢
  rw [hp, hj]
  exact h

/-- A loaded plan reads as its row. -/
theorem Store.PlanRead.loaded {st : PlannerState} (h : s.PlanRead (strip runId))
    (hn : ∀ row, s.plannerStates.get (strip runId) = some row → row.ItemsNormal)
    (hload : s.loadPlan runId = .ok (some st)) :
    ∃ view, (s.journal (strip runId)).plan = some view ∧ st.ReadAs view := by
  obtain ⟨-, row, hrow, hdec⟩ := loadPlan_ok.1 hload
  unfold Store.PlanRead at h
  rw [hrow] at h
  cases hj : (s.journal (strip runId)).plan with
  | none =>
    rw [hj] at h
    cases h
  | some view =>
    rw [hj] at h
    cases h with
    | some hread =>
      refine ⟨view, rfl, (decode_plan_ok hdec).2.version.trans hread.version, ?_⟩
      rw [decode_of_normal (hn row hrow) hdec]
      exact (row.queried_perm.map _).trans hread.items

theorem planRead_some {x : PlannerState} {view : PlanView} (hp : s.plannerStates.get k = some x)
    (hj : (s.journal k).plan = some view) (h : x.ReadAs view) : s.PlanRead k := by
  unfold Store.PlanRead
  rw [hp, hj]
  exact .some h

/-- The row of an updated plan is found. -/
theorem get_put_bumped {st st' : PlannerState} {p : String} {f : PlannerItem → PlannerItem}
    (hload : s.loadPlan runId = .ok (some st)) (hu : PlanUpdate p f st st') :
    (s.plannerStates.put (st'.bumped amb)).get (strip runId) = some (st'.bumped amb) := by
  have hkey : strip runId = (st'.bumped amb).runId := by
    show _ = st'.runId
    rw [hu.runId, loadPlan_runId hload]
  rw [hkey]
  exact Table.get_put_self _ _

theorem PendingCleared.journal_plan {a : ToolResult} {es : ExecutionStatus}
    (h : PendingCleared amb a es s s') : (s'.journal (strip a.runId)).plan = (s.journal (strip a.runId)).plan := by
  cases h with
  | off => rfl
  | absent => rfl
  | dropped c ids => rw [journal_putContext, journal_newEvent]; rfl

theorem IntentSaved.journal {a : ToolIntent} (h : IntentSaved amb a s s') : s'.journal k = s.journal k := by
  cases h <;> rfl

theorem Act.planRead (h : Act cfg amb o runId s owed s') (hstart : ∀ a, o = .startRun a → Trimmed a.runId)
    (hk : s.Tracked (strip runId)) (hread : s.PlanRead (strip runId)) : s'.PlanRead (strip runId) := by
  have hn : ∀ row, s.plannerStates.get (strip runId) = some row → row.ItemsNormal :=
    fun row hrow => (hk.stands row hrow).1
  have hcreated : ∀ (a : StartRun) (st : PlannerState), Trimmed a.runId →
      createPlanState amb.now a.runId a.planSourceText a.planItems a.planSchema = .ok st →
      (s.planStarted amb a st).PlanRead (strip a.runId) := by
    intro a st hrun hst
    have hread := createPlanState_readAs hst
    have hkey : strip a.runId = (st.saved amb).runId := hrun.trans (createPlanState_ok hst).runId.symm
    refine planRead_some (x := st.saved amb) ?_ ?_ ⟨hread.version, hread.items⟩
    · rw [hkey]
      exact Table.get_put_self _ _
    · unfold Store.planStarted
      simp only [journal_newEvent, journal_putPlan]
      rfl
  cases h with
  | idle hrun => exact hread
  | created a st out messages hst hout hmsgs hdec hcase => exact hcreated a st (hstart a rfl) hst
  | replanned a st out c hst hout hplan hctx => exact hcreated a st (hstart a rfl) hst
  | edited st st' out hedit hload hst hout =>
    obtain ⟨hdec, hnormal⟩ := loadPlan_normal hload
    obtain ⟨view, hj, hst'⟩ := hread.loaded hn hload
    obtain ⟨p, f, hu⟩ := hedit.update hst
    obtain ⟨view', hj', hread'⟩ := hedit.readAs hst hnormal (hnormal.integrity hdec).nodup hst' s _ hj
    refine planRead_some (get_put_bumped hload hu) ?_ hread'
    rw [journal_putPlan, journal_newEvent]
    exact hj'
  | intended a st st' out c hknown hload hst hout hctx hblank hsaved =>
    obtain ⟨hdec, hnormal⟩ := loadPlan_normal hload
    obtain ⟨view, hj, hst'⟩ := hread.loaded hn hload
    have hu := (attachToolCallRefState_ok hst).1
    refine planRead_some (x := st'.bumped amb) ?_ ?_
      (hu.readAs hst' (hnormal.integrity hdec).nodup (view_withToolCallRef (strip a.executionId)))
    · rw [hsaved.plannerStates]
      exact get_put_bumped hload hu
    · rw [hsaved.journal]
      unfold Store.intentLogged
      simp only [journal_putContext, journal_newEvent, journal_putPlan]
      show (s.journal _).plan.map (PlanView.edit a.planItemId (ItemView.called (strip a.executionId))) = _
      rw [hj]
      rfl
  | dispatched runId e row hfound hrun hparent hmoves =>
    refine hread.of_eq rfl ?_
    rw [journal_putResult, journal_newEvent]
    rfl
  | resulted a rs es cached record hparent hrs hes hget hcheck hrecord hcleared =>
    refine hread.of_eq (by rw [hcleared.plannerStates]; rfl) ?_
    rw [hcleared.journal_plan, journal_putResult, journal_newEvent]
    rfl

theorem Spoken.planRead (h : Spoken amb o s s') (hrun : o.run = some runId)
    (hread : s.PlanRead (strip runId)) : s'.PlanRead (strip runId) := by
  cases h with
  | silent => exact hread
  | said m c hm hload hdec =>
    rw [FacadeOp.message_run hm] at hrun
    cases hrun
    refine hread.of_eq rfl ?_
    rw [journal_putContext, journal_newEvent]
    rfl

theorem Settled.planRead (h : Settled amb runId s owed s') (hread : s.PlanRead (strip runId)) :
    s'.PlanRead (strip runId) := by
  cases h with
  | same => exact hread
  | synced st c hload =>
    refine hread.of_eq rfl ?_
    rw [journal_putContext, journal_newEvent]
    rfl

/-- A checkpoint tells nothing new. -/
theorem Checkpointed.journal (h : Checkpointed amb runId s s') : s'.journal (strip runId) = s.journal (strip runId) := by
  cases h with
  | none => rfl
  | bare cp => exact (journal_addEvent _ _ _).trans (if_pos rfl)
  | withContext cp c => exact (journal_addEvent _ _ _).trans (if_pos rfl)

theorem Checkpointed.planRead (h : Checkpointed amb runId s s') (hread : s.PlanRead (strip runId)) :
    s'.PlanRead (strip runId) :=
  hread.of_eq (by rw [h.plannerStates]) (by rw [h.journal])

/-! ## The pending list -/

structure Store.PendingRead (s : Store) (k : String) : Prop where
  absent : s.agentContexts.get k = none → (s.journal k).pending = []
  present : ∀ c, s.agentContexts.get k = some c →
    c.PendingNormal ∧ c.pendingExecutionIds = (s.journal k).pending

/-- The saved row of a loaded context is found. -/
theorem get_put_context {c c' : AgentContextSnapshot} (hload : s.loadContext runId = .ok (some c))
    (hrun : c'.runId = c.runId) : (s.agentContexts.put c').get (strip runId) = some c' := by
  have hkey : strip runId = c'.runId := by rw [hrun, loadContext_runId hload]
  rw [hkey]
  exact Table.get_put_self _ c'

theorem Store.PendingRead.loaded {c : AgentContextSnapshot} (h : s.PendingRead (strip runId))
    (hload : s.loadContext runId = .ok (some c)) :
    c.PendingNormal ∧ c.pendingExecutionIds = (s.journal (strip runId)).pending := by
  obtain ⟨-, row, hrow, -, rfl⟩ := loadContext_ok.1 hload
  obtain ⟨hn, hids⟩ := h.present row hrow
  exact ⟨hn.decoded, hn.decoded_ids.trans hids⟩

theorem Store.PendingRead.of_eq (h : s.PendingRead k) (hc : s'.agentContexts.get k = s.agentContexts.get k)
    (hj : (s'.journal k).pending = (s.journal k).pending) : s'.PendingRead k :=
  ⟨fun hnone => hj.trans (h.absent (hc ▸ hnone)), fun c hget => hj ▸ h.present c (hc ▸ hget)⟩

theorem pendingRead_some {c : AgentContextSnapshot} (hget : s.agentContexts.get k = some c)
    (hn : c.PendingNormal) (hids : c.pendingExecutionIds = (s.journal k).pending) : s.PendingRead k := by
  refine ⟨fun hnone => ?_, fun c' hc' => ?_⟩
  · rw [hget] at hnone
    cases hnone
  · rw [hget] at hc'
    cases hc'
    exact ⟨hn, hids⟩

/-- Saving a loaded context with the pending list it was loaded with. -/
theorem Store.PendingRead.put {c d : AgentContextSnapshot} (h : s.PendingRead (strip runId))
    (hload : s.loadContext runId = .ok (some c)) (hrun : d.runId = c.runId)
    (hids : d.pendingExecutionIds = c.pendingExecutionIds) (hid : d.pendingExecutionId = c.pendingExecutionId)
    (hc : s'.agentContexts = s.agentContexts.put d)
    (hj : (s'.journal (strip runId)).pending = (s.journal (strip runId)).pending) :
    s'.PendingRead (strip runId) := by
  obtain ⟨hn, hread⟩ := h.loaded hload
  have hn' : d.PendingNormal := ⟨hids ▸ hn.texts, hids ▸ hn.nodup, by rw [hids, hid]; exact hn.last⟩
  refine pendingRead_some (c := d) ?_ hn' ?_
  · rw [hc]
    exact get_put_context hload hrun
  · rw [hids, hj]
    exact hread

theorem PlanEdit.pending {now : Time} {payload : EventPayload} {entityType entityId : String}
    {g : PlannerState → Except PyError PlannerState} (h : PlanEdit now o runId payload entityType entityId g)
    (j : Journal) : (j.read (s.newEvent amb runId payload entityType entityId)).pending = j.pending := by
  cases h <;> rfl

theorem pendingNormal_awaiting {c : AgentContextSnapshot} {e : String} (hn : c.PendingNormal)
    (he : blank e = false) : (c.awaiting amb e).PendingNormal := by
  refine ⟨fun x hx => ?_, nodup_addOnce hn.nodup, .inr rfl⟩
  rcases mem_addOnce.1 hx with hx | rfl
  · exact hn.texts x hx
  · exact ⟨trimmed_strip e, by simpa [blank] using he⟩

theorem PendingCleared.pendingRead {a : ToolResult} {es : ExecutionStatus} (h : PendingCleared amb a es s s')
    (he : Trimmed a.executionId) (hread : s.PendingRead (strip a.runId)) : s'.PendingRead (strip a.runId) := by
  cases h with
  | off => exact hread
  | absent => exact hread
  | dropped c ids hcl hc hin hids hsave =>
    obtain ⟨hn, -⟩ := hread.loaded hc
    have hids' : ids = c.pendingExecutionIds.filter fun value => value ≠ a.executionId := by rw [hids, he]
    refine pendingRead_some (get_put_context hc rfl) ?_ ?_
    · refine ⟨fun x hx => ?_, ?_, .inr rfl⟩
      · rw [hids] at hx
        exact hn.texts x (List.mem_filter.1 hx).1
      · rw [hids]
        exact hn.nodup.filter _
    · rw [journal_putContext, journal_newEvent]
      exact hids'

theorem Act.pendingRead (h : Act cfg amb o runId s owed s') (hstart : ∀ a, o = .startRun a → Trimmed a.runId)
    (he : ∀ e ∈ o.execution, Trimmed e) (hk : s.Tracked (strip runId)) (hread : s.PendingRead (strip runId)) :
    s'.PendingRead (strip runId) := by
  cases h with
  | idle hrun => exact hread
  | created a st out messages hst hout hmsgs hdec hcase =>
    have hrun := hstart a rfl
    refine pendingRead_some (c := freshContext amb a.runId messages a.initialMemory) ?_
      (pendingNormal_nil rfl rfl) ?_
    · rw [show strip a.runId = (freshContext amb a.runId messages a.initialMemory).runId from hrun]
      exact Table.get_put_self _ _
    · unfold Store.planStarted
      simp only [journal_putContext, journal_newEvent, journal_putPlan]
      rfl
  | replanned a st out c hst hout hplan hctx =>
    obtain ⟨-, crow, hcrow, -⟩ := loadContext_ok.1 hctx
    have htogether := hk.together
    rw [hcrow, (loadPlan_none.1 hplan).2] at htogether
    cases htogether
  | edited st st' out hedit hload hst hout =>
    refine hread.of_eq rfl ?_
    rw [journal_putPlan, journal_newEvent, hedit.pending]
  | intended a st st' out c hknown hload hst hout hctx hblank hsaved =>
    obtain ⟨hn, hids⟩ := hread.loaded hctx
    have htrim : strip a.executionId = a.executionId := he _ rfl
    refine pendingRead_some (c := c.awaiting amb a.executionId) ?_ (pendingNormal_awaiting hn hblank) ?_
    · rw [hsaved.agentContexts]
      exact get_put_context hctx rfl
    · rw [hsaved.journal]
      unfold Store.intentLogged
      simp only [journal_putContext, journal_newEvent, journal_putPlan]
      show addOnce (strip a.executionId) c.pendingExecutionIds = addOnce a.executionId c.pendingExecutionIds
      rw [htrim]
  | dispatched runId e row hfound hrun hparent hmoves =>
    refine hread.of_eq rfl ?_
    rw [journal_putResult, journal_newEvent]
    rfl
  | resulted a rs es cached record hparent hrs hes hget hcheck hrecord hcleared =>
    refine hcleared.pendingRead (he _ rfl) (hread.of_eq rfl ?_)
    rw [journal_putResult, journal_newEvent]
    rfl

theorem Spoken.pendingRead (h : Spoken amb o s s') (hrun : o.run = some runId)
    (hread : s.PendingRead (strip runId)) : s'.PendingRead (strip runId) := by
  cases h with
  | silent => exact hread
  | said m c hm hload hdec =>
    rw [FacadeOp.message_run hm] at hrun
    cases hrun
    refine hread.put hload (d := c.told amb m) rfl rfl rfl rfl ?_
    rw [journal_putContext, journal_newEvent]
    rfl

theorem Settled.pendingRead (h : Settled amb runId s owed s') (hread : s.PendingRead (strip runId)) :
    s'.PendingRead (strip runId) := by
  cases h with
  | same => exact hread
  | synced st c hload =>
    refine hread.put hload (d := c.synced amb st) rfl rfl rfl rfl ?_
    rw [journal_putContext, journal_newEvent]
    rfl

theorem Checkpointed.pendingRead (h : Checkpointed amb runId s s') (hread : s.PendingRead (strip runId)) :
    s'.PendingRead (strip runId) := by
  have hj := h.journal
  cases h with
  | none => exact hread
  | bare cp => exact hread.of_eq rfl (by rw [hj])
  | withContext cp c hrun hseq hc hsave =>
    exact hread.put hc (d := { c with lastCheckpointSeq := some (cp.seqId : ℤ), updatedAt := amb.now })
      rfl rfl rfl rfl (by rw [hj])

/-! ## The last synchronisation -/

structure Store.SyncRead (s : Store) (k : String) : Prop where
  absent : s.agentContexts.get k = none → (s.journal k).synchronized = none
  present : ∀ c, s.agentContexts.get k = some c →
    ∃ last, (s.journal k).synchronized = some last ∧ c.SyncedAs last

/-- Nothing is promised while a synchronisation is owed. -/
def Store.SyncKept (s : Store) (k : String) : Option PlannerState → Prop
  | none => s.SyncRead k
  | some _ => (s.agentContexts.get k).isSome

theorem Store.SyncRead.of_eq (h : s.SyncRead k) (hc : s'.agentContexts.get k = s.agentContexts.get k)
    (hj : (s'.journal k).synchronized = (s.journal k).synchronized) : s'.SyncRead k :=
  ⟨fun hnone => hj.trans (h.absent (hc ▸ hnone)), fun c hget => hj ▸ h.present c (hc ▸ hget)⟩

theorem syncRead_some {c : AgentContextSnapshot} {l : ℤ × Option ℤ} (hget : s.agentContexts.get k = some c)
    (hj : (s.journal k).synchronized = some l) (h : c.SyncedAs l) : s.SyncRead k := by
  refine ⟨fun hnone => ?_, fun c' hc' => ?_⟩
  · rw [hget] at hnone
    cases hnone
  · rw [hget] at hc'
    cases hc'
    exact ⟨l, hj, h⟩

/-- Saving a loaded context with the version and the step it was loaded with. -/
theorem Store.SyncKept.put {c d : AgentContextSnapshot} (h : s.SyncKept (strip runId) owed)
    (hload : s.loadContext runId = .ok (some c)) (hrun : d.runId = c.runId)
    (hv : d.plannerVersion = c.plannerVersion) (hi : d.stepIndex = c.stepIndex)
    (hc : s'.agentContexts = s.agentContexts.put d)
    (hj : (s'.journal (strip runId)).synchronized = (s.journal (strip runId)).synchronized) :
    s'.SyncKept (strip runId) owed := by
  have hget : s'.agentContexts.get (strip runId) = some d := by
    rw [hc]
    exact get_put_context hload hrun
  cases owed with
  | some st =>
    show (s'.agentContexts.get (strip runId)).isSome
    rw [hget]
    rfl
  | none =>
    obtain ⟨-, row, hrow, -, rfl⟩ := loadContext_ok.1 hload
    obtain ⟨last, hlast, hsync⟩ := h.present row hrow
    refine syncRead_some hget (hj.trans hlast) ⟨hv.trans hsync.version, fun i hcur => ?_⟩
    rw [hi]
    exact hsync.step i hcur

theorem PendingCleared.syncRead {a : ToolResult} {es : ExecutionStatus} (h : PendingCleared amb a es s s')
    (hread : s.SyncRead (strip a.runId)) : s'.SyncRead (strip a.runId) := by
  cases h with
  | off => exact hread
  | absent => exact hread
  | dropped c ids hcl hc hin hids hsave =>
    have hkept : s.SyncKept (strip a.runId) none := hread
    refine hkept.put hc (d := { c with
      pendingExecutionIds := ids, pendingExecutionId := ids.getLast?, updatedAt := amb.now }) rfl rfl rfl rfl ?_
    rw [journal_putContext, journal_newEvent]
    rfl

theorem Act.syncKept (h : Act cfg amb o runId s owed s') (hstart : ∀ a, o = .startRun a → Trimmed a.runId)
    (hk : s.Tracked (strip runId)) (hread : s.SyncRead (strip runId)) : s'.SyncKept (strip runId) owed := by
  have hkeeps := h.keeps hstart hk
  cases h with
  | idle hrun => exact hread
  | created => exact hkeeps.context
  | replanned => exact hkeeps.context
  | edited => exact hkeeps.context
  | intended => exact hkeeps.context
  | dispatched runId e row hfound hrun hparent hmoves =>
    refine hread.of_eq rfl ?_
    rw [journal_putResult, journal_newEvent]
    rfl
  | resulted a rs es cached record hparent hrs hes hget hcheck hrecord hcleared =>
    refine hcleared.syncRead (hread.of_eq rfl ?_)
    rw [journal_putResult, journal_newEvent]
    rfl

theorem Spoken.syncKept (h : Spoken amb o s s') (hrun : o.run = some runId)
    (hread : s.SyncKept (strip runId) owed) : s'.SyncKept (strip runId) owed := by
  cases h with
  | silent => exact hread
  | said m c hm hload hdec =>
    rw [FacadeOp.message_run hm] at hrun
    cases hrun
    refine hread.put hload (d := c.told amb m) rfl rfl rfl rfl ?_
    rw [journal_putContext, journal_newEvent]
    rfl

theorem Settled.syncRead (h : Settled amb runId s owed s') (hread : s.SyncKept (strip runId) owed) :
    s'.SyncRead (strip runId) := by
  cases h with
  | same => exact hread
  | synced st c hload =>
    refine syncRead_some (get_put_context hload rfl) (l := (st.version, st.cursorIndex)) ?_ ⟨rfl, fun i hi => ?_⟩
    · rw [journal_putContext, journal_newEvent]
      rfl
    · show st.cursorIndex.getD c.stepIndex = i
      have hi : st.cursorIndex = some i := hi
      rw [hi]
      rfl

theorem Checkpointed.syncRead (h : Checkpointed amb runId s s') (hread : s.SyncRead (strip runId)) :
    s'.SyncRead (strip runId) := by
  have hj := h.journal
  cases h with
  | none => exact hread
  | bare cp => exact hread.of_eq rfl (by rw [hj])
  | withContext cp c hrun hseq hc hsave =>
    have hkept : s.SyncKept (strip runId) Option.none := hread
    exact hkept.put hc
      (d := { c with lastCheckpointSeq := some (cp.seqId : ℤ), updatedAt := amb.now })
      rfl rfl rfl rfl (by rw [hj])

/-! ## Statuses -/

/-- The status of the record of an execution, when it is one of the run. -/
def Store.statusIn (s : Store) (k e : String) : Option ExecutionStatus :=
  ((s.externalResults.get e).filter fun row => row.runId = k).map ExternalResultRecord.executionStatus

def Store.StatusRead (s : Store) (k : String) : Prop := ∀ e, (s.journal k).statuses e = s.statusIn k e

theorem Store.StatusRead.of_eq (h : s.StatusRead k) (hr : s'.externalResults = s.externalResults)
    (hj : (s'.journal k).statuses = (s.journal k).statuses) : s'.StatusRead k := by
  intro e
  unfold Store.statusIn
  rw [hj, hr]
  exact h e

/-- A record of the run is written, and its event tells the status. -/
theorem Store.StatusRead.put {new : ExternalResultRecord} {e : String} (h : s.StatusRead k)
    (hid : new.executionId = e) (hrun : new.runId = k)
    (hr : s'.externalResults = s.externalResults.put new)
    (hj : (s'.journal k).statuses = Function.update (s.journal k).statuses e (some new.executionStatus)) :
    s'.StatusRead k := by
  intro x
  unfold Store.statusIn
  rw [hj, hr, Table.get_put, hid]
  by_cases hx : x = e
  · rw [hx, Function.update_self, if_pos rfl, Option.filter_some, if_pos (decide_eq_true hrun)]
    rfl
  · rw [Function.update_of_ne hx, if_neg hx]
    exact h x

/-- A record of another run is written over none, or one of that run. -/
theorem statusIn_put {x : ExternalResultRecord} (hrun : x.runId ≠ k)
    (hold : ∀ row, s.externalResults.get x.executionId = some row → row.runId = x.runId)
    (hr : s'.externalResults = s.externalResults.put x) (e : String) : s'.statusIn k e = s.statusIn k e := by
  unfold Store.statusIn
  rw [hr, Table.get_put]
  split
  · next he =>
    rw [Option.filter_some, if_neg (by simpa using hrun)]
    cases hg : s.externalResults.get e with
    | none => rfl
    | some row =>
      have hrow := hold row (he ▸ hg)
      rw [Option.filter_some, if_neg (by simpa [hrow] using hrun)]
  · rfl

theorem PendingCleared.statuses {a : ToolResult} {es : ExecutionStatus} (h : PendingCleared amb a es s s') :
    (s'.journal (strip a.runId)).statuses = (s.journal (strip a.runId)).statuses := by
  cases h with
  | off => rfl
  | absent => rfl
  | dropped c ids => rw [journal_putContext, journal_newEvent]; rfl

/-- With deduplication an intent that is not known has no record. -/
theorem intent_unrecorded {a : ToolIntent} (hcfg : cfg.enforceExecutionDedup = true)
    (h : s.intentKnown cfg a.runId a.executionId = .ok false) :
    s.externalResults.get (strip a.executionId) = none := by
  unfold Store.intentKnown at h
  rw [hcfg, if_pos rfl] at h
  unfold Store.toolIntentExists at h
  rw [except_bind_ok] at h
  obtain ⟨existing, hget, h⟩ := h
  cases existing with
  | none => exact getExternalResult_none hget
  | some existing =>
    simp only [except_bind_ok, except_pure_ok] at h
    obtain ⟨_, -, h⟩ := h
    cases h

/-- A written record: the row, and what the log tells of it. -/
structure Recorded (k e : String) (s s' : Store) (new : ExternalResultRecord) : Prop where
  executionId : new.executionId = e
  runId : new.runId = k
  results : s'.externalResults = s.externalResults.put new
  statuses : (s'.journal k).statuses = Function.update (s.journal k).statuses e (some new.executionStatus)
  replaced : ∀ row, s.externalResults.get e = some row → row.runId = k

/-- An act leaves records and statuses alone, or writes one record. -/
theorem Act.recorded (hcfg : cfg.enforceExecutionDedup = true) (h : Act cfg amb o runId s owed s')
    (hnames : o.NamesStripped s) (hl : Ledger s) :
    (s'.externalResults = s.externalResults ∧ (s'.journal (strip runId)).statuses =
      (s.journal (strip runId)).statuses) ∨ ∃ e new, Recorded (strip runId) e s s' new := by
  have hrunTrim : strip runId = runId := hnames.1 runId h.run
  cases h with
  | idle hrun => exact .inl ⟨rfl, rfl⟩
  | created a st out messages hst hout hmsgs hdec hcase =>
    refine .inl ⟨rfl, ?_⟩
    unfold Store.planStarted
    simp only [journal_putContext, journal_newEvent, journal_putPlan]
    rfl
  | replanned a st out c hst hout hplan hctx =>
    refine .inl ⟨rfl, ?_⟩
    unfold Store.planStarted
    simp only [journal_newEvent, journal_putPlan]
    rfl
  | edited st st' out hedit hload hst hout =>
    refine .inl ⟨rfl, ?_⟩
    rw [journal_putPlan, journal_newEvent]
    cases hedit <;> rfl
  | intended a st st' out c hknown hload hst hout hctx hblank hsaved =>
    have htrim : strip a.executionId = a.executionId := hnames.2 _ rfl
    have hnone := intent_unrecorded hcfg hknown
    have hstatuses : ((s.intentLogged amb a st' c).journal (strip a.runId)).statuses =
        Function.update (s.journal (strip a.runId)).statuses (strip a.executionId) (some .intentLogged) := by
      unfold Store.intentLogged
      simp only [journal_putContext, journal_newEvent, journal_putPlan]
      rfl
    cases hsaved with
    | present row hrow =>
      have hrow : s.externalResults.get (strip a.executionId) = some row := hrow
      rw [hnone] at hrow
      cases hrow
    | written hnone' hfk hdec =>
      refine .inr ⟨strip a.executionId, _, htrim.symm, hrunTrim.symm, rfl, hstatuses, fun row hrow => ?_⟩
      rw [hnone] at hrow
      cases hrow
  | dispatched runId e row hfound hrun hparent hmoves =>
    have hid : strip row.executionId = strip e := by rw [Table.key_of_get hfound, strip_strip]
    refine .inr ⟨strip e, _, hid, ?_, rfl, ?_, fun row' hrow' => ?_⟩
    · show strip row.runId = strip runId
      rw [hrun, hrunTrim]
    · rw [journal_putResult, journal_newEvent]
      rfl
    · rw [hfound] at hrow'
      cases hrow'
      rw [hrunTrim, ← hrun]
      exact (hl.run _ row hfound).symm
  | resulted a rs es cached record hparent hrs hes hget hcheck hrecord hcleared =>
    have htrim : strip a.executionId = a.executionId := hnames.2 _ rfl
    obtain ⟨h1, h2, h3, -, -⟩ := toolResult_record_ok hrecord
    refine .inr ⟨strip a.executionId, s.rowOf amb record, h1.trans htrim.symm, h2.trans hrunTrim.symm, ?_, ?_,
      fun row hrow => ?_⟩
    · rw [hcleared.externalResults]
      rfl
    · rw [hcleared.statuses, journal_putResult, journal_newEvent, show (s.rowOf amb record).executionStatus = es from h3]
      rfl
    · obtain ⟨-, hlook⟩ := getExternalResult_ok.1 hget
      rw [hrow] at hlook
      obtain ⟨-, rfl⟩ := hlook
      unfold ToolResult.check at hcheck
      dsimp only at hcheck
      split at hcheck
      · cases hcheck
      · next hrun =>
        have hrun : strip row.runId = a.runId := not_not.1 hrun
        rw [hrunTrim, ← hrun]
        exact (hl.run _ row hrow).symm

theorem Spoken.results (h : Spoken amb o s s') : s'.externalResults = s.externalResults := by cases h <;> rfl

theorem Settled.results (h : Settled amb runId s owed s') : s'.externalResults = s.externalResults := by
  cases h <;> rfl

theorem Spoken.statusRead (h : Spoken amb o s s') (hrun : o.run = some runId)
    (hread : s.StatusRead (strip runId)) : s'.StatusRead (strip runId) := by
  cases h with
  | silent => exact hread
  | said m c hm hload hdec =>
    rw [FacadeOp.message_run hm] at hrun
    cases hrun
    refine hread.of_eq rfl ?_
    rw [journal_putContext, journal_newEvent]
    rfl

theorem Settled.statusRead (h : Settled amb runId s owed s') (hread : s.StatusRead (strip runId)) :
    s'.StatusRead (strip runId) := by
  cases h with
  | same => exact hread
  | synced st c hload =>
    refine hread.of_eq rfl ?_
    rw [journal_putContext, journal_newEvent]
    rfl

/-! ## All of them -/

/-- What the log tells and what the tables hold, for every run. -/
structure Store.Replayed (s : Store) : Prop where
  sound : s.Sound
  ledger : Ledger s
  tracked : ∀ k, s.Tracked k
  plan : ∀ k, s.PlanRead k
  pending : ∀ k, s.PendingRead k
  sync : ∀ k, s.SyncRead k
  status : ∀ k, s.StatusRead k

theorem replayed_empty : ({} : Store).Replayed := by
  refine ⟨sound_empty, ledger_empty, tracked_empty, fun _ => .none, ?_, ?_, fun _ _ => rfl⟩
  · exact fun _ => ⟨fun _ => rfl, fun _ h => nomatch h⟩
  · exact fun _ => ⟨fun _ => rfl, fun _ h => nomatch h⟩

theorem FacadeOp.NamesStripped.strippedIds (h : o.NamesStripped s) : o.StrippedIds s := by
  cases o with
  | recordToolIntent a => exact fun _ => ⟨h.2 _ rfl, h.1 _ rfl⟩
  | recordToolResult a => exact ⟨h.2 _ rfl, h.1 _ rfl⟩
  | _ => trivial

theorem FacadeOp.NamesStripped.resets (h : o.NamesStripped s) : o.ResetsStripped s := by
  rintro a rfl -
  exact h.1 _ rfl

/-- The parts of an operation keep all projections read. -/
theorem replayed_parts (hcfg : cfg.enforceExecutionDedup = true) (h : Parts cfg amb o runId s s')
    (hnames : o.NamesStripped s) (hs : s.Replayed) (hsound : s'.Sound) (hledger : Ledger s') : s'.Replayed := by
  have hstart := h.start_trimmed hnames.resets (hs.tracked _).together
  have hother : ∀ k, strip runId ≠ k → Beside k s s' := fun k hk => h.beside hstart hk
  have htracked := tracked_parts h hnames.resets hs.tracked
  obtain ⟨owed, s1, s2, s3, hact, hspoken, hsettled, hcp⟩ := h
  have hrun := hact.run
  refine ⟨hsound, hledger, htracked, fun k => ?_, fun k => ?_, fun k => ?_, fun k => ?_⟩
  all_goals by_cases hk : strip runId = k
  · subst hk
    exact hcp.checkpointed.planRead (hsettled.planRead (hspoken.planRead hrun (hact.planRead hstart (hs.tracked _) (hs.plan _))))
  · exact (hs.plan k).of_eq (hother k hk).plan (by rw [(hother k hk).journal])
  · subst hk
    exact hcp.checkpointed.pendingRead (hsettled.pendingRead (hspoken.pendingRead hrun
      (hact.pendingRead hstart hnames.2 (hs.tracked _) (hs.pending _))))
  · exact (hs.pending k).of_eq (hother k hk).context (by rw [(hother k hk).journal])
  · subst hk
    exact hcp.checkpointed.syncRead (hsettled.syncRead (hspoken.syncKept hrun (hact.syncKept hstart (hs.tracked _) (hs.sync _))))
  · exact (hs.sync k).of_eq (hother k hk).context (by rw [(hother k hk).journal])
  · subst hk
    have hact' : s1.StatusRead (strip runId) := by
      rcases hact.recorded hcfg hnames hs.ledger with ⟨hr, hj⟩ | ⟨e, new, hrec⟩
      · exact (hs.status _).of_eq hr hj
      · exact (hs.status _).put hrec.executionId hrec.runId hrec.results hrec.statuses
    exact (hsettled.statusRead (hspoken.statusRead hrun hact')).of_eq hcp.checkpointed.externalResults (by rw [hcp.checkpointed.journal])
  · have hresults : s'.externalResults = s1.externalResults := by
      rw [hcp.checkpointed.externalResults, hsettled.results, hspoken.results]
    intro e
    rw [(hother k hk).journal, hs.status k e]
    rcases hact.recorded hcfg hnames hs.ledger with ⟨hr, -⟩ | ⟨e', new, hrec⟩
    · unfold Store.statusIn
      rw [hresults, hr]
    · refine (statusIn_put (x := new) ?_ (fun row hrow => ?_) (hresults.trans hrec.results) e).symm
      · rw [hrec.runId]
        exact hk
      · rw [hrec.runId]
        exact hrec.replaced row (hrec.executionId ▸ hrow)

theorem replayed_reachable (hcfg : cfg.enforceExecutionDedup = true)
    (h : Relation.ReflTransGen (FacadeStep cfg FacadeOp.NamesStripped) {} s) : s.Replayed := by
  induction h with
  | refl => exact replayed_empty
  | tail _ hstep ih =>
    obtain ⟨amb, o, r, ho, hx⟩ := hstep
    have hledger := (ledger_step ih.ledger ⟨amb, o, r, ho.strippedIds, hx⟩).1
    rcases exec_parts hx with ⟨rfl, -⟩ | ⟨runId, -, hparts⟩
    · exact ih
    · exact replayed_parts hcfg hparts ho ih ((exec_kept hx).sound ih.sound) hledger

theorem Store.Replayed.agrees (h : s.Replayed) (hr : Trimmed runId) (hb : blank runId = false) :
    s.Agrees runId := by
  have hctx := loadContext_run h.sound hb
  have hr : strip runId = runId := hr
  rw [hr] at hctx
  refine ⟨?_, ⟨_, hctx, ?_⟩, ?_, h.status runId⟩
  · obtain ⟨plan, hplan⟩ := loadPlan_run h.sound hb
    refine ⟨plan, hplan, ?_⟩
    have hread := h.plan runId
    cases plan with
    | none =>
      have hnone := (loadPlan_none.1 hplan).2
      rw [hr] at hnone
      unfold Store.PlanRead at hread
      rwa [hnone] at hread
    | some st =>
      have hread' : s.PlanRead (strip runId) := hr.symm ▸ hread
      obtain ⟨view, hj, hst⟩ := hread'.loaded (fun row hrow => ((h.tracked _).stands row hrow).1) hplan
      rw [hr] at hj
      rw [hj]
      exact .some hst
  · cases hc : s.agentContexts.get runId with
    | none =>
      rw [(h.sync runId).absent hc]
      exact .none
    | some c =>
      obtain ⟨last, hj, hsync⟩ := (h.sync runId).present c hc
      rw [hj]
      exact .some ⟨hsync.version, hsync.step⟩
  · unfold Store.listPendingExecutions
    rw [hctx]
    cases hc : s.agentContexts.get runId with
    | none =>
      rw [(h.pending runId).absent hc]
      rfl
    | some c =>
      obtain ⟨hn, hids⟩ := (h.pending runId).present c hc
      show Except.ok c.decoded.pendingExecutionIds = _
      rw [hn.decoded_ids, hids]

end

/-- **Journal and projections agree.**  With deduplication, and ids without white space around
them, every sequence of operations leaves what the events of each run tell. -/
theorem journal_agrees (cfg : LoggingServiceConfig) (hcfg : cfg.enforceExecutionDedup = true) (s : Store)
    (h : Relation.ReflTransGen (FacadeStep cfg FacadeOp.NamesStripped) {} s) (runId : String)
    (hr : Trimmed runId) (hb : blank runId = false) : s.Agrees runId :=
  (replayed_reachable hcfg h).agrees hr hb

/-- A call of the trip, acknowledged: its log and its rows agree. -/
theorem journal_agrees_trip : ∃ s, execAll (lifecycleOps "e" [.ok]) {} = .ok s ∧ s.Agrees "trip" := by
  obtain ⟨s, hs⟩ : ∃ s, execAll (lifecycleOps "e" [.ok]) {} = .ok s := except_ok_of_toBool (by decide +kernel)
  have he : Trimmed "e" := by decide +kernel
  refine ⟨s, hs, journal_agrees {} rfl s (execAll_reach ?_ hs) "trip" trimmed_trip (by decide +kernel)⟩
  intro o ho s'
  unfold lifecycleOps at ho
  simp only [List.map_cons, List.map_nil, List.cons_append, List.nil_append, List.mem_cons, List.not_mem_nil,
    or_false] at ho
  rcases ho with rfl | rfl | rfl
  · refine ⟨?_, fun e he => nomatch he⟩
    rintro r ⟨⟩
    exact trimmed_trip
  · refine ⟨?_, ?_⟩
    · rintro r ⟨⟩
      exact trimmed_trip
    · rintro e ⟨⟩
      exact he
  · refine ⟨?_, ?_⟩
    · rintro r ⟨⟩
      exact trimmed_trip
    · rintro e ⟨⟩
      exact he

end Raef
