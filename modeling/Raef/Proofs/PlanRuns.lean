import Raef.Proofs.Plans

/-!
# Runs of the plan service

A created plan is saved with stripped items, and the query gives them back sorted.
From there each update of the service is one `PlanUpdate` of the loaded plan, and what
it returns is exactly what the next load gives.

    createPlan … s = .ok (out, s') → s' holds out's items under the raw run id   (createPlan_saved)
    an update that stays placed succeeds, and is loaded back                     (updatePlan_run)
-/

namespace Raef

open Text Txn

/-! ## The order of the query -/

/-- `ORDER BY sequence_index, plan_item_id`. -/
abbrev PlannerItem.Precedes (a b : PlannerItem) : Prop :=
  a.sequenceIndex < b.sequenceIndex ∨
    (a.sequenceIndex = b.sequenceIndex ∧ a.planItemId ≤ b.planItemId)

instance : Std.Total PlannerItem.Precedes where
  total a b := by
    rcases lt_trichotomy a.sequenceIndex b.sequenceIndex with h | h | h
    · exact .inl (.inl h)
    · rcases le_total a.planItemId b.planItemId with h' | h'
      · exact .inl (.inr ⟨h, h'⟩)
      · exact .inr (.inr ⟨h.symm, h'⟩)
    · exact .inr (.inl h)

instance : IsTrans PlannerItem PlannerItem.Precedes where
  trans a b c hab hbc := by
    rcases hab with hab | ⟨hab, hab'⟩
    · rcases hbc with hbc | ⟨hbc, -⟩
      · exact .inl (hab.trans hbc)
      · exact .inl (hbc ▸ hab)
    · rcases hbc with hbc | ⟨hbc, hbc'⟩
      · exact .inl (hab ▸ hbc)
      · exact .inr ⟨hab.trans hbc, le_trans hab' hbc'⟩

theorem PlannerState.queried_sorted (st : PlannerState) :
    st.queried.items.Pairwise PlannerItem.Precedes :=
  List.pairwise_insertionSort PlannerItem.Precedes st.items

/-- Items in the order of the query stay as they are. -/
theorem queried_of_sorted {st : PlannerState} (h : st.items.Pairwise PlannerItem.Precedes) :
    st.queried = st := by
  have hitems : st.items.insertionSort PlannerItem.Precedes = st.items := h.insertionSort_eq
  show { st with items := st.items.insertionSort PlannerItem.Precedes } = st
  rw [hitems]

/-- Changing an item keeps the keys it is sorted by. -/
theorem PlanUpdate.sorted {p : String} {f : PlannerItem → PlannerItem} {st st' : PlannerState}
    (h : PlanUpdate p f st st') (hs : st.items.Pairwise PlannerItem.Precedes) :
    st'.items.Pairwise PlannerItem.Precedes := by
  have hkeys : ∀ items : List PlannerItem,
      (modifyItem p f items).map (fun it => (it.sequenceIndex, it.planItemId)) =
        items.map fun it => (it.sequenceIndex, it.planItemId) := by
    intro items
    induction items with
    | nil => rfl
    | cons it items ih =>
      unfold modifyItem
      split
      · rw [List.map_cons, List.map_cons, (h.kept it).sequenceIndex, (h.kept it).planItemId]
      · rw [List.map_cons, List.map_cons, ih]
  have hmap := hkeys st.items
  rw [← h.items] at hmap
  have key : ∀ items : List PlannerItem, items.Pairwise PlannerItem.Precedes ↔
      (items.map fun it => (it.sequenceIndex, it.planItemId)).Pairwise fun a b =>
        a.1 < b.1 ∨ (a.1 = b.1 ∧ a.2 ≤ b.2) := by
    intro items
    rw [List.pairwise_map]
  rw [key, hmap, ← key]
  exact hs

/-! ## Creation -/

/-- Where a created plan stands: at its first runnable item. -/
structure PlannerState.AtFirst (st : PlannerState) : Prop where
  active : st.activeItemId = (nextRunnableItem st).map PlannerItem.planItemId
  cursor : st.cursorIndex = (nextRunnableItem st).map PlannerItem.sequenceIndex

/-- The scheduler reads the items only. -/
theorem nextRunnableItem_congr {st st' : PlannerState} (h : st.items = st'.items) :
    nextRunnableItem st = nextRunnableItem st' := by
  unfold nextRunnableItem
  rw [h]

theorem trimmed_itemIdAt (index : ℕ) (raw : RawPlanItem) : Trimmed (itemIdAt index raw) := by
  unfold itemIdAt
  split
  · split <;> exact trimmed_strip _
  · exact trimmed_strip _

theorem plannerItemOfRaw_ok {now : Time} {index : ℕ} {raw : RawPlanItem} {seen : List String}
    {item : PlannerItem} (h : plannerItemOfRaw now index raw seen = .ok item) :
    item.Normal ∧ 0 ≤ item.sequenceIndex ∧ item.sequenceIndex = raw.sequenceIndex.getD index := by
  unfold plannerItemOfRaw at h
  simp only [except_bind_ok, raiseIf_ok, except_pure_ok] at h
  obtain ⟨_, -, _, -, _, -, _, hseq, status, -, rfl⟩ := h
  refine ⟨?_, not_lt.1 hseq, rfl⟩
  have hid : strip (itemIdAt index raw) = itemIdAt index raw := trimmed_itemIdAt index raw
  unfold PlannerItem.Normal PlannerItem.stripped
  simp only [hid, strip_strip, normalizeStrList_idem]
  rfl

theorem plannerItemsOfRaw_ok {now : Time} {index : ℕ} {seen : List String} {raws : List RawPlanItem}
    {items : List PlannerItem} (h : plannerItemsOfRaw now index seen raws = .ok items) :
    (∀ it ∈ items, it.Normal ∧ 0 ≤ it.sequenceIndex) ∧
      items.map PlannerItem.sequenceIndex =
        (raws.zipIdx index).map fun e => e.1.sequenceIndex.getD e.2 := by
  induction raws generalizing index seen items with
  | nil =>
    cases h
    exact ⟨fun it hit => (List.not_mem_nil hit).elim, rfl⟩
  | cons raw raws ih =>
    unfold plannerItemsOfRaw at h
    simp only [except_bind_ok, except_pure_ok] at h
    obtain ⟨item, hitem, items', hitems, rfl⟩ := h
    obtain ⟨hnormal, hpos, hseq⟩ := plannerItemOfRaw_ok hitem
    obtain ⟨hall, hmap⟩ := ih hitems
    refine ⟨?_, ?_⟩
    · intro it hit
      rcases List.mem_cons.1 hit with rfl | hit
      · exact ⟨hnormal, hpos⟩
      · exact hall it hit
    · rw [List.zipIdx_cons, List.map_cons, List.map_cons, hmap, hseq]

/-- What the created plan is, before the save. -/
structure CreatedPlan (runId : String) (raws : List RawPlanItem) (st : PlannerState) : Prop where
  runId : st.runId = runId
  normal : st.ItemsNormal
  indexes : (st.items.map PlannerItem.sequenceIndex).Perm
    (raws.zipIdx.map fun e => e.1.sequenceIndex.getD e.2)
  atFirst : st.AtFirst

theorem createPlanState_ok {now : Time} {runId text : String} {raws : List RawPlanItem}
    {schema : Option RawPlanSchema} {st : PlannerState}
    (h : createPlanState now runId text raws schema = .ok st) : CreatedPlan runId raws st := by
  unfold createPlanState at h
  simp only [except_bind_ok, raiseIf_ok, except_pure_ok] at h
  obtain ⟨_, -, _, -, items, hitems, _, -, rfl⟩ := h
  obtain ⟨hall, hmap⟩ := plannerItemsOfRaw_ok hitems
  have hperm := List.perm_insertionSort (fun a b : PlannerItem => a.sequenceIndex ≤ b.sequenceIndex) items
  have hnormal : ∀ it ∈ items.insertionSort fun a b => a.sequenceIndex ≤ b.sequenceIndex, it.Normal :=
    fun it hit => (hall it (hperm.mem_iff.1 hit)).1
  have hindexes := hmap ▸ hperm.map PlannerItem.sequenceIndex
  split
  · next first hfirst =>
    have hnext := (nextRunnableItem_congr rfl).trans hfirst
    exact ⟨rfl, hnormal, hindexes, (congrArg (Option.map PlannerItem.planItemId) hnext).symm,
      (congrArg (Option.map PlannerItem.sequenceIndex) hnext).symm⟩
  · next hnone =>
    have hnext := (nextRunnableItem_congr rfl).trans hnone
    exact ⟨rfl, hnormal, hindexes, (congrArg (Option.map PlannerItem.planItemId) hnext).symm,
      (congrArg (Option.map PlannerItem.sequenceIndex) hnext).symm⟩

/-- The save of a created plan: the row under the run id as it was given, and its items. -/
theorem createPlan_saved {amb : Ambient} {runId text : String} {raws : List RawPlanItem}
    {schema : Option RawPlanSchema} {s s' : Store} {out : PlannerState}
    (h : createPlan amb runId text raws schema s = .ok (out, s')) :
    ∃ row : PlannerState, CreatedPlan runId raws row ∧ row.Decodes ∧ row.DecodesTo out ∧
      s' = s.putPlan row := by
  unfold createPlan at h
  rw [bind_ok] at h
  obtain ⟨st, s1, hlift, h2⟩ := h
  obtain ⟨h1, rfl⟩ := lift_ok.1 hlift
  obtain ⟨-, hdec, rfl⟩ := savePlan_ok.1 h2
  obtain ⟨hrow, hto⟩ := fromDict_plan_ok hdec
  obtain ⟨hrun, hnormal, hindexes, hactive, hcursor⟩ := createPlanState_ok h1
  have hnext : nextRunnableItem { st with updatedAt := amb.now } = nextRunnableItem st :=
    nextRunnableItem_congr rfl
  exact ⟨{ st with updatedAt := amb.now },
    ⟨hrun, hnormal, hindexes, hnext ▸ hactive, hnext ▸ hcursor⟩, hrow, hto, rfl⟩

/-- Whether a plan is accepted does not depend on what is stored. -/
theorem createPlan_anywhere {amb : Ambient} {runId text : String} {raws : List RawPlanItem}
    {schema : Option RawPlanSchema} {s s' : Store} {out : PlannerState}
    (h : createPlan amb runId text raws schema s = .ok (out, s')) (t : Store) :
    ∃ t', createPlan amb runId text raws schema t = .ok (out, t') := by
  unfold createPlan at h ⊢
  rw [bind_ok] at h
  obtain ⟨st, s1, hlift, h2⟩ := h
  obtain ⟨h1, -⟩ := lift_ok.1 hlift
  obtain ⟨hint, hdec, -⟩ := savePlan_ok.1 h2
  refine ⟨t.putPlan { st with updatedAt := amb.now }, ?_⟩
  rw [bind_ok]
  exact ⟨st, t, lift_ok.2 ⟨h1, rfl⟩, savePlan_ok.2 ⟨hint, hdec, rfl⟩⟩

/-! ## A placed update -/

/-- Active item and cursor pass the integrity check. -/
structure PlannerState.Placed (st : PlannerState) : Prop where
  active : ∀ a ∈ st.activeItemId, a ∈ st.items.map PlannerItem.planItemId
  cursor : ∀ c ∈ st.cursorIndex, 0 ≤ c ∧ c < st.items.length

theorem PlannerState.Integrity.placed {st : PlannerState} (h : st.Integrity) : st.Placed :=
  ⟨h.active, h.cursor⟩

/-- A saved plan, and what the next load gives. -/
structure PlanSaved (runId : String) (st' : PlannerState) (s s' : Store) (out : PlannerState) : Prop where
  loaded : s'.loadPlan runId = .ok (some out)
  items : out.items = st'.items
  activeItemId : out.activeItemId = st'.activeItemId
  cursorIndex : out.cursorIndex = st'.cursorIndex
  version : out.version = st'.version + 1
  others : ∀ k, k ≠ strip runId → s'.plannerStates.get k = s.plannerStates.get k
  contexts : s'.agentContexts = s.agentContexts

section
variable {amb : Ambient} {runId p : String} {f : PlannerItem → PlannerItem}
  {g : PlannerState → Except PyError PlannerState} {s : Store} {st st' : PlannerState}

/-- An update of a sorted plan that leaves it placed succeeds, and is loaded back. -/
theorem updatePlan_run (hload : s.loadPlan runId = .ok (some st))
    (hsorted : st.items.Pairwise PlannerItem.Precedes) (hst : g st = .ok st')
    (hu : PlanUpdate p f st st') (hplaced : st'.Placed) :
    ∃ out s', updatePlan amb runId g s = .ok (out, s') ∧ PlanSaved runId st' s s' out := by
  obtain ⟨hdec, hnormal⟩ := loadPlan_normal hload
  have hint := hnormal.integrity hdec
  have hnormal' := hu.itemsNormal hnormal
  set row : PlannerState := { st' with version := st'.version + 1, updatedAt := amb.now } with hrow
  have hrowInt : row.Integrity := by
    refine ⟨?_, hu.ids ▸ hint.nodup, hplaced.active, hplaced.cursor⟩
    have hv := hu.version
    have h1 := hint.version
    show 1 ≤ st'.version + 1
    omega
  have hrowNormal : row.ItemsNormal := hnormal'
  have hrowDec : row.Decodes := by
    refine ⟨hu.itemsDecode hdec.items, hu.runId ▸ hdec.runId, hu.schema ▸ hdec.schema, ?_⟩
    rw [hrowNormal.map_stripped]
    exact hrowInt
  obtain ⟨out, hout⟩ := fromDict_plan_run hrowDec
  obtain ⟨-, hto⟩ := fromDict_plan_ok hout
  have hkey : row.runId = strip runId := by
    show st'.runId = _
    rw [hu.runId, loadPlan_runId hload]
  have hsave : savePlan amb { st' with version := st'.version + 1 } s = .ok (out, s.putPlan row) :=
    savePlan_ok.2 ⟨validateIntegrity_ok.2 hrowInt, hout, rfl⟩
  have hrowSorted : row.items.Pairwise PlannerItem.Precedes := hu.sorted hsorted
  refine ⟨out, s.putPlan row, updatePlan_ok.2 ⟨st, st', loadRequiredPlan_ok.2 hload, hst, hsave⟩,
    ?_, ?_, hto.activeItemId, hto.cursorIndex, hto.version, ?_, rfl⟩
  · refine loadPlan_ok.2 ⟨(loadPlan_ok.1 hload).1, row, ?_, ?_⟩
    · rw [← hkey]
      exact Table.get_put_self _ row
    · show row.queried.fromDict = _
      rw [queried_of_sorted hrowSorted, hout]
  · rw [hto.items]
    exact hrowNormal.map_stripped
  · intro k hk
    exact Table.get_put_ne _ row (hkey ▸ hk)

/-- The same of an update that went through. -/
theorem updatePlan_after {s' : Store} {out : PlannerState}
    (h : updatePlan amb runId g s = .ok (out, s')) (hload : s.loadPlan runId = .ok (some st))
    (hsorted : st.items.Pairwise PlannerItem.Precedes) (hst : g st = .ok st')
    (hu : PlanUpdate p f st st') : PlanSaved runId st' s s' out := by
  have hplaced : st'.Placed := by
    obtain ⟨st0, st0', hload0, hst0, hint, -, -⟩ := updatePlan_saved h
    rw [hload] at hload0
    cases hload0
    rw [hst] at hst0
    cases hst0
    have hi := (validateIntegrity_ok.1 hint).placed
    exact ⟨hi.active, hi.cursor⟩
  obtain ⟨out', s'', hrun, hsaved⟩ := updatePlan_run hload hsorted hst hu hplaced
  rw [h] at hrun
  cases hrun
  exact hsaved

end

/-- A plan created under a stripped run id is what the next load gives, in the order of the query. -/
theorem createPlan_loaded {amb : Ambient} {runId text : String} {raws : List RawPlanItem}
    {schema : Option RawPlanSchema} {s s' : Store} {out : PlannerState}
    (h : createPlan amb runId text raws schema s = .ok (out, s')) (hrun : Trimmed runId) :
    ∃ st, s'.loadPlan runId = .ok (some st) ∧ st.items.Pairwise PlannerItem.Precedes ∧
      st.items.Perm out.items ∧ st.activeItemId = out.activeItemId ∧
      st.cursorIndex = out.cursorIndex := by
  obtain ⟨row, hcreated, hdec, hto, rfl⟩ := createPlan_saved h
  obtain ⟨st, hst⟩ := decode_plan_run hdec
  have hout : out.items = row.items := hto.items.trans hcreated.normal.map_stripped
  have hitems := decode_of_normal hcreated.normal hst
  have hsame := (decode_plan_ok hst).2
  refine ⟨st, ?_, ?_, ?_, ?_, ?_⟩
  · refine loadPlan_ok.2 ⟨hcreated.runId ▸ hdec.runId, row, ?_, hst⟩
    rw [show strip runId = row.runId from hrun.trans hcreated.runId.symm]
    exact Table.get_put_self _ row
  · rw [hitems]
    exact row.queried_sorted
  · rw [hitems, hout]
    exact row.queried_perm
  · exact hsame.activeItemId.trans hto.activeItemId.symm
  · exact hsame.cursorIndex.trans hto.cursorIndex.symm

/-! ## The operations of the service -/

namespace PlannerOp

/-- Every operation but `create_plan` loads the plan, changes one item and saves. -/
theorem run_update {op : PlannerOp} (h : op.creates = false) (amb : Ambient) :
    ∃ g, op.run amb = updatePlan amb op.runId g ∧
      ∀ st st', g st = .ok st' → ∃ p f, PlanUpdate p f st st' := by
  cases op with
  | createPlan => cases h
  | setActiveItem r p => exact ⟨_, rfl, fun st st' hst => ⟨_, _, setActiveItemState_ok hst⟩⟩
  | updateItemStatus r p status note =>
    refine ⟨_, rfl, fun st st' hst => ?_⟩
    obtain ⟨next, -, hu⟩ := updateItemStatusState_ok hst
    exact ⟨_, _, hu⟩
  | attachLlmOutput r p output => exact ⟨_, rfl, fun st st' hst => ⟨_, _, (attachLlmOutputState_ok hst).1⟩⟩
  | attachToolCallRef r p e => exact ⟨_, rfl, fun st st' hst => ⟨_, _, (attachToolCallRefState_ok hst).1⟩⟩

end PlannerOp

/-! ## Finding an item -/

theorem findItem_of_mem {st : PlannerState} {item : PlannerItem}
    (hnodup : (st.items.map PlannerItem.planItemId).Nodup) (h : item ∈ st.items) :
    findItem st item.planItemId = .ok item := by
  obtain ⟨found, hfound⟩ := findItem_run (List.mem_map_of_mem (f := PlannerItem.planItemId) h)
  obtain ⟨hmem, hid⟩ := findItem_ok hfound
  rw [hfound, List.inj_on_of_nodup_map hnodup hmem h hid]

/-- What the scheduler gives is a pending item whose dependencies are done. -/
theorem nextRunnableItem_some {st : PlannerState} {item : PlannerItem}
    (h : nextRunnableItem st = some item) :
    item ∈ st.items ∧ item.status = .pending ∧
      ∀ dep ∈ item.dependsOn, ∃ it ∈ st.items, it.status = .done ∧ it.planItemId = dep := by
  unfold nextRunnableItem at h
  dsimp only at h
  have hmem := (List.perm_insertionSort _ _).mem_iff.1 (List.mem_of_find?_eq_some h)
  have hp := List.find?_some h
  rw [Bool.and_eq_true, decide_eq_true_eq, List.all_eq_true] at hp
  refine ⟨hmem, hp.1, fun dep hdep => ?_⟩
  have hdone := List.contains_iff_mem.1 (hp.2 dep hdep)
  obtain ⟨it, hit, rfl⟩ := List.mem_map.1 hdone
  obtain ⟨hit, hstatus⟩ := List.mem_filter.1 hit
  exact ⟨it, hit, by simpa using hstatus, rfl⟩

end Raef
