import Raef.Proofs.Sound

/-!
# Plans through a load and a save

A loaded plan has stripped items (`ItemsNormal`); the updates keep it so, and a
plan saved that way is loaded back with the same items, in the order of the query.

    s.loadPlan r = .ok (some st) → st.Decodes ∧ st.ItemsNormal          (loadPlan_normal)
    updatePlan … s = .ok (r, s') → the items of s' are those of the update  (updatePlan_load)
-/

namespace Raef

open Text Txn

/-- Stripped, as a decoder leaves it. -/
def PlannerItem.Normal (item : PlannerItem) : Prop := item.stripped = item

def PlannerState.ItemsNormal (st : PlannerState) : Prop := ∀ item ∈ st.items, item.Normal

theorem PlannerState.ItemsNormal.map_stripped {st : PlannerState} (h : st.ItemsNormal) :
    st.items.map PlannerItem.stripped = st.items := by
  conv_rhs => rw [← List.map_id st.items]
  exact List.map_congr_left h

theorem PlannerState.ItemsNormal.integrity {st : PlannerState} (h : st.ItemsNormal) (hdec : st.Decodes) :
    st.Integrity := by
  have hi := hdec.integrity
  rwa [h.map_stripped] at hi

/-! ## Loading -/

theorem loadPlan_ok {s : Store} {r : String} {st : PlannerState} :
    s.loadPlan r = .ok (some st) ↔
      blank r = false ∧ ∃ row, s.plannerStates.get (strip r) = some row ∧ row.decode = .ok st := by
  unfold Store.loadPlan
  simp only [except_bind_ok, requireNonEmptyStr_ok]
  constructor
  · rintro ⟨_, ⟨h1, rfl⟩, h2⟩
    cases hg : s.plannerStates.get (strip r) with
    | none =>
      rw [hg] at h2
      cases except_pure_ok.1 h2
    | some row =>
      rw [hg] at h2
      simp only [except_bind_ok, except_pure_ok] at h2
      obtain ⟨st', h3, h4⟩ := h2
      cases h4
      exact ⟨h1, row, rfl, h3⟩
  · rintro ⟨h1, row, hg, h2⟩
    refine ⟨_, ⟨h1, rfl⟩, ?_⟩
    rw [hg]
    simp only [except_bind_ok, except_pure_ok]
    exact ⟨st, h2, rfl⟩

theorem loadPlan_congr {s : Store} {r r' : String} (h : strip r' = strip r) : s.loadPlan r' = s.loadPlan r := by
  unfold Store.loadPlan requireNonEmptyStr blank
  rw [h]

theorem DecodesTo.itemsNormal {st st' : PlannerState} (h : st.DecodesTo st') : st'.ItemsNormal := by
  intro item hitem
  rw [h.items] at hitem
  obtain ⟨it, -, rfl⟩ := List.mem_map.1 hitem
  exact it.stripped_stripped

theorem loadPlan_none {s : Store} {r : String} :
    s.loadPlan r = .ok none ↔ blank r = false ∧ s.plannerStates.get (strip r) = none := by
  unfold Store.loadPlan
  simp only [except_bind_ok, requireNonEmptyStr_ok]
  constructor
  · rintro ⟨_, ⟨h1, rfl⟩, h2⟩
    refine ⟨h1, ?_⟩
    cases hg : s.plannerStates.get (strip r) with
    | none => rfl
    | some row =>
      rw [hg] at h2
      simp only [except_bind_ok, except_pure_ok] at h2
      obtain ⟨_, -, h2⟩ := h2
      cases h2
  · rintro ⟨h1, h2⟩
    refine ⟨_, ⟨h1, rfl⟩, ?_⟩
    rw [h2]
    rfl

theorem loadPlan_normal {s : Store} {r : String} {st : PlannerState} (h : s.loadPlan r = .ok (some st)) :
    st.Decodes ∧ st.ItemsNormal := by
  obtain ⟨-, row, -, hdec⟩ := loadPlan_ok.1 h
  obtain ⟨h1, h2⟩ := decode_plan_ok hdec
  exact ⟨h1.of_decoded h2, DecodesTo.itemsNormal h2⟩

theorem loadPlan_runId {s : Store} {r : String} {st : PlannerState} (h : s.loadPlan r = .ok (some st)) :
    st.runId = strip r := by
  obtain ⟨-, row, hrow, hdec⟩ := loadPlan_ok.1 h
  rw [(decode_plan_ok hdec).2.runId]
  show strip row.runId = _
  rw [Table.key_of_get hrow, strip_strip]

/-- A normal row is loaded with its items in the order of the query. -/
theorem decode_of_normal {row st : PlannerState} (hrow : row.ItemsNormal) (h : row.decode = .ok st) :
    st.items = row.queried.items := by
  rw [(decode_plan_ok h).2.items]
  have hq : row.queried.ItemsNormal := fun it hit => hrow it (row.queried_perm.mem_iff.1 hit)
  exact hq.map_stripped

/-! ## Changing one item -/

theorem findItem_ok {st : PlannerState} {p : String} {item : PlannerItem} (h : findItem st p = .ok item) :
    item ∈ st.items ∧ item.planItemId = p := by
  unfold findItem at h
  split at h
  · next it hit =>
    cases h
    exact ⟨List.mem_of_find?_eq_some hit, by simpa using List.find?_some hit⟩
  · cases h

theorem findItem_run {st : PlannerState} {p : String} (h : p ∈ st.items.map PlannerItem.planItemId) :
    ∃ item, findItem st p = .ok item := by
  obtain ⟨it, hit, rfl⟩ := List.mem_map.1 h
  unfold findItem
  cases hf : st.items.find? fun item => item.planItemId = it.planItemId with
  | none => exact absurd (List.find?_eq_none.1 hf it hit) (by simp)
  | some item => exact ⟨item, rfl⟩

theorem mem_modifyItem {p : String} {f : PlannerItem → PlannerItem} {items : List PlannerItem}
    {item : PlannerItem} (h : item ∈ modifyItem p f items) :
    item ∈ items ∨ ∃ it ∈ items, it.planItemId = p ∧ item = f it := by
  induction items with
  | nil => cases h
  | cons it items ih =>
    unfold modifyItem at h
    split at h
    · next hp =>
      rcases List.mem_cons.1 h with rfl | h
      · exact .inr ⟨it, List.mem_cons_self, hp, rfl⟩
      · exact .inl (List.mem_cons_of_mem _ h)
    · rcases List.mem_cons.1 h with rfl | h
      · exact .inl List.mem_cons_self
      · rcases ih h with h | ⟨it', hit', hp, rfl⟩
        · exact .inl (List.mem_cons_of_mem _ h)
        · exact .inr ⟨it', List.mem_cons_of_mem _ hit', hp, rfl⟩

theorem modifyItem_ids {p : String} {f : PlannerItem → PlannerItem}
    (hf : ∀ it, (f it).planItemId = it.planItemId) (items : List PlannerItem) :
    (modifyItem p f items).map PlannerItem.planItemId = items.map PlannerItem.planItemId := by
  induction items with
  | nil => rfl
  | cons it items ih =>
    unfold modifyItem
    split
    · rw [List.map_cons, List.map_cons, hf]
    · rw [List.map_cons, List.map_cons, ih]

/-- With unique ids, a change of one item is a change of all items that have the id. -/
theorem modifyItem_eq_map {p : String} {f : PlannerItem → PlannerItem} {items : List PlannerItem}
    (hnodup : (items.map PlannerItem.planItemId).Nodup) :
    modifyItem p f items = items.map fun it => if it.planItemId = p then f it else it := by
  induction items with
  | nil => rfl
  | cons it items ih =>
    rw [List.map_cons, List.nodup_cons] at hnodup
    unfold modifyItem
    rw [List.map_cons]
    split
    · next hp =>
      refine congrArg _ ?_
      conv_lhs => rw [← List.map_id items]
      refine List.map_congr_left fun it' hit' => ?_
      rw [if_neg]
      · rfl
      · rintro rfl
        exact hnodup.1 (hp ▸ List.mem_map_of_mem (f := PlannerItem.planItemId) hit')
    · rw [ih hnodup.2]

theorem normalizeStrList_append_trimmed {l : List String} {t : String} (hl : normalizeStrList l = l)
    (ht : Trimmed t) (hne : t ≠ "") : normalizeStrList (l ++ [t]) = l ++ [t] := by
  refine normalizeStrList_of_trimmed fun t' ht' => ?_
  rcases List.mem_append.1 ht' with ht' | ht'
  · rw [← hl] at ht'
    exact trimmed_normalizeStrList l t' ht'
  · cases List.mem_singleton.1 ht'
    exact ⟨ht, hne⟩

/-- The fields of a normal item that are lists. -/
theorem PlannerItem.Normal.lists {item : PlannerItem} (h : item.Normal) :
    normalizeStrList item.llmOutputHistory = item.llmOutputHistory ∧
      normalizeStrList item.toolCallRefs = item.toolCallRefs ∧ normalizeStrList item.notes = item.notes :=
  ⟨congrArg PlannerItem.llmOutputHistory h, congrArg PlannerItem.toolCallRefs h,
    congrArg PlannerItem.notes h⟩

/-- Equal to a normal item but for the fields the updates change. -/
theorem PlannerItem.Normal.change {item : PlannerItem} (h : item.Normal) (status : PlannerItemStatus)
    (llmOutput : Option String) (updatedAt : Time) {history refs notes : List String}
    (h1 : normalizeStrList history = history) (h2 : normalizeStrList refs = refs)
    (h3 : normalizeStrList notes = notes) :
    PlannerItem.Normal { item with
      status := status, llmOutput := llmOutput, llmOutputHistory := history, toolCallRefs := refs,
      notes := notes, updatedAt := updatedAt } := by
  have hid : strip item.planItemId = item.planItemId := congrArg PlannerItem.planItemId h
  have ht : strip item.title = item.title := congrArg PlannerItem.title h
  have hd : normalizeStrList item.dependsOn = item.dependsOn := congrArg PlannerItem.dependsOn h
  have hc : normalizeStrList item.acceptanceCriteria = item.acceptanceCriteria :=
    congrArg PlannerItem.acceptanceCriteria h
  unfold PlannerItem.Normal PlannerItem.stripped
  simp only [hid, ht, hd, hc, h1, h2, h3]

/-- What every update of an item keeps. -/
structure PlannerItem.Kept (item item' : PlannerItem) : Prop where
  planItemId : item'.planItemId = item.planItemId
  title : item'.title = item.title
  sequenceIndex : item'.sequenceIndex = item.sequenceIndex
  normal : item.Normal → item'.Normal

theorem PlannerItem.Kept.decodes {item item' : PlannerItem} (h : item.Kept item') (hd : item.Decodes) :
    item'.Decodes :=
  ⟨h.sequenceIndex ▸ hd.sequenceIndex, h.planItemId ▸ hd.planItemId, h.title ▸ hd.title⟩

theorem PlannerItem.Kept.refl (item : PlannerItem) : item.Kept item := ⟨rfl, rfl, rfl, id⟩

theorem PlannerItem.Kept.trans {a b c : PlannerItem} (h : a.Kept b) (h' : b.Kept c) : a.Kept c :=
  ⟨h'.planItemId.trans h.planItemId, h'.title.trans h.title, h'.sequenceIndex.trans h.sequenceIndex,
    fun hn => h'.normal (h.normal hn)⟩

theorem PlannerItem.kept_status (now : Time) (next : PlannerItemStatus) (item : PlannerItem) :
    item.Kept { item with status := next, updatedAt := now } := by
  refine ⟨rfl, rfl, rfl, fun h => ?_⟩
  obtain ⟨h1, h2, h3⟩ := h.lists
  exact h.change next item.llmOutput now h1 h2 h3

theorem PlannerItem.kept_note (now : Time) {text : String} (ht : Trimmed text) (hne : text ≠ "")
    (item : PlannerItem) : item.Kept { item with notes := item.notes ++ [text], updatedAt := now } := by
  refine ⟨rfl, rfl, rfl, fun h => ?_⟩
  obtain ⟨h1, h2, h3⟩ := h.lists
  exact h.change item.status item.llmOutput now h1 h2 (normalizeStrList_append_trimmed h3 ht hne)

theorem noteText_some {note : Option String} {text : String} (h : noteText note = some text) :
    Trimmed text ∧ text ≠ "" := by
  unfold noteText at h
  rw [Option.filter_eq_some_iff] at h
  obtain ⟨h, hne⟩ := h
  obtain ⟨raw, -, rfl⟩ := Option.map_eq_some_iff.1 h
  exact ⟨trimmed_strip raw, by simpa using hne⟩

theorem PlannerItem.kept_updated (now : Time) (next : PlannerItemStatus) (note : Option String)
    (item : PlannerItem) : item.Kept (item.updated now next note) := by
  have hstatus : item.Kept (if next ≠ item.status then { item with status := next, updatedAt := now }
      else item) := by
    split
    · exact kept_status now next item
    · exact .refl item
  unfold PlannerItem.updated
  dsimp only
  cases hn : noteText note with
  | none => exact hstatus
  | some text =>
    obtain ⟨ht, hne⟩ := noteText_some hn
    exact hstatus.trans (kept_note now ht hne _)

/-! ## Updates -/

/-- A plan update changes the items named `p` by `f`, and perhaps where the plan stands. -/
structure PlanUpdate (p : String) (f : PlannerItem → PlannerItem) (st st' : PlannerState) : Prop where
  runId : st'.runId = st.runId
  version : st'.version = st.version
  schema : st'.planSchema = st.planSchema
  items : st'.items = modifyItem p f st.items
  found : p ∈ st.items.map PlannerItem.planItemId
  kept : ∀ it : PlannerItem, it.Kept (f it)

/-- Attaching a reference leaves active item and cursor. -/
def PlannerItem.withToolCallRef (now : Time) (ref : String) (item : PlannerItem) : PlannerItem :=
  if ref ∈ item.toolCallRefs then item
  else { item with toolCallRefs := item.toolCallRefs ++ [ref], updatedAt := now }

def PlannerItem.withLlmOutput (now : Time) (text : String) (item : PlannerItem) : PlannerItem :=
  { item with
    llmOutput := some text, llmOutputHistory := item.llmOutputHistory ++ [text], updatedAt := now }

def PlannerItem.touched (now : Time) (item : PlannerItem) : PlannerItem := { item with updatedAt := now }

section
variable {now : Time} {p : String} {st st' : PlannerState}

theorem attachToolCallRefState_ok {e : String} (h : attachToolCallRefState now p e st = .ok st') :
    PlanUpdate p (PlannerItem.withToolCallRef now (strip e)) st st' ∧ strip e ≠ "" ∧
      st'.activeItemId = st.activeItemId ∧ st'.cursorIndex = st.cursorIndex := by
  unfold attachToolCallRefState at h
  simp only [except_bind_ok, raiseIf_ok, except_pure_ok] at h
  obtain ⟨item, hitem, _, hne, rfl⟩ := h
  obtain ⟨hmem, rfl⟩ := findItem_ok hitem
  refine ⟨⟨rfl, rfl, rfl, rfl, List.mem_map_of_mem hmem, fun it => ?_⟩, hne, rfl, rfl⟩
  unfold PlannerItem.withToolCallRef
  split
  · exact ⟨rfl, rfl, rfl, id⟩
  · exact ⟨rfl, rfl, rfl, fun h => h.change it.status it.llmOutput now h.lists.1
      (normalizeStrList_append_trimmed h.lists.2.1 (trimmed_strip e) hne) h.lists.2.2⟩

theorem attachLlmOutputState_ok {output : String} (h : attachLlmOutputState now p output st = .ok st') :
    PlanUpdate p (PlannerItem.withLlmOutput now (strip output)) st st' ∧ strip output ≠ "" := by
  unfold attachLlmOutputState at h
  simp only [except_bind_ok, raiseIf_ok, except_pure_ok] at h
  obtain ⟨item, hitem, _, hne, rfl⟩ := h
  obtain ⟨hmem, rfl⟩ := findItem_ok hitem
  refine ⟨⟨rfl, rfl, rfl, rfl, List.mem_map_of_mem hmem, fun it => ⟨rfl, rfl, rfl, fun h => ?_⟩⟩, hne⟩
  exact h.change it.status (some (strip output)) now
    (normalizeStrList_append_trimmed h.lists.1 (trimmed_strip output) hne) h.lists.2.1 h.lists.2.2

theorem setActiveItemState_ok (h : setActiveItemState now p st = .ok st') :
    PlanUpdate p (PlannerItem.touched now) st st' := by
  unfold setActiveItemState at h
  simp only [except_bind_ok, except_pure_ok] at h
  obtain ⟨item, hitem, rfl⟩ := h
  obtain ⟨hmem, rfl⟩ := findItem_ok hitem
  refine ⟨rfl, rfl, rfl, rfl, List.mem_map_of_mem hmem, fun it => ⟨rfl, rfl, rfl, fun h => ?_⟩⟩
  exact h.change it.status it.llmOutput now h.lists.1 h.lists.2.1 h.lists.2.2

theorem moveOn_fields (next : PlannerItemStatus) (st : PlannerState) :
    (st.moveOn p next).runId = st.runId ∧ (st.moveOn p next).version = st.version ∧
      (st.moveOn p next).planSchema = st.planSchema ∧ (st.moveOn p next).items = st.items := by
  unfold PlannerState.moveOn
  split
  · split <;> exact ⟨rfl, rfl, rfl, rfl⟩
  · exact ⟨rfl, rfl, rfl, rfl⟩

theorem updateItemStatusState_ok {status : String} {note : Option String}
    (h : updateItemStatusState now p status note st = .ok st') :
    ∃ next, parseStatus status = .ok next ∧ PlanUpdate p (PlannerItem.updated now next note) st st' := by
  unfold updateItemStatusState at h
  simp only [except_bind_ok, raiseIf_ok, except_pure_ok] at h
  obtain ⟨item, hitem, next, hnext, _, -, rfl⟩ := h
  obtain ⟨hmem, rfl⟩ := findItem_ok hitem
  obtain ⟨h1, h2, h3, h4⟩ := moveOn_fields (p := item.planItemId) next
    (st.setItem item.planItemId (PlannerItem.updated now next note))
  exact ⟨next, hnext, h1, h2, h3, h4, List.mem_map_of_mem hmem, PlannerItem.kept_updated now next note⟩

end

section
variable {p : String} {f : PlannerItem → PlannerItem} {st st' : PlannerState}

theorem PlanUpdate.ids (h : PlanUpdate p f st st') :
    st'.items.map PlannerItem.planItemId = st.items.map PlannerItem.planItemId := by
  rw [h.items]
  exact modifyItem_ids (fun it => (h.kept it).planItemId) st.items

theorem PlanUpdate.itemsNormal (h : PlanUpdate p f st st') (hn : st.ItemsNormal) : st'.ItemsNormal := by
  intro item hitem
  rw [h.items] at hitem
  rcases mem_modifyItem hitem with hitem | ⟨it, hit, -, rfl⟩
  · exact hn item hitem
  · exact (h.kept it).normal (hn it hit)

theorem PlanUpdate.itemsDecode (h : PlanUpdate p f st st') (hd : ∀ it ∈ st.items, it.Decodes) :
    ∀ it ∈ st'.items, it.Decodes := by
  intro item hitem
  rw [h.items] at hitem
  rcases mem_modifyItem hitem with hitem | ⟨it, hit, -, rfl⟩
  · exact hd item hitem
  · exact (h.kept it).decodes (hd it hit)

end

/-- An update through the service: what was loaded, and what is loaded afterwards. -/
theorem updatePlan_load {amb : Ambient} {runId : String} {g : PlannerState → Except PyError PlannerState}
    {s s' : Store} {r : PlannerState} (h : updatePlan amb runId g s = .ok (r, s'))
    (hg : ∀ st st', st.ItemsNormal → g st = .ok st' → st'.runId = st.runId ∧ st'.ItemsNormal) :
    ∃ st st' out, s.loadPlan runId = .ok (some st) ∧ g st = .ok st' ∧
      s'.loadPlan runId = .ok (some out) ∧ out.items.Perm st'.items ∧ out.version = st'.version + 1 ∧
      r.items = st'.items ∧ r.version = st'.version + 1 ∧ r.cursorIndex = st'.cursorIndex ∧
      r.Decodes ∧ s' = s.putPlan { st' with version := st'.version + 1, updatedAt := amb.now } := by
  obtain ⟨st, st', hload, hst', -, hsave, rfl⟩ := updatePlan_saved h
  obtain ⟨hdec, hnormal⟩ := loadPlan_normal hload
  obtain ⟨hrun, hnormal'⟩ := hg st st' hnormal hst'
  obtain ⟨hrow, hto⟩ := fromDict_plan_ok hsave
  obtain ⟨out, hout⟩ := decode_plan_run hrow
  have hkey : strip runId = st'.runId := by rw [hrun, loadPlan_runId hload]
  have hrowNormal : PlannerState.ItemsNormal
      { st' with version := st'.version + 1, updatedAt := amb.now } := hnormal'
  refine ⟨st, st', out, hload, hst', ?_, ?_, ?_, ?_, hto.version, hto.cursorIndex, hrow.of_decoded hto, rfl⟩
  · refine loadPlan_ok.2 ⟨(loadPlan_ok.1 hload).1, _, ?_, hout⟩
    rw [hkey, Store.putPlan_plannerStates]
    exact Table.get_put_self _ _
  · rw [decode_of_normal hrowNormal hout]
    exact PlannerState.queried_perm _
  · exact (decode_plan_ok hout).2.version
  · rw [hto.items]
    exact hrowNormal.map_stripped

end Raef
