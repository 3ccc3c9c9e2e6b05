import Raef.Proofs.PlanRuns
import Raef.Proofs.Script

/-!
# When an accepted plan can be worked on to its end

`create_plan` checks each `sequence_index` on its own; the save checks the cursor
against the number of items.  A plan whose indexes all lie below that number is never
stuck: in every state the service leads to, each item can be made the active one and
can take every status the table allows.  A plan with an index beyond it is stuck from
the start, and so is one whose run id has white space around it, since only the load
strips the id.

    createPlan accepts → (never stuck ↔ run id stripped ∧ indexes below the number of items)
-/

namespace Raef

open Text Txn

/-! ## Statements -/

/-- The operation succeeds, and what it returns is what the next load of the run gives. -/
def Savable (x : Tx PlannerState) (runId : String) (s : Store) : Prop :=
  ∃ out s', x s = .ok (out, s') ∧ s'.loadPlan runId = .ok (some out)

/-- The run has the items it was created with, and every move of each of them is open. -/
structure LivePlan (runId : String) (ids : List String) (s : Store) (st : PlannerState) : Prop where
  loaded : s.loadPlan runId = .ok (some st)
  items : (st.items.map PlannerItem.planItemId).Perm ids
  activate : ∀ item ∈ st.items, ∀ amb, Savable (setActiveItem amb runId item.planItemId) runId s
  move : ∀ item ∈ st.items, ∀ amb status next note, parseStatus status = .ok next →
    next = item.status ∨ next ∈ item.status.allowed →
    Savable (updateItemStatus amb runId item.planItemId status note) runId s

/-- One operation of the service that goes through, and does not replace the plan of the run. -/
def PlannerStep (runId : String) (s s' : Store) : Prop :=
  ∃ amb op out, ¬ (op.creates = true ∧ op.runId = runId) ∧ PlannerOp.run amb op s = .ok (out, s')

/-- The indexes of the items a caller passes: the position stands in for an absent one. -/
def IndexesFit (items : List RawPlanItem) : Prop :=
  ∀ e ∈ items.zipIdx, e.1.sequenceIndex.getD e.2 < items.length

instance (items : List RawPlanItem) : Decidable (IndexesFit items) :=
  inferInstanceAs (Decidable (∀ e ∈ items.zipIdx, e.1.sequenceIndex.getD e.2 < items.length))

/-! ## The invariant -/

/-- A sorted plan with the items `ids` whose indexes are below their number. -/
structure FittingPlan (runId : String) (ids : List String) (s : Store) (st : PlannerState) : Prop where
  loaded : s.loadPlan runId = .ok (some st)
  sorted : st.items.Pairwise PlannerItem.Precedes
  items : (st.items.map PlannerItem.planItemId).Perm ids
  fits : ∀ it ∈ st.items, it.sequenceIndex < st.items.length

section
variable {runId : String} {ids : List String} {s s' : Store} {st st' : PlannerState}

theorem PlanUpdate.fits {p : String} {f : PlannerItem → PlannerItem} (hu : PlanUpdate p f st st')
    (h : ∀ it ∈ st.items, it.sequenceIndex < st.items.length) :
    ∀ it ∈ st'.items, it.sequenceIndex < st'.items.length := by
  have hlen : st'.items.length = st.items.length := by simpa using congrArg List.length hu.ids
  intro item hitem
  rw [hlen]
  rw [hu.items] at hitem
  rcases mem_modifyItem hitem with hitem | ⟨it, hit, -, rfl⟩
  · exact h item hitem
  · rw [(hu.kept it).sequenceIndex]
    exact h it hit

/-- A step keeps the plan fitting: its own row changes by an update, the other rows do not matter. -/
theorem FittingPlan.step (hrun : Trimmed runId) (h : FittingPlan runId ids s st)
    (hstep : PlannerStep runId s s') : ∃ st', FittingPlan runId ids s' st' := by
  obtain ⟨amb, op, out, hother, hop⟩ := hstep
  have hrow : ∀ t : Store, t.plannerStates.get runId = s.plannerStates.get runId →
      FittingPlan runId ids t st := by
    intro t ht
    obtain ⟨hb, row, hget, hdec⟩ := loadPlan_ok.1 h.loaded
    rw [hrun] at hget
    refine ⟨loadPlan_ok.2 ⟨hb, row, ?_, hdec⟩, h.sorted, h.items, h.fits⟩
    rw [hrun, ht, hget]
  by_cases hcreates : op.creates = true
  · have hne : op.runId ≠ runId := fun heq => hother ⟨hcreates, heq⟩
    cases op with
    | createPlan r text raws schema =>
      obtain ⟨row, hcreated, -, -, rfl⟩ := createPlan_saved hop
      refine ⟨st, hrow _ (Table.get_put_ne _ row ?_)⟩
      rw [hcreated.runId]
      exact fun heq => hne heq.symm
    | _ => cases hcreates
  · obtain ⟨g, hg, hupdate⟩ := PlannerOp.run_update (Bool.eq_false_iff.2 hcreates) amb
    rw [hg] at hop
    by_cases hsame : strip op.runId = runId
    · have hload : s.loadPlan op.runId = .ok (some st) :=
        (loadPlan_congr (hsame.trans hrun.symm)).trans h.loaded
      obtain ⟨st0, st1, hload0, hst, -, -, -⟩ := updatePlan_saved hop
      rw [hload] at hload0
      cases hload0
      obtain ⟨p, f, hu⟩ := hupdate _ _ hst
      have hsaved := updatePlan_after hop hload h.sorted hst hu
      refine ⟨out, (loadPlan_congr (hrun.trans hsame.symm)).trans hsaved.loaded, ?_, ?_, ?_⟩
      · rw [hsaved.items]
        exact hu.sorted h.sorted
      · rw [hsaved.items, hu.ids]
        exact h.items
      · rw [hsaved.items]
        exact hu.fits h.fits
    · obtain ⟨st0, st1, hload0, hst, -, -, rfl⟩ := updatePlan_saved hop
      obtain ⟨p, f, hu⟩ := hupdate _ _ hst
      refine ⟨st, hrow _ (Table.get_put_ne _ _ ?_)⟩
      show runId ≠ st1.runId
      rw [hu.runId, loadPlan_runId hload0]
      exact fun heq => hsame heq.symm

theorem FittingPlan.reach (hrun : Trimmed runId) (h : FittingPlan runId ids s st)
    (hreach : Relation.ReflTransGen (PlannerStep runId) s s') : ∃ st', FittingPlan runId ids s' st' := by
  induction hreach with
  | refl => exact ⟨st, h⟩
  | tail _ hstep ih =>
    obtain ⟨st', h'⟩ := ih
    exact h'.step hrun hstep

/-! ## Every move is open -/

/-- An update that leaves active item and cursor alone leaves the plan placed. -/
theorem PlanUpdate.placed {p : String} {f : PlannerItem → PlannerItem} (hu : PlanUpdate p f st st')
    (hactive : st'.activeItemId = st.activeItemId) (hcursor : st'.cursorIndex = st.cursorIndex)
    (h : st.Placed) : st'.Placed := by
  have hlen : st'.items.length = st.items.length := by simpa using congrArg List.length hu.ids
  refine ⟨fun a ha => ?_, fun c hc => ?_⟩
  · rw [hu.ids]
    exact h.active a (hactive ▸ ha)
  · rw [hlen]
    exact h.cursor c (hcursor ▸ hc)

/-- A plan can stand at any of its items whose index fits. -/
theorem placed_at {item : PlannerItem} (hmem : item ∈ st.items) (hpos : 0 ≤ item.sequenceIndex)
    (hfit : item.sequenceIndex < st.items.length) :
    PlannerState.Placed
      { st with activeItemId := some item.planItemId, cursorIndex := some item.sequenceIndex } := by
  refine ⟨?_, ?_⟩
  · rintro a ⟨⟩
    exact List.mem_map_of_mem hmem
  · rintro c ⟨⟩
    exact ⟨hpos, hfit⟩

theorem placed_moveOn {p : String} {next : PlannerItemStatus} (h : st.Placed)
    (hpos : ∀ it ∈ st.items, 0 ≤ it.sequenceIndex) (hfits : ∀ it ∈ st.items, it.sequenceIndex < st.items.length) :
    (st.moveOn p next).Placed := by
  unfold PlannerState.moveOn
  split
  · split
    · next item hitem =>
      have hmem := (nextRunnableItem_some hitem).1
      exact placed_at hmem (hpos item hmem) (hfits item hmem)
    · exact h
  · exact h

theorem FittingPlan.activate (h : FittingPlan runId ids s st) {item : PlannerItem}
    (hitem : item ∈ st.items) (amb : Ambient) :
    Savable (setActiveItem amb runId item.planItemId) runId s := by
  obtain ⟨hdec, hnormal⟩ := loadPlan_normal h.loaded
  have hfind := findItem_of_mem (hnormal.integrity hdec).nodup hitem
  set touched := st.setItem item.planItemId (PlannerItem.touched amb.now) with htouched
  have hst : setActiveItemState amb.now item.planItemId st = .ok
      { touched with activeItemId := some item.planItemId, cursorIndex := some item.sequenceIndex } := by
    unfold setActiveItemState
    rw [hfind]
    rfl
  have hu := setActiveItemState_ok hst
  have hlen : touched.items.length = st.items.length := by simpa using congrArg List.length hu.ids
  have hplaced : PlannerState.Placed
      { touched with activeItemId := some item.planItemId, cursorIndex := some item.sequenceIndex } := by
    refine ⟨?_, ?_⟩
    · rintro a ⟨⟩
      rw [hu.ids]
      exact List.mem_map_of_mem hitem
    · rintro c ⟨⟩
      show 0 ≤ item.sequenceIndex ∧ item.sequenceIndex < (touched.items.length : ℤ)
      rw [hlen]
      exact ⟨(hdec.items item hitem).sequenceIndex, h.fits item hitem⟩
  obtain ⟨out, s', hrun, hsaved⟩ := updatePlan_run h.loaded h.sorted hst hu hplaced
  exact ⟨out, s', hrun, hsaved.loaded⟩

/-- A move of an item saves the changed plan, moved on. -/
theorem FittingPlan.move_saved (h : FittingPlan runId ids s st) {item : PlannerItem}
    (hitem : item ∈ st.items) (amb : Ambient) {status : String} {next : PlannerItemStatus}
    (note : Option String) (hparse : parseStatus status = .ok next)
    (hallowed : next = item.status ∨ next ∈ item.status.allowed) :
    ∃ out s', updateItemStatus amb runId item.planItemId status note s = .ok (out, s') ∧
      PlanSaved runId ((st.setItem item.planItemId (PlannerItem.updated amb.now next note)).moveOn
        item.planItemId next) s s' out := by
  obtain ⟨hdec, hnormal⟩ := loadPlan_normal h.loaded
  have hint := hnormal.integrity hdec
  have hfind := findItem_of_mem hint.nodup hitem
  set changed := st.setItem item.planItemId (PlannerItem.updated amb.now next note) with hchanged
  have hst : updateItemStatusState amb.now item.planItemId status note st =
      .ok (changed.moveOn item.planItemId next) := by
    have hcheck : ¬ (next ≠ item.status ∧ next ∉ item.status.allowed) := by
      rintro ⟨hne, hnot⟩
      rcases hallowed with heq | hmem
      · exact hne heq
      · exact hnot hmem
    unfold updateItemStatusState
    simp only [except_bind_ok, raiseIf_ok, except_pure_ok]
    exact ⟨item, hfind, next, hparse, (), hcheck, rfl⟩
  have hchange : PlanUpdate item.planItemId (PlannerItem.updated amb.now next note) st changed :=
    ⟨rfl, rfl, rfl, rfl, List.mem_map_of_mem hitem, PlannerItem.kept_updated amb.now next note⟩
  have hplaced : (changed.moveOn item.planItemId next).Placed := by
    refine placed_moveOn (hchange.placed rfl rfl hint.placed) ?_ (hchange.fits h.fits)
    intro it hit
    exact (hchange.itemsDecode hdec.items it hit).sequenceIndex
  obtain ⟨next', -, hu⟩ := updateItemStatusState_ok hst
  exact updatePlan_run h.loaded h.sorted hst hu hplaced

theorem FittingPlan.live (h : FittingPlan runId ids s st) : LivePlan runId ids s st :=
  ⟨h.loaded, h.items, fun _ hitem amb => h.activate hitem amb,
    fun _ hitem amb _ _ note hparse hallowed => by
      obtain ⟨out, s', hrun, hsaved⟩ := h.move_saved hitem amb note hparse hallowed
      exact ⟨out, s', hrun, hsaved.loaded⟩⟩

end

/-! ## The indexes of a created plan -/

section
variable {amb : Ambient} {runId text : String} {items : List RawPlanItem}
  {schema : Option RawPlanSchema} {s s' : Store} {out : PlannerState}

/-- The created items have the indexes the caller gave, in some order. -/
theorem createPlan_indexes (h : createPlan amb runId text items schema s = .ok (out, s')) :
    (out.items.map PlannerItem.sequenceIndex).Perm
      (items.zipIdx.map fun e => e.1.sequenceIndex.getD e.2) := by
  obtain ⟨row, hcreated, -, hto, -⟩ := createPlan_saved h
  have hitems : out.items = row.items := hto.items.trans hcreated.normal.map_stripped
  rw [hitems]
  exact hcreated.indexes

theorem createPlan_fit_iff (h : createPlan amb runId text items schema s = .ok (out, s')) :
    IndexesFit items ↔ ∀ it ∈ out.items, it.sequenceIndex < out.items.length := by
  have hperm := createPlan_indexes h
  have hlen : out.items.length = items.length := by simpa using hperm.length_eq
  have hmem : ∀ i : ℤ, i ∈ out.items.map PlannerItem.sequenceIndex ↔
      i ∈ items.zipIdx.map fun e => e.1.sequenceIndex.getD e.2 := fun i => hperm.mem_iff
  rw [hlen]
  constructor
  · intro hfit it hit
    obtain ⟨e, he, heq⟩ := List.mem_map.1 ((hmem _).1 (List.mem_map_of_mem hit))
    rw [← heq]
    exact hfit e he
  · intro hfit e he
    obtain ⟨it, hit, heq⟩ := List.mem_map.1 ((hmem _).2 (List.mem_map_of_mem he))
    rw [← heq]
    exact hfit it hit

/-- An item that can be made active has an index that fits. -/
theorem fits_of_activate {st : PlannerState} {item : PlannerItem} (hload : s.loadPlan runId = .ok (some st))
    (hitem : item ∈ st.items) (h : Savable (setActiveItem amb runId item.planItemId) runId s) :
    item.sequenceIndex < st.items.length := by
  obtain ⟨hdec, hnormal⟩ := loadPlan_normal hload
  have hfind := findItem_of_mem (hnormal.integrity hdec).nodup hitem
  obtain ⟨out, s', hrun, -⟩ := h
  obtain ⟨st0, st', hload0, hst, hint, -, -⟩ := updatePlan_saved hrun
  rw [hload] at hload0
  cases hload0
  have hu := setActiveItemState_ok hst
  have hlen : st'.items.length = st.items.length := by simpa using congrArg List.length hu.ids
  have hcursor : st'.cursorIndex = some item.sequenceIndex := by
    unfold setActiveItemState at hst
    rw [hfind] at hst
    cases hst
    rfl
  rw [← hlen]
  exact ((validateIntegrity_ok.1 hint).cursor item.sequenceIndex hcursor).2

end

/-- **An accepted plan is never stuck** exactly when its run id is stripped and its indexes
are below the number of its items. -/
theorem plan_never_wedged (amb : Ambient) (runId text : String) (items : List RawPlanItem)
    (schema : Option RawPlanSchema)
    (haccepted : ∃ s, Succeeds (createPlan amb runId text items schema) s) :
    (∀ s s' out, createPlan amb runId text items schema s = .ok (out, s') →
      ∀ t, Relation.ReflTransGen (PlannerStep runId) s' t →
        ∃ st, LivePlan runId (out.items.map PlannerItem.planItemId) t st) ↔
      Trimmed runId ∧ IndexesFit items := by
  constructor
  · intro hlive
    obtain ⟨s, out, s', hcreate⟩ := haccepted
    obtain ⟨t, hempty⟩ := createPlan_anywhere hcreate {}
    obtain ⟨st, hst⟩ := hlive {} t out hempty t .refl
    obtain ⟨row, hcreated, -, -, rfl⟩ := createPlan_saved hempty
    have hrun : Trimmed runId := by
      obtain ⟨-, row', hget, -⟩ := loadPlan_ok.1 hst.loaded
      by_contra hne
      rw [Store.putPlan_plannerStates, Table.get_put_ne _ row] at hget
      · cases hget
      · rw [hcreated.runId]
        exact hne
    refine ⟨hrun, (createPlan_fit_iff hempty).2 ?_⟩
    obtain ⟨st', hload, -, hperm, -, -⟩ := createPlan_loaded hempty hrun
    rw [hst.loaded] at hload
    cases hload
    intro it hit
    have hit' := hperm.mem_iff.2 hit
    rw [← hperm.length_eq]
    exact fits_of_activate hst.loaded hit' (hst.activate it hit' amb)
  · rintro ⟨hrun, hfit⟩ s s' out hcreate t hreach
    obtain ⟨st, hload, hsorted, hperm, -, -⟩ := createPlan_loaded hcreate hrun
    have hfitting : FittingPlan runId (out.items.map PlannerItem.planItemId) s' st := by
      refine ⟨hload, hsorted, hperm.map _, ?_⟩
      intro it hit
      rw [hperm.length_eq]
      exact (createPlan_fit_iff hcreate).1 hfit it (hperm.mem_iff.1 hit)
    obtain ⟨st', h'⟩ := hfitting.reach hrun hreach
    exact ⟨st', h'.live⟩

/-! ## Examples of both kinds -/

/-- Two steps with these indexes. -/
def twoSteps (first second : ℤ) : List RawPlanItem :=
  [{ title := some "Search", sequenceIndex := some first }, { title := some "Book", sequenceIndex := some second }]

/-- What completing the first of two steps raises, right after their plan was created. -/
def raisedByCompletion (first second : ℤ) : Option PyError :=
  match createPlan stillAmbient "trip" "" (twoSteps first second) none {} with
  | .error _ => none
  | .ok (_, s) =>
    match updateItemStatus stillAmbient "trip" "step_0" "done" none s with
    | .error e => some e
    | .ok _ => none

/-- A gap in the indexes: the plan is accepted, and its active item cannot be completed. -/
theorem gap_wedges : raisedByCompletion 0 5 = some (.value "cursor_index out of range") := by
  decide +kernel

theorem two_steps_never_wedged : ∃ out s',
    createPlan stillAmbient "trip" "" (twoSteps 0 1) none {} = .ok (out, s') ∧
      ∀ t, Relation.ReflTransGen (PlannerStep "trip") s' t →
        ∃ st, LivePlan "trip" (out.items.map PlannerItem.planItemId) t st := by
  obtain ⟨out, s', hcreate⟩ := succeeds_of_toBool (by decide +kernel :
    (createPlan stillAmbient "trip" "" (twoSteps 0 1) none {}).toBool = true)
  refine ⟨out, s', hcreate, ?_⟩
  exact (plan_never_wedged stillAmbient "trip" "" (twoSteps 0 1) none ⟨{}, _, _, hcreate⟩).2
    ⟨by decide +kernel, by decide⟩ {} s' out hcreate

end Raef
