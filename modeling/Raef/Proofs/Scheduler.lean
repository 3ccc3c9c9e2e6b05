import Raef.Proofs.Wedge

/-!
# The scheduler works a plan off

`next_runnable_item`, then `update_item_status(…, "done")`, until there is no next item.
An acyclic relation on finitely many items always leaves one of the open items without
an open dependency, so the loop stops only when everything is done; it takes each item
once, after the items it depends on, the smallest ready index first, and the active item
it saves is the one it takes next.

    a least ready item is what the scheduler gives         (nextRunnableItem_some, nextRunnableItem_le)
    one turn of the loop                                    (Working.turn)
    the whole loop, for every accepted plan of this shape   (schedule_complete)
-/

namespace Raef

open Text Txn

/-! ## Acyclic relations -/

/-- Finitely many elements of an acyclic relation: one of them has no predecessor among them. -/
theorem exists_source {α : Type} {dep : α → α → Prop} (hacyclic : ∀ a, ¬ Relation.TransGen dep a a)
    {l : List α} (hne : l ≠ []) : ∃ a ∈ l, ∀ b ∈ l, ¬ dep b a := by
  have hstrict : IsStrictOrder α (Relation.TransGen dep) :=
    { irrefl := hacyclic, trans := fun _ _ _ => Relation.TransGen.trans }
  have hwf := (List.finite_toSet l).wellFoundedOn (r := Relation.TransGen dep)
  obtain ⟨a₀, ha₀⟩ := List.exists_mem_of_ne_nil l hne
  obtain ⟨⟨a, ha⟩, -, hmin⟩ := hwf.has_min Set.univ ⟨⟨a₀, ha₀⟩, trivial⟩
  exact ⟨a, ha, fun b hb hdep => hmin ⟨b, hb⟩ trivial (.single hdep)⟩

/-- A relation that goes up in some rank is acyclic. -/
theorem acyclic_of_rank {α : Type} {dep : α → α → Prop} (rank : α → ℕ)
    (h : ∀ a b, dep a b → rank a < rank b) (a : α) : ¬ Relation.TransGen dep a a := by
  have hup : ∀ b, Relation.TransGen dep a b → rank a < rank b := by
    intro b hb
    induction hb with
    | single hab => exact h _ _ hab
    | tail _ hbc ih => exact ih.trans (h _ _ hbc)
  exact fun hcycle => lt_irrefl _ (hup a hcycle)

/-! ## Ready items -/

/-- The item of this id is done. -/
def PlannerState.IsDone (st : PlannerState) (planItemId : String) : Prop :=
  ∃ it ∈ st.items, it.status = .done ∧ it.planItemId = planItemId

/-- Pending, with every dependency done. -/
structure PlannerState.Ready (st : PlannerState) (item : PlannerItem) : Prop where
  mem : item ∈ st.items
  pending : item.status = .pending
  deps : ∀ dep ∈ item.dependsOn, st.IsDone dep

theorem nextRunnableItem_ready {st : PlannerState} {item : PlannerItem}
    (h : nextRunnableItem st = some item) : st.Ready item := by
  obtain ⟨hmem, hpending, hdeps⟩ := nextRunnableItem_some h
  exact ⟨hmem, hpending, hdeps⟩

/-- The test of the scheduler, on an item of the plan. -/
theorem ready_iff {st : PlannerState} {item : PlannerItem} (hmem : item ∈ st.items) :
    (item.status = .pending && item.dependsOn.all fun dep =>
      ((st.items.filter fun it => it.status = .done).map PlannerItem.planItemId).contains dep) = true ↔
      st.Ready item := by
  rw [Bool.and_eq_true, decide_eq_true_eq, List.all_eq_true]
  have hdone : ∀ dep, ((st.items.filter fun it => it.status = .done).map PlannerItem.planItemId).contains dep =
      true ↔ st.IsDone dep := by
    intro dep
    rw [List.contains_iff_mem, List.mem_map]
    simp only [List.mem_filter, decide_eq_true_eq]
    constructor
    · rintro ⟨it, ⟨hit, hstatus⟩, hid⟩
      exact ⟨it, hit, hstatus, hid⟩
    · rintro ⟨it, hit, hstatus, hid⟩
      exact ⟨it, ⟨hit, hstatus⟩, hid⟩
  constructor
  · rintro ⟨hpending, hdeps⟩
    exact ⟨hmem, hpending, fun dep hdep => (hdone dep).1 (hdeps dep hdep)⟩
  · intro h
    exact ⟨h.pending, fun dep hdep => (hdone dep).2 (h.deps dep hdep)⟩

/-- What the scheduler gives has the smallest index of the ready items. -/
theorem nextRunnableItem_le {st : PlannerState} {item it : PlannerItem}
    (h : nextRunnableItem st = some item) (hit : st.Ready it) :
    item.sequenceIndex ≤ it.sequenceIndex := by
  unfold nextRunnableItem at h
  dsimp only at h
  obtain ⟨-, before, after, hsplit, hbefore⟩ := List.find?_eq_some_iff_append.1 h
  have hsorted : (before ++ item :: after).Pairwise fun a b => a.sequenceIndex ≤ b.sequenceIndex := by
    rw [← hsplit]
    exact List.pairwise_insertionSort _ st.items
  have hmem : it ∈ before ++ item :: after := by
    rw [← hsplit]
    exact (List.perm_insertionSort _ _).mem_iff.2 hit.mem
  rcases List.mem_append.1 hmem with hmem | hmem
  · have hnot := hbefore it hmem
    rw [(ready_iff hit.mem).2 hit] at hnot
    cases hnot
  · rcases List.mem_cons.1 hmem with rfl | hmem
    · exact le_refl _
    · exact (List.pairwise_cons.1 (List.pairwise_append.1 hsorted).2.1).1 it hmem

theorem nextRunnableItem_none {st : PlannerState} (h : nextRunnableItem st = none) (it : PlannerItem) :
    ¬ st.Ready it := by
  intro hit
  unfold nextRunnableItem at h
  dsimp only at h
  have hmem := (List.perm_insertionSort (fun a b : PlannerItem => a.sequenceIndex ≤ b.sequenceIndex)
    st.items).mem_iff.2 hit.mem
  exact List.find?_eq_none.1 h it hmem ((ready_iff hit.mem).2 hit)

/-- With distinct indexes the order of the items does not matter to the scheduler. -/
theorem nextRunnableItem_perm {st st' : PlannerState} (hp : st.items.Perm st'.items)
    (hnodup : (st.items.map PlannerItem.sequenceIndex).Nodup) :
    nextRunnableItem st = nextRunnableItem st' := by
  have hready : ∀ it, st.Ready it ↔ st'.Ready it := by
    have hdone : ∀ dep, st.IsDone dep ↔ st'.IsDone dep := by
      intro dep
      unfold PlannerState.IsDone
      simp only [hp.mem_iff]
    intro it
    constructor
    · intro h
      exact ⟨hp.mem_iff.1 h.mem, h.pending, fun dep hdep => (hdone dep).1 (h.deps dep hdep)⟩
    · intro h
      exact ⟨hp.mem_iff.2 h.mem, h.pending, fun dep hdep => (hdone dep).2 (h.deps dep hdep)⟩
  cases hx : nextRunnableItem st with
  | none =>
    cases hy : nextRunnableItem st' with
    | none => rfl
    | some b => exact absurd ((hready b).2 (nextRunnableItem_ready hy)) (nextRunnableItem_none hx b)
  | some a =>
    have ha := nextRunnableItem_ready hx
    cases hy : nextRunnableItem st' with
    | none => exact absurd ((hready a).1 ha) (nextRunnableItem_none hy a)
    | some b =>
      have hb := nextRunnableItem_ready hy
      have hle := nextRunnableItem_le hx ((hready b).2 hb)
      have hge := nextRunnableItem_le hy ((hready a).1 ha)
      have hmem := hp.mem_iff.2 hb.mem
      rw [List.inj_on_of_nodup_map hnodup ha.mem hmem (le_antisymm hle hge)]

/-! ## The loop -/

/-- One turn: the plan the scheduler looked at, the item it gave, the plan after its completion. -/
structure Turn where
  before : PlannerState
  item : PlannerItem
  after : PlannerState

/-- Take the next runnable item; stop if there is none; mark it done.  Turns happen at the given
times, and the loop gives `none` when they run out. -/
def scheduleLoop (runId : String) : List Ambient → Tx (Option (List Turn))
  | [] => return none
  | amb :: ambs => do
    let before ← fetch (·.loadRequiredPlan runId)
    match ← fetch (·.nextRunnableItem runId) with
    | none => return some []
    | some item =>
      let after ← updateItemStatus amb runId item.planItemId "done" none
      let turns ← scheduleLoop runId ambs
      return turns.map fun turns => ⟨before, item, after⟩ :: turns

/-- `q` is a dependency of the item `p`. -/
def DependsOn (items : List PlannerItem) (q p : String) : Prop :=
  ∃ it ∈ items, it.planItemId = p ∧ q ∈ it.dependsOn

/-- All items pending, indexes `0 … n-1` in some order, dependencies among the items and acyclic. -/
structure Schedulable (items : List PlannerItem) : Prop where
  pending : ∀ it ∈ items, it.status = .pending
  indexes : (items.map PlannerItem.sequenceIndex).Perm ((List.range items.length).map Int.ofNat)
  known : ∀ it ∈ items, ∀ dep ∈ it.dependsOn, dep ∈ items.map PlannerItem.planItemId
  acyclic : ∀ p, ¬ Relation.TransGen (DependsOn items) p p

/-- The loop worked the items off: each taken once, after its dependencies, the least ready
index first, every turn on the plan the one before saved, whose active item it takes. -/
structure WorkedOff (runId : String) (items : List PlannerItem) (turns : List Turn) (s : Store) : Prop where
  count : turns.length = items.length
  taken : (turns.map fun turn => turn.item.planItemId).Perm (items.map PlannerItem.planItemId)
  deps : ∀ earlier turn later, turns = earlier ++ turn :: later →
    ∀ dep ∈ turn.item.dependsOn, ∃ t ∈ earlier, t.item.planItemId = dep
  least : ∀ turn ∈ turns, turn.before.Ready turn.item ∧
    ∀ it, turn.before.Ready it → turn.item.sequenceIndex ≤ it.sequenceIndex
  next : turns.IsChain fun a b => b.before = a.after ∧ a.after.activeItemId = some b.item.planItemId
  done : ∃ st, s.loadPlan runId = .ok (some st) ∧
    (st.items.map PlannerItem.planItemId).Perm (items.map PlannerItem.planItemId) ∧
    ∀ it ∈ st.items, it.status = .done

/-! ## One turn -/

/-- What the loop never changes of an item. -/
def PlannerItem.shape (item : PlannerItem) : String × ℤ × List String :=
  (item.planItemId, item.sequenceIndex, item.dependsOn)

/-- The plan in the middle of the loop, with the items `done` completed. -/
structure Working (runId : String) (items : List PlannerItem) (done : List String) (s : Store)
    (st : PlannerState) : Prop where
  fitting : FittingPlan runId (items.map PlannerItem.planItemId) s st
  shape : (st.items.map PlannerItem.shape).Perm (items.map PlannerItem.shape)
  status : ∀ it ∈ st.items, it.status = if it.planItemId ∈ done then .done else .pending
  active : ∀ item, nextRunnableItem st = some item → st.activeItemId = some item.planItemId
  known : ∀ p ∈ done, p ∈ items.map PlannerItem.planItemId
  nodup : done.Nodup

section
variable {runId : String} {items : List PlannerItem} {done : List String} {s : Store} {st : PlannerState}

theorem Working.isDone_iff (h : Working runId items done s st) (p : String) :
    st.IsDone p ↔ p ∈ done := by
  constructor
  · rintro ⟨it, hit, hstatus, rfl⟩
    by_contra hnot
    rw [h.status it hit, if_neg hnot] at hstatus
    cases hstatus
  · intro hp
    have hmem := h.fitting.items.mem_iff.2 (h.known p hp)
    obtain ⟨it, hit, rfl⟩ := List.mem_map.1 hmem
    exact ⟨it, hit, (h.status it hit).trans (if_pos hp), rfl⟩

/-- An item of the loaded plan is one of the created items, but for its progress. -/
theorem Working.created (h : Working runId items done s st) {it : PlannerItem} (hit : it ∈ st.items) :
    ∃ it' ∈ items, it'.planItemId = it.planItemId ∧ it'.dependsOn = it.dependsOn := by
  obtain ⟨it', hit', heq⟩ := List.mem_map.1 (h.shape.mem_iff.1 (List.mem_map_of_mem hit))
  unfold PlannerItem.shape at heq
  rw [Prod.mk.injEq, Prod.mk.injEq] at heq
  exact ⟨it', hit', heq.1, heq.2.2⟩

/-- While an item is open, one is ready: the open items have a source. -/
theorem Working.finished (h : Working runId items done s st) (hplan : Schedulable items)
    (hnone : nextRunnableItem st = none) : ∀ it ∈ st.items, it.planItemId ∈ done := by
  intro it hit
  by_contra hopen
  set opened := (st.items.map PlannerItem.planItemId).filter fun p => p ∉ done with hopened
  have hmem : it.planItemId ∈ opened :=
    List.mem_filter.2 ⟨List.mem_map_of_mem hit, by simpa using hopen⟩
  obtain ⟨p, hp, hsource⟩ := exists_source hplan.acyclic (List.ne_nil_of_mem hmem)
  obtain ⟨hp, hpdone⟩ := List.mem_filter.1 hp
  have hpdone : p ∉ done := by simpa using hpdone
  obtain ⟨first, hfirst, rfl⟩ := List.mem_map.1 hp
  refine nextRunnableItem_none hnone first ⟨hfirst, ?_, ?_⟩
  · rw [h.status first hfirst, if_neg hpdone]
  · intro dep hdep
    obtain ⟨it', hit', hid, hdeps⟩ := h.created hfirst
    have hknown := hplan.known it' hit' dep (hdeps ▸ hdep)
    rw [h.isDone_iff]
    by_contra hnot
    refine hsource dep (List.mem_filter.2 ⟨h.fitting.items.mem_iff.2 hknown, by simpa using hnot⟩) ?_
    exact ⟨it', hit', hid, hdeps ▸ hdep⟩

/-- Marking an item done keeps its shape. -/
theorem PlannerItem.updated_done (now : Time) (item : PlannerItem) :
    (item.updated now .done none).shape = item.shape ∧ (item.updated now .done none).status = .done := by
  have hnote : noteText none = none := rfl
  unfold PlannerItem.updated
  dsimp only
  rw [hnote]
  by_cases h : PlannerItemStatus.done ≠ item.status
  · rw [if_pos h]
    exact ⟨rfl, rfl⟩
  · rw [if_neg h]
    exact ⟨rfl, (not_not.1 h).symm⟩

/-- One turn: the item is marked done, and the plan stands at the next one. -/
theorem Working.turn (h : Working runId items done s st) {item : PlannerItem}
    (hnext : nextRunnableItem st = some item) (amb : Ambient) :
    ∃ after s', updateItemStatus amb runId item.planItemId "done" none s = .ok (after, s') ∧
      Working runId items (done ++ [item.planItemId]) s' after := by
  have hready := nextRunnableItem_ready hnext
  have hparse : parseStatus "done" = .ok .done := by decide +kernel
  have hallowed : PlannerItemStatus.done ∈ item.status.allowed := by
    rw [hready.pending]
    decide
  obtain ⟨after, s', hrun, hsaved⟩ := h.fitting.move_saved hready.mem amb none hparse (.inr hallowed)
  obtain ⟨hdec, hnormal⟩ := loadPlan_normal h.fitting.loaded
  set changed := st.setItem item.planItemId (PlannerItem.updated amb.now .done none) with hchanged
  have hchange : PlanUpdate item.planItemId (PlannerItem.updated amb.now .done none) st changed :=
    ⟨rfl, rfl, rfl, rfl, List.mem_map_of_mem hready.mem, PlannerItem.kept_updated amb.now .done none⟩
  have hafter : after.items = changed.items :=
    hsaved.items.trans (moveOn_fields .done changed).2.2.2
  have hmap : changed.items = st.items.map fun it =>
      if it.planItemId = item.planItemId then it.updated amb.now .done none else it :=
    modifyItem_eq_map (hnormal.integrity hdec).nodup
  have hfresh : item.planItemId ∉ done := by
    intro hmem
    have hstatus := h.status item hready.mem
    rw [if_pos hmem, hready.pending] at hstatus
    cases hstatus
  refine ⟨after, s', hrun, ⟨hsaved.loaded, ?_, ?_, ?_⟩, ?_, ?_, ?_, ?_, ?_⟩
  · rw [hafter]
    exact hchange.sorted h.fitting.sorted
  · rw [hafter, hchange.ids]
    exact h.fitting.items
  · rw [hafter]
    exact hchange.fits h.fitting.fits
  · have hshape : changed.items.map PlannerItem.shape = st.items.map PlannerItem.shape := by
      rw [hmap, List.map_map]
      refine List.map_congr_left fun it _ => ?_
      show PlannerItem.shape (if _ then _ else _) = _
      split
      · exact (PlannerItem.updated_done amb.now it).1
      · rfl
    rw [hafter, hshape]
    exact h.shape
  · intro it hit
    rw [hafter, hmap] at hit
    obtain ⟨it₀, hit₀, rfl⟩ := List.mem_map.1 hit
    by_cases hid : it₀.planItemId = item.planItemId
    · obtain ⟨hshape, hstatus⟩ := PlannerItem.updated_done amb.now it₀
      have hsame : (it₀.updated amb.now .done none).planItemId = it₀.planItemId := congrArg Prod.fst hshape
      rw [if_pos hid, hstatus, if_pos]
      rw [hsame, hid]
      simp
    · rw [if_neg hid, h.status it₀ hit₀]
      have hiff : it₀.planItemId ∈ done ++ [item.planItemId] ↔ it₀.planItemId ∈ done := by
        simp [hid]
      simp only [hiff]
  · intro next hn
    have hchoice : nextRunnableItem changed = some next := by
      rw [← hn]
      exact nextRunnableItem_congr hafter.symm
    have hstands : changed.activeItemId = some item.planItemId := h.active item hnext
    rw [hsaved.activeItemId]
    show (changed.moveOn item.planItemId .done).activeItemId = _
    unfold PlannerState.moveOn
    rw [if_pos ⟨rfl, hstands⟩, hchoice]
  · intro p hp
    rcases List.mem_append.1 hp with hp | hp
    · exact h.known p hp
    · cases List.mem_singleton.1 hp
      exact h.fitting.items.mem_iff.1 (List.mem_map_of_mem hready.mem)
  · exact List.nodup_append.2 ⟨h.nodup, List.nodup_singleton _, by
      rintro a ha b hb rfl
      cases List.mem_singleton.1 hb
      exact hfresh ha⟩

/-! ## The whole loop -/

/-- What the rest of the loop does, `done` being completed already. -/
structure WorkedFrom (runId : String) (items : List PlannerItem) (done : List String) (st : PlannerState)
    (turns : List Turn) (s : Store) : Prop where
  taken : (done ++ turns.map fun turn => turn.item.planItemId).Perm (items.map PlannerItem.planItemId)
  deps : ∀ earlier turn later, turns = earlier ++ turn :: later →
    ∀ dep ∈ turn.item.dependsOn, dep ∈ done ∨ ∃ t ∈ earlier, t.item.planItemId = dep
  least : ∀ turn ∈ turns, turn.before.Ready turn.item ∧
    ∀ it, turn.before.Ready it → turn.item.sequenceIndex ≤ it.sequenceIndex
  first : ∀ turn ∈ turns.head?, turn.before = st ∧ st.activeItemId = some turn.item.planItemId
  next : turns.IsChain fun a b => b.before = a.after ∧ a.after.activeItemId = some b.item.planItemId
  done : ∃ st, s.loadPlan runId = .ok (some st) ∧
    (st.items.map PlannerItem.planItemId).Perm (items.map PlannerItem.planItemId) ∧
    ∀ it ∈ st.items, it.status = .done

/-- Nothing ready: everything is done. -/
theorem Working.stop (h : Working runId items done s st) (hplan : Schedulable items)
    (hnone : nextRunnableItem st = none) : WorkedFrom runId items done st [] s := by
  have hall := h.finished hplan hnone
  refine ⟨?_, ?_, ?_, ?_, .nil, st, h.fitting.loaded, h.fitting.items, ?_⟩
  · obtain ⟨hdec, hnormal⟩ := loadPlan_normal h.fitting.loaded
    rw [List.map_nil, List.append_nil]
    refine (List.perm_ext_iff_of_nodup h.nodup ?_).2 fun p => ⟨h.known p, fun hp => ?_⟩
    · exact h.fitting.items.nodup_iff.1 (hnormal.integrity hdec).nodup
    · obtain ⟨it, hit, rfl⟩ := List.mem_map.1 (h.fitting.items.mem_iff.2 hp)
      exact hall it hit
  · intro earlier turn later heq
    cases earlier <;> cases heq
  · intro turn hturn
    cases hturn
  · intro turn hturn
    cases hturn
  · intro it hit
    rw [h.status it hit, if_pos (hall it hit)]

/-- A turn before the rest. -/
theorem Working.cons (h : Working runId items done s st) {item : PlannerItem} {after : PlannerState}
    {turns : List Turn} {t : Store} (hnext : nextRunnableItem st = some item)
    (hrest : WorkedFrom runId items (done ++ [item.planItemId]) after turns t) :
    WorkedFrom runId items done st (⟨st, item, after⟩ :: turns) t := by
  have hready := nextRunnableItem_ready hnext
  refine ⟨?_, ?_, ?_, ?_, ?_, hrest.done⟩
  · have htaken := hrest.taken
    rw [List.append_assoc] at htaken
    exact htaken
  · intro earlier turn later heq dep hdep
    cases earlier with
    | nil =>
      cases heq
      exact .inl ((h.isDone_iff dep).1 (hready.deps dep hdep))
    | cons first earlier =>
      cases heq
      rcases hrest.deps earlier turn later rfl dep hdep with hdone | ⟨t', ht', rfl⟩
      · rcases List.mem_append.1 hdone with hdone | hdone
        · exact .inl hdone
        · cases List.mem_singleton.1 hdone
          exact .inr ⟨_, List.mem_cons_self, rfl⟩
      · exact .inr ⟨t', List.mem_cons_of_mem _ ht', rfl⟩
  · intro turn hturn
    rcases List.mem_cons.1 hturn with rfl | hturn
    · exact ⟨hready, fun it hit => nextRunnableItem_le hnext hit⟩
    · exact hrest.least turn hturn
  · rintro turn ⟨⟩
    exact ⟨rfl, h.active item hnext⟩
  · exact List.isChain_cons.2 ⟨hrest.first, hrest.next⟩

theorem Working.loop (h : Working runId items done s st) (hplan : Schedulable items) (ambs : List Ambient)
    (hturns : items.length < done.length + ambs.length) :
    ∃ turns t, scheduleLoop runId ambs s = .ok (some turns, t) ∧
      WorkedFrom runId items done st turns t := by
  induction ambs generalizing done s st with
  | nil =>
    have hsub : done.length ≤ (items.map PlannerItem.planItemId).length :=
      (h.nodup.subperm h.known).length_le
    rw [List.length_map] at hsub
    rw [List.length_nil] at hturns
    omega
  | cons amb ambs ih =>
    have hload : fetch (·.loadRequiredPlan runId) s = .ok (st, s) :=
      fetch_run (loadRequiredPlan_ok.2 h.fitting.loaded)
    have hfetch : fetch (·.nextRunnableItem runId) s = .ok (nextRunnableItem st, s) := by
      refine fetch_run ?_
      unfold Store.nextRunnableItem
      rw [loadRequiredPlan_ok.2 h.fitting.loaded]
      rfl
    unfold scheduleLoop
    rw [bind_run hload, bind_run hfetch]
    cases hnext : nextRunnableItem st with
    | none => exact ⟨[], s, rfl, h.stop hplan hnext⟩
    | some item =>
      obtain ⟨after, s', hrun, hworking⟩ := h.turn hnext amb
      have hlen : items.length < (done ++ [item.planItemId]).length + ambs.length := by
        rw [List.length_append, List.length_singleton]
        rw [List.length_cons] at hturns
        omega
      obtain ⟨turns, t, hloop, hrest⟩ := ih hworking hlen
      refine ⟨⟨st, item, after⟩ :: turns, t, ?_, h.cons hnext hrest⟩
      dsimp only
      rw [bind_run hrun, bind_run hloop]
      rfl

end

/-! ## Accepted plans -/

section
variable {amb : Ambient} {runId text : String} {raws : List RawPlanItem}
  {schema : Option RawPlanSchema} {s s' : Store} {out : PlannerState}

/-- Right after its creation a schedulable plan is at the start of the loop. -/
theorem createPlan_working (h : createPlan amb runId text raws schema s = .ok (out, s'))
    (hrun : Trimmed runId) (hplan : Schedulable out.items) :
    ∃ st, Working runId out.items [] s' st := by
  obtain ⟨st, hload, hsorted, hperm, hactive, -⟩ := createPlan_loaded h hrun
  obtain ⟨row, hcreated, -, hto, -⟩ := createPlan_saved h
  have hitems : out.items = row.items := hto.items.trans hcreated.normal.map_stripped
  have hnodup : (st.items.map PlannerItem.sequenceIndex).Nodup := by
    rw [(hperm.map _).nodup_iff, hplan.indexes.nodup_iff]
    exact List.nodup_range.map fun a b hab => Int.ofNat.inj hab
  refine ⟨st, ⟨hload, hsorted, hperm.map _, ?_⟩, hperm.map _, ?_, ?_, ?_, List.nodup_nil⟩
  · intro it hit
    have hmem := hplan.indexes.mem_iff.1 (List.mem_map_of_mem (hperm.mem_iff.1 hit))
    obtain ⟨i, hi, heq⟩ := List.mem_map.1 hmem
    rw [← heq, hperm.length_eq]
    exact Int.ofNat_lt.2 (List.mem_range.1 hi)
  · intro it hit
    rw [if_neg List.not_mem_nil]
    exact hplan.pending it (hperm.mem_iff.1 hit)
  · intro item hitem
    have hrow : nextRunnableItem row = some item := by
      rw [← hitem]
      exact (nextRunnableItem_perm (hitems ▸ hperm) hnodup).symm
    rw [hactive, hto.activeItemId, hcreated.atFirst.active, hrow]
    rfl
  · intro p hp
    cases hp

/-- A plan created in an empty store under an id with white space around it is not found again. -/
theorem createPlan_lost (h : createPlan amb runId text raws schema {} = .ok (out, s'))
    (hrun : ¬ Trimmed runId) (r : PlannerState) : s'.loadRequiredPlan runId ≠ .ok r := by
  obtain ⟨row, hcreated, -, -, rfl⟩ := createPlan_saved h
  intro hload
  obtain ⟨-, row', hget, -⟩ := loadPlan_ok.1 (loadRequiredPlan_ok.1 hload)
  rw [Store.putPlan_plannerStates, Table.get_put_ne _ row] at hget
  · cases hget
  · rw [hcreated.runId]
    exact hrun

end

/-- **The scheduler is sound and complete** for an accepted plan of pending items with indexes
`0 … n-1` and acyclic dependencies, exactly when its run id is stripped. -/
theorem schedule_complete (amb : Ambient) (runId text : String) (raws : List RawPlanItem)
    (schema : Option RawPlanSchema) (out : PlannerState)
    (haccepted : ∃ s s', createPlan amb runId text raws schema s = .ok (out, s'))
    (hplan : Schedulable out.items) :
    (∀ s s', createPlan amb runId text raws schema s = .ok (out, s') →
      ∀ ambs : List Ambient, out.items.length < ambs.length →
        ∃ turns t, scheduleLoop runId ambs s' = .ok (some turns, t) ∧
          WorkedOff runId out.items turns t) ↔
      Trimmed runId := by
  constructor
  · intro hall
    by_contra hrun
    obtain ⟨s, s', hcreate⟩ := haccepted
    obtain ⟨t, hempty⟩ := createPlan_anywhere hcreate {}
    obtain ⟨turns, t', hloop, -⟩ := hall {} t hempty (List.replicate (out.items.length + 1) amb) (by simp)
    rw [List.replicate_succ] at hloop
    unfold scheduleLoop at hloop
    obtain ⟨before, s1, hload, -⟩ := bind_ok.1 hloop
    exact createPlan_lost hempty hrun before (fetch_pair.1 hload).1
  · intro hrun s s' hcreate ambs hambs
    obtain ⟨st, hworking⟩ := createPlan_working hcreate hrun hplan
    obtain ⟨turns, t, hloop, hw⟩ := hworking.loop hplan ambs (by simpa using hambs)
    have htaken : (turns.map fun turn => turn.item.planItemId).Perm
        (out.items.map PlannerItem.planItemId) := hw.taken
    refine ⟨turns, t, hloop, ?_, htaken, ?_, hw.least, hw.next, hw.done⟩
    · simpa using htaken.length_eq
    · intro earlier turn later heq dep hdep
      rcases hw.deps earlier turn later heq dep hdep with hnil | hearlier
      · cases hnil
      · exact hearlier

/-! ## Examples of both kinds -/

/-- Booking needs the search, though it has the smaller index. -/
def bookingSteps : List RawPlanItem :=
  [{ planItemId := some "book", title := some "Book", dependsOn := some ["search"] },
    { planItemId := some "search", title := some "Search" }]

/-- What the first turns of the loop raise, for a plan created under this run id in an empty store. -/
def raisedByLoop (runId : String) : Option PyError :=
  match createPlan stillAmbient runId "" bookingSteps none {} with
  | .error _ => none
  | .ok (_, s) =>
    match scheduleLoop runId [stillAmbient, stillAmbient, stillAmbient] s with
    | .error e => some e
    | .ok _ => none

/-- A padded run id: the plan is accepted, and the first turn does not find it. -/
theorem padded_plan_unscheduled :
    raisedByLoop " trip " = some (.value "planner state not found for run_id= trip ") ∧
      raisedByLoop "trip" = none := by
  decide +kernel

/-- The items of the created plan. -/
def bookingItem (planItemId title : String) (sequenceIndex : ℤ) (dependsOn : List String) : PlannerItem :=
  { planItemId := planItemId, title := title, description := "", status := .pending,
    sequenceIndex := sequenceIndex, dependsOn := dependsOn, acceptanceCriteria := [], llmOutput := none,
    llmOutputHistory := [], toolCallRefs := [], notes := [], updatedAt := 0 }

def bookingItems : List PlannerItem :=
  [bookingItem "book" "Book" 0 ["search"], bookingItem "search" "Search" 1 []]

theorem schedulable_bookingItems : Schedulable bookingItems := by
  refine ⟨by decide, by decide, by decide +kernel, ?_⟩
  refine acyclic_of_rank (fun p => if p = "book" then 1 else 0) ?_
  rintro q p ⟨it, hit, rfl, hq⟩
  unfold bookingItems at hit
  rcases List.mem_cons.1 hit with rfl | hit
  · cases List.mem_singleton.1 hq
    decide
  · cases List.mem_singleton.1 hit
    cases hq

/-- The created plan has these items. -/
theorem createPlan_bookingSteps : ∃ out s', createPlan stillAmbient "trip" "" bookingSteps none {} =
    .ok (out, s') ∧ out.items = bookingItems := by
  have hrun : (createPlan stillAmbient "trip" "" bookingSteps none {}).toOption.map
      (fun r => r.1.items) = some bookingItems := by decide +kernel
  cases hx : createPlan stillAmbient "trip" "" bookingSteps none {} with
  | error e =>
    rw [hx] at hrun
    cases hrun
  | ok r =>
    rw [hx] at hrun
    exact ⟨r.1, r.2, rfl, Option.some.inj hrun⟩

theorem bookingSteps_scheduled : ∃ out s', createPlan stillAmbient "trip" "" bookingSteps none {} =
    .ok (out, s') ∧ ∀ ambs : List Ambient, 2 < ambs.length →
      ∃ turns t, scheduleLoop "trip" ambs s' = .ok (some turns, t) ∧
        WorkedOff "trip" bookingItems turns t := by
  obtain ⟨out, s', hcreate, hitems⟩ := createPlan_bookingSteps
  have hloop := (schedule_complete stillAmbient "trip" "" bookingSteps none out ⟨{}, s', hcreate⟩
    (hitems ▸ schedulable_bookingItems)).2 (by decide +kernel) {} s' hcreate
  rw [hitems] at hloop
  exact ⟨out, s', hcreate, hloop⟩

end Raef
