import Raef.Proofs.PlanFrame

/-!
# The active item

`active_item_id` is set to the first runnable item when a plan is created, and again when the item it
names is completed and another one is runnable.  Every other change of a status leaves it where it is.

    a status change: who is done, who is ready                                    (isDone_status)
    live pointer, or nothing made runnable → not stuck afterwards                 (unstuck_status)
    no item made runnable behind the pointer's back → never stuck                 (active_never_stuck)
-/

namespace Raef

open Text Txn

/-! ## Statements -/

/-- The active item is set, and not done. -/
def PlannerState.PointerLive (st : PlannerState) : Prop := ∃ a, st.activeItemId = some a ∧ ¬ st.IsDone a

/-- Whenever an item is runnable, the pointer is live. -/
def PlannerState.Unstuck (st : PlannerState) : Prop := (∃ item, st.Ready item) → st.PointerLive

/-- The change of `p` to this status makes an item runnable: `p` itself, or one that waits for `p` alone. -/
def PlannerState.Enables (st : PlannerState) (p : String) (next : PlannerItemStatus) : Prop :=
  (next = .pending ∧ ∃ item ∈ st.items, item.planItemId = p ∧ ∀ dep ∈ item.dependsOn, st.IsDone dep) ∨
    (next = .done ∧ ∃ item ∈ st.items, item.planItemId ≠ p ∧ item.status = .pending ∧
      p ∈ item.dependsOn ∧ ∀ dep ∈ item.dependsOn, dep = p ∨ st.IsDone dep)

/-- No done item is made active, and no item made runnable while the pointer is not live. -/
def PlannerOp.KeepsPointer (s : Store) : PlannerOp → Prop
  | .setActiveItem r p => ∀ st, s.loadPlan r = .ok (some st) → ¬ st.IsDone p
  | .updateItemStatus r p status _ => ∀ st next, s.loadPlan r = .ok (some st) → parseStatus status = .ok next →
      st.PointerLive ∨ ¬ st.Enables p next
  | _ => True

/-- A call of the service that meets the condition, whether it returns or raises. -/
def PointerTurn (s s' : Store) : Prop := ∃ amb op, PlannerOp.KeepsPointer s op ∧ s' = (op.alone amb s).2

/-! ## What the scheduler sees of an item -/

def PlannerItem.progress (item : PlannerItem) : String × PlannerItemStatus × List String :=
  (item.planItemId, item.status, item.dependsOn)

/-- The same items, as far as the scheduler goes. -/
def PlannerState.SameProgress (st st' : PlannerState) : Prop :=
  ∀ e, e ∈ st.items.map PlannerItem.progress ↔ e ∈ st'.items.map PlannerItem.progress

section
variable {st st' : PlannerState} {p q : String}

theorem isDone_iff_progress : st.IsDone q ↔ ∃ deps, (q, .done, deps) ∈ st.items.map PlannerItem.progress := by
  constructor
  · rintro ⟨it, hit, hdone, rfl⟩
    exact ⟨it.dependsOn, List.mem_map.2 ⟨it, hit, by rw [PlannerItem.progress, hdone]⟩⟩
  · rintro ⟨deps, hmem⟩
    obtain ⟨it, hit, heq⟩ := List.mem_map.1 hmem
    simp only [PlannerItem.progress, Prod.mk.injEq] at heq
    exact ⟨it, hit, heq.2.1, heq.1⟩

theorem PlannerState.SameProgress.isDone (h : st.SameProgress st') : st.IsDone q ↔ st'.IsDone q := by
  rw [isDone_iff_progress, isDone_iff_progress]
  exact exists_congr fun deps => h _

theorem PlannerState.SameProgress.ready (h : st.SameProgress st') {item : PlannerItem} (hr : st.Ready item) :
    ∃ item', st'.Ready item' := by
  obtain ⟨item', hitem', heq⟩ := List.mem_map.1 ((h _).1 (List.mem_map_of_mem hr.mem))
  unfold PlannerItem.progress at heq
  simp only [Prod.mk.injEq] at heq
  obtain ⟨-, hstatus, hdeps⟩ := heq
  refine ⟨item', hitem', hstatus.trans hr.pending, fun dep hdep => ?_⟩
  rw [hdeps] at hdep
  exact h.isDone.1 (hr.deps dep hdep)

theorem PlannerState.SameProgress.symm (h : st.SameProgress st') : st'.SameProgress st := fun e => (h e).symm

/-- The pointer and the progress of the items decide. -/
theorem PlannerState.Unstuck.congr (hu : st.Unstuck) (h : st.SameProgress st')
    (hactive : st'.activeItemId = st.activeItemId) : st'.Unstuck := by
  rintro ⟨item, hitem⟩
  obtain ⟨a, ha, hnot⟩ := hu (h.symm.ready hitem)
  exact ⟨a, hactive.trans ha, fun hdone => hnot (h.isDone.2 hdone)⟩

theorem sameProgress_queried (st : PlannerState) : st.SameProgress st.queried := fun _ =>
  ((st.queried_perm.map PlannerItem.progress).mem_iff).symm

/-- A change of an item that keeps what the scheduler sees. -/
theorem sameProgress_modifyItem {f : PlannerItem → PlannerItem} (hf : ∀ it : PlannerItem, (f it).progress = it.progress)
    (h : st'.items = modifyItem p f st.items) : st.SameProgress st' := by
  have hmap : ∀ items : List PlannerItem,
      (modifyItem p f items).map PlannerItem.progress = items.map PlannerItem.progress := by
    intro items
    induction items with
    | nil => rfl
    | cons it items ih =>
      unfold modifyItem
      split
      · rw [List.map_cons, List.map_cons, hf]
      · rw [List.map_cons, List.map_cons, ih]
  intro e
  rw [h, hmap]

/-- A plan that stands at its first runnable item is not stuck. -/
theorem PlannerState.AtFirst.unstuck (h : st.AtFirst) (hnodup : (st.items.map PlannerItem.planItemId).Nodup) :
    st.Unstuck := by
  rintro ⟨item, hitem⟩
  cases hnext : nextRunnableItem st with
  | none => exact absurd hitem (nextRunnableItem_none hnext item)
  | some first =>
    obtain ⟨hmem, hpending, -⟩ := nextRunnableItem_some hnext
    refine ⟨first.planItemId, by rw [h.active, hnext]; rfl, ?_⟩
    rintro ⟨it, hit, hdone, hid⟩
    have hsame : it = first := List.inj_on_of_nodup_map hnodup hit hmem hid
    rw [hsame, hpending] at hdone
    cases hdone

/-! ## A status change -/

theorem updated_status (now : Time) (next : PlannerItemStatus) (note : Option String) (item : PlannerItem) :
    (item.updated now next note).status = next := by
  unfold PlannerItem.updated
  dsimp only
  by_cases hne : next ≠ item.status
  · rw [if_pos hne]
    cases noteText note <;> rfl
  · rw [if_neg hne]
    have hsame : item.status = next := (not_not.1 hne).symm
    cases noteText note <;> exact hsame

theorem updated_dependsOn (now : Time) (next : PlannerItemStatus) (note : Option String) (item : PlannerItem) :
    (item.updated now next note).dependsOn = item.dependsOn := by
  unfold PlannerItem.updated
  dsimp only
  by_cases hne : next ≠ item.status
  · rw [if_pos hne]
    cases noteText note <;> rfl
  · rw [if_neg hne]
    cases noteText note <;> rfl

variable {now : Time} {next : PlannerItemStatus} {note : Option String}

/-- The items after the change: the one of this id has the status, the others are the same. -/
theorem mem_status (hnodup : (st.items.map PlannerItem.planItemId).Nodup)
    (h : st'.items = modifyItem p (PlannerItem.updated now next note) st.items) {item : PlannerItem} :
    item ∈ st'.items ↔ (item ∈ st.items ∧ item.planItemId ≠ p) ∨
      ∃ it ∈ st.items, it.planItemId = p ∧ item = it.updated now next note := by
  rw [h, modifyItem_eq_map hnodup, List.mem_map]
  constructor
  · rintro ⟨it, hit, rfl⟩
    by_cases hp : it.planItemId = p
    · rw [if_pos hp]
      exact .inr ⟨it, hit, hp, rfl⟩
    · rw [if_neg hp]
      exact .inl ⟨hit, hp⟩
  · rintro (⟨hit, hp⟩ | ⟨it, hit, hp, rfl⟩)
    · exact ⟨item, hit, if_neg hp⟩
    · exact ⟨it, hit, if_pos hp⟩

/-- Who is done after the change. -/
theorem isDone_status (hnodup : (st.items.map PlannerItem.planItemId).Nodup)
    (h : st'.items = modifyItem p (PlannerItem.updated now next note) st.items)
    (hfound : p ∈ st.items.map PlannerItem.planItemId) :
    st'.IsDone q ↔ (q = p ∧ next = .done) ∨ (q ≠ p ∧ st.IsDone q) := by
  have hid : ∀ it : PlannerItem, (it.updated now next note).planItemId = it.planItemId :=
    fun it => (PlannerItem.kept_updated now next note it).planItemId
  constructor
  · rintro ⟨item, hitem, hdone, rfl⟩
    rcases (mem_status hnodup h).1 hitem with ⟨hmem, hp⟩ | ⟨it, hit, hp, rfl⟩
    · exact .inr ⟨hp, item, hmem, hdone, rfl⟩
    · rw [updated_status] at hdone
      exact .inl ⟨(hid it).trans hp, hdone⟩
  · rintro (⟨rfl, hnext⟩ | ⟨hq, item, hitem, hdone, rfl⟩)
    · obtain ⟨it, hit, hp⟩ := List.mem_map.1 hfound
      exact ⟨_, (mem_status hnodup h).2 (.inr ⟨it, hit, hp, rfl⟩), (updated_status _ _ _ _).trans hnext,
        (hid it).trans hp⟩
    · exact ⟨item, (mem_status hnodup h).2 (.inl ⟨hitem, hq⟩), hdone, rfl⟩

/-- Who is ready after the change was ready before, or was made runnable by it. -/
theorem ready_status (hnodup : (st.items.map PlannerItem.planItemId).Nodup)
    (h : st'.items = modifyItem p (PlannerItem.updated now next note) st.items)
    (hfound : p ∈ st.items.map PlannerItem.planItemId) (hr : ∃ item, st'.Ready item) :
    (∃ item, st.Ready item) ∨ st.Enables p next := by
  obtain ⟨item, hmem, hpending, hdeps⟩ := hr
  rcases (mem_status hnodup h).1 hmem with ⟨hitem, hp⟩ | ⟨it, hit, hp, rfl⟩
  · by_cases hall : ∀ dep ∈ item.dependsOn, st.IsDone dep
    · exact .inl ⟨item, hitem, hpending, hall⟩
    · simp only [not_forall] at hall
      obtain ⟨dep, hdep, hnot⟩ := hall
      -- the dependency that became done is the item itself
      have hopen : dep = p ∧ next = .done := by
        rcases (isDone_status hnodup h hfound).1 (hdeps dep hdep) with hown | ⟨-, hdone⟩
        · exact hown
        · exact absurd hdone hnot
      refine .inr (.inr ⟨hopen.2, item, hitem, hp, hpending, hopen.1 ▸ hdep, fun other hother => ?_⟩)
      rcases (isDone_status hnodup h hfound).1 (hdeps other hother) with hown | ⟨-, hdone⟩
      · exact .inl hown.1
      · exact .inr hdone
  · have hnext : next = .pending := (updated_status now next note it).symm.trans hpending
    refine .inr (.inl ⟨hnext, it, hit, hp, fun dep hdep => ?_⟩)
    rw [← updated_dependsOn now next note it] at hdep
    rcases (isDone_status hnodup h hfound).1 (hdeps dep hdep) with ⟨-, hdone⟩ | ⟨-, hdone⟩
    · rw [hnext] at hdone
      cases hdone
    · exact hdone

/-- A status change keeps the plan unstuck, unless it makes an item runnable behind the pointer's back. -/
theorem unstuck_status {status : String} (hnodup : (st.items.map PlannerItem.planItemId).Nodup)
    (hst : updateItemStatusState now p status note st = .ok st') (hnext : parseStatus status = .ok next)
    (hu : st.Unstuck) (hcond : st.PointerLive ∨ ¬ st.Enables p next) : st'.Unstuck := by
  unfold updateItemStatusState at hst
  simp only [except_bind_ok, raiseIf_ok, except_pure_ok] at hst
  obtain ⟨found, hfound, next', hnext', _, -, rfl⟩ := hst
  rw [hnext] at hnext'
  cases hnext'
  obtain ⟨hmem, rfl⟩ := findItem_ok hfound
  have hids : found.planItemId ∈ st.items.map PlannerItem.planItemId := List.mem_map_of_mem hmem
  set st1 := st.setItem found.planItemId (PlannerItem.updated now next note) with hst1
  have hitems : st1.items = modifyItem found.planItemId (PlannerItem.updated now next note) st.items := rfl
  have hnodup1 : (st1.items.map PlannerItem.planItemId).Nodup := by
    rw [hitems, modifyItem_ids fun it => (PlannerItem.kept_updated now next note it).planItemId]
    exact hnodup
  unfold PlannerState.moveOn
  by_cases hmove : next = .done ∧ st1.activeItemId = some found.planItemId
  · rw [if_pos hmove]
    cases hfirst : nextRunnableItem st1 with
    | none => exact fun ⟨item, hitem⟩ => absurd hitem (nextRunnableItem_none hfirst item)
    | some first =>
      obtain ⟨hfirst, hpending, -⟩ := nextRunnableItem_some hfirst
      refine fun _ => ⟨first.planItemId, rfl, ?_⟩
      rintro ⟨it, hit, hdone, hid⟩
      have hsame : it = first := List.inj_on_of_nodup_map hnodup1 hit hfirst hid
      rw [hsame, hpending] at hdone
      cases hdone
  · rw [if_neg hmove]
    intro hready
    have hlive : st.PointerLive := by
      rcases ready_status hnodup hitems hids hready with hbefore | henables
      · exact hu hbefore
      · exact hcond.resolve_right fun hnot => hnot henables
    obtain ⟨a, ha, hnot⟩ := hlive
    refine ⟨a, ha, fun hdone => ?_⟩
    rcases (isDone_status hnodup hitems hids).1 hdone with ⟨rfl, hnext⟩ | ⟨-, hdone⟩
    · exact hmove ⟨hnext, ha⟩
    · exact hnot hdone

/-! ## The other updates -/

theorem unstuck_active (hst : setActiveItemState now p st = .ok st') (hp : ¬ st.IsDone p) : st'.Unstuck := by
  have hu := setActiveItemState_ok hst
  have hsame : st.SameProgress st' := sameProgress_modifyItem (f := PlannerItem.touched now) (fun _ => rfl) hu.items
  unfold setActiveItemState at hst
  simp only [except_bind_ok, except_pure_ok] at hst
  obtain ⟨item, hitem, rfl⟩ := hst
  obtain ⟨-, rfl⟩ := findItem_ok hitem
  exact fun _ => ⟨item.planItemId, rfl, fun hdone => hp (hsame.isDone.2 hdone)⟩

theorem unstuck_llmOutput {output : String} (hst : attachLlmOutputState now p output st = .ok st')
    (hu : st.Unstuck) : st'.Unstuck := by
  have hupdate := (attachLlmOutputState_ok hst).1
  refine hu.congr (sameProgress_modifyItem (f := PlannerItem.withLlmOutput now (strip output)) (fun _ => rfl) hupdate.items) ?_
  unfold attachLlmOutputState at hst
  simp only [except_bind_ok, except_pure_ok] at hst
  obtain ⟨_, -, _, -, rfl⟩ := hst
  rfl

theorem unstuck_toolCallRef {e : String} (hst : attachToolCallRefState now p e st = .ok st')
    (hu : st.Unstuck) : st'.Unstuck := by
  obtain ⟨hupdate, -, hactive, -⟩ := attachToolCallRefState_ok hst
  refine hu.congr (sameProgress_modifyItem (fun it => ?_) hupdate.items) hactive
  unfold PlannerItem.withToolCallRef
  split <;> rfl

end

/-! ## Runs -/

/-- Every plan that can be loaded is not stuck. -/
def Store.Unstuck (s : Store) : Prop := ∀ runId st, s.loadPlan runId = .ok (some st) → st.Unstuck

section
variable {amb : Ambient} {op : PlannerOp} {s s' : Store}

/-- What a write leaves to load, when its row is not stuck. -/
theorem Store.Unstuck.write {fresh : String → Prop} {row : PlannerState} (hs : s.PlansSettled) (hu : s.Unstuck)
    (hrow : PlanWrite fresh amb s row) (hunstuck : row.Unstuck) : (s.putPlan row).Unstuck := by
  intro runId st hload
  obtain ⟨hb, found, hfound, hdec⟩ := loadPlan_ok.1 hload
  rw [Store.putPlan_plannerStates, Table.get_put] at hfound
  split at hfound
  · next hkey =>
    cases hfound
    have hst := (hrow.settled hs).decode (hkey ▸ trimmed_strip runId) hdec
    rw [hst]
    exact hunstuck.congr (sameProgress_queried row) rfl
  · exact hu runId st (loadPlan_ok.2 ⟨hb, found, hfound, hdec⟩)

/-- An update that keeps the loaded plan unstuck keeps every plan so. -/
theorem Store.Unstuck.update (runId : String) {p : String} {g : PlannerState → Except PyError PlannerState}
    (hs : s.PlansSettled) (hu : s.Unstuck) (hg : PlanChange amb.now p g)
    (hkeep : ∀ st st', s.loadPlan runId = .ok (some st) → g st = .ok st' → st'.Unstuck) :
    (updatePlanAlone amb runId g s).2.Unstuck := by
  rcases savePlanAlone_store amb s (x := do
    let state ← s.loadRequiredPlan runId
    let state ← g state
    return { state with version := state.version + 1 }) with hsame | ⟨state, hstate, hint, hput⟩
  · have hstill : (updatePlanAlone amb runId g s).2 = s := hsame
    rw [hstill]
    exact hu
  · simp only [except_bind_ok, except_pure_ok] at hstate
    obtain ⟨st, hload, st', hst, rfl⟩ := hstate
    have hload := loadRequiredPlan_ok.1 hload
    have hsaved : (updatePlanAlone amb runId g s).2 = s.putPlan (st'.bumped amb) := hput
    have hrow : PlanWrite (fun _ => True) amb s (st'.bumped amb) := .updated hg hload hst hint
    rw [hsaved]
    exact hu.write hs hrow ((hkeep st st' hload hst).congr (fun _ => Iff.rfl) rfl)

theorem Store.Unstuck.create {runId text : String} {raws : List RawPlanItem} {schema : Option RawPlanSchema}
    (hs : s.PlansSettled) (hu : s.Unstuck) :
    ((PlannerOp.createPlan runId text raws schema).alone amb s).2.Unstuck := by
  rcases savePlanAlone_store amb s (x := createPlanState amb.now runId text raws schema) with
    hsame | ⟨st, hst, hint, hput⟩
  · have hstill : ((PlannerOp.createPlan runId text raws schema).alone amb s).2 = s := hsame
    rw [hstill]
    exact hu
  · have hsaved : ((PlannerOp.createPlan runId text raws schema).alone amb s).2 = s.putPlan (st.saved amb) := hput
    have hrow : PlanWrite (fun _ => True) amb s (st.saved amb) := .created trivial hst hint
    have hnodup : (st.items.map PlannerItem.planItemId).Nodup := hint.nodup
    rw [hsaved]
    exact hu.write hs hrow (((createPlanState_ok hst).atFirst.unstuck hnodup).congr (fun _ => Iff.rfl) rfl)

theorem unstuck_turn (h : PointerTurn s s') (hs : s.PlansSettled) (hu : s.Unstuck) : s'.Unstuck := by
  obtain ⟨amb, op, hop, rfl⟩ := h
  cases op with
  | createPlan runId text raws schema => exact hu.create hs
  | setActiveItem r p =>
    exact hu.update r hs (.active p) fun st st' hload hst => unstuck_active hst (hop st hload)
  | updateItemStatus r p status note =>
    refine hu.update r hs (.status p status note) fun st st' hload hst => ?_
    obtain ⟨hdec, hnormal⟩ := loadPlan_normal hload
    obtain ⟨next, hnext, -⟩ := updateItemStatusState_ok hst
    exact unstuck_status (hnormal.integrity hdec).nodup hst hnext (hu r st hload) (hop st next hload hnext)
  | attachLlmOutput r p output =>
    exact hu.update r hs (.llmOutput p output) fun st st' hload hst =>
      unstuck_llmOutput hst (hu r st hload)
  | attachToolCallRef r p e =>
    exact hu.update r hs (.toolCallRef p e) fun st st' hload hst =>
      unstuck_toolCallRef hst (hu r st hload)

theorem unstuck_turns (h : Relation.ReflTransGen PointerTurn {} s) : s.PlansSettled ∧ s.Unstuck := by
  induction h with
  | refl =>
    refine ⟨fun k row hrow => (nomatch hrow), fun runId st hload => ?_⟩
    obtain ⟨-, row, hrow, -⟩ := loadPlan_ok.1 hload
    cases hrow
  | @tail s1 _ _ hturn ih =>
    refine ⟨?_, unstuck_turn hturn ih.1 ih.2⟩
    obtain ⟨amb, op, -, rfl⟩ := hturn
    have hservice : PlanTurn {} (fun _ => True) s1 (op.alone amb s1).2 := .service amb op fun _ => trivial
    exact settled_turn hservice ih.1

end

/-- **The active item does not get stuck**, in every state that calls of the service lead to, as long
as no call makes an item runnable while the active item is unset or done. -/
theorem active_never_stuck (s : Store) (hreach : Relation.ReflTransGen PointerTurn {} s) (runId : String)
    (st : PlannerState) (hload : s.loadPlan runId = .ok (some st)) (hrunnable : ∃ item, st.Ready item) :
    st.PointerLive :=
  (unstuck_turns hreach).2 runId st hload hrunnable

/-! ## A blocked step -/

/-- The booking is blocked at first. -/
def blockedSteps : List RawPlanItem :=
  [{ title := some "Search" }, { title := some "Book", status := some "blocked" }]

/-- The store after these calls. -/
def aloneAll (ops : List PlannerOp) : Store := ops.foldl (fun s op => (op.alone stillAmbient s).2) {}

/-- The active item, the statuses and what the scheduler picks after these calls. -/
def standAfter (ops : List PlannerOp) : Option (Option String × List PlannerItemStatus × Option String) :=
  match (aloneAll ops).loadPlan "trip" with
  | .ok (some st) =>
    some (st.activeItemId, st.items.map PlannerItem.status, (nextRunnableItem st).map PlannerItem.planItemId)
  | _ => none

/-- The search is completed while the booking is blocked: once unblocked, the booking is runnable, and
the active item is the search. -/
theorem unblocked_behind_pointer : standAfter [.createPlan "trip" "" blockedSteps none,
    .updateItemStatus "trip" "step_0" "done" none, .updateItemStatus "trip" "step_1" "pending" none] =
      some (some "step_0", [.done, .pending], some "step_1") := by
  decide +kernel

/-- Unblocked while the search is active, the booking does not leave the pointer behind. -/
theorem unblocked_in_time : ∃ s st, s = aloneAll [.createPlan "trip" "" blockedSteps none,
    .updateItemStatus "trip" "step_1" "pending" none] ∧ s.loadPlan "trip" = .ok (some st) ∧ st.PointerLive := by
  set s1 := aloneAll [.createPlan "trip" "" blockedSteps none] with hs1
  have hfirst : PointerTurn {} s1 := ⟨stillAmbient, .createPlan "trip" "" blockedSteps none, trivial, rfl⟩
  have hlive : (match s1.loadPlan "trip" with
      | .ok (some st) => decide (st.activeItemId = some "step_0" ∧ ∀ it ∈ st.items, it.status ≠ .done)
      | _ => false) = true := by
    rw [hs1]
    decide +kernel
  have hsecond : PointerTurn s1 ((PlannerOp.updateItemStatus "trip" "step_1" "pending" none).alone stillAmbient s1).2 := by
    refine ⟨stillAmbient, _, fun st next hload _ => .inl ?_, rfl⟩
    rw [hload] at hlive
    obtain ⟨hactive, hnone⟩ := of_decide_eq_true hlive
    exact ⟨"step_0", hactive, fun ⟨it, hit, hdone, _⟩ => hnone it hit hdone⟩
  set s2 := ((PlannerOp.updateItemStatus "trip" "step_1" "pending" none).alone stillAmbient s1).2 with hs2
  have hrun : (match s2.loadPlan "trip" with
      | .ok (some st) => (nextRunnableItem st).isSome
      | _ => false) = true := by
    rw [hs2, hs1]
    decide +kernel
  cases hload : s2.loadPlan "trip" with
  | error e =>
    rw [hload] at hrun
    cases hrun
  | ok found =>
    rw [hload] at hrun
    cases found with
    | none => cases hrun
    | some st =>
      obtain ⟨item, hitem⟩ := Option.isSome_iff_exists.1 hrun
      have hstuck := active_never_stuck s2 (.tail (.single hfirst) hsecond) "trip" st hload
        ⟨item, nextRunnableItem_ready hitem⟩
      exact ⟨s2, st, rfl, hload, hstuck⟩

end Raef
