import Raef.Proofs.PlanRows
import Raef.Proofs.Scheduler

/-!
# What an update of a plan leaves alone

An update of the service names one item.  It loads the plan through a decoder, changes this item and
stores every row again; what it stores is normal, so nothing else moves.

    one update: the item it names, along the table, and the version        (PlanChange.moved)
    what is stored is what the next load gives                             (updated_load)
    success moves the named item, failure nothing, and done stays done     (plan_update_frame)
-/

namespace Raef

open Text Txn

/-! ## Statements -/

/-- What an update may change of the item it names. -/
structure PlannerItem.Moved (item item' : PlannerItem) : Prop where
  planItemId : item'.planItemId = item.planItemId
  title : item'.title = item.title
  description : item'.description = item.description
  dependsOn : item'.dependsOn = item.dependsOn
  acceptanceCriteria : item'.acceptanceCriteria = item.acceptanceCriteria
  sequenceIndex : item'.sequenceIndex = item.sequenceIndex
  status : item'.status = item.status ∨ item'.status ∈ item.status.allowed
  notes : item'.notes = item.notes ∨ ∃ note, item'.notes = item.notes ++ [note]
  llmOutputHistory : item'.llmOutputHistory = item.llmOutputHistory ∨
    ∃ output, item'.llmOutputHistory = item.llmOutputHistory ++ [output]
  toolCallRefs : item'.toolCallRefs = item.toolCallRefs ∨ ∃ ref, item'.toolCallRefs = item.toolCallRefs ++ [ref]

/-- The plan after an update of the item `p`: the other items are the same, in their places. -/
structure PlannerState.MovedAt (p : String) (st st' : PlannerState) : Prop where
  runId : st'.runId = st.runId
  planSourceText : st'.planSourceText = st.planSourceText
  planSchema : st'.planSchema = st.planSchema
  version : st'.version = st.version + 1
  named : p ∈ st.items.map PlannerItem.planItemId
  ids : st'.items.map PlannerItem.planItemId = st.items.map PlannerItem.planItemId
  items : List.Forall₂ (fun item item' => if item.planItemId = p then item.Moved item' else item' = item)
    st.items st'.items

/-- The item an operation of the service names. -/
def PlannerOp.planItemId : PlannerOp → Option String
  | .createPlan .. => none
  | .setActiveItem _ p => some p
  | .updateItemStatus _ p _ _ => some p
  | .attachLlmOutput _ p _ => some p
  | .attachToolCallRef _ p _ => some p

/-- The plan of the run has the item, and it is done. -/
def Store.HasDone (s : Store) (runId planItemId : String) : Prop :=
  ∃ st, s.loadPlan runId = .ok (some st) ∧ st.IsDone planItemId

/-! ## One update -/

theorem PlannerItem.Moved.refl (item : PlannerItem) : item.Moved item :=
  ⟨rfl, rfl, rfl, rfl, rfl, rfl, .inl rfl, .inl rfl, .inl rfl, .inl rfl⟩

theorem PlannerItem.moved_updated (now : Time) {next : PlannerItemStatus} (note : Option String)
    {item : PlannerItem} (h : ¬ (next ≠ item.status ∧ next ∉ item.status.allowed)) :
    item.Moved (item.updated now next note) := by
  have hstatus : next = item.status ∨ next ∈ item.status.allowed := by
    by_contra hnot
    rw [not_or] at hnot
    exact h hnot
  unfold PlannerItem.updated
  dsimp only
  by_cases hne : next ≠ item.status
  · have hallowed := hstatus.resolve_left hne
    rw [if_pos hne]
    cases noteText note with
    | none => exact ⟨rfl, rfl, rfl, rfl, rfl, rfl, .inr hallowed, .inl rfl, .inl rfl, .inl rfl⟩
    | some text => exact ⟨rfl, rfl, rfl, rfl, rfl, rfl, .inr hallowed, .inr ⟨text, rfl⟩, .inl rfl, .inl rfl⟩
  · rw [if_neg hne]
    cases noteText note with
    | none => exact .refl item
    | some text => exact ⟨rfl, rfl, rfl, rfl, rfl, rfl, .inl rfl, .inr ⟨text, rfl⟩, .inl rfl, .inl rfl⟩

/-- With unique ids only the items named are changed. -/
theorem forall₂_modifyItem {p : String} {f : PlannerItem → PlannerItem} {R : PlannerItem → PlannerItem → Prop}
    {items : List PlannerItem} (hnodup : (items.map PlannerItem.planItemId).Nodup)
    (hR : ∀ item ∈ items, item.planItemId = p → R item (f item)) :
    List.Forall₂ (fun item item' => if item.planItemId = p then R item item' else item' = item)
      items (modifyItem p f items) := by
  induction items with
  | nil => exact .nil
  | cons item items ih =>
    obtain ⟨hnot, hnodup⟩ := List.nodup_cons.1 hnodup
    unfold modifyItem
    split
    · next hp =>
      refine .cons ?_ (List.forall₂_same.2 fun other hother => ?_)
      · rw [if_pos hp]
        exact hR item List.mem_cons_self hp
      · rw [if_neg]
        rintro rfl
        exact hnot (hp ▸ List.mem_map_of_mem (f := PlannerItem.planItemId) hother)
    · next hp =>
      refine .cons ?_ (ih hnodup fun other hother => hR other (List.mem_cons_of_mem _ hother))
      rw [if_neg hp]

section
variable {now : Time} {p : String} {g : PlannerState → Except PyError PlannerState} {st st' : PlannerState}

/-- What an update keeps of the plan, and what it makes of the item. -/
theorem PlanChange.parts (hg : PlanChange now p g) (hnodup : (st.items.map PlannerItem.planItemId).Nodup)
    (hst : g st = .ok st') : ∃ f, PlanUpdate p f st st' ∧ st'.planSourceText = st.planSourceText ∧
      ∀ item ∈ st.items, item.planItemId = p → item.Moved (f item) := by
  cases hg with
  | active =>
    refine ⟨_, setActiveItemState_ok hst, ?_, fun item _ _ => ?_⟩
    · unfold setActiveItemState at hst
      simp only [except_bind_ok, except_pure_ok] at hst
      obtain ⟨_, -, rfl⟩ := hst
      rfl
    · exact ⟨rfl, rfl, rfl, rfl, rfl, rfl, .inl rfl, .inl rfl, .inl rfl, .inl rfl⟩
  | status status note =>
    obtain ⟨next, hnext, hu⟩ := updateItemStatusState_ok hst
    unfold updateItemStatusState at hst
    simp only [except_bind_ok, raiseIf_ok, except_pure_ok] at hst
    obtain ⟨found, hfound, next', hnext', _, hallowed, rfl⟩ := hst
    rw [hnext] at hnext'
    cases hnext'
    obtain ⟨hmem, hid⟩ := findItem_ok hfound
    refine ⟨_, hu, ?_, fun item hitem hp => ?_⟩
    · unfold PlannerState.moveOn
      split
      · split <;> rfl
      · rfl
    · -- ids are unique, so this is the item whose status was checked
      have hsame : item = found := List.inj_on_of_nodup_map hnodup hitem hmem (hp.trans hid.symm)
      exact PlannerItem.moved_updated now note (hsame ▸ hallowed)
  | llmOutput output =>
    refine ⟨_, (attachLlmOutputState_ok hst).1, ?_, fun item _ _ => ?_⟩
    · unfold attachLlmOutputState at hst
      simp only [except_bind_ok, except_pure_ok] at hst
      obtain ⟨_, -, _, -, rfl⟩ := hst
      rfl
    · exact ⟨rfl, rfl, rfl, rfl, rfl, rfl, .inl rfl, .inl rfl, .inr ⟨_, rfl⟩, .inl rfl⟩
  | toolCallRef e =>
    refine ⟨_, (attachToolCallRefState_ok hst).1, ?_, fun item _ _ => ?_⟩
    · unfold attachToolCallRefState at hst
      simp only [except_bind_ok, except_pure_ok] at hst
      obtain ⟨_, -, _, -, rfl⟩ := hst
      rfl
    · unfold PlannerItem.withToolCallRef
      split
      · exact .refl item
      · exact ⟨rfl, rfl, rfl, rfl, rfl, rfl, .inl rfl, .inl rfl, .inl rfl, .inr ⟨_, rfl⟩⟩

/-- One update moves the item it names. -/
theorem PlanChange.moved {amb : Ambient} (hg : PlanChange now p g)
    (hnodup : (st.items.map PlannerItem.planItemId).Nodup) (hst : g st = .ok st') :
    st.MovedAt p (st'.bumped amb) := by
  obtain ⟨f, hu, htext, hmoved⟩ := hg.parts hnodup hst
  refine ⟨hu.runId, htext, hu.schema, ?_, hu.found, hu.ids, ?_⟩
  · show st'.version + 1 = st.version + 1
    rw [hu.version]
  · show List.Forall₂ _ st.items st'.items
    rw [hu.items]
    exact forall₂_modifyItem hnodup hmoved

end

/-! ## One call -/

section
variable {cfg : LoggingServiceConfig} {amb : Ambient} {fresh : String → Prop} {runId p : String} {s s' : Store}
  {g : PlannerState → Except PyError PlannerState} {st st' : PlannerState}

/-- The row of an update is accepted by the decoder. -/
theorem updated_decodes (hu : ∃ f, PlanUpdate p f st st') (hload : s.loadPlan runId = .ok (some st))
    (hint : (st'.bumped amb).Integrity) : (st'.bumped amb).Decodes := by
  obtain ⟨f, hu⟩ := hu
  obtain ⟨hdec, hnormal⟩ := loadPlan_normal hload
  refine ⟨hu.itemsDecode hdec.items, hu.runId ▸ hdec.runId, hu.schema ▸ hdec.schema, ?_⟩
  have hn : (st'.bumped amb).ItemsNormal := hu.itemsNormal hnormal
  rw [hn.map_stripped]
  exact hint

/-- What an update stores is what the next load gives. -/
theorem updated_load (hs : s.PlansSettled) (hg : PlanChange amb.now p g)
    (hload : s.loadPlan runId = .ok (some st)) (hst : g st = .ok st') (hint : (st'.bumped amb).Integrity)
    (hput : s'.plannerStates = s.plannerStates.put (st'.bumped amb)) :
    s'.loadPlan runId = .ok (some (st'.bumped amb)) := by
  obtain ⟨f, hu⟩ := hg.update hst
  have hkey : (st'.bumped amb).runId = strip runId := hu.runId.trans (loadPlan_runId hload)
  have hsorted : (st'.bumped amb).items.Pairwise PlannerItem.Precedes := hu.sorted (hs.sorted hload)
  have hsettled : (st'.bumped amb).Settled := by
    obtain ⟨hitems, hschema⟩ := hu.settled (hs.loaded hload)
    exact ⟨hitems, hschema⟩
  obtain ⟨out, hout⟩ := decode_plan_run (updated_decodes ⟨f, hu⟩ hload hint)
  have hsame := hsettled.decode (hkey ▸ trimmed_strip runId) hout
  rw [queried_of_sorted hsorted] at hsame
  refine loadPlan_ok.2 ⟨(loadPlan_ok.1 hload).1, st'.bumped amb, ?_, hsame ▸ hout⟩
  rw [hput, ← hkey]
  exact Table.get_put_self _ _

/-- Every operation that names an item is an update of the loaded plan. -/
theorem PlannerOp.alone_update (amb : Ambient) (s : Store) {op : PlannerOp} (hp : op.planItemId = some p) :
    ∃ g, PlanChange amb.now p g ∧
    op.alone amb s = updatePlanAlone amb op.runId g s := by
  cases op with
  | createPlan => cases hp
  | setActiveItem r q =>
    cases hp
    exact ⟨_, .active _, rfl⟩
  | updateItemStatus r q status note =>
    cases hp
    exact ⟨_, .status _ status note, rfl⟩
  | attachLlmOutput r q output =>
    cases hp
    exact ⟨_, .llmOutput _ output, rfl⟩
  | attachToolCallRef r q e =>
    cases hp
    exact ⟨_, .toolCallRef _ e, rfl⟩

/-- An update that returns gives what it stored, which is what the next load gives. -/
theorem updatePlanAlone_returns {out : PlannerState} (hs : s.PlansSettled) (hg : PlanChange amb.now p g)
    (h : updatePlanAlone amb runId g s = (.ok out, s')) : ∃ st st', s.loadPlan runId = .ok (some st) ∧
      g st = .ok st' ∧ out = st'.bumped amb ∧ s'.loadPlan runId = .ok (some out) := by
  obtain ⟨st, st', hload, hst, hint, hout, rfl⟩ := updatePlan_saved (updatePlanAlone_ok.1 h)
  obtain ⟨f, hu⟩ := hg.update hst
  have hkey : (st'.bumped amb).runId = strip runId := hu.runId.trans (loadPlan_runId hload)
  have hsettled : (st'.bumped amb).Settled := by
    obtain ⟨hitems, hschema⟩ := hu.settled (hs.loaded hload)
    exact ⟨hitems, hschema⟩
  have hsame : out = st'.bumped amb := hsettled.fromDict (hkey ▸ trimmed_strip runId) hout
  refine ⟨st, st', hload, hst, hsame, ?_⟩
  rw [hsame]
  exact updated_load hs hg hload hst (validateIntegrity_ok.1 hint) rfl

/-- An update that raises has saved nothing: what passes the check of the save is decoded. -/
theorem updatePlanAlone_raises {e : PyError} (hg : PlanChange amb.now p g)
    (h : updatePlanAlone amb runId g s = (.error e, s')) : s' = s := by
  unfold updatePlanAlone savePlanAlone at h
  split at h
  · cases h
    rfl
  · next state hstate =>
    simp only [except_bind_ok, except_pure_ok] at hstate
    obtain ⟨st, hload, st', hst, rfl⟩ := hstate
    split at h
    · cases h
      rfl
    · next hint =>
      have hdec : (st'.bumped amb).Decodes :=
        updated_decodes (hg.update hst) (loadRequiredPlan_ok.1 hload) (validateIntegrity_ok.1 hint)
      obtain ⟨out, hout⟩ := fromDict_plan_run hdec
      have herr := congrArg Prod.fst h
      have hraised : (st'.bumped amb).fromDict = .error e := herr
      rw [hout] at hraised
      cases hraised

/-! ## Runs -/

theorem forall₂_left {α β : Type} {R : α → β → Prop} {l : List α} {l' : List β}
    (h : List.Forall₂ R l l') {a : α} (ha : a ∈ l) : ∃ b ∈ l', R a b := by
  induction h with
  | nil => cases ha
  | cons hab _ ih =>
    rcases List.mem_cons.1 ha with rfl | ha
    · exact ⟨_, List.mem_cons_self, hab⟩
    · obtain ⟨b, hb, hR⟩ := ih ha
      exact ⟨b, List.mem_cons_of_mem _ hb, hR⟩

/-- No update takes an item out of its final status. -/
theorem PlannerState.MovedAt.isDone {q : String} (h : st.MovedAt p st') (hdone : st.IsDone q) : st'.IsDone q := by
  obtain ⟨item, hitem, hstatus, hid⟩ := hdone
  obtain ⟨item', hitem', hrel⟩ := forall₂_left h.items hitem
  split at hrel
  · refine ⟨item', hitem', ?_, hrel.planItemId.trans hid⟩
    rcases hrel.status with hsame | hmoved
    · exact hsame.trans hstatus
    · rw [hstatus] at hmoved
      cases hmoved
  · subst hrel
    exact ⟨item', hitem', hstatus, hid⟩

/-- A step that creates no plan of the run keeps its done items. -/
theorem hasDone_turn {q : String} (h : PlanTurn cfg (fun k => k ≠ strip runId) s s') (hs : s.PlansSettled)
    (hdone : s.HasDone runId q) : s'.HasDone runId q := by
  obtain ⟨st, hload, hst⟩ := hdone
  have hkept : s'.plannerStates.get (strip runId) = s.plannerStates.get (strip runId) → s'.HasDone runId q := by
    intro hget
    refine ⟨st, ?_, hst⟩
    rw [loadPlan_ok] at hload ⊢
    rw [hget]
    exact hload
  rcases h.writes with hsame | ⟨amb, row, hrow, hput⟩
  · exact hkept (by rw [hsame])
  · by_cases hkey : row.runId = strip runId
    · cases hrow with
      | created hfresh hst' hint => exact absurd ((createPlanState_ok hst').runId.symm.trans hkey) hfresh
      | updated hg hload' hst' hint =>
        obtain ⟨f, hu⟩ := hg.update hst'
        have hrun : strip runId = strip _ := hkey.symm.trans (hu.runId.trans (loadPlan_runId hload'))
        rw [loadPlan_congr hrun, hload'] at hload
        cases hload
        have hloaded := updated_load hs hg hload' hst' hint hput
        rw [← loadPlan_congr hrun] at hloaded
        have hnodup := ((loadPlan_normal hload').2.integrity (loadPlan_normal hload').1).nodup
        exact ⟨_, hloaded, (hg.moved hnodup hst').isDone hst⟩
    · refine hkept ?_
      rw [hput, Table.get_put_ne _ _ fun hk => hkey hk.symm]

theorem hasDone_turns {q : String} (h : Relation.ReflTransGen (PlanTurn cfg fun k => k ≠ strip runId) s s')
    (hs : s.PlansSettled) (hdone : s.HasDone runId q) : s'.HasDone runId q := by
  have hboth : s'.PlansSettled ∧ s'.HasDone runId q := by
    induction h with
    | refl => exact ⟨hs, hdone⟩
    | tail _ hturn ih => exact ⟨settled_turn hturn ih.1, hasDone_turn hturn ih.1 ih.2⟩
  exact hboth.2

end

/-- **Plan updates touch only what they name.**  On every reachable store, by the service and by the
facade: an update that returns has moved the item it names and raised the version by one, and what it
returns is stored; an update that raises leaves the store; and until a plan is created under the id of
the run, a done item stays done. -/
theorem plan_update_frame (cfg : LoggingServiceConfig) (s : Store)
    (hreach : Relation.ReflTransGen (PlanTurn cfg fun _ => True) {} s) :
    (∀ amb op p out s', PlannerOp.planItemId op = some p → op.alone amb s = (.ok out, s') →
      ∃ st, s.loadPlan op.runId = .ok (some st) ∧ s'.loadPlan op.runId = .ok (some out) ∧ st.MovedAt p out) ∧
    (∀ amb op p e s', PlannerOp.planItemId op = some p → op.alone amb s = (.error e, s') → s' = s) ∧
    ∀ runId q s', Relation.ReflTransGen (PlanTurn cfg fun k => k ≠ strip runId) s s' → s.HasDone runId q →
      s'.HasDone runId q := by
  have hs := settled_reachable hreach
  refine ⟨fun amb op p out s' hp h => ?_, fun amb op p e s' hp h => ?_, fun runId q s' hturns hdone => ?_⟩
  · obtain ⟨g, hg, halone⟩ := PlannerOp.alone_update amb s hp
    obtain ⟨st, st', hload, hst, hsame, hloaded⟩ := updatePlanAlone_returns hs hg (halone ▸ h)
    obtain ⟨hdec, hnormal⟩ := loadPlan_normal hload
    exact ⟨st, hload, hloaded, hsame ▸ hg.moved (hnormal.integrity hdec).nodup hst⟩
  · obtain ⟨g, hg, halone⟩ := PlannerOp.alone_update amb s hp
    exact updatePlanAlone_raises hg (halone ▸ h)
  · exact hasDone_turns hturns hs hdone

/-- The search is done, with a note: the booking is as it was. -/
theorem plan_update_frame_search : ∃ (s s' : Store) (st out : PlannerState),
    s = ((PlannerOp.createPlan "trip" "" bookingSteps none).alone stillAmbient {}).2 ∧
    (PlannerOp.updateItemStatus "trip" "search" "done" (some "found")).alone stillAmbient s = (.ok out, s') ∧
    s.loadPlan "trip" = .ok (some st) ∧ st.MovedAt "search" out := by
  set s := ((PlannerOp.createPlan "trip" "" bookingSteps none).alone stillAmbient {}).2 with hs
  have hok : ((PlannerOp.updateItemStatus "trip" "search" "done" (some "found")).alone stillAmbient s).1.toBool =
      true := by
    rw [hs]
    decide +kernel
  cases hcall : (PlannerOp.updateItemStatus "trip" "search" "done" (some "found")).alone stillAmbient s with
  | mk result s' =>
    rw [hcall] at hok
    cases result with
    | error e => cases hok
    | ok out =>
      have hreach : Relation.ReflTransGen (PlanTurn {} fun _ => True) {} s :=
        .single (.service stillAmbient (.createPlan "trip" "" bookingSteps none) fun _ => trivial)
      obtain ⟨st, hload, -, hmoved⟩ := (plan_update_frame {} s hreach).1 _ _ _ _ _ rfl hcall
      exact ⟨s, s', st, out, rfl, hcall, hload, hmoved⟩

end Raef
