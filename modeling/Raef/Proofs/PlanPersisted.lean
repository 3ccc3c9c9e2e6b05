import Raef.Proofs.PlanFrame

/-!
# A saved plan and the plan that is loaded

An operation of the service returns the state it saved, decoded; the load decodes the same row after
sorting its items by sequence index and then by id.  A created plan is sorted by sequence index alone,
and keeps the caller's order among equal indexes.

    sorted by index, ties by id ↔ the caller's ties came in the order of ids   (sorted_iff_ties)
    returned = loaded ↔ run id stripped and ties in the order of ids           (plan_persisted)
-/

namespace Raef

open Text Txn

/-! ## Statements -/

/-- The next load of the run gives the plan that was returned, and the scheduler picks the same item. -/
def Persisted (runId : String) (out : PlannerState) (s : Store) : Prop :=
  ∃ st, s.loadPlan runId = .ok (some st) ∧ st = out ∧ nextRunnableItem st = nextRunnableItem out

/-- Items of one sequence index come in the order of their ids; the position stands in for an absent index. -/
def TiesOrdered (items : List RawPlanItem) : Prop :=
  items.zipIdx.Pairwise fun a b =>
    a.1.sequenceIndex.getD a.2 = b.1.sequenceIndex.getD b.2 → itemIdAt a.2 a.1 ≤ itemIdAt b.2 b.1

/-- A plan is created under a stripped run id, with its ties in the order of ids. -/
def PlannerOp.KeepsOrder : PlannerOp → Prop
  | .createPlan r _ items _ => Trimmed r ∧ TiesOrdered items
  | _ => True

/-! ## Equal sequence indexes -/

/-- Inserted by its index alone, an item that is not after its equals stands where the query has it. -/
theorem precedes_orderedInsert {item : PlannerItem} {items : List PlannerItem}
    (hs : items.Pairwise PlannerItem.Precedes)
    (hties : ∀ it ∈ items, item.sequenceIndex = it.sequenceIndex → item.planItemId ≤ it.planItemId) :
    (items.orderedInsert (fun a b => a.sequenceIndex ≤ b.sequenceIndex) item).Pairwise PlannerItem.Precedes := by
  induction items with
  | nil => exact List.pairwise_singleton _ _
  | cons it items ih =>
    obtain ⟨hfirst, hrest⟩ := List.pairwise_cons.1 hs
    rw [List.orderedInsert_cons]
    split
    · next hle =>
      refine List.pairwise_cons.2 ⟨fun other hother => ?_, hs⟩
      have hindex : item.sequenceIndex ≤ other.sequenceIndex := by
        rcases List.mem_cons.1 hother with rfl | hother
        · exact hle
        · rcases hfirst other hother with hlt | ⟨heq, -⟩
          · omega
          · omega
      rcases lt_or_eq_of_le hindex with hlt | heq
      · exact .inl hlt
      · exact .inr ⟨heq, hties other hother heq⟩
    · next hnot =>
      refine List.pairwise_cons.2 ⟨fun other hother => ?_,
        ih hrest fun other hother => hties other (List.mem_cons_of_mem _ hother)⟩
      rcases (List.mem_orderedInsert _).1 hother with rfl | hother
      · exact .inl (not_le.1 hnot)
      · exact hfirst other hother

/-- The sort by index leaves the items in the order of the query if and only if its ties were so. -/
theorem sorted_iff_ties (items : List PlannerItem) :
    (items.insertionSort fun a b => a.sequenceIndex ≤ b.sequenceIndex).Pairwise PlannerItem.Precedes ↔
      items.Pairwise fun a b => a.sequenceIndex = b.sequenceIndex → a.planItemId ≤ b.planItemId := by
  constructor
  · intro h
    rw [List.pairwise_iff_forall_sublist] at h ⊢
    intro a b hab heq
    -- the sort is stable
    have hsub := List.pair_sublist_insertionSort (r := fun a b : PlannerItem => a.sequenceIndex ≤ b.sequenceIndex)
      (le_of_eq heq) hab
    rcases h hsub with hlt | ⟨-, hle⟩
    · omega
    · exact hle
  · intro h
    induction items with
    | nil => exact .nil
    | cons item items ih =>
      obtain ⟨hfirst, hrest⟩ := List.pairwise_cons.1 h
      rw [List.insertionSort_cons]
      refine precedes_orderedInsert (ih hrest) fun it hit => hfirst it ?_
      exact (List.perm_insertionSort _ _).mem_iff.1 hit

/-- Index and id of the items, as the caller gives them. -/
theorem plannerItemsOfRaw_keys {now : Time} {index : ℕ} {seen : List String} {raws : List RawPlanItem}
    {items : List PlannerItem} (h : plannerItemsOfRaw now index seen raws = .ok items) :
    items.map (fun it => (it.sequenceIndex, it.planItemId)) =
      (raws.zipIdx index).map fun e => (e.1.sequenceIndex.getD e.2, itemIdAt e.2 e.1) := by
  induction raws generalizing index seen items with
  | nil =>
    cases h
    rfl
  | cons raw raws ih =>
    unfold plannerItemsOfRaw at h
    simp only [except_bind_ok, except_pure_ok] at h
    obtain ⟨item, hitem, rest, hrest, rfl⟩ := h
    have hid : item.planItemId = itemIdAt index raw := by
      unfold plannerItemOfRaw at hitem
      simp only [except_bind_ok, except_pure_ok] at hitem
      obtain ⟨_, -, _, -, _, -, _, -, _, -, rfl⟩ := hitem
      rfl
    rw [List.zipIdx_cons, List.map_cons, List.map_cons, ih hrest, hid, (plannerItemOfRaw_ok hitem).2.2]

section
variable {now : Time} {runId text : String} {raws : List RawPlanItem} {schema : Option RawPlanSchema}
  {st : PlannerState}

theorem createPlanState_items (h : createPlanState now runId text raws schema = .ok st) :
    ∃ items, plannerItemsOfRaw now 0 [] raws = .ok items ∧
      st.items = items.insertionSort fun a b => a.sequenceIndex ≤ b.sequenceIndex := by
  unfold createPlanState at h
  simp only [except_bind_ok, raiseIf_ok, except_pure_ok] at h
  obtain ⟨_, -, _, -, items, hitems, _, -, rfl⟩ := h
  refine ⟨items, hitems, ?_⟩
  split <;> rfl

/-- A created plan is in the order of the query if and only if its ties came in the order of ids. -/
theorem created_sorted_iff (h : createPlanState now runId text raws schema = .ok st) :
    st.items.Pairwise PlannerItem.Precedes ↔ TiesOrdered raws := by
  obtain ⟨items, hitems, hsorted⟩ := createPlanState_items h
  have hkeys := plannerItemsOfRaw_keys hitems
  have hmapped : items.Pairwise (fun a b => a.sequenceIndex = b.sequenceIndex → a.planItemId ≤ b.planItemId) ↔
      (items.map fun it => (it.sequenceIndex, it.planItemId)).Pairwise fun a b => a.1 = b.1 → a.2 ≤ b.2 := by
    rw [List.pairwise_map]
  rw [hsorted, sorted_iff_ties, hmapped, hkeys, List.pairwise_map]
  rfl

end

/-! ## Returned and loaded -/

section
variable {cfg : LoggingServiceConfig} {amb : Ambient} {runId text : String} {raws : List RawPlanItem}
  {schema : Option RawPlanSchema} {s s' : Store} {out : PlannerState}

/-- What `create_plan` stores, and what it returns under a stripped run id. -/
theorem createPlan_alone (h : (PlannerOp.createPlan runId text raws schema).alone amb s = (.ok out, s')) :
    ∃ st, createPlanState amb.now runId text raws schema = .ok st ∧ (st.saved amb).fromDict = .ok out ∧
      s' = s.putPlan (st.saved amb) := by
  obtain ⟨st, hst, hsave⟩ := savePlanAlone_ok.1 h
  obtain ⟨-, hout, hs'⟩ := savePlan_ok.1 hsave
  exact ⟨st, hst, hout, hs'⟩

theorem saved_settled {st : PlannerState} (hst : createPlanState amb.now runId text raws schema = .ok st) :
    (st.saved amb).Settled := by
  obtain ⟨hitems, hschema⟩ := createPlanState_settled hst
  exact ⟨hitems, hschema⟩

/-- A created plan with its ties in order is loaded as it was returned. -/
theorem createPlan_persisted (h : (PlannerOp.createPlan runId text raws schema).alone amb s = (.ok out, s'))
    (hrun : Trimmed runId) (hties : TiesOrdered raws) : Persisted runId out s' := by
  obtain ⟨st, hst, hout, rfl⟩ := createPlan_alone h
  have hkey : (st.saved amb).runId = runId := (createPlanState_ok hst).runId
  have hsettled := saved_settled hst
  have hsame := hsettled.fromDict (hkey ▸ hrun) hout
  obtain ⟨hdec, -⟩ := fromDict_plan_ok hout
  have hsorted : (st.saved amb).queried = st.saved amb := queried_of_sorted ((created_sorted_iff hst).2 hties)
  refine ⟨out, loadPlan_ok.2 ⟨hkey ▸ hdec.runId, st.saved amb, ?_, ?_⟩, rfl, rfl⟩
  · rw [hrun, ← hkey]
    exact Table.get_put_self _ _
  · show (st.saved amb).queried.fromDict = _
    rw [hsorted, hout]

/-- In an empty store, a created plan that is loaded as it was returned has its ties in order. -/
theorem createPlan_ordered (h : (PlannerOp.createPlan runId text raws schema).alone amb {} = (.ok out, s'))
    (hload : Persisted runId out s') : Trimmed runId ∧ TiesOrdered raws := by
  obtain ⟨st, hst, hout, rfl⟩ := createPlan_alone h
  have hkey : (st.saved amb).runId = runId := (createPlanState_ok hst).runId
  obtain ⟨loaded, hload, rfl, -⟩ := hload
  obtain ⟨-, row, hrow, hdec⟩ := loadPlan_ok.1 hload
  rw [Store.putPlan_plannerStates, Table.get_put] at hrow
  split at hrow
  · next hrun =>
    cases hrow
    have hrun : Trimmed runId := hrun.trans hkey
    have hsettled := saved_settled hst
    have hqueried := hsettled.decode (hkey ▸ hrun) hdec
    rw [hsettled.fromDict (hkey ▸ hrun) hout] at hqueried
    refine ⟨hrun, (created_sorted_iff hst).1 ?_⟩
    have hsorted := (st.saved amb).queried_sorted
    rw [← hqueried] at hsorted
    exact hsorted
  · rw [show ({} : Store).plannerStates = ∅ from rfl, Table.get_empty] at hrow
    cases hrow

end

/-- **Persisting a plan does not change it**, wherever the service is called, if and only if a plan is
created under a stripped run id and with its equal sequence indexes in the order of ids. -/
theorem plan_persisted (cfg : LoggingServiceConfig) (amb : Ambient) (op : PlannerOp)
    (haccepted : op.creates = true → ∃ out s', op.alone amb {} = (.ok out, s')) :
    (∀ s out s', Relation.ReflTransGen (PlanTurn cfg fun _ => True) {} s → op.alone amb s = (.ok out, s') →
      Persisted op.runId out s') ↔ op.KeepsOrder := by
  cases hp : op.planItemId with
  | some p =>
    have hkeeps : op.KeepsOrder := by
      cases op with
      | createPlan => cases hp
      | _ => trivial
    refine iff_of_true (fun s out s' hreach h => ?_) hkeeps
    obtain ⟨g, hg, halone⟩ := PlannerOp.alone_update amb s hp
    obtain ⟨_, _, -, -, -, hloaded⟩ := updatePlanAlone_returns (settled_reachable hreach) hg (halone ▸ h)
    exact ⟨out, hloaded, rfl, rfl⟩
  | none =>
    cases op with
    | createPlan runId text raws schema =>
      constructor
      · intro h
        obtain ⟨out, s', hcall⟩ := haccepted rfl
        exact createPlan_ordered hcall (h {} out s' .refl hcall)
      · rintro ⟨hrun, hties⟩ s out s' - h
        exact createPlan_persisted h hrun hties
    | _ => cases hp

/-! ## Two steps of one index -/

/-- Two items of one index, under these ids. -/
def tiedSteps (first second : String) : List RawPlanItem :=
  [{ planItemId := some first, title := some "Search", sequenceIndex := some 0 },
    { planItemId := some second, title := some "Book", sequenceIndex := some 0 }]

/-- The item the scheduler picks on the plan that was returned, and on the plan that is loaded. -/
def pickedThenLoaded (items : List RawPlanItem) : Option (Option String × Option String) :=
  match (PlannerOp.createPlan "trip" "" items none).alone stillAmbient {} with
  | (.ok out, s) => match s.loadPlan "trip" with
    | .ok (some st) =>
      some ((nextRunnableItem out).map PlannerItem.planItemId, (nextRunnableItem st).map PlannerItem.planItemId)
    | _ => none
  | _ => none

/-- The ids come the other way: the scheduler picks another item after the load. -/
theorem tied_steps_reordered : pickedThenLoaded (tiedSteps "search" "book") = some (some "search", some "book") := by
  decide +kernel

theorem tied_steps_persisted : ∃ out s',
    (PlannerOp.createPlan "trip" "" (tiedSteps "book" "search") none).alone stillAmbient {} = (.ok out, s') ∧
    Persisted "trip" out s' := by
  have hok : ((PlannerOp.createPlan "trip" "" (tiedSteps "book" "search") none).alone stillAmbient {}).1.toBool =
      true := by decide +kernel
  cases hcall : (PlannerOp.createPlan "trip" "" (tiedSteps "book" "search") none).alone stillAmbient {} with
  | mk result s' =>
    rw [hcall] at hok
    cases result with
    | error e => cases hok
    | ok out =>
      have hkeeps : (PlannerOp.createPlan "trip" "" (tiedSteps "book" "search") none).KeepsOrder := by
        refine ⟨by decide +kernel, ?_⟩
        unfold TiesOrdered
        decide +kernel
      have h := (plan_persisted {} stillAmbient _ fun _ => ⟨out, s', hcall⟩).2 hkeeps {} out s' .refl hcall
      exact ⟨out, s', rfl, h⟩

end Raef
