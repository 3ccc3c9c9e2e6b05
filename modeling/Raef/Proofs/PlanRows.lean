import Raef.Proofs.Changes

/-!
# Stored plans

The save of a plan commits before the saved state is decoded, so a call outside any
transaction may leave a row and raise.  What the service stores is normal: a load gives
the row back, in the order of the query.

    a step writes no plan, a created one, or an update of a loaded one     (PlanStep.writes)
    every stored plan is normal                                  (settled_reachable)
    a normal row is loaded as it is, but for the order of its items        (Settled.decode)
-/

namespace Raef

open Text Txn

/-! ## Schemas -/

/-- The normalisation leaves the schema as it is. -/
def PlanSchema.Normal (schema : PlanSchema) : Prop :=
  ∀ items, normalizePlanSchema schema.toRaw items = .ok schema

/-- A step as a second normalisation leaves it. -/
structure PlanStep.Normal (step : PlanStep) : Prop where
  trimmed : Trimmed step.planItemId
  nonempty : step.planItemId ≠ ""
  title : Trimmed step.title
  titled : step.title ≠ ""
  dependsOn : normalizeStrList step.dependsOn = step.dependsOn
  acceptanceCriteria : normalizeStrList step.acceptanceCriteria = step.acceptanceCriteria

/-- A text with something other than white space is not stripped to nothing. -/
theorem strip_ne_empty {t : String} {c : Char} (hmem : c ∈ t.toList) (hc : isSpace c = false) : strip t ≠ "" := by
  intro h
  have hnil : (t.toList.dropWhile isSpace).rdropWhile isSpace = [] := by
    have hlist := congrArg String.toList h
    unfold strip at hlist
    rw [String.toList_ofList] at hlist
    exact hlist
  rw [← List.takeWhile_append_dropWhile (p := isSpace) (l := t.toList)] at hmem
  have hspace : isSpace c = true := by
    rcases List.mem_append.1 hmem with hmem | hmem
    · exact List.mem_takeWhile_imp hmem
    · exact List.rdropWhile_eq_nil_iff.1 hnil c hmem
  rw [hc] at hspace
  cases hspace

theorem strip_stepName (index : ℕ) : strip s!"step_{index}" ≠ "" := by
  refine strip_ne_empty (c := 's') ?_ (by decide)
  show 's' ∈ ("step_" ++ toString index).toList
  rw [String.toList_append]
  exact List.mem_append_left _ (by decide)

/-- The id of a normalised step, normalised again. -/
theorem itemIdAt_toRaw {step : PlanStep} (index : ℕ) :
    itemIdAt index step.toRaw =
      if step.planItemId = "" then strip s!"step_{index}" else strip step.planItemId := rfl

theorem PlanStep.Normal.normalize {step : PlanStep} (h : step.Normal) (index : ℕ) :
    normalizePlanStep index step.toRaw = .ok step := by
  have hid : itemIdAt index step.toRaw = step.planItemId := by
    rw [itemIdAt_toRaw, if_neg h.nonempty, h.trimmed]
  have htitle : strip step.title = step.title := h.title
  unfold normalizePlanStep
  rw [hid]
  simp only [PlanStep.toRaw, Option.getD_some, htitle, h.dependsOn, h.acceptanceCriteria]
  rw [if_neg h.titled]

/-- What a normalised step holds. -/
theorem normalizePlanStep_fields {index : ℕ} {raw : RawPlanItem} {step : PlanStep}
    (h : normalizePlanStep index raw = .ok step) :
    step.planItemId = itemIdAt index raw ∧ Trimmed step.title ∧ step.title ≠ "" ∧
      normalizeStrList step.dependsOn = step.dependsOn ∧
      normalizeStrList step.acceptanceCriteria = step.acceptanceCriteria := by
  unfold normalizePlanStep at h
  dsimp only at h
  split at h
  · cases h
  · next hne =>
    cases h
    exact ⟨rfl, trimmed_strip _, hne, normalizeStrList_idem _, normalizeStrList_idem _⟩

theorem normalizePlanStep_twice {i j : ℕ} {raw : RawPlanItem} {step step' : PlanStep}
    (h : normalizePlanStep i raw = .ok step) (h' : normalizePlanStep j step.toRaw = .ok step') :
    step'.Normal := by
  obtain ⟨hid, htitle, htitled, hdeps, hcriteria⟩ := normalizePlanStep_fields h'
  have htrimmed : Trimmed step.planItemId := (normalizePlanStep_fields h).1 ▸ trimmed_itemIdAt i raw
  refine ⟨hid ▸ trimmed_itemIdAt j _, ?_, htitle, htitled, hdeps, hcriteria⟩
  rw [hid, itemIdAt_toRaw]
  split
  · exact strip_stepName j
  · next hne =>
    rw [htrimmed]
    exact hne

theorem normalizeSteps_normal {steps : List PlanStep} (h : ∀ step ∈ steps, step.Normal) (n : ℕ) :
    ((steps.map PlanStep.toRaw).zipIdx n).mapM (fun e => normalizePlanStep e.2 e.1) = .ok steps := by
  induction steps generalizing n with
  | nil => rfl
  | cons step steps ih =>
    rw [List.map_cons, List.zipIdx_cons, List.mapM_cons]
    simp only [except_bind_ok, except_pure_ok]
    exact ⟨step, (h step List.mem_cons_self).normalize n, steps,
      ih (fun step' h' => h step' (List.mem_cons_of_mem _ h')) (n + 1), rfl⟩

/-- A normalised schema: its fields, and the steps it came from. -/
theorem normalizePlanSchema_eq {raw : RawPlanSchema} {items : Option (List PlannerItem)} {out : PlanSchema}
    (h : normalizePlanSchema raw items = .ok out) :
    ∃ (stepsRaw : List RawPlanItem) (steps : List PlanStep),
      stepsRaw.zipIdx.mapM (fun e => normalizePlanStep e.2 e.1) = .ok steps ∧ out = {
        goal := strip (raw.goal.getD "")
        constraints := normalizeStrList (raw.constraints.getD [])
        verification := normalizeStrList (raw.verification.getD [])
        sourceFormat := if strip (raw.sourceFormat.getD "normalized") = "" then "normalized"
          else strip (raw.sourceFormat.getD "normalized")
        steps := steps } := by
  unfold normalizePlanSchema at h
  split at h
  · simp only [except_bind_ok, except_pure_ok] at h
    obtain ⟨stepsRaw, -, steps, hsteps, rfl⟩ := h
    exact ⟨stepsRaw, steps, hsteps, rfl⟩
  · simp only [except_bind_ok, except_pure_ok] at h
    obtain ⟨stepsRaw, -, steps, hsteps, rfl⟩ := h
    exact ⟨stepsRaw, steps, hsteps, rfl⟩
  · obtain ⟨_, hraised, -⟩ := except_bind_ok.1 h
    cases hraised

/-- What a normalised schema holds. -/
theorem normalizePlanSchema_fields {raw : RawPlanSchema} {items : Option (List PlannerItem)} {out : PlanSchema}
    (h : normalizePlanSchema raw items = .ok out) :
    Trimmed out.goal ∧ normalizeStrList out.constraints = out.constraints ∧
      normalizeStrList out.verification = out.verification ∧ Trimmed out.sourceFormat ∧ out.sourceFormat ≠ "" ∧
      ∀ step ∈ out.steps, ∃ i r, normalizePlanStep i r = .ok step := by
  obtain ⟨stepsRaw, steps, hsteps, rfl⟩ := normalizePlanSchema_eq h
  refine ⟨trimmed_strip _, normalizeStrList_idem _, normalizeStrList_idem _, ?_, ?_, fun step hstep => ?_⟩
  · dsimp only
    split
    · decide
    · exact trimmed_strip _
  · dsimp only
    split
    · decide
    · next hne => exact hne
  · obtain ⟨e, -, he⟩ := (mem_mapM hsteps).1 step hstep
    exact ⟨_, _, he⟩

/-- The steps of a schema that is normalised again. -/
theorem normalizePlanSchema_steps {schema out : PlanSchema} {items : Option (List PlannerItem)}
    (h : normalizePlanSchema schema.toRaw items = .ok out) :
    ∀ step' ∈ out.steps, ∃ step ∈ schema.steps, ∃ i, normalizePlanStep i step.toRaw = .ok step' := by
  unfold normalizePlanSchema at h
  simp only [PlanSchema.toRaw, except_bind_ok, except_pure_ok] at h
  obtain ⟨_, h1, steps, h2, rfl⟩ := h
  cases h1
  intro step' hstep'
  obtain ⟨⟨raw, i⟩, he, hnorm⟩ := (mem_mapM h2).1 step' hstep'
  obtain ⟨step, hstep, rfl⟩ := List.mem_map.1 (List.mem_of_getElem? (List.mem_zipIdx_iff_getElem?.1 he))
  exact ⟨step, hstep, i, hnorm⟩

/-- A schema that was normalised twice is normal. -/
theorem normalizePlanSchema_twice {raw : RawPlanSchema} {items items' : Option (List PlannerItem)}
    {schema out : PlanSchema} (h : normalizePlanSchema raw items = .ok schema)
    (h' : normalizePlanSchema schema.toRaw items' = .ok out) : out.Normal := by
  obtain ⟨hgoal, hconstraints, hverification, hformat, hne, -⟩ := normalizePlanSchema_fields h'
  have hsteps : ∀ step ∈ out.steps, step.Normal := by
    intro step' hstep'
    obtain ⟨step, hstep, j, hnorm'⟩ := normalizePlanSchema_steps h' step' hstep'
    obtain ⟨i, r, hnorm⟩ := (normalizePlanSchema_fields h).2.2.2.2.2 step hstep
    exact normalizePlanStep_twice hnorm hnorm'
  intro items
  unfold Trimmed at hgoal hformat
  unfold normalizePlanSchema
  simp only [PlanSchema.toRaw, except_bind_ok, except_pure_ok, Option.getD_some]
  refine ⟨_, rfl, out.steps, normalizeSteps_normal hsteps 0, ?_⟩
  simp only [hgoal, hconstraints, hverification, hformat, if_neg hne]

/-! ## Rows -/

/-- The items and the schema of the row are as a decoder leaves them. -/
structure PlannerState.Settled (row : PlannerState) : Prop where
  items : row.ItemsNormal
  schema : row.planSchema.Normal

/-- A load gives a settled row back, in the order of the query. -/
theorem PlannerState.Settled.decode {row st : PlannerState} (h : row.Settled) (hrun : Trimmed row.runId)
    (hdec : row.decode = .ok st) : st = row.queried := by
  have hq : row.queried.ItemsNormal := fun it hit => h.items it (row.queried_perm.mem_iff.1 hit)
  have hdec : row.queried.fromDict = .ok st := hdec
  unfold PlannerState.fromDict at hdec
  simp only [except_bind_ok, except_pure_ok, requireNonEmptyStr_ok, mapM_ok fromDict_item_ok] at hdec
  obtain ⟨_, ⟨-, rfl⟩, _, ⟨-, rfl⟩, schema, hschema, _, -, rfl⟩ := hdec
  have hsame : row.queried.planSchema = row.planSchema := rfl
  rw [hsame, h.schema] at hschema
  cases hschema
  have hrun : strip row.queried.runId = row.queried.runId := hrun
  rw [hq.map_stripped, hrun]
  rfl

/-- What was saved is what a decoder makes of it. -/
theorem PlannerState.Settled.fromDict {row st : PlannerState} (h : row.Settled) (hrun : Trimmed row.runId)
    (hdec : row.fromDict = .ok st) : st = row := by
  unfold PlannerState.fromDict at hdec
  simp only [except_bind_ok, except_pure_ok, requireNonEmptyStr_ok, mapM_ok fromDict_item_ok] at hdec
  obtain ⟨_, ⟨-, rfl⟩, _, ⟨-, rfl⟩, schema, hschema, _, -, rfl⟩ := hdec
  rw [h.schema] at hschema
  cases hschema
  have hrun : strip row.runId = row.runId := hrun
  rw [h.items.map_stripped, hrun]

/-! ## Calls outside a transaction -/

section
variable {amb : Ambient} {runId : String} {s s' : Store} {out : PlannerState}

theorem savePlanAlone_ok {x : Except PyError PlannerState} :
    savePlanAlone amb x s = (.ok out, s') ↔ ∃ state, x = .ok state ∧ savePlan amb state s = .ok (out, s') := by
  unfold savePlanAlone
  cases x with
  | error e => simp
  | ok state =>
    simp only [Except.ok.injEq, exists_eq_left', savePlan_ok]
    show _ ↔ (state.saved amb).validateIntegrity = .ok () ∧ (state.saved amb).fromDict = .ok out ∧
      s' = s.putPlan (state.saved amb)
    cases (state.saved amb).validateIntegrity with
    | error e => simp
    | ok u => simp [eq_comm]

theorem updatePlanAlone_ok {f : PlannerState → Except PyError PlannerState} :
    updatePlanAlone amb runId f s = (.ok out, s') ↔ updatePlan amb runId f s = .ok (out, s') := by
  unfold updatePlanAlone
  rw [savePlanAlone_ok, updatePlan_ok]
  simp only [except_bind_ok, except_pure_ok]
  constructor
  · rintro ⟨_, ⟨st, hload, st', hst, rfl⟩, hsave⟩
    exact ⟨st, st', hload, hst, hsave⟩
  · rintro ⟨st, st', hload, hst, hsave⟩
    exact ⟨_, ⟨st, hload, st', hst, rfl⟩, hsave⟩

/-- What a save leaves: the store as it was, or the row of a state that passed the check. -/
theorem savePlanAlone_store (amb : Ambient) (s : Store) {x : Except PyError PlannerState} :
    (savePlanAlone amb x s).2 = s ∨ ∃ state, x = .ok state ∧ (state.saved amb).Integrity ∧
      (savePlanAlone amb x s).2 = s.putPlan (state.saved amb) := by
  unfold savePlanAlone
  cases x with
  | error e => exact .inl rfl
  | ok state =>
    cases hint : (state.saved amb).validateIntegrity with
    | error e => exact .inl (by simp [hint])
    | ok u => exact .inr ⟨state, rfl, validateIntegrity_ok.1 hint, by simp [hint]⟩

end

/-! ## Writes -/

/-- The four updates of a loaded plan, each of the item it names. -/
inductive PlanChange (now : Time) : String → (PlannerState → Except PyError PlannerState) → Prop
  | active (p : String) : PlanChange now p (setActiveItemState now p)
  | status (p status : String) (note : Option String) : PlanChange now p (updateItemStatusState now p status note)
  | llmOutput (p output : String) : PlanChange now p (attachLlmOutputState now p output)
  | toolCallRef (p executionId : String) : PlanChange now p (attachToolCallRefState now p executionId)

theorem PlanChange.update {now : Time} {p : String} {g : PlannerState → Except PyError PlannerState}
    (h : PlanChange now p g) {st st' : PlannerState} (hst : g st = .ok st') : ∃ f, PlanUpdate p f st st' := by
  cases h with
  | active => exact ⟨_, setActiveItemState_ok hst⟩
  | status =>
    obtain ⟨next, -, hu⟩ := updateItemStatusState_ok hst
    exact ⟨_, hu⟩
  | llmOutput => exact ⟨_, (attachLlmOutputState_ok hst).1⟩
  | toolCallRef => exact ⟨_, (attachToolCallRefState_ok hst).1⟩

/-- A row that a step stores: a created plan, or a loaded plan with one update. -/
inductive PlanWrite (fresh : String → Prop) (amb : Ambient) (s : Store) : PlannerState → Prop
  | created {runId text : String} {raws : List RawPlanItem} {schema : Option RawPlanSchema} {st : PlannerState}
      (hfresh : fresh runId) (hst : createPlanState amb.now runId text raws schema = .ok st)
      (hint : (st.saved amb).Integrity) : PlanWrite fresh amb s (st.saved amb)
  | updated {runId p : String} {g : PlannerState → Except PyError PlannerState} {st st' : PlannerState}
      (hg : PlanChange amb.now p g) (hload : s.loadPlan runId = .ok (some st)) (hst : g st = .ok st')
      (hint : (st'.bumped amb).Integrity) : PlanWrite fresh amb s (st'.bumped amb)

/-- A call of the planner service, or an operation of the facade.  Plans are created under `fresh` ids;
under the others a `start_run` resumes. -/
inductive PlanTurn (cfg : LoggingServiceConfig) (fresh : String → Prop) (s : Store) : Store → Prop
  | service (amb : Ambient) (op : PlannerOp) (hfresh : op.creates = true → fresh op.runId) :
      PlanTurn cfg fresh s (op.alone amb s).2
  | facade {s' : Store} (amb : Ambient) (o : FacadeOp) (r : o.Res)
      (hfresh : ∀ a, o = .startRun a → fresh a.runId ∨ s' = s) (hexec : o.exec cfg amb s = .ok (r, s')) :
      PlanTurn cfg fresh s s'

section
variable {cfg : LoggingServiceConfig} {amb : Ambient} {fresh : String → Prop} {runId p : String} {s s' : Store}

theorem updatePlanAlone_write {g : PlannerState → Except PyError PlannerState} (hg : PlanChange amb.now p g) :
    (updatePlanAlone amb runId g s).2 = s ∨ ∃ row, PlanWrite fresh amb s row ∧
      (updatePlanAlone amb runId g s).2 = s.putPlan row := by
  rcases savePlanAlone_store amb s (x := do
    let state ← s.loadRequiredPlan runId
    let state ← g state
    return { state with version := state.version + 1 }) with hsame | ⟨state, hstate, hint, hput⟩
  · exact .inl hsame
  · simp only [except_bind_ok, except_pure_ok] at hstate
    obtain ⟨st, hload, st', hst, rfl⟩ := hstate
    exact .inr ⟨_, .updated hg (loadRequiredPlan_ok.1 hload) hst hint, hput⟩

theorem PlannerOp.alone_write (amb : Ambient) (s : Store) {op : PlannerOp}
    (hfresh : op.creates = true → fresh op.runId) :
    (op.alone amb s).2 = s ∨ ∃ row, PlanWrite fresh amb s row ∧ (op.alone amb s).2 = s.putPlan row := by
  cases op with
  | createPlan r text items schema =>
    rcases savePlanAlone_store amb s (x := createPlanState amb.now r text items schema) with
      hsame | ⟨st, hst, hint, hput⟩
    · exact .inl hsame
    · exact .inr ⟨_, .created (hfresh rfl) hst hint, hput⟩
  | setActiveItem r p => exact updatePlanAlone_write (.active p)
  | updateItemStatus r p status note => exact updatePlanAlone_write (.status p status note)
  | attachLlmOutput r p output => exact updatePlanAlone_write (.llmOutput p output)
  | attachToolCallRef r p e => exact updatePlanAlone_write (.toolCallRef p e)

/-- A created plan that was saved is a write. -/
theorem PlanWrite.of_created {text : String} {raws : List RawPlanItem} {schema : Option RawPlanSchema}
    {st out : PlannerState} (hfresh : fresh runId)
    (hst : createPlanState amb.now runId text raws schema = .ok st) (hout : (st.saved amb).fromDict = .ok out) :
    PlanWrite fresh amb s (st.saved amb) := by
  have hn : (st.saved amb).ItemsNormal := (createPlanState_ok hst).normal
  exact .created hfresh hst (hn.integrity (fromDict_plan_ok hout).1)

/-- An update that was saved is a write. -/
theorem PlanWrite.of_updated {g : PlannerState → Except PyError PlannerState} {st st' out : PlannerState}
    (hg : PlanChange amb.now p g) (hload : s.loadPlan runId = .ok (some st)) (hst : g st = .ok st')
    (hout : (st'.bumped amb).fromDict = .ok out) : PlanWrite fresh amb s (st'.bumped amb) := by
  obtain ⟨f, hu⟩ := hg.update hst
  have hn : (st'.bumped amb).ItemsNormal := hu.itemsNormal (loadPlan_normal hload).2
  exact .updated hg hload hst (hn.integrity (fromDict_plan_ok hout).1)

/-- What the act of an operation does to the plans. -/
theorem Act.plan_write {o : FacadeOp} {owed : Option PlannerState} (h : Act cfg amb o runId s owed s')
    (hfresh : ∀ a, o = .startRun a → fresh a.runId) :
    s'.plannerStates = s.plannerStates ∨ ∃ row, PlanWrite fresh amb s row ∧
      s'.plannerStates = s.plannerStates.put row := by
  cases h with
  | idle => exact .inl rfl
  | created a st out messages hst hout => exact .inr ⟨_, .of_created (hfresh a rfl) hst hout, rfl⟩
  | replanned a st out c hst hout => exact .inr ⟨_, .of_created (hfresh a rfl) hst hout, rfl⟩
  | edited st st' out hedit hload hst hout =>
    refine .inr ⟨_, ?_, rfl⟩
    cases hedit with
    | llmOutput a => exact .of_updated (.llmOutput a.planItemId a.llmOutput) hload hst hout
    | status a => exact .of_updated (.status a.planItemId a.newStatus a.note) hload hst hout
    | active runId planItemId => exact .of_updated (.active planItemId) hload hst hout
  | intended a st st' out c hknown hload hst hout hctx hblank hsaved =>
    exact .inr ⟨_, .of_updated (.toolCallRef a.planItemId a.executionId) hload hst hout, hsaved.plannerStates⟩
  | dispatched => exact .inl rfl
  | resulted a rs es cached record hparent hrs hes hget hcheck hrecord hcleared => exact .inl hcleared.plannerStates

/-- A step writes no plan, or one. -/
theorem PlanTurn.writes (h : PlanTurn cfg fresh s s') :
    s'.plannerStates = s.plannerStates ∨ ∃ amb row, PlanWrite fresh amb s row ∧
      s'.plannerStates = s.plannerStates.put row := by
  cases h with
  | service amb op hfresh =>
    rcases PlannerOp.alone_write amb s hfresh with hsame | ⟨row, hrow, hput⟩
    · exact .inl (by rw [hsame])
    · exact .inr ⟨amb, row, hrow, by rw [hput]; rfl⟩
  | facade amb o r hfresh hexec =>
    by_cases hsame : s' = s
    · exact .inl (by rw [hsame])
    rcases exec_parts hexec with ⟨hskip, -⟩ | ⟨runId, -, owed, s1, s2, s3, hact, hspoken, hsettled, hclosed⟩
    · exact absurd hskip hsame
    · have hrest : s'.plannerStates = s1.plannerStates := by
        have h2 : s2.plannerStates = s1.plannerStates := by cases hspoken <;> rfl
        have h3 : s3.plannerStates = s2.plannerStates := by cases hsettled <;> rfl
        rw [hclosed.checkpointed.plannerStates, h3, h2]
      rw [hrest]
      rcases hact.plan_write fun a ha => (hfresh a ha).resolve_right hsame with hp | ⟨row, hrow, hput⟩
      · exact .inl hp
      · exact .inr ⟨amb, row, hrow, hput⟩

end

/-! ## Every stored plan is settled -/

/-- Every row of the plan table is as a decoder leaves it. -/
def Store.PlansSettled (s : Store) : Prop := ∀ k row, s.plannerStates.get k = some row → row.Settled

section
variable {cfg : LoggingServiceConfig} {amb : Ambient} {fresh : String → Prop} {runId p : String} {s s' : Store}
  {st st' : PlannerState}

/-- A loaded plan is its row, in the order of the query. -/
theorem Store.PlansSettled.load (h : s.PlansSettled) (hload : s.loadPlan runId = .ok (some st)) :
    ∃ row, s.plannerStates.get (strip runId) = some row ∧ st = row.queried := by
  obtain ⟨-, row, hrow, hdec⟩ := loadPlan_ok.1 hload
  have hrun : Trimmed row.runId := by
    rw [Table.key_of_get hrow]
    exact trimmed_strip runId
  exact ⟨row, hrow, (h _ row hrow).decode hrun hdec⟩

theorem Store.PlansSettled.sorted (h : s.PlansSettled) (hload : s.loadPlan runId = .ok (some st)) :
    st.items.Pairwise PlannerItem.Precedes := by
  obtain ⟨row, -, rfl⟩ := h.load hload
  exact row.queried_sorted

theorem Store.PlansSettled.loaded (h : s.PlansSettled) (hload : s.loadPlan runId = .ok (some st)) : st.Settled := by
  obtain ⟨row, hrow, rfl⟩ := h.load hload
  obtain ⟨hitems, hschema⟩ := h _ row hrow
  exact ⟨fun it hit => hitems it (row.queried_perm.mem_iff.1 hit), hschema⟩

theorem createPlanState_settled {now : Time} {text : String} {raws : List RawPlanItem}
    {schema : Option RawPlanSchema} (h : createPlanState now runId text raws schema = .ok st) : st.Settled := by
  refine ⟨(createPlanState_ok h).normal, ?_⟩
  unfold createPlanState at h
  simp only [except_bind_ok, raiseIf_ok, except_pure_ok] at h
  obtain ⟨_, -, normalized, hnormalized, items, -, schema, hschema, rfl⟩ := h
  have hnormal : schema.Normal := normalizePlanSchema_twice hnormalized hschema
  split
  · exact hnormal
  · exact hnormal

theorem PlanUpdate.settled {f : PlannerItem → PlannerItem} (hu : PlanUpdate p f st st') (h : st.Settled) :
    st'.Settled :=
  ⟨hu.itemsNormal h.items, hu.schema ▸ h.schema⟩

theorem PlanWrite.settled {row : PlannerState} (h : PlanWrite fresh amb s row) (hs : s.PlansSettled) :
    row.Settled := by
  cases h with
  | created hfresh hst hint =>
    obtain ⟨hitems, hschema⟩ := createPlanState_settled hst
    exact ⟨hitems, hschema⟩
  | updated hg hload hst hint =>
    obtain ⟨f, hu⟩ := hg.update hst
    obtain ⟨hitems, hschema⟩ := hu.settled (hs.loaded hload)
    exact ⟨hitems, hschema⟩

theorem settled_turn (h : PlanTurn cfg fresh s s') (hs : s.PlansSettled) : s'.PlansSettled := by
  unfold Store.PlansSettled
  rcases h.writes with hsame | ⟨amb, row, hrow, hput⟩
  · rw [hsame]
    exact hs
  · rw [hput]
    exact Table.forall_put (P := PlannerState.Settled) hs (hrow.settled hs)

theorem settled_reachable (h : Relation.ReflTransGen (PlanTurn cfg fresh) {} s) : s.PlansSettled := by
  induction h with
  | refl =>
    intro k row hrow
    cases hrow
  | tail _ hturn ih => exact settled_turn hturn ih

end

end Raef
