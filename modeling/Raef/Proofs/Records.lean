import Raef.Proofs.Effects

/-!
# The record of an execution across operations

How the operations move the record under an id and what they append to the log.
`Framed` operations leave all records alone; the three tool operations write
one record each, and the log only ever grows.

* `exec_framed`: every operation but the three leaves the records alone, and extends the log.
* `intent_records`, `dispatch_records`, `result_records`: the record each of the three writes.
-/

namespace Raef

open Text Txn

/-! ## Frames -/

/-- The tool records stay, the log only grows. -/
structure Framed (s s' : Store) : Prop where
  externalResults : s'.externalResults = s.externalResults
  walEvents : s.walEvents <+: s'.walEvents

theorem Framed.refl (s : Store) : Framed s s := ⟨rfl, List.prefix_refl _⟩

theorem Framed.trans {s s' s'' : Store} (h : Framed s s') (h' : Framed s' s'') : Framed s s'' :=
  ⟨h'.externalResults.trans h.externalResults, h.walEvents.trans h'.walEvents⟩

theorem framed_addEvent (s : Store) (ev : WalEvent) : Framed s (s.addEvent ev) :=
  ⟨rfl, List.prefix_append _ _⟩

theorem framed_putPlan (s : Store) (st : PlannerState) : Framed s (s.putPlan st) :=
  ⟨rfl, List.prefix_refl _⟩

theorem framed_putContext (s : Store) (c : AgentContextSnapshot) : Framed s (s.putContext c) :=
  ⟨rfl, List.prefix_refl _⟩

theorem Checkpointed.framed {amb : Ambient} {r : String} {s s' : Store} (h : Checkpointed amb r s s') :
    Framed s s' := by
  cases h with
  | none => exact .refl _
  | bare cp => exact ⟨rfl, List.prefix_append _ _⟩
  | withContext cp c => exact ⟨rfl, List.prefix_append _ _⟩

theorem Closed.framed {cfg : LoggingServiceConfig} {amb : Ambient} {r : String} {s s' : Store}
    (h : Closed cfg amb r s s') : Framed s s' := h.checkpointed.framed

section
variable {amb : Ambient} {runId : String} {s s' : Store}

theorem updatePlan_framed {f : PlannerState → Except PyError PlannerState} {r : PlannerState}
    (h : updatePlan amb runId f s = .ok (r, s')) : Framed s s' := by
  obtain ⟨st, st', -, -, -, -, rfl⟩ := updatePlan_saved h
  exact framed_putPlan _ _

theorem updateContext_framed {f : AgentContextSnapshot → Except PyError AgentContextSnapshot}
    {r : AgentContextSnapshot} (h : updateContext amb runId f s = .ok (r, s')) : Framed s s' := by
  obtain ⟨c, c', -, -, -, rfl⟩ := updateContext_saved h
  exact framed_putContext _ _

theorem syncContextWithPlanner_framed {st : PlannerState} {u : Unit}
    (h : syncContextWithPlanner amb runId st s = .ok (u, s')) : Framed s s' := by
  obtain ⟨c, -, -, rfl⟩ := syncContextWithPlanner_ok h
  exact (framed_addEvent _ _).trans (framed_putContext _ _)

theorem initContext_framed {msgs : List RawMessage} {mem : Option JsonObject} {force : Bool}
    {r : AgentContextSnapshot} (h : initContext amb runId msgs mem force s = .ok (r, s')) : Framed s s' := by
  rcases initContext_ok h with ⟨-, -, rfl⟩ | ⟨messages, -, -, -, rfl⟩
  · exact .refl _
  · exact framed_putContext _ _

theorem startRun_framed {cfg : LoggingServiceConfig} {a : StartRun} {r : RunProjections}
    (h : startRun cfg amb a s = .ok (r, s')) : Framed s s' := by
  obtain ⟨-, -, -, -, ⟨-, -, -, rfl⟩ | ⟨-, h⟩⟩ := startRun_ok h
  · exact .refl _
  · obtain ⟨st, s1, s2, s3, -, -, -, -, rfl, rfl, h1, s4, h2, h3⟩ := startFresh_ok h
    exact (framed_addEvent _ _).trans <| (framed_addEvent _ _).trans <| (framed_putPlan _ _).trans <|
      (framed_addEvent _ _).trans <| (initContext_framed h1).trans <|
      (syncContextWithPlanner_framed h2).trans h3.framed

end

/-- Every operation but the tool operations leaves the tool records alone. -/
theorem exec_framed {cfg : LoggingServiceConfig} {amb : Ambient} {o : FacadeOp} (ho : o.plain = true)
    {s s' : Store} {r : o.Res} (h : o.exec cfg amb s = .ok (r, s')) : Framed s s' := by
  cases o with
  | startRun a => exact startRun_framed h
  | recordContextMessage a =>
    obtain ⟨s1, h1, -, h2⟩ := recordContextMessage_ok h
    exact (framed_addEvent _ _).trans ((updateContext_framed h1).trans h2.framed)
  | recordLlmTurn a =>
    obtain ⟨s1, s2, s3, -, -, h1, h2, h3, h4⟩ := recordLlmTurn_ok h
    exact (framed_addEvent _ _).trans <| (updatePlan_framed h1).trans <| (framed_addEvent _ _).trans <|
      (updateContext_framed h2).trans <| (syncContextWithPlanner_framed h3).trans h4.framed
  | advancePlanItem a =>
    obtain ⟨s1, s2, -, -, h1, h2, h3⟩ := advancePlanItem_ok h
    exact (framed_addEvent _ _).trans <| (updatePlan_framed h1).trans <|
      (syncContextWithPlanner_framed h2).trans h3.framed
  | setActivePlanItem runId planItemId =>
    obtain ⟨s1, s2, -, h1, h2, h3⟩ := setActivePlanItem_ok h
    exact (framed_addEvent _ _).trans <| (updatePlan_framed h1).trans <|
      (syncContextWithPlanner_framed h2).trans h3.framed
  | checkpoint runId snapshotType inc => exact (checkpointLocked_ok h).framed
  | getExternalResult e => exact (fetch_pair.1 h).2 ▸ .refl _
  | listExternalResults runId => exact (fetch_pair.1 h).2 ▸ .refl _
  | listPendingExecutions runId => exact (fetch_pair.1 h).2 ▸ .refl _
  | loadContext runId => exact (fetch_pair.1 h).2 ▸ .refl _
  | recordToolIntent a => cases ho
  | recordToolDispatch runId e => cases ho
  | recordToolResult a => cases ho

/-! ## The tool operations -/

/-- An event of the type, for the id. -/
def WalEvent.marks (ev : WalEvent) (type : EventType) (executionId : String) : Prop :=
  ev.payload.type = type ∧ ev.entityId = executionId

theorem rowOf_congr {s s' : Store} (h : s'.externalResults = s.externalResults) (amb : Ambient)
    (row : ExternalResultRecord) : s'.rowOf amb row = s.rowOf amb row := by
  simp [Store.rowOf, h]

section
variable {cfg : LoggingServiceConfig} {amb : Ambient} {s s' : Store}

/-- An intent writes the record of its id unless there is one; the log then names it. -/
theorem intent_records {a : ToolIntent} {r : RunProjections}
    (h : recordToolIntent cfg amb a s = .ok (r, s')) :
    Framed s s' ∨ (s.externalResults.get (strip a.executionId) = none ∧
      (s.rowOf amb (a.record amb)).Decodes ∧
      s'.externalResults = s.externalResults.put (s.rowOf amb (a.record amb)) ∧
      s.walEvents <+: s'.walEvents ∧
      ∃ ev ∈ s'.walEvents, ev.marks .toolIntentRecorded (strip a.executionId)) := by
  rcases recordToolIntent_ok h with ⟨-, -, rfl⟩ | ⟨-, h⟩
  · exact .inl (.refl _)
  · obtain ⟨ctx, s1, s2, s3, s4, s5, -, -, -, h1, rfl, h2, h3, h4, h5⟩ := recordNewIntent_ok h
    have front := (updatePlan_framed h1).trans ((framed_addEvent _ _).trans (updateContext_framed h2))
    have back := (syncContextWithPlanner_framed h4).trans h5.framed
    have hfr : s3.externalResults = s.externalResults := front.externalResults
    cases h3 with
    | present row hrow => exact .inl ((framed_addEvent _ _).trans (front.trans back))
    | written hnone hfk hdec =>
      rw [hfr] at hnone
      rw [rowOf_congr hfr] at hdec back
      refine .inr ⟨hnone, hdec, ?_, ?_, ?_⟩
      · rw [back.externalResults, Store.putResult_externalResults, hfr]
      · exact (framed_addEvent _ _).walEvents.trans (front.walEvents.trans back.walEvents)
      · exact ⟨_, (front.walEvents.trans back.walEvents).subset
          (List.mem_append_right _ List.mem_cons_self), rfl, rfl⟩

/-- A dispatch found `row` and wrote `new`. -/
structure DispatchEffect (amb : Ambient) (runId executionId : String) (s s' : Store)
    (row new : ExternalResultRecord) : Prop where
  found : s.externalResults.get (strip executionId) = some row
  run : strip row.runId = runId
  moves : ExecutionStatus.Moves row.executionStatus .dispatched
  written : new = s.rowOf amb { row.stripped with executionStatus := .dispatched }
  decodes : new.Decodes
  externalResults : s'.externalResults = s.externalResults.put new
  log : ∃ ev, s.walEvents ++ [ev] <+: s'.walEvents ∧ ev.marks .toolDispatched (strip executionId)

/-- A dispatch moves the record to `DISPATCHED` and logs it. -/
theorem dispatch_records {runId e : String} {r : ExternalResultRecord}
    (h : recordToolDispatch cfg amb runId e s = .ok (r, s')) :
    ∃ row new, DispatchEffect amb runId e s s' row new ∧ r = new.stripped := by
  obtain ⟨row, new, h1, -, h2, h3, -, -, -, rfl, h4, h6, h5⟩ := recordToolDispatch_ok h
  refine ⟨row, _, ⟨h1, h2, h3, rfl, h4, ?_, _, h5.framed.walEvents, rfl, rfl⟩, h6⟩
  rw [h5.checkpointed.externalResults]
  rfl

theorem DispatchEffect.executionId {runId e : String} {row new : ExternalResultRecord}
    (h : DispatchEffect amb runId e s s' row new) : new.executionId = strip e := by
  rw [h.written]
  show strip row.executionId = strip e
  rw [Table.key_of_get h.found, strip_strip]

theorem DispatchEffect.executionStatus {runId e : String} {row new : ExternalResultRecord}
    (h : DispatchEffect amb runId e s s' row new) : new.executionStatus = .dispatched := by
  rw [h.written]
  rfl

theorem DispatchEffect.grows {runId e : String} {row new : ExternalResultRecord}
    (h : DispatchEffect amb runId e s s' row new) : s.walEvents <+: s'.walEvents := by
  obtain ⟨ev, h1, -⟩ := h.log
  exact (List.prefix_append _ _).trans h1

/-- A result wrote `new`, with status `executionStatus`, along an edge from what it found. -/
structure ResultEffect (amb : Ambient) (a : ToolResult) (s s' : Store) (executionStatus : ExecutionStatus)
    (new : ExternalResultRecord) : Prop where
  resolved : ∃ rs, parseResultStatus a.resultStatus = .ok rs ∧
    resolveExecutionStatus a.executionStatus rs = .ok executionStatus
  context : (s.agentContexts.get a.runId).isSome
  moves : ∀ row, s.externalResults.get (strip a.executionId) = some row →
    row.Decodes ∧ strip row.runId = a.runId ∧ ExecutionStatus.Moves row.executionStatus executionStatus
  written : ∃ rs cached record, s.getExternalResult a.executionId = .ok cached ∧
    a.record amb rs executionStatus cached = .ok record ∧ new = s.rowOf amb record
  decodes : new.Decodes
  externalResults : s'.externalResults = s.externalResults.put new
  log : s.walEvents <+: s'.walEvents

/-- What `ToolResult.record` copies from the call. -/
theorem toolResult_record_ok {a : ToolResult} {rs : ExternalResultStatus} {es : ExecutionStatus}
    {cached : Option ExternalResultRecord} {record : ExternalResultRecord}
    (h : a.record amb rs es cached = .ok record) :
    record.executionId = a.executionId ∧ record.runId = a.runId ∧ record.executionStatus = es ∧
      record.resultStatus = rs ∧ record.responsePayload = a.responsePayload := by
  unfold ToolResult.record at h
  dsimp only at h
  split at h
  · cases h
    exact ⟨rfl, rfl, rfl, rfl, rfl⟩
  · cases h

section
variable {a : ToolResult} {es : ExecutionStatus} {new : ExternalResultRecord}
  (h : ResultEffect amb a s s' es new)

include h

theorem ResultEffect.executionId : new.executionId = a.executionId := by
  obtain ⟨rs, cached, record, -, h1, rfl⟩ := h.written
  exact (toolResult_record_ok h1).1

theorem ResultEffect.runId : new.runId = a.runId := by
  obtain ⟨rs, cached, record, -, h1, rfl⟩ := h.written
  exact (toolResult_record_ok h1).2.1

theorem ResultEffect.executionStatus : new.executionStatus = es := by
  obtain ⟨rs, cached, record, -, h1, rfl⟩ := h.written
  exact (toolResult_record_ok h1).2.2.1

theorem ResultEffect.responsePayload : new.responsePayload = a.responsePayload := by
  obtain ⟨rs, cached, record, -, h1, rfl⟩ := h.written
  exact (toolResult_record_ok h1).2.2.2.2

/-- A status given by its value is the one written. -/
theorem ResultEffect.status_eq {st : ExecutionStatus} (hst : a.executionStatus = some st.value) :
    es = st := by
  obtain ⟨rs, -, h1⟩ := h.resolved
  rw [hst, resolveExecutionStatus_value] at h1
  exact (Except.ok.inj h1).symm

end

/-- A result writes the record of its id. -/
theorem result_records {a : ToolResult} {r : ExternalResultRecord}
    (h : recordToolResult cfg amb a s = .ok (r, s')) :
    ∃ es new, ResultEffect amb a s s' es new ∧ r = new.stripped := by
  obtain ⟨rs, es, cached, record, new, s1, h1, h2, h3, h4, h5, -, -, -, -, hctx, rfl, h6, h7, h8, h9⟩ :=
    recordToolResult_ok h
  have mid : Framed ((s.addEvent (s.newEvent amb a.runId
      (.externalResultRecorded rs es record.toolName record.operationType record.planItemId
        a.responsePayload.isSome a.errorMessage) "external_result" a.executionId)).putResult
      (s.rowOf amb record)) s1 := by
    cases h8 with
    | off => exact .refl _
    | absent => exact .refl _
    | dropped c ids => exact (framed_addEvent _ _).trans (framed_putContext _ _)
  have back := mid.trans h9.framed
  refine ⟨es, _, ⟨⟨rs, h1, h2⟩, hctx, ?_, ⟨rs, cached, record, h3, h5, rfl⟩, h6, ?_, ?_⟩, h7⟩
  · intro row hrow
    have hc := (getExternalResult_ok.1 h3).2
    rw [hrow] at hc
    obtain ⟨hdec, rfl⟩ := hc
    unfold ToolResult.check at h4
    dsimp only at h4
    split at h4
    · cases h4
    · next hrun => exact ⟨hdec, not_not.1 hrun, assertExecutionTransition_ok.1 h4⟩
  · rw [back.externalResults]
    rfl
  · exact (List.prefix_append _ _).trans back.walEvents

/-! ## Payloads -/

/-- The payloads of every stored record are such that `json.dumps` takes them. -/
def Store.Encoded (s : Store) (limits : PyLimits) : Prop :=
  ∀ k row, s.externalResults.get k = some row → row.dumps limits = .ok ()

theorem Store.Encoded.of_eq {limits : PyLimits} (h : s.Encoded limits)
    (heq : s'.externalResults = s.externalResults) : s'.Encoded limits := by
  unfold Store.Encoded
  rw [heq]
  exact h

end

/-! ## Listing -/

theorem recordOf_some {records : List ExternalResultRecord} {e : String} {r : ExternalResultRecord}
    (h : recordOf records e = some r) : r ∈ records ∧ r.executionId = e := by
  unfold recordOf at h
  exact ⟨List.mem_reverse.1 (List.mem_of_find?_eq_some h), by simpa using List.find?_some h⟩

theorem recordOf_isSome {records : List ExternalResultRecord} {e : String} :
    (recordOf records e).isSome ↔ ∃ r ∈ records, r.executionId = e := by
  unfold recordOf
  simp [List.find?_isSome]

/-- `getExternalResults` collects the lookups that find something. -/
theorem getExternalResults_ok {s : Store} {ids : List String} {records : List ExternalResultRecord}
    (h : s.getExternalResults ids = .ok records) :
    (∀ id ∈ ids, ∃ o, s.getExternalResult id = .ok o) ∧
      ∀ r, r ∈ records ↔ ∃ id ∈ ids, s.getExternalResult id = .ok (some r) := by
  induction ids generalizing records with
  | nil =>
    cases h
    simp
  | cons id ids ih =>
    unfold Store.getExternalResults at h
    simp only [except_bind_ok, except_pure_ok] at h
    obtain ⟨o, h1, rest, h2, rfl⟩ := h
    obtain ⟨h3, h4⟩ := ih h2
    refine ⟨?_, ?_⟩
    · intro id' hid'
      rcases List.mem_cons.1 hid' with rfl | hid'
      · exact ⟨o, h1⟩
      · exact h3 id' hid'
    · intro r
      rw [List.mem_append, h4]
      constructor
      · rintro (hr | ⟨id', hid', hr⟩)
        · rw [Option.mem_toList] at hr
          subst hr
          exact ⟨id, List.mem_cons_self, h1⟩
        · exact ⟨id', List.mem_cons_of_mem _ hid', hr⟩
      · rintro ⟨id', hid', hr⟩
        rcases List.mem_cons.1 hid' with rfl | hid'
        · rw [h1] at hr
          cases hr
          exact .inl (by simp)
        · exact .inr ⟨id', hid', hr⟩

theorem mem_executionIdsOf {s : Store} {runId id : String} :
    id ∈ s.executionIdsOf runId ↔ ∃ row, s.externalResults.get id = some row ∧ row.runId = runId := by
  unfold Store.executionIdsOf
  dsimp only
  rw [List.mem_map]
  constructor
  · rintro ⟨⟨k, row⟩, h, rfl⟩
    rw [List.mem_insertionSort, List.mem_filter, Table.mem_entries_iff] at h
    exact ⟨row, h.1, by simpa using h.2⟩
  · rintro ⟨row, h, hrun⟩
    refine ⟨⟨id, row⟩, ?_, rfl⟩
    rw [List.mem_insertionSort, List.mem_filter, Table.mem_entries_iff]
    exact ⟨h, by simpa using hrun⟩

theorem listExternalResults_ok {s : Store} {runId : String} {records : List ExternalResultRecord}
    (h : s.listExternalResults runId = .ok records) :
    (∃ c, s.loadContext runId = .ok (some c)) ∧ blank runId = false ∧
      s.getExternalResults (s.executionIdsOf (strip runId)) = .ok records := by
  unfold Store.listExternalResults at h
  simp only [except_bind_ok, requireNonEmptyStr_ok] at h
  obtain ⟨c, h1, _, ⟨h2, rfl⟩, h3⟩ := h
  exact ⟨⟨c, loadRequiredContext_ok.1 h1⟩, h2, h3⟩

/-- A listed record is the stripped row that is looked up for the id of a row of the run. -/
theorem listed_from {s : Store} {runId : String} {records : List ExternalResultRecord}
    (h : s.listExternalResults runId = .ok records) {r : ExternalResultRecord} (hr : r ∈ records) :
    ∃ id own row, s.externalResults.get id = some own ∧ own.runId = strip runId ∧ r.executionId = strip id ∧
      s.externalResults.get (strip id) = some row ∧ row.Decodes ∧ r = row.stripped := by
  obtain ⟨-, -, h1⟩ := listExternalResults_ok h
  obtain ⟨id, hid, hget⟩ := ((getExternalResults_ok h1).2 r).1 hr
  obtain ⟨own, hown, hrun⟩ := mem_executionIdsOf.1 hid
  obtain ⟨row, hrow, hdec, rfl⟩ := getExternalResult_some hget
  have hkey : row.stripped.executionId = strip id := by
    show strip row.executionId = strip id
    rw [Table.key_of_get hrow, strip_strip]
  exact ⟨id, own, row, hown, hrun, hkey, hrow, hdec, rfl⟩

/-- A listed record is the stripped row under its own id. -/
theorem listed_row {s : Store} {runId : String} {records : List ExternalResultRecord}
    (h : s.listExternalResults runId = .ok records) {r : ExternalResultRecord} (hr : r ∈ records) :
    Trimmed r.executionId ∧ ∃ row, s.externalResults.get r.executionId = some row ∧ row.Decodes ∧
      r = row.stripped := by
  obtain ⟨id, -, row, -, -, hid, hrow, hdec, hrec⟩ := listed_from h hr
  rw [hid]
  exact ⟨trimmed_strip id, row, hrow, hdec, hrec⟩

/-- A row of the run under a stripped id is listed. -/
theorem mem_listed {s : Store} {runId : String} {records : List ExternalResultRecord}
    (h : s.listExternalResults runId = .ok records) {e : String} (he : Trimmed e)
    {row : ExternalResultRecord} (hrow : s.externalResults.get e = some row)
    (hrun : row.runId = strip runId) : row.Decodes ∧ row.stripped ∈ records := by
  obtain ⟨-, -, h1⟩ := listExternalResults_ok h
  obtain ⟨h2, h3⟩ := getExternalResults_ok h1
  have hid : e ∈ s.executionIdsOf (strip runId) := mem_executionIdsOf.2 ⟨row, hrow, hrun⟩
  obtain ⟨o, ho⟩ := h2 e hid
  have hlook := (getExternalResult_ok.1 ho).2
  rw [he, hrow] at hlook
  obtain ⟨hdec, rfl⟩ := hlook
  exact ⟨hdec, (h3 _).2 ⟨e, hid, ho⟩⟩

/-- What a listing gives for the stripped id of a row of the run. -/
theorem recordOf_listed {s : Store} {runId : String} {records : List ExternalResultRecord}
    (h : s.listExternalResults runId = .ok records) {e : String} (he : Trimmed e)
    {row : ExternalResultRecord} (hrow : s.externalResults.get e = some row)
    (hrun : row.runId = strip runId) : recordOf records e = some row.stripped := by
  obtain ⟨-, hmem⟩ := mem_listed h he hrow hrun
  have hid : row.stripped.executionId = e := by
    show strip row.executionId = e
    rw [Table.key_of_get hrow, he]
  obtain ⟨r, hr⟩ := Option.isSome_iff_exists.1 (recordOf_isSome.2 ⟨_, hmem, hid⟩)
  obtain ⟨hrmem, hre⟩ := recordOf_some hr
  obtain ⟨-, row', hrow', -, rfl⟩ := listed_row h hrmem
  rw [hre, hrow] at hrow'
  cases hrow'
  exact hr

end Raef
