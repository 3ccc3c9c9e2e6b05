import Raef.Proofs.Script
import Raef.Proofs.Sound

/-!
# The state machine of an execution

The facade under any sequence of operations.  While first records and results
carry ids without white space at their ends, every stored record moves along the
table only, and can be read back under the id and the run it was stored with.
With other ids the lookup and the write go to different rows.

    ids stripped ⇒ records move along edges, are found and listed     (lifecycle_enforced)
    a padded id ⇒ an acknowledged record becomes failed, unfound      (padded_id_escapes)
-/

namespace Raef

open Text Txn

/-- An intent without a record yet, and every result, names its execution and run
without white space at the ends. -/
def FacadeOp.StrippedIds (s : Store) : FacadeOp → Prop
  | .recordToolIntent a => s.externalResults.get (strip a.executionId) = none →
      Trimmed a.executionId ∧ Trimmed a.runId
  | .recordToolResult a => Trimmed a.executionId ∧ Trimmed a.runId
  | _ => True

/-- One successful operation, of those allowed. -/
def FacadeStep (cfg : LoggingServiceConfig) (allowed : Store → FacadeOp → Prop) (s s' : Store) : Prop :=
  ∃ amb o r, allowed s o ∧ FacadeOp.exec cfg amb o s = .ok (r, s')

/-- Rows sit under their stripped id, and belong to a run with a context. -/
structure Ledger (s : Store) : Prop where
  sound : s.Sound
  key : ∀ k row, s.externalResults.get k = some row → Trimmed k
  run : ∀ k row, s.externalResults.get k = some row → Trimmed row.runId
  parent : ∀ k row, s.externalResults.get k = some row → (s.agentContexts.get row.runId).isSome

/-- Records stay under their id and move along edges. -/
def RecordsMove (s s' : Store) : Prop :=
  ∀ k row, s.externalResults.get k = some row →
    ∃ row', s'.externalResults.get k = some row' ∧ ExecutionStatus.Moves row.executionStatus row'.executionStatus

theorem RecordsMove.of_eq {s s' : Store} (h : s'.externalResults = s.externalResults) : RecordsMove s s' :=
  fun _ row hk => ⟨row, h ▸ hk, .inl rfl⟩

theorem Ledger.of_eq {s s' : Store} (h : Ledger s) (hk : Kept s s')
    (heq : s'.externalResults = s.externalResults) : Ledger s' := by
  refine ⟨hk.sound h.sound, ?_, ?_, ?_⟩
  all_goals intro k row hrow; rw [heq] at hrow
  · exact h.key k row hrow
  · exact h.run k row hrow
  · exact hk.contexts _ (h.parent k row hrow)

/-- One row written under its stripped id. -/
theorem Ledger.put {s s' : Store} {new : ExternalResultRecord} (h : Ledger s) (hk : Kept s s')
    (heq : s'.externalResults = s.externalResults.put new) (hkey : Trimmed new.executionId)
    (hrun : Trimmed new.runId) (hparent : (s'.agentContexts.get new.runId).isSome) : Ledger s' := by
  refine ⟨hk.sound h.sound, ?_, ?_, ?_⟩
  · intro k row hrow
    rw [heq, Table.get_put] at hrow
    split at hrow
    · next hkk => exact hkk ▸ hkey
    · exact h.key k row hrow
  · rw [heq]
    exact Table.forall_put h.run hrun
  · rw [heq]
    exact Table.forall_put (P := fun row => (s'.agentContexts.get row.runId).isSome)
      (fun k row hrow => hk.contexts _ (h.parent k row hrow)) hparent

theorem RecordsMove.put {s s' : Store} {new : ExternalResultRecord}
    (heq : s'.externalResults = s.externalResults.put new)
    (hmove : ∀ row, s.externalResults.get new.executionId = some row →
      ExecutionStatus.Moves row.executionStatus new.executionStatus) : RecordsMove s s' := by
  intro k row hk
  rw [heq, Table.get_put]
  split
  · next hkk => exact ⟨new, rfl, hmove row (hkk ▸ hk)⟩
  · exact ⟨row, hk, .inl rfl⟩

/-! ## Steps -/

section
variable {cfg : LoggingServiceConfig} {amb : Ambient} {s s' : Store}

/-- The run of an intent that was not known has a context row. -/
theorem intent_parent {a : ToolIntent} {r : RunProjections} (h : recordNewIntent cfg amb a s = .ok (r, s'))
    (hnone : s.externalResults.get (strip a.executionId) = none) : (s'.agentContexts.get a.runId).isSome := by
  obtain ⟨ctx, s1, s2, s3, s4, s5, -, -, -, h1, rfl, h2, h3, h4, h5⟩ := recordNewIntent_ok h
  have front := (updatePlan_framed h1).trans ((framed_addEvent _ _).trans (updateContext_framed h2))
  have back := (syncContextWithPlanner_kept h4).trans h5.kept
  cases h3 with
  | present row hrow =>
    have hfr : s3.externalResults = s.externalResults := front.externalResults
    rw [hfr, hnone] at hrow
    cases hrow
  | written hn hfk hd => exact back.contexts _ hfk

theorem ledger_intent {a : ToolIntent} (ha : s.externalResults.get (strip a.executionId) = none →
      Trimmed a.executionId ∧ Trimmed a.runId) {r : RunProjections} (h : Ledger s)
    (hx : recordToolIntent cfg amb a s = .ok (r, s')) : Ledger s' ∧ RecordsMove s s' := by
  have hk := exec_kept (FacadeOp.exec_recordToolIntent.2 hx)
  rcases intent_records hx with hf | ⟨hnone, hdec, hput, -, -⟩
  · exact ⟨h.of_eq hk hf.externalResults, .of_eq hf.externalResults⟩
  · obtain ⟨he, hr⟩ := ha hnone
    have hkey : (s.rowOf amb (a.record amb)).executionId = a.executionId := rfl
    rw [he] at hnone
    have hnew : recordNewIntent cfg amb a s = .ok (r, s') := by
      rcases recordToolIntent_ok hx with ⟨-, -, rfl⟩ | ⟨-, hx⟩
      · rw [hput, ← hkey, Table.get_put_self] at hnone
        cases hnone
      · exact hx
    refine ⟨h.put hk hput (hkey ▸ he) hr (intent_parent hnew (by rwa [he])), .put hput fun row hrow => ?_⟩
    rw [hkey, hnone] at hrow
    cases hrow

theorem ledger_dispatch {runId e : String} {r : ExternalResultRecord} (h : Ledger s)
    (hx : recordToolDispatch cfg amb runId e s = .ok (r, s')) : Ledger s' ∧ RecordsMove s s' := by
  have hk := exec_kept (FacadeOp.exec_recordToolDispatch.2 hx)
  obtain ⟨row, new, hd, -⟩ := dispatch_records hx
  have hrun := h.run _ _ hd.found
  have hnewrun : new.runId = row.runId := by
    rw [hd.written]
    exact hrun
  refine ⟨h.put hk hd.externalResults ?_ (hnewrun ▸ hrun) (hnewrun ▸ hk.contexts _ (h.parent _ _ hd.found)),
    .put hd.externalResults fun row' hrow => ?_⟩
  · rw [hd.executionId]
    exact trimmed_strip e
  · rw [hd.executionId, hd.found] at hrow
    cases hrow
    rw [hd.executionStatus]
    exact hd.moves

theorem ledger_result {a : ToolResult} (ha : Trimmed a.executionId) (hr : Trimmed a.runId)
    {r : ExternalResultRecord} (h : Ledger s) (hx : recordToolResult cfg amb a s = .ok (r, s')) :
    Ledger s' ∧ RecordsMove s s' := by
  have hk := exec_kept (FacadeOp.exec_recordToolResult.2 hx)
  obtain ⟨es, new, hres, -⟩ := result_records hx
  obtain ⟨_, _, _, _, _, _, -, -, -, -, -, -, -, -, -, hfk, -⟩ := recordToolResult_ok hx
  refine ⟨h.put hk hres.externalResults ?_ ?_ ?_, .put hres.externalResults fun row hrow => ?_⟩
  · rw [hres.executionId]
    exact ha
  · rw [hres.runId]
    exact hr
  · rw [hres.runId]
    exact hk.contexts _ hfk
  · rw [hres.executionId, ← ha] at hrow
    rw [hres.executionStatus]
    exact (hres.moves row hrow).2.2

/-- One operation with stripped ids keeps the ledger and moves records along edges. -/
theorem ledger_step (h : Ledger s) (hs : FacadeStep cfg FacadeOp.StrippedIds s s') :
    Ledger s' ∧ RecordsMove s s' := by
  obtain ⟨amb, o, r, ho, hx⟩ := hs
  cases o with
  | recordToolIntent a => exact ledger_intent ho h (FacadeOp.exec_recordToolIntent.1 hx)
  | recordToolDispatch runId e => exact ledger_dispatch h (FacadeOp.exec_recordToolDispatch.1 hx)
  | recordToolResult a => exact ledger_result ho.1 ho.2 h (FacadeOp.exec_recordToolResult.1 hx)
  | _ =>
    have hf := exec_framed rfl hx
    exact ⟨h.of_eq (exec_kept hx) hf.externalResults, .of_eq hf.externalResults⟩

end

theorem ledger_empty : Ledger {} := by
  refine ⟨sound_empty, ?_, ?_, ?_⟩
  all_goals intro k row hk; cases hk

theorem ledger_reachable {cfg : LoggingServiceConfig} {s : Store}
    (h : Relation.ReflTransGen (FacadeStep cfg FacadeOp.StrippedIds) {} s) : Ledger s := by
  induction h with
  | refl => exact ledger_empty
  | tail _ hs ih => exact (ledger_step ih hs).1

/-- A row of the ledger is found under its id and listed for its run. -/
theorem Ledger.readable {s : Store} (h : Ledger s) {k : String} {row : ExternalResultRecord}
    (hrow : s.externalResults.get k = some row) :
    s.getExternalResult k = .ok (some row.stripped) ∧
      ∃ records, s.listExternalResults row.runId = .ok records ∧ row.stripped ∈ records := by
  have hdec := h.sound.records k row hrow
  have hk : Trimmed k := h.key k row hrow
  have hrun : Trimmed row.runId := h.run k row hrow
  have hblank : blank k = false := by
    rw [← Table.key_of_get hrow]
    exact hdec.executionId
  obtain ⟨c, hc⟩ := Option.isSome_iff_exists.1 (h.parent k row hrow)
  have hload := loadContext_run h.sound hdec.runId
  rw [hrun, hc] at hload
  obtain ⟨records, hlist⟩ := listExternalResults_run h.sound hload
  refine ⟨?_, records, hlist, (mem_listed hlist hk hrow hrun.symm).2⟩
  rw [getExternalResult_run h.sound hblank, hk, hrow]
  rfl

/-- **The state machine.**  Along any operations with stripped ids, records move
along the edges of the table, and every row is found under its id and listed for
its run. -/
theorem lifecycle_enforced (cfg : LoggingServiceConfig) (s : Store)
    (h : Relation.ReflTransGen (FacadeStep cfg FacadeOp.StrippedIds) {} s) :
    (∀ k row, s.externalResults.get k = some row → s.getExternalResult k = .ok (some row.stripped) ∧
      ∃ records, s.listExternalResults row.runId = .ok records ∧ row.stripped ∈ records) ∧
    ∀ s', FacadeStep cfg FacadeOp.StrippedIds s s' → RecordsMove s s' :=
  ⟨fun _ _ hrow => (ledger_reachable h).readable hrow,
    fun _ hs => (ledger_step (ledger_reachable h) hs).2⟩

/-! ## With and without padding -/

/-- Operations one after the other, from the store and the clock of a scripted run. -/
def execAll : List FacadeOp → Store → Except PyError Store
  | [], s => .ok s
  | o :: os, s => do
    let p ← o.exec {} stillAmbient s
    execAll os p.2

theorem execAll_reach {allowed : Store → FacadeOp → Prop} {os : List FacadeOp}
    (hos : ∀ o ∈ os, ∀ s, allowed s o) {s s' : Store} (h : execAll os s = .ok s') :
    Relation.ReflTransGen (FacadeStep {} allowed) s s' := by
  induction os generalizing s with
  | nil =>
    cases h
    exact .refl
  | cons o os ih =>
    unfold execAll at h
    rw [except_bind_ok] at h
    obtain ⟨⟨r, s1⟩, h1, h2⟩ := h
    exact .head ⟨stillAmbient, o, r, hos o List.mem_cons_self s, h1⟩
      (ih (fun o' ho' => hos o' (List.mem_cons_of_mem _ ho')) h2)

/-- An intent for the id, then results with these outcomes. -/
def lifecycleOps (executionId : String) (outcomes : List ExternalResultStatus) : List FacadeOp :=
  [.startRun tripRun, .recordToolIntent {
    runId := "trip", planItemId := "step_0", executionId := executionId, toolName := "book",
    requestPayload := bookingPayload, operationType := "WRITE" }] ++
  outcomes.map fun outcome => .recordToolResult {
    runId := "trip", executionId := executionId, resultStatus := outcome.value,
    responsePayload := none, toolName := some "book", operationType := some "WRITE",
    requestPayload := some bookingPayload }

/-- The status of the row with this key after the operations. -/
def statusAfter (os : List FacadeOp) (k : String) : Option ExecutionStatus :=
  match execAll os {} with
  | .ok s => (s.externalResults.get k).map ExternalResultRecord.executionStatus
  | .error _ => none

/-- What the lookup and the listing of the run give for the id after the operations. -/
def foundAfter (os : List FacadeOp) (executionId : String) : Option (Bool × ℕ) :=
  match execAll os {} with
  | .ok s => match s.getExternalResult executionId, s.listExternalResults "trip" with
    | .ok found, .ok listed => some (found.isSome, listed.length)
    | _, _ => none
  | .error _ => none

/-- A padded id: the record is `ACKED`, then `FAILED`, and never found nor listed. -/
theorem padded_id_escapes :
    statusAfter (lifecycleOps " e " [.ok]) " e " = some .acked ∧
    statusAfter (lifecycleOps " e " [.ok, .error]) " e " = some .failed ∧
    ¬ ExecutionStatus.Moves .acked .failed ∧
    foundAfter (lifecycleOps " e " [.ok]) " e " = some (false, 0) := by
  decide +kernel

theorem trimmed_trip : Trimmed tripRun.runId := by decide +kernel

theorem lifecycleOps_stripped {e : String} (he : Trimmed e) {outcomes : List ExternalResultStatus} :
    ∀ o ∈ lifecycleOps e outcomes, ∀ s, FacadeOp.StrippedIds s o := by
  intro o ho s
  unfold lifecycleOps at ho
  rcases List.mem_append.1 ho with ho | ho
  · simp only [List.mem_cons, List.not_mem_nil, or_false] at ho
    rcases ho with rfl | rfl
    · trivial
    · exact fun _ => ⟨he, trimmed_trip⟩
  · obtain ⟨outcome, -, rfl⟩ := List.mem_map.1 ho
    exact ⟨he, trimmed_trip⟩

/-- With the id `e`, the same two operations leave a record that is found and listed. -/
theorem lifecycle_enforced_stripped : ∃ s row records, execAll (lifecycleOps "e" [.ok]) {} = .ok s ∧
    s.externalResults.get "e" = some row ∧ s.getExternalResult "e" = .ok (some row.stripped) ∧
    s.listExternalResults row.runId = .ok records ∧ row.stripped ∈ records := by
  obtain ⟨s, hs⟩ : ∃ s, execAll (lifecycleOps "e" [.ok]) {} = .ok s := except_ok_of_toBool (by decide +kernel)
  have hstored : statusAfter (lifecycleOps "e" [.ok]) "e" = some .acked := by decide +kernel
  unfold statusAfter at hstored
  rw [hs] at hstored
  obtain ⟨row, hrow, -⟩ := Option.map_eq_some_iff.1 hstored
  have hreach := execAll_reach (lifecycleOps_stripped (e := "e") (by decide +kernel)) hs
  obtain ⟨hget, records, hlist, hmem⟩ := (lifecycle_enforced {} s hreach).1 "e" row hrow
  exact ⟨s, row, records, hs, hrow, hget, hlist, hmem⟩

end Raef
