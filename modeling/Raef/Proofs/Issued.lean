import Raef.Proofs.Audited

/-!
# What a call issues

The operations of a tool call, of a pass and of a single operation, whatever the answers: a property
of every operation a pool may come to is one of these.  Of the records each writes at most one, and which
one is said once (`issued_rows`).
-/

namespace Raef

open Text Txn Program

/-- The operations a call may issue. -/
inductive IssuedBy : Call → Op → Prop
  | facade (o : FacadeOp) : IssuedBy (.facade o) (.facade o)
  | lookup (mgr : TransactionManager) (c : ToolCall) :
      IssuedBy (.executeTool mgr c) (.facade (.getExternalResult c.executionId))
  | intent {c : ToolCall} {op : OperationType} (mgr : TransactionManager)
      (type : normalizeOperationType c.operationType = .ok op) :
      IssuedBy (.executeTool mgr c) (.facade (.recordToolIntent (c.intent op)))
  | dispatch (mgr : TransactionManager) (c : ToolCall) :
      IssuedBy (.executeTool mgr c) (.facade (.recordToolDispatch c.runId c.executionId))
  | send {c : ToolCall} {op : OperationType} (mgr : TransactionManager)
      (type : normalizeOperationType c.operationType = .ok op) :
      IssuedBy (.executeTool mgr c) (.invoke (c.invocation op))
  | result {c : ToolCall} {op : OperationType} (mgr : TransactionManager)
      (type : normalizeOperationType c.operationType = .ok op) (replay : Bool) (outcome : InvokeOutcome) :
      IssuedBy (.executeTool mgr c) (.facade (.recordToolResult (c.resultOf op replay outcome)))
  | context (rc : RecoveryCoordinator) (runId : String) (now : Datetime) :
      IssuedBy (.recoverRun rc runId now) (.facade (.loadContext runId))
  | listed (rc : RecoveryCoordinator) (runId : String) (now : Datetime) :
      IssuedBy (.recoverRun rc runId now) (.facade (.listExternalResults runId))
  | pending (rc : RecoveryCoordinator) (runId : String) (now : Datetime) :
      IssuedBy (.recoverRun rc runId now) (.facade (.listPendingExecutions runId))
  | probe (rc : RecoveryCoordinator) (runId : String) (now : Datetime) (probe : Probe) :
      IssuedBy (.recoverRun rc runId now) (.verify probe)
  | verdict (rc : RecoveryCoordinator) (runId : String) (now : Datetime) (executionId : String)
      (v : WriteVerification) (committed : Bool) : IssuedBy (.recoverRun rc runId now)
        (.facade (.recordToolResult (verdictResult runId executionId v committed)))
  | message (rc : RecoveryCoordinator) (runId : String) (now : Datetime) (record : ExternalResultRecord)
      (payload : JsonObject) : IssuedBy (.recoverRun rc runId now)
        (.facade (.recordContextMessage (reconciledMessage runId record payload)))
  | handoff (rc : RecoveryCoordinator) (runId : String) (now : Datetime) (d : RecoveryDecision) :
      IssuedBy (.recoverRun rc runId now) (.handoff d)

section
variable {mgr : TransactionManager} {c : ToolCall} {op : OperationType}

theorem invokeAndRecord_issues (type : normalizeOperationType c.operationType = .ok op) (replay : Bool) :
    (invokeAndRecord c op replay).Uses (IssuedBy (.executeTool mgr c)) :=
  ⟨.send mgr type, fun outcome => ⟨.result mgr type replay outcome, fun _ => trivial⟩⟩

theorem executeTool_issues : (executeTool mgr c).Uses (IssuedBy (.executeTool mgr c)) := by
  unfold executeTool
  cases type : normalizeOperationType c.operationType with
  | error e => trivial
  | ok op =>
    rw [lift_ok_bind]
    refine ⟨.lookup mgr c, fun existing => ?_⟩
    cases existing with
    | none =>
      refine ⟨.intent mgr type, fun _ => ⟨.lookup mgr c, fun current => ?_⟩⟩
      cases current with
      | none => trivial
      | some current =>
        show Uses _ (if _ then _ else _)
        split
        · trivial
        · refine Uses.bind ?_ fun _ => invokeAndRecord_issues type false
          unfold markDispatched
          split
          · exact ⟨.dispatch mgr c, fun _ => trivial⟩
          · trivial
    | some existing =>
      show Uses _ (if _ then _ else _)
      split
      · trivial
      · exact invokeAndRecord_issues type true

end

section
variable {rc : RecoveryCoordinator} {runId : String} {now : Datetime}

theorem emitHandoff_issues (d : RecoveryDecision) :
    (emitHandoff rc d).Uses (IssuedBy (.recoverRun rc runId now)) := by
  unfold emitHandoff
  split
  · exact ⟨.handoff rc runId now d, fun _ => trivial⟩
  · trivial

theorem reconcileToolMessage_issues (record : ExternalResultRecord) :
    (reconcileToolMessage runId record).Uses (IssuedBy (.recoverRun rc runId now)) := by
  unfold reconcileToolMessage
  cases record.responsePayload with
  | none => trivial
  | some payload =>
    refine ⟨.context rc runId now, fun context => ?_⟩
    cases context with
    | none => trivial
    | some context =>
      show Uses _ (if _ then _ else _)
      split
      · trivial
      · exact ⟨.message rc runId now record payload, fun _ => trivial⟩

theorem settle_issues (e : String) (record : ExternalResultRecord) (d : RecoveryDecision) :
    (settle rc runId e record d).Uses (IssuedBy (.recoverRun rc runId now)) := by
  unfold settle
  split
  · unfold verifyAmbiguousWrite
    rw [call_bind]
    refine ⟨.probe rc runId now _, fun answer => ?_⟩
    cases answer with
    | none => trivial
    | some v =>
      dsimp only
      cases v.committed with
      | none => trivial
      | some committed => exact ⟨.verdict rc runId now e v committed, fun _ => trivial⟩
  · trivial

theorem actOn_issues (d : RecoveryDecision) (record : ExternalResultRecord) :
    (actOn rc runId d record).Uses (IssuedBy (.recoverRun rc runId now)) := by
  unfold actOn
  cases d.action with
  | markCommitted => exact reconcileToolMessage_issues record
  | handoffRetryOrAbandon => exact emitHandoff_issues d
  | resumeWaiting => trivial
  | replay => trivial

theorem recoverOne_issues (records : List ExternalResultRecord) (e : String) :
    (recoverOne rc runId now records e).Uses (IssuedBy (.recoverRun rc runId now)) := by
  unfold recoverOne
  cases recordOf records e with
  | none => exact (emitHandoff_issues _).bind fun _ => trivial
  | some record =>
    dsimp only
    cases decideRecovery rc.strategy runId e record now with
    | error err => trivial
    | ok d =>
      rw [lift_ok_bind]
      exact (settle_issues e record d).bind fun settled => (actOn_issues settled.1 settled.2).bind fun _ => trivial

theorem recoverEach_issues (records : List ExternalResultRecord) (ids : List String) :
    (recoverEach rc runId now records ids).Uses (IssuedBy (.recoverRun rc runId now)) := by
  induction ids with
  | nil => trivial
  | cons e es ih =>
    unfold recoverEach
    exact (recoverOne_issues records e).bind fun _ => ih.bind fun _ => trivial

theorem recoverRun_issues : (recoverRun rc runId now).Uses (IssuedBy (.recoverRun rc runId now)) := by
  unfold recoverRun
  refine ⟨.context rc runId now, fun context => ?_⟩
  cases context with
  | none => trivial
  | some context =>
    exact ⟨.listed rc runId now, fun records => ⟨.pending rc runId now, fun pending => recoverEach_issues records _⟩⟩

end

/-- **A call issues these operations and no others.** -/
theorem call_issues (c : Call) : c.program.Uses (IssuedBy c) := by
  cases c with
  | executeTool mgr c => exact executeTool_issues
  | recoverRun rc runId now => exact recoverRun_issues
  | facade o => exact ⟨.facade o, fun _ => trivial⟩

/-! ## What it writes -/

/-- The record an operation of a call writes. -/
inductive RowWritten (s s' : Store) : Call → Op → ExternalResultRecord → Prop
  | intent {c : ToolCall} {op : OperationType} (mgr : TransactionManager) (amb : Ambient)
      (type : normalizeOperationType c.operationType = .ok op) :
      RowWritten s s' (.executeTool mgr c) (.facade (.recordToolIntent (c.intent op)))
        (s.rowOf amb ((c.intent op).record amb))
  | dispatch {c : ToolCall} {amb : Ambient} {row new : ExternalResultRecord} (mgr : TransactionManager)
      (effect : DispatchEffect amb c.runId c.executionId s s' row new) :
      RowWritten s s' (.executeTool mgr c) (.facade (.recordToolDispatch c.runId c.executionId)) new
  | result {c : ToolCall} {op : OperationType} {amb : Ambient} {es : ExecutionStatus} {new : ExternalResultRecord}
      (mgr : TransactionManager) (type : normalizeOperationType c.operationType = .ok op) (replay : Bool)
      (outcome : InvokeOutcome) (effect : ResultEffect amb (c.resultOf op replay outcome) s s' es new) :
      RowWritten s s' (.executeTool mgr c) (.facade (.recordToolResult (c.resultOf op replay outcome))) new
  | verdict {amb : Ambient} {es : ExecutionStatus} {new : ExternalResultRecord} (rc : RecoveryCoordinator)
      (runId : String) (now : Datetime) (executionId : String) (v : WriteVerification) (committed : Bool)
      (effect : ResultEffect amb (verdictResult runId executionId v committed) s s' es new) :
      RowWritten s s' (.recoverRun rc runId now)
        (.facade (.recordToolResult (verdictResult runId executionId v committed))) new

/-- A row found after a write is the one written, or was there. -/
theorem Table.of_get_put {ν : Type} {key : ν → String} {t : Table ν key} {k : String} {row new : ν}
    (h : (t.put new).get k = some row) : (row = new ∧ k = key new) ∨ t.get k = some row := by
  rw [Table.get_put] at h
  split at h
  · next heq => exact .inl ⟨(Option.some.inj h).symm, heq⟩
  · exact .inr h

/-- **An operation of a call leaves the records alone, or writes one.** -/
theorem issued_rows {τ : Type} {cfg : LoggingServiceConfig} {env : Environment τ} {call : Call} {o : Op}
    {r : Except PyError o.Res} {w w' : World τ} (hcall : call.Framework) (ho : IssuedBy call o)
    (hs : sem cfg env w o r w') : w'.store.externalResults = w.store.externalResults ∨
      ∃ new, w'.store.externalResults = w.store.externalResults.put new ∧ RowWritten w.store w'.store call o new := by
  have hplain {o : FacadeOp} (ho : o.plain = true) {r : Except PyError o.Res} (hs : sem cfg env w (.facade o) r w') :
      w'.store.externalResults = w.store.externalResults :=
    sem_facade (P := fun w' => w'.store.externalResults = w.store.externalResults) hs rfl
      fun _ _ _ hx => (exec_framed ho hx).externalResults
  have hfacade {o : FacadeOp} {r : Except PyError o.Res} (hs : sem cfg env w (.facade o) r w')
      (hok : ∀ amb p s, o.exec cfg amb w.store = .ok (p, s) → s.externalResults = w.store.externalResults ∨
        ∃ new, s.externalResults = w.store.externalResults.put new ∧ RowWritten w.store s call (.facade o) new) :
      w'.store.externalResults = w.store.externalResults ∨ ∃ new,
        w'.store.externalResults = w.store.externalResults.put new ∧ RowWritten w.store w'.store call (.facade o) new :=
    sem_facade (P := fun w' => w'.store.externalResults = w.store.externalResults ∨ ∃ new,
      w'.store.externalResults = w.store.externalResults.put new ∧ RowWritten w.store w'.store call (.facade o) new)
      hs (.inl rfl) hok
  cases ho with
  | facade o => exact .inl (hplain hcall hs)
  | @intent c op mgr type =>
    refine hfacade hs fun amb p s hx => ?_
    rcases intent_records (FacadeOp.exec_recordToolIntent.1 hx) with hf | ⟨-, -, hput, -, -⟩
    · exact .inl hf.externalResults
    · exact .inr ⟨_, hput, .intent mgr amb type⟩
  | dispatch mgr c =>
    refine hfacade hs fun amb p s hx => ?_
    obtain ⟨row, new, hd, -⟩ := dispatch_records (FacadeOp.exec_recordToolDispatch.1 hx)
    exact .inr ⟨new, hd.externalResults, .dispatch mgr hd⟩
  | @result c op mgr type replay outcome =>
    refine hfacade hs fun amb p s hx => ?_
    obtain ⟨es, new, hr, -⟩ := result_records (FacadeOp.exec_recordToolResult.1 hx)
    exact .inr ⟨new, hr.externalResults, .result mgr type replay outcome hr⟩
  | verdict rc runId now e v committed =>
    refine hfacade hs fun amb p s hx => ?_
    obtain ⟨es, new, hr, -⟩ := result_records (FacadeOp.exec_recordToolResult.1 hx)
    exact .inr ⟨new, hr.externalResults, .verdict rc runId now e v committed hr⟩
  | send mgr type =>
    obtain ⟨_, _, -, -, rfl⟩ := sem_invoke.1 hs
    exact .inl rfl
  | probe rc runId now probe =>
    obtain ⟨_, _, -, -, rfl⟩ := sem_verify.1 hs
    exact .inl rfl
  | handoff rc runId now d =>
    rcases sem_handoff hs with rfl | ⟨keys, rfl⟩
    · exact .inl rfl
    · exact .inl rfl
  | _ => exact .inl (hplain rfl hs)

/-! ## Pools -/

section
variable {τ ι : Type} [DecidableEq ι] {cfg : LoggingServiceConfig} {env : Environment τ} {calls : ι → Call}

/-- What every operation of the calls keeps, every state of their pool has. -/
theorem reach_issued {I : World τ → Prop} (hop : ∀ i w o r w', IssuedBy (calls i) o → I w → sem cfg env w o r w' → I w')
    {w w' : World τ} (h : I w) {pool : Pool ι Op Op.Res PyError fun i => (calls i).Result}
    (hr : Reach (fun _ => sem cfg env) (w, fun i => some (calls i).program) (w', pool)) : I w' := by
  refine (reach_safe (I := I) (R := fun _ _ _ => True) (G := fun _ _ _ => True) (Q := fun _ _ _ => True)
    (fun _ _ => trivial) (fun _ _ _ _ _ _ => trivial) (fun _ _ _ _ _ _ => trivial)
    (fun _ _ _ _ _ _ => trivial) ⟨h, fun i p hp => ?_⟩ hr).1
  cases hp
  exact Uses.safe (fun w o r w' ho hI hs => hop i w o r w' ho hI hs) (call_issues (calls i)) w

end

end Raef
