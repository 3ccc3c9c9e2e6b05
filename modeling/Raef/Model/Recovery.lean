import Raef.Model.TxnManager

/-!
# The recovery coordinator

`RecoveryCoordinator.recover_run`: decide on every recorded or pending id, probe
the target for dispatched writes past their window, and complete the transcript.
The records are read once, at the beginning of the pass.
-/

namespace Raef

open Program

structure RecoveryCoordinator where
  strategy : RuntimeRecoveryStrategy := {}
  hasVerifier : Bool := true
  hasHandoff : Bool := false

/-- `_response_payload_from_verification`. -/
def responsePayloadFromVerification (v : WriteVerification) : JsonObject :=
  let payload : JsonObject := [("verified", .bool true)]
  let payload := match v.receipt with
    | some receipt => payload ++ [("receipt", .obj receipt)]
    | none => payload
  match v.record with
  | none => payload
  | some record =>
    let payload := match JsonObject.get record "result" with
      | some (.obj result) => payload ++ [("result", .obj result)]
      | _ => payload
    payload ++ [("target_record", .obj record)]

/-- `_emit_handoff_if_needed`. -/
def emitHandoff (rc : RecoveryCoordinator) (decision : RecoveryDecision) : Prog Unit :=
  if rc.hasHandoff then call (Op.handoff decision) else return ()

/-- The record of a verdict. -/
def verdictResult (runId executionId : String) (v : WriteVerification) (committed : Bool) : ToolResult :=
  if committed then {
    runId := runId
    executionId := executionId
    resultStatus := ExternalResultStatus.ok.value
    responsePayload := some (responsePayloadFromVerification v)
    executionStatus := some ExecutionStatus.verifiedCommitted.value }
  else {
    runId := runId
    executionId := executionId
    resultStatus := ExternalResultStatus.unknown.value
    responsePayload := none
    executionStatus := some ExecutionStatus.verifiedNotFound.value
    clearPending := false }

def verdictDecision (runId executionId : String) (v : WriteVerification) (committed : Bool) :
    RecoveryDecision :=
  if committed then {
    runId := runId
    executionId := executionId
    action := .markCommitted
    reason := s!"target verification confirmed commit: {v.reason}"
    executionStatus := some .verifiedCommitted }
  else {
    runId := runId
    executionId := executionId
    action := .replay
    reason := s!"target verification found no commit: {v.reason}"
    executionStatus := some .verifiedNotFound }

/-- `_verify_ambiguous_write`: only a verdict is recorded. -/
def verifyAmbiguousWrite (runId executionId : String) (record : ExternalResultRecord)
    (fallback : RecoveryDecision) : Prog (RecoveryDecision × ExternalResultRecord) := do
  match ← call (Op.verify ⟨executionId, record.toolName, record.requestPayload⟩) with
  | none => return (fallback, record)
  | some v =>
    match v.committed with
    | none => return (fallback, record)
    | some committed => do
      let updated ← call (Op.facade (FacadeOp.recordToolResult (verdictResult runId executionId v committed)))
      return (verdictDecision runId executionId v committed, updated)

/-- The tool message that completes the transcript of a committed execution. -/
def reconciledMessage (runId : String) (record : ExternalResultRecord) (responsePayload : JsonObject) :
    ContextMessage :=
  { runId := runId
    role := "tool"
    content := Json.dumps (.obj responsePayload)
    metadata := some [("source", .str "recovery"), ("reconciled", .bool true),
      ("execution_status", .str record.executionStatus.value)]
    name := some record.toolName
    toolCallId := some record.executionId }

/-- `_reconcile_tool_message`. -/
def reconcileToolMessage (runId : String) (record : ExternalResultRecord) : Prog Unit :=
  match record.responsePayload with
  | none => return ()
  | some responsePayload => do
    match ← call (Op.facade (FacadeOp.loadContext runId)) with
    | none => return ()
    | some context =>
      if context.messages.any fun m => m.role = "tool" && m.toolCallId = some record.executionId then
        return ()
      else do
        let _ ← call (Op.facade (FacadeOp.recordContextMessage (reconciledMessage runId record responsePayload)))
        return ()

def missingRecordDecision (runId executionId : String) : RecoveryDecision :=
  { runId := runId
    executionId := executionId
    action := .handoffRetryOrAbandon
    reason := "pending execution is missing durable external result"
    executionStatus := none }

/-- A dispatched write past its window, which only the target can settle. -/
def needsVerification (rc : RecoveryCoordinator) (record : ExternalResultRecord)
    (decision : RecoveryDecision) : Bool :=
  decision.action = .handoffRetryOrAbandon && rc.hasVerifier &&
    record.operationType = OperationType.write.value && record.executionStatus = .dispatched

def settle (rc : RecoveryCoordinator) (runId executionId : String) (record : ExternalResultRecord)
    (decision : RecoveryDecision) : Prog (RecoveryDecision × ExternalResultRecord) :=
  if needsVerification rc record decision then verifyAmbiguousWrite runId executionId record decision
  else return (decision, record)

/-- What follows a decision. -/
def actOn (rc : RecoveryCoordinator) (runId : String) (decision : RecoveryDecision)
    (record : ExternalResultRecord) : Prog Unit :=
  match decision.action with
  | .markCommitted => reconcileToolMessage runId record
  | .handoffRetryOrAbandon => emitHandoff rc decision
  | .resumeWaiting | .replay => return ()

/-- One turn of the loop. -/
def recoverOne (rc : RecoveryCoordinator) (runId : String) (now : Datetime)
    (records : List ExternalResultRecord) (executionId : String) : Prog RecoveryDecision :=
  match recordOf records executionId with
  | none => do
    emitHandoff rc (missingRecordDecision runId executionId)
    return missingRecordDecision runId executionId
  | some record => do
    let decision ← lift (decideRecovery rc.strategy runId executionId record now)
    let settled ← settle rc runId executionId record decision
    actOn rc runId settled.1 settled.2
    return settled.1

def recoverEach (rc : RecoveryCoordinator) (runId : String) (now : Datetime)
    (records : List ExternalResultRecord) : List String → Prog (List RecoveryDecision)
  | [] => return []
  | executionId :: ids => do
    let decision ← recoverOne rc runId now records executionId
    let decisions ← recoverEach rc runId now records ids
    return decision :: decisions

/-- `sorted(set(records.keys()) | pending_ids)`. -/
def candidateIds (records : List ExternalResultRecord) (pending : List String) : List String :=
  ((records.map ExternalResultRecord.executionId ++ pending).dedup).insertionSort fun a b => a ≤ b

/-- `RecoveryCoordinator.recover_run`. -/
def recoverRun (rc : RecoveryCoordinator) (runId : String) (now : Datetime) : Prog (List RecoveryDecision) := do
  match ← call (Op.facade (FacadeOp.loadContext runId)) with
  | none => return []
  | some _ => do
    let records ← call (Op.facade (FacadeOp.listExternalResults runId))
    let pending ← call (Op.facade (FacadeOp.listPendingExecutions runId))
    recoverEach rc runId now records (candidateIds records pending)

/-! ## The command line -/

/-- `_cmd_recover` with `--dry-run`, up to printing: a decision on each listed record. -/
def dryRun (strategy : RuntimeRecoveryStrategy) (runId : String) (now : Datetime) (s : Store) :
    Except PyError (List RecoveryDecision) := do
  let records ← s.listExternalResults runId
  records.mapM fun record => decideRecovery strategy runId record.executionId record now

/-- What `_cmd_recover` prints of a decision. -/
structure RecoveryEntry where
  executionId : String
  action : String
  reason : String
  executionStatus : Option String
deriving DecidableEq

def RecoveryDecision.entry (d : RecoveryDecision) : RecoveryEntry :=
  { executionId := d.executionId
    action := d.action.value
    reason := d.reason
    executionStatus := d.executionStatus.map ExecutionStatus.value }

/-! ## Everything a process may call -/

inductive Call where
  | executeTool (mgr : TransactionManager) (c : ToolCall)
  | recoverRun (rc : RecoveryCoordinator) (runId : String) (now : Datetime)
  | facade (o : FacadeOp)

abbrev Call.Result : Call → Type
  | .executeTool _ _ => TransactionResult
  | .recoverRun _ _ _ => List RecoveryDecision
  | .facade o => o.Res

def Call.program : (c : Call) → Prog c.Result
  | .executeTool mgr c => Raef.executeTool mgr c
  | .recoverRun rc runId now => Raef.recoverRun rc runId now
  | .facade o => call (Op.facade o)

end Raef
