import Raef.Model.World

/-!
# The transaction manager

`TransactionManager.execute_tool`: check for a record of the id, log the intent,
read it back, mark the dispatch, call the adapter, record the result.  Each of
these is an operation of its own.
-/

namespace Raef

open Text Program

/-! ## Execution identity -/

/-- `build_execution_id`.  Arguments that `json.dumps` refuses raise here; a call with such arguments
is stopped by the same error at its intent, and nothing is recorded either way. -/
@[irreducible] def buildExecutionId (runId planItemId toolName : String) (arguments : JsonObject)
    (invocationKey : Option String) : String :=
  let canonicalArgs := Json.dumps (.obj arguments)
  let rawParts := [runId, planItemId, toolName] ++ invocationKey.toList ++ [canonicalArgs]
  let digest := Sha256.hexdigest ("|".intercalate rawParts)
  "exec_" ++ String.ofList (digest.toList.take 24)

theorem trimmed_buildExecutionId (runId planItemId toolName : String) (arguments : JsonObject)
    (invocationKey : Option String) :
    Trimmed (buildExecutionId runId planItemId toolName arguments invocationKey) := by
  refine trimmed_of_forall fun c hc => ?_
  unfold buildExecutionId at hc
  simp only [String.toList_append, List.mem_append] at hc
  rcases hc with hc | hc
  · simp only [String.reduceToList, List.mem_cons, List.not_mem_nil, or_false] at hc
    rcases hc with rfl | rfl | rfl | rfl | rfl <;> rfl
  · rw [String.toList_ofList] at hc
    exact Sha256.isSpace_of_mem_hexdigest (List.mem_of_mem_take hc)

theorem buildExecutionId_ne_empty (runId planItemId toolName : String) (arguments : JsonObject)
    (invocationKey : Option String) :
    buildExecutionId runId planItemId toolName arguments invocationKey ≠ "" := by
  unfold buildExecutionId
  simp

/-! ## Calls and results -/

/-- The arguments of `execute_tool`, the adapter apart. -/
structure ToolCall where
  runId : String
  planItemId : String
  toolName : String
  requestPayload : JsonObject
  operationType : String
  invocationKey : Option String := none
  timeoutS : Option PyFloat := none
  idempotencySupported : Bool := false

def ToolCall.executionId (c : ToolCall) : String :=
  buildExecutionId c.runId c.planItemId c.toolName c.requestPayload c.invocationKey

theorem ToolCall.trimmed_executionId (c : ToolCall) : Trimmed c.executionId :=
  trimmed_buildExecutionId ..

theorem ToolCall.not_blank_executionId (c : ToolCall) : blank c.executionId = false :=
  not_blank_of_trimmed c.trimmed_executionId (buildExecutionId_ne_empty _ _ _ _ _)

inductive TransactionDisposition where
  | succeeded
  | reused
  | pendingRecovery
  | failed
deriving DecidableEq, Repr

structure TransactionResult where
  executionId : String
  disposition : TransactionDisposition
  record : ExternalResultRecord
  exception : Option String := none

structure TransactionManager where
  dispatchReads : Bool := false

/-! ## The protocol -/

/-- `_handle_existing`. -/
def handleExisting (record : ExternalResultRecord) : TransactionResult :=
  { executionId := record.executionId
    disposition := match record.executionStatus with
      | .acked | .verifiedCommitted => .reused
      | .failed => .failed
      | .intentLogged | .dispatched | .verifiedNotFound => .pendingRecovery
    record := record }

def ToolCall.intent (c : ToolCall) (operation : OperationType) : ToolIntent :=
  { runId := c.runId, planItemId := c.planItemId, executionId := c.executionId,
    toolName := c.toolName, requestPayload := c.requestPayload, operationType := operation.value }

def ToolCall.invocation (c : ToolCall) (operation : OperationType) : Invocation :=
  { identity := c.executionId
    toolName := c.toolName
    requestPayload := c.requestPayload
    executionId := if operation = .write ∧ c.idempotencySupported then some c.executionId else none
    timeoutS := c.timeoutS }

/-- The fields every result of a call gives. -/
def ToolCall.result (c : ToolCall) (operation : OperationType) (resultStatus : ExternalResultStatus)
    (executionStatus : ExecutionStatus) (responsePayload : Option JsonObject)
    (errorMessage : Option String) (clearPending : Bool) : ToolResult :=
  { runId := c.runId
    executionId := c.executionId
    resultStatus := resultStatus.value
    responsePayload := responsePayload
    errorMessage := errorMessage
    toolName := some c.toolName
    operationType := some operation.value
    requestPayload := some c.requestPayload
    planItemId := some c.planItemId
    executionStatus := some executionStatus.value
    clearPending := clearPending }

/-- What is recorded for each way the adapter ends. -/
def ToolCall.resultOf (c : ToolCall) (operation : OperationType) (isVerifiedReplay : Bool) :
    InvokeOutcome → ToolResult
  | .returned payload => c.result operation .ok .acked (some payload) none true
  | .returnedOther =>
    c.result operation .error .failed none (some "tool output must be a dictionary") true
  | .raised error => c.result operation .error .failed none (some error) true
  | .ambiguous error =>
    match operation with
    | .write => c.result operation .timeout
        -- a replay stays `verified_not_found`: there is no edge back to `dispatched`
        (if isVerifiedReplay then .verifiedNotFound else .dispatched) none (some error) false
    | .read => c.result operation .error .failed none (some error) true

def dispositionOf (operation : OperationType) : InvokeOutcome → TransactionDisposition
  | .returned _ => .succeeded
  | .returnedOther | .raised _ => .failed
  | .ambiguous _ => match operation with
    | .write => .pendingRecovery
    | .read => .failed

/-- Call the adapter and record how it ended. -/
def invokeAndRecord (c : ToolCall) (operation : OperationType) (isVerifiedReplay : Bool) :
    Prog TransactionResult := do
  let outcome ← call (Op.invoke (c.invocation operation))
  let result := c.resultOf operation isVerifiedReplay outcome
  let record ← call (Op.facade (FacadeOp.recordToolResult result))
  return {
    executionId := c.executionId
    disposition := dispositionOf operation outcome
    record := record
    exception := result.errorMessage }

/-- The mark before the adapter is called for the first time. -/
def markDispatched (mgr : TransactionManager) (c : ToolCall) (operation : OperationType) : Prog Unit :=
  if operation = .write ∨ mgr.dispatchReads then do
    let _ ← call (Op.facade (FacadeOp.recordToolDispatch c.runId c.executionId))
    return ()
  else return ()

/-- No record yet: log the intent first. -/
def firstExecution (mgr : TransactionManager) (c : ToolCall) (operation : OperationType) :
    Prog TransactionResult := do
  let _ ← call (Op.facade (FacadeOp.recordToolIntent (c.intent operation)))
  match ← call (Op.facade (FacadeOp.getExternalResult c.executionId)) with
  | none => raise (.runtime s!"tool intent missing after logging for execution_id={c.executionId}")
  | some current =>
    if current.executionStatus ≠ .intentLogged then return handleExisting current
    else do
      markDispatched mgr c operation
      invokeAndRecord c operation false

/-- `TransactionManager.execute_tool`. -/
def executeTool (mgr : TransactionManager) (c : ToolCall) : Prog TransactionResult := do
  let operation ← lift (normalizeOperationType c.operationType)
  match ← call (Op.facade (FacadeOp.getExternalResult c.executionId)) with
  | none => firstExecution mgr c operation
  | some existing =>
    if existing.executionStatus ≠ .verifiedNotFound then return handleExisting existing
    else invokeAndRecord c operation true

end Raef
