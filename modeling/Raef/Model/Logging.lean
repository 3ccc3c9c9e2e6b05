import Raef.Model.Services

/-!
# The logging facade

`LoggingService`: each operation is one transaction that appends its events and
updates the projections they describe.
-/

namespace Raef

open Text Txn

/-- `LoggingServiceConfig`, with the interpreter the service runs on. -/
structure LoggingServiceConfig where
  checkpointEveryNEvents : ℤ := 0
  enforceExecutionDedup : Bool := true
  limits : PyLimits := {}

/-- The two dictionaries most operations return. -/
structure RunProjections where
  plannerState : PlannerState
  context : AgentContextSnapshot

/-! ## Arguments -/

structure StartRun where
  runId : String
  initialMessages : List RawMessage := []
  planSourceText : String := ""
  planItems : List RawPlanItem
  initialMemory : Option JsonObject := none
  forceReset : Bool := false
  planSchema : Option RawPlanSchema := none

structure ContextMessage where
  runId : String
  role : String
  content : String
  metadata : Option JsonObject := none
  name : Option String := none
  toolCallId : Option String := none

structure LlmTurn where
  runId : String
  planItemId : String
  llmOutput : String
  assistantMessage : String
  assistantMetadata : Option JsonObject := none

structure ToolIntent where
  runId : String
  planItemId : String
  executionId : String
  toolName : String
  requestPayload : JsonObject
  operationType : String

structure ToolResult where
  runId : String
  executionId : String
  resultStatus : String
  responsePayload : Option JsonObject
  errorMessage : Option String := none
  toolName : Option String := none
  operationType : Option String := none
  requestPayload : Option JsonObject := none
  planItemId : Option String := none
  executionStatus : Option String := none
  clearPending : Bool := true

structure PlanItemAdvance where
  runId : String
  planItemId : String
  newStatus : String
  note : Option String := none

/-! ## Checkpoints -/

/-- The records a checkpoint holds. -/
def Store.snapshotResults (s : Store) (runId : String) (included : Bool) :
    Except PyError (Option (List ExternalResultRecord)) :=
  if included then (s.listExternalResults runId).map some else .ok none

/-- The context remembers the checkpoint, when there is one. -/
def noteCheckpoint (amb : Ambient) (runId : String) (latestSeq : ℕ) (context : Option AgentContextSnapshot) :
    Tx Unit :=
  match context with
  | none => return ()
  | some _ => do
    let _ ← checkpointContext amb runId latestSeq

/-- `_checkpoint_locked`; no events, no checkpoint. -/
def checkpointLocked (amb : Ambient) (runId snapshotType : String) (includeExternalResults : Bool) :
    Tx (Option WalCheckpoint) := do
  match ← fetch (·.latestWalSeq runId) with
  | none => return none
  | some latestSeq =>
    let plannerState ← fetch (·.loadPlan runId)
    let contextSnapshot ← fetch (·.loadContext runId)
    let externalResults ← fetch (·.snapshotResults runId (includeExternalResults && contextSnapshot.isSome))
    let checkpoint ← writeWalCheckpoint amb runId latestSeq snapshotType
      { planner := plannerState, context := contextSnapshot, externalResults := externalResults }
    noteCheckpoint amb runId latestSeq contextSnapshot
    appendEvent amb runId
      (.checkpointWritten checkpoint.checkpointId checkpoint.seqId checkpoint.snapshotType)
      "checkpoint" checkpoint.checkpointId
    return some checkpoint

def maybeAutoCheckpoint (cfg : LoggingServiceConfig) (amb : Ambient) (runId : String) :
    Tx (Option WalCheckpoint) := do
  if cfg.checkpointEveryNEvents ≤ 0 then return none
  else match ← fetch (·.latestWalSeq runId) with
    | none => return none
    | some seq =>
      if seq = 0 ∨ (seq : ℤ) % cfg.checkpointEveryNEvents ≠ 0 then return none
      else checkpointLocked amb runId "agent_context" false

/-! ## Runs and plan updates -/

/-- `_sync_context_with_planner_locked`. -/
def syncContextWithPlanner (amb : Ambient) (runId : String) (plannerState : PlannerState) : Tx Unit := do
  let _ ← fetch (·.loadRequiredContext runId)
  appendEvent amb runId (.contextSynchronized plannerState.version plannerState.cursorIndex) "context" runId
  let _ ← syncPlannerState amb runId plannerState.version plannerState.cursorIndex

/-- The metadata and the memory of a new run as the event of its context encodes them. -/
def StartRun.dumps (limits : PyLimits) (a : StartRun) : Except PyError Unit := do
  a.initialMessages.forM fun m => limits.dumps (m.metadata.getD [])
  limits.dumps (a.initialMemory.getD [])

/-- `start_run` when the run is new or reset. -/
def startFresh (cfg : LoggingServiceConfig) (amb : Ambient) (a : StartRun) : Tx RunProjections := do
  appendEvent amb a.runId (.runStarted a.initialMessages.length a.planItems.length) "run" a.runId
  appendEvent amb a.runId (.planCreated a.planSourceText a.planItems (a.planSchema.getD {})) "planner" a.runId
  let plannerState ← createPlan amb a.runId a.planSourceText a.planItems a.planSchema
  lift (a.dumps cfg.limits)
  appendEvent amb a.runId (.contextInitialized a.initialMessages (a.initialMemory.getD [])) "context" a.runId
  let context ← initContext amb a.runId a.initialMessages a.initialMemory a.forceReset
  syncContextWithPlanner amb a.runId plannerState
  let _ ← maybeAutoCheckpoint cfg amb a.runId
  return ⟨plannerState, context⟩

def startRun (cfg : LoggingServiceConfig) (amb : Ambient) (a : StartRun) : Tx RunProjections := do
  let existingPlanner ← fetch (·.loadPlan a.runId)
  let existingContext ← fetch (·.loadContext a.runId)
  match existingPlanner, existingContext, a.forceReset with
  | some plannerState, some context, false => return ⟨plannerState, context⟩
  | _, _, _ => startFresh cfg amb a

def recordContextMessage (cfg : LoggingServiceConfig) (amb : Ambient) (a : ContextMessage) :
    Tx AgentContextSnapshot := do
  lift (cfg.limits.dumps (a.metadata.getD []))
  appendEvent amb a.runId
    (.contextMessageAppended a.role a.content (a.metadata.getD []) a.name a.toolCallId) "context" a.runId
  let context ← appendMessage amb a.runId a.role a.content a.metadata a.name a.toolCallId
  let _ ← maybeAutoCheckpoint cfg amb a.runId
  return context

def recordLlmTurn (cfg : LoggingServiceConfig) (amb : Ambient) (a : LlmTurn) : Tx RunProjections := do
  appendEvent amb a.runId (.planItemLlmOutputAttached a.llmOutput) "planner_item" a.planItemId
  let plannerState ← attachLlmOutput amb a.runId a.planItemId a.llmOutput
  lift (cfg.limits.dumps (a.assistantMetadata.getD []))
  appendEvent amb a.runId
    (.contextMessageAppended "assistant" a.assistantMessage (a.assistantMetadata.getD []) none none)
    "context" a.runId
  let context ← appendMessage amb a.runId "assistant" a.assistantMessage a.assistantMetadata none none
  syncContextWithPlanner amb a.runId plannerState
  let _ ← maybeAutoCheckpoint cfg amb a.runId
  return ⟨plannerState, context⟩

def advancePlanItem (cfg : LoggingServiceConfig) (amb : Ambient) (a : PlanItemAdvance) :
    Tx PlannerState := do
  appendEvent amb a.runId (.planItemStatusUpdated a.newStatus a.note) "planner_item" a.planItemId
  let plannerState ← updateItemStatus amb a.runId a.planItemId a.newStatus a.note
  syncContextWithPlanner amb a.runId plannerState
  let _ ← maybeAutoCheckpoint cfg amb a.runId
  return plannerState

def setActivePlanItem (cfg : LoggingServiceConfig) (amb : Ambient) (runId planItemId : String) :
    Tx PlannerState := do
  appendEvent amb runId (.planActiveItemSet planItemId) "planner" runId
  let plannerState ← setActiveItem amb runId planItemId
  syncContextWithPlanner amb runId plannerState
  let _ ← maybeAutoCheckpoint cfg amb runId
  return plannerState

/-! ## Tool calls -/

/-- `_tool_intent_exists_locked`. -/
def Store.toolIntentExists (s : Store) (runId executionId : String) : Except PyError Bool := do
  match ← s.getExternalResult executionId with
  | some existing =>
    raiseIf (existing.runId ≠ runId)
      (.value s!"execution_id={executionId} already belongs to run_id={existing.runId}")
    return true
  | none => s.hasWalEvent runId .toolIntentRecorded executionId

def Store.intentKnown (s : Store) (cfg : LoggingServiceConfig) (runId executionId : String) :
    Except PyError Bool :=
  if cfg.enforceExecutionDedup then s.toolIntentExists runId executionId else .ok false

/-- `_project_pending_ids_with_add`. -/
def projectPendingIdsWithAdd (context : Option AgentContextSnapshot) (executionId : String) : List String :=
  match context with
  | none => [executionId]
  | some c => addOnce executionId c.pendingExecutionIds

/-- The record of an intent. -/
def ToolIntent.record (amb : Ambient) (a : ToolIntent) : ExternalResultRecord :=
  { executionId := a.executionId
    runId := a.runId
    planItemId := some a.planItemId
    toolName := a.toolName
    operationType := a.operationType
    requestPayload := a.requestPayload
    responsePayload := none
    resultStatus := .unknown
    executionStatus := .intentLogged
    errorMessage := none
    createdAt := amb.now
    updatedAt := amb.now }

/-- The record is only written when there is none. -/
def saveIntentRecord (cfg : LoggingServiceConfig) (amb : Ambient) (a : ToolIntent) : Tx Unit := do
  match ← fetch (·.getExternalResult a.executionId) with
  | some _ => return ()
  | none =>
    let _ ← saveExternalResult cfg.limits amb a.runId (a.record amb)

/-- `record_tool_intent` when the intent is not known yet. -/
def recordNewIntent (cfg : LoggingServiceConfig) (amb : Ambient) (a : ToolIntent) : Tx RunProjections := do
  let contextSnapshot ← fetch (·.loadContext a.runId)
  let pendingAfter := projectPendingIdsWithAdd contextSnapshot a.executionId
  lift (cfg.limits.dumps a.requestPayload)
  appendEvent amb a.runId
    (.toolIntentRecorded a.planItemId a.toolName a.operationType a.requestPayload .intentLogged)
    "tool_intent" a.executionId
  let plannerState ← attachToolCallRef amb a.runId a.planItemId a.executionId
  appendEvent amb a.runId (.contextPendingExecutionSet pendingAfter.getLast? pendingAfter) "context" a.runId
  let context ← addPendingExecution amb a.runId a.executionId
  saveIntentRecord cfg amb a
  syncContextWithPlanner amb a.runId plannerState
  let _ ← maybeAutoCheckpoint cfg amb a.runId
  return ⟨plannerState, context⟩

/-- The projections of a run whose intent is already recorded. -/
def Store.loadProjections (s : Store) (runId : String) : Except PyError RunProjections := do
  let plannerState ← s.loadPlan runId
  let context ← s.loadContext runId
  match plannerState, context with
  | some p, some c => return ⟨p, c⟩
  | _, _ => throw (.value s!"run projections missing for run_id={runId}")

def recordToolIntent (cfg : LoggingServiceConfig) (amb : Ambient) (a : ToolIntent) : Tx RunProjections := do
  let known ← fetch (·.intentKnown cfg a.runId a.executionId)
  if known then fetch (·.loadProjections a.runId) else recordNewIntent cfg amb a

def recordToolDispatch (cfg : LoggingServiceConfig) (amb : Ambient) (runId executionId : String) :
    Tx ExternalResultRecord := do
  match ← fetch (·.getExternalResult executionId) with
  | none => raise (.value s!"tool intent not found for execution_id={executionId}")
  | some cached =>
    require (cached.runId = runId) (.value "execution_id belongs to another run")
    lift (assertExecutionTransition cached.executionStatus .dispatched)
    appendEvent amb runId (.toolDispatched .dispatched cached.toolName) "tool_intent" executionId
    let record ← saveExternalResult cfg.limits amb runId { cached with executionStatus := .dispatched }
    let _ ← maybeAutoCheckpoint cfg amb runId
    return record

/-- `value or default` of a text: the empty text counts as absent. -/
def orCached (value cached : Option String) : Option String :=
  match value with
  | some t => if t = "" then cached else some t
  | none => cached

/-- The record a result writes: what the call gives, else what is cached. -/
def ToolResult.record (a : ToolResult) (amb : Ambient) (resultStatus : ExternalResultStatus)
    (executionStatus : ExecutionStatus) (cached : Option ExternalResultRecord) :
    Except PyError ExternalResultRecord :=
  let requestPayload := match a.requestPayload with
    | some p => if p.isEmpty then cached.map ExternalResultRecord.requestPayload else some p
    | none => cached.map ExternalResultRecord.requestPayload
  match orCached a.toolName (cached.map ExternalResultRecord.toolName),
      orCached a.operationType (cached.map ExternalResultRecord.operationType), requestPayload with
  | some toolName, some operationType, some requestPayload => .ok {
      executionId := a.executionId
      runId := a.runId
      planItemId := match a.planItemId with
        | some p => some p
        | none => cached.bind ExternalResultRecord.planItemId
      toolName := toolName
      operationType := operationType
      requestPayload := requestPayload
      responsePayload := a.responsePayload
      resultStatus := resultStatus
      executionStatus := executionStatus
      errorMessage := a.errorMessage
      createdAt := amb.now
      updatedAt := amb.now }
  | _, _, _ => .error
      (.value "tool_name, operation_type, and request_payload are required for first result record")

/-- The run and the transition of a record that is already there. -/
def ToolResult.check (a : ToolResult) (executionStatus : ExecutionStatus)
    (cached : Option ExternalResultRecord) : Except PyError Unit :=
  match cached with
  | none => .ok ()
  | some c =>
    if c.runId ≠ a.runId then .error (.value "execution_id belongs to another run")
    else assertExecutionTransition c.executionStatus executionStatus

/-- The statuses after which a call is over. -/
def ToolResult.clears (a : ToolResult) (executionStatus : ExecutionStatus) : Bool :=
  a.clearPending && executionStatus ≠ .intentLogged && executionStatus ≠ .dispatched

/-- The pending list loses the id, with an event, when it is there. -/
def dropPending (amb : Ambient) (runId executionId : String) (context : AgentContextSnapshot) : Tx Unit :=
  if executionId ∈ context.pendingExecutionIds then do
    let pendingAfter := context.pendingExecutionIds.filter fun value => value ≠ executionId
    appendEvent amb runId (.contextPendingExecutionSet pendingAfter.getLast? pendingAfter) "context" runId
    let _ ← clearPendingExecution amb runId executionId
  else return ()

def clearPendingOfResult (amb : Ambient) (a : ToolResult) (executionStatus : ExecutionStatus) : Tx Unit :=
  if a.clears executionStatus then do
    match ← fetch (·.loadContext a.runId) with
    | none => return ()
    | some context => dropPending amb a.runId a.executionId context
  else return ()

def recordToolResult (cfg : LoggingServiceConfig) (amb : Ambient) (a : ToolResult) :
    Tx ExternalResultRecord := do
  let resultStatus ← lift (parseResultStatus a.resultStatus)
  let executionStatus ← lift (resolveExecutionStatus a.executionStatus resultStatus)
  let cached ← fetch (·.getExternalResult a.executionId)
  lift (a.check executionStatus cached)
  let record ← lift (a.record amb resultStatus executionStatus cached)
  appendEvent amb a.runId (.externalResultRecorded resultStatus executionStatus record.toolName
    record.operationType record.planItemId a.responsePayload.isSome a.errorMessage)
    "external_result" a.executionId
  let stored ← saveExternalResult cfg.limits amb a.runId record
  clearPendingOfResult amb a executionStatus
  let _ ← maybeAutoCheckpoint cfg amb a.runId
  return stored

end Raef
