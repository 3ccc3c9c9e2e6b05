import Raef.Model.Status

/-!
# Agent context and external result records

The data of `agent_state.py` with its `from_dict` decoders.  A row is decoded
each time it is read: `AgentContextSnapshot.fromDict` strips and checks every
message and rebuilds the pending list, `ExternalResultRecord.fromDict` strips
the identifying fields of a record.
-/

namespace Raef

open Text

/-! ## Messages -/

/-- A message dictionary as a caller passes it; an absent key is the default. -/
structure RawMessage where
  role : String := ""
  content : String := ""
  name : Option String := none
  toolCallId : Option String := none
  metadata : Option JsonObject := none
  createdAt : Option Time := none

structure AgentMessage where
  role : String
  content : String
  name : Option String
  toolCallId : Option String
  metadata : JsonObject
  createdAt : Time

/-- `AgentMessage.from_dict`: the checks, and the stripped role and content. -/
def AgentMessage.fromDict (m : AgentMessage) : Except PyError AgentMessage := do
  let role ← requireNonEmptyStr m.role "role"
  Txn.raiseIf (role ∉ ["system", "user", "assistant", "tool"])
    (.value "role must be one of system,user,assistant,tool")
  let content ← requireNonEmptyStr m.content "content"
  return { m with role := role, content := content }

/-- `AgentContextService._message_from_dict` of a caller's dictionary. -/
def RawMessage.decode (now : Time) (m : RawMessage) : Except PyError AgentMessage :=
  AgentMessage.fromDict {
    role := m.role
    content := m.content
    name := m.name
    toolCallId := m.toolCallId
    metadata := m.metadata.getD []
    createdAt := m.createdAt.getD now }

/-! ## Context snapshot -/

structure AgentContextSnapshot where
  runId : String
  turnIndex : ℤ := 0
  stepIndex : ℤ := 0
  plannerVersion : ℤ := 0
  messages : List AgentMessage := []
  memory : JsonObject := []
  pendingExecutionId : Option String := none
  pendingExecutionIds : List String := []
  lastCheckpointSeq : Option ℤ := none
  updatedAt : Time

/-- Append unless already there. -/
def addOnce (x : String) (l : List String) : List String := if x ∈ l then l else l ++ [x]

/-- `_normalize_pending_ids`: stripped, non-blank, first occurrences. -/
def normalizePendingIds (raw : List String) : List String :=
  (raw.map strip).foldl (fun acc text => if text = "" then acc else addOnce text acc) []

def AgentContextSnapshot.fromDict (c : AgentContextSnapshot) : Except PyError AgentContextSnapshot := do
  let pendingIds := normalizePendingIds c.pendingExecutionIds
  let pendingIds := match c.pendingExecutionId with
    | some e => addOnce e pendingIds
    | none => pendingIds
  let pendingExecutionId := if pendingIds = [] then c.pendingExecutionId else pendingIds.getLast?
  Txn.raiseIf (c.turnIndex < 0) (.value "turn_index must be a non-negative integer")
  Txn.raiseIf (c.stepIndex < 0) (.value "step_index must be a non-negative integer")
  Txn.raiseIf (c.plannerVersion < 0) (.value "planner_version must be a non-negative integer")
  Txn.raiseIf (∃ seq ∈ c.lastCheckpointSeq, seq < 0)
    (.value "last_checkpoint_seq must be a non-negative integer when provided")
  let runId ← requireNonEmptyStr c.runId "run_id"
  let messages ← c.messages.mapM AgentMessage.fromDict
  return { c with
    runId := runId
    messages := messages
    pendingExecutionId := pendingExecutionId
    pendingExecutionIds := pendingIds }

/-! ## External results -/

/-- Cached record of one tool call.  Every stored record has a request payload;
`from_dict` refuses one without. -/
structure ExternalResultRecord where
  executionId : String
  runId : String
  planItemId : Option String
  toolName : String
  operationType : String
  requestPayload : JsonObject
  responsePayload : Option JsonObject
  resultStatus : ExternalResultStatus
  executionStatus : ExecutionStatus
  errorMessage : Option String
  createdAt : Time
  updatedAt : Time

def ExternalResultRecord.fromDict (r : ExternalResultRecord) : Except PyError ExternalResultRecord := do
  let executionId ← requireNonEmptyStr r.executionId "execution_id"
  let runId ← requireNonEmptyStr r.runId "run_id"
  let toolName ← requireNonEmptyStr r.toolName "tool_name"
  let operationType ← requireNonEmptyStr r.operationType "operation_type"
  return { r with
    executionId := executionId
    runId := runId
    toolName := toolName
    operationType := operationType }

/-- A list of records looked up as the dictionary built from it: the last record of an id wins. -/
def recordOf (records : List ExternalResultRecord) (executionId : String) : Option ExternalResultRecord :=
  records.reverse.find? fun r => r.executionId = executionId

end Raef
