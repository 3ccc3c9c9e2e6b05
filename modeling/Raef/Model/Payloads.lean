import Raef.Model.Store
import Raef.Lib.Sha256

/-!
# Payload artifacts

The columns of `external_results` and the table `payload_artifacts`: a payload is kept in its row or,
over the inline limit, as an artifact the row refers to.  A JSON column is the object its text
encodes, with its keys in order; size and digest are those of the text.
-/

namespace Raef

open Text Txn

inductive PayloadKind where
  | request
  | response
deriving DecidableEq

def PayloadKind.value : PayloadKind → String
  | .request => "request"
  | .response => "response"

structure PayloadArtifact where
  payloadId : String
  payloadJson : JsonObject
  sizeBytes : ℕ
  sha256 : String
  createdAt : Time

/-- A payload reference; its `storage` is always `"sqlite"`. -/
structure PayloadRef where
  payloadId : String
  sizeBytes : ℕ
  sha256 : String

/-- A row of `external_results`. -/
structure ExternalResultRow where
  executionId : String
  runId : String
  planItemId : Option String
  toolName : String
  operationType : String
  requestPayloadJson : Option JsonObject
  responsePayloadJson : Option JsonObject
  requestPayloadRefId : Option String
  responsePayloadRefId : Option String
  resultStatus : ExternalResultStatus
  executionStatus : ExecutionStatus
  errorMessage : Option String
  createdAt : Time
  updatedAt : Time

/-- `ExternalResultRecord` as the store takes and returns it. -/
structure ExternalResult where
  executionId : String
  runId : String
  planItemId : Option String
  toolName : String
  operationType : String
  requestPayload : Option JsonObject
  responsePayload : Option JsonObject
  requestPayloadRef : Option PayloadRef := none
  responsePayloadRef : Option PayloadRef := none
  resultStatus : ExternalResultStatus
  executionStatus : ExecutionStatus
  errorMessage : Option String
  createdAt : Time
  updatedAt : Time

/-- The two tables, and the runs that have a context row. -/
structure ResultTables where
  contexts : List String := []
  externalResults : Table ExternalResultRow ExternalResultRow.executionId := ∅
  payloadArtifacts : Table PayloadArtifact PayloadArtifact.payloadId := ∅

abbrev ResultTx (α : Type) : Type := Txn ResultTables PyError α

/-! ## One payload -/

/-- The object that `_json_dumps` of a payload encodes. -/
def jsonColumn (payload : JsonObject) : JsonObject :=
  match Json.sortKeys (.obj payload) with
  | .obj fields => fields
  | _ => []

def jsonSizeBytes (payload : JsonObject) : ℕ := (Json.dumps (.obj payload)).utf8ByteSize

def jsonSha256 (payload : JsonObject) : String := Sha256.hexdigest (Json.dumps (.obj payload))

/-- `sha256[:16]`. -/
def shaPrefix (payload : JsonObject) : String := String.ofList ((jsonSha256 payload).toList.take 16)

def payloadId (executionId : String) (kind : PayloadKind) (payload : JsonObject) : String :=
  s!"{executionId}:{kind.value}:{shaPrefix payload}"

/-- `INSERT … ON CONFLICT(payload_id) DO NOTHING`. -/
def ResultTables.insertArtifact (t : ResultTables) (artifact : PayloadArtifact) : ResultTables :=
  match t.payloadArtifacts.get artifact.payloadId with
  | some _ => t
  | none => { t with payloadArtifacts := t.payloadArtifacts.put artifact }

/-- `_store_payload`: the inline column and the reference. -/
def storePayload (inlineLimit : ℤ) (now : Time) (executionId : String) (kind : PayloadKind) :
    Option JsonObject → ResultTx (Option JsonObject × Option PayloadRef)
  | none => return (none, none)
  | some payload =>
    if (jsonSizeBytes payload : ℤ) ≤ inlineLimit then return (some (jsonColumn payload), none)
    else do
      let ref : PayloadRef := {
        payloadId := payloadId executionId kind payload
        sizeBytes := jsonSizeBytes payload
        sha256 := jsonSha256 payload }
      let t ← read
      write (t.insertArtifact {
        payloadId := ref.payloadId
        payloadJson := jsonColumn payload
        sizeBytes := ref.sizeBytes
        sha256 := ref.sha256
        createdAt := now })
      return (none, some ref)

/-- `_load_payload`. -/
def ResultTables.loadPayload (t : ResultTables) (inline : Option JsonObject) (refId : Option String) :
    Except PyError (Option JsonObject × Option PayloadRef) :=
  match inline, refId with
  | some payload, _ => .ok (some payload, none)
  | none, none => .ok (none, none)
  | none, some id => match t.payloadArtifacts.get id with
    | none => .error (.value s!"payload artifact not found: {id}")
    | some artifact => .ok (some artifact.payloadJson, some {
        payloadId := id
        sizeBytes := artifact.sizeBytes
        sha256 := artifact.sha256 })

/-! ## Rows -/

/-- `upsert_external_result`: `created_at` is that of the row already there.  The references are to
artifacts just made sure of, so the foreign key that can fail is that of the run. -/
def upsertResult (inlineLimit : ℤ) (now : Time) (result : ExternalResult) : ResultTx ExternalResult := do
  let t ← read
  let createdAt := match t.externalResults.get result.executionId with
    | some row => row.createdAt
    | none => now
  let (requestJson, requestRef) ← storePayload inlineLimit now result.executionId .request result.requestPayload
  let (responseJson, responseRef) ← storePayload inlineLimit now result.executionId .response result.responsePayload
  let t ← read
  require (t.contexts.contains result.runId) (.integrity "FOREIGN KEY constraint failed")
  write { t with externalResults := t.externalResults.put {
    executionId := result.executionId
    runId := result.runId
    planItemId := result.planItemId
    toolName := result.toolName
    operationType := result.operationType
    requestPayloadJson := requestJson
    responsePayloadJson := responseJson
    requestPayloadRefId := requestRef.map PayloadRef.payloadId
    responsePayloadRefId := responseRef.map PayloadRef.payloadId
    resultStatus := result.resultStatus
    executionStatus := result.executionStatus
    errorMessage := result.errorMessage
    createdAt := createdAt
    updatedAt := result.updatedAt } }
  return { result with requestPayloadRef := requestRef, responsePayloadRef := responseRef, createdAt := createdAt }

/-- The record of a row, with its payloads and references as loaded. -/
def ExternalResultRow.record (row : ExternalResultRow) (request response : Option JsonObject × Option PayloadRef) :
    ExternalResult where
  executionId := row.executionId
  runId := row.runId
  planItemId := row.planItemId
  toolName := row.toolName
  operationType := row.operationType
  requestPayload := request.1
  responsePayload := response.1
  requestPayloadRef := request.2
  responsePayloadRef := response.2
  resultStatus := row.resultStatus
  executionStatus := row.executionStatus
  errorMessage := row.errorMessage
  createdAt := row.createdAt
  updatedAt := row.updatedAt

/-- `get_external_result`. -/
def ResultTables.getExternalResult (t : ResultTables) (executionId : String) :
    Except PyError (Option ExternalResult) := do
  let executionId ← requireNonEmptyStr executionId "execution_id"
  match t.externalResults.get executionId with
  | none => return none
  | some row =>
    let request ← t.loadPayload row.requestPayloadJson row.requestPayloadRefId
    let response ← t.loadPayload row.responsePayloadJson row.responsePayloadRefId
    return some (row.record request response)

/-! ## Sequences of upserts -/

structure Upsert where
  now : Time
  result : ExternalResult

/-- The tables that upserts lead to, each under a limit of its own, with the upserts that succeeded. -/
inductive ResultReach : ResultTables → List Upsert → Prop
  | init : ResultReach {} []
  | context {t : ResultTables} {upserts : List Upsert} (runId : String) (before : ResultReach t upserts) :
      ResultReach { t with contexts := runId :: t.contexts } upserts
  | upsert {t t' : ResultTables} {upserts : List Upsert} {inlineLimit : ℤ} {now : Time}
      {result stored : ExternalResult} (before : ResultReach t upserts)
      (succeeds : upsertResult inlineLimit now result t = .ok (stored, t')) :
      ResultReach t' (upserts ++ [⟨now, result⟩])

end Raef
