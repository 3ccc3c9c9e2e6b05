import Raef.Model.Status
import Raef.Lib.Txn

/-!
# The mock target service

`tools/mock_target.py` over its JSON store.  Every call loads the store, works
on the copy and saves it at the end, so a call that raises changes nothing.
-/

namespace Raef

open Txn

inductive IdempotencyMode where
  | nonIdempotent
  | idempotent
deriving DecidableEq, Repr

/-- `RemoteApiLevel`. -/
inductive RemoteApiLevel where
  | legacy
  | idempotent
  | rifl
  | queryableDistinguishable
  | queryableCounter
deriving DecidableEq, Repr

def RemoteApiLevel.value : RemoteApiLevel → String
  | .legacy => "legacy"
  | .idempotent => "idempotent"
  | .rifl => "rifl"
  | .queryableDistinguishable => "queryable_distinguishable"
  | .queryableCounter => "queryable_counter"

structure TargetStats where
  totalCommits : ℤ := 0
  idempotentCommits : ℤ := 0
  riflCommits : ℤ := 0
  distinguishableCommits : ℤ := 0
  counterCommits : ℤ := 0
deriving DecidableEq, Repr

structure TargetData where
  stats : TargetStats := {}
  actionLog : JsonObject := []
  domainState : JsonObject := []
  idempotentRequests : JsonObject := []
  riflRequests : JsonObject := []
  distinguishableState : JsonObject := []
  distinguishableHistory : JsonObject := []
  counters : JsonObject := []

/-- What a call takes from its surroundings: the time and up to two fresh `uuid4()`. -/
structure TargetAmbient where
  now : Time
  executionUuid : String
  actionUuid : String

abbrev TargetTx (α : Type) : Type := Txn TargetData PyError α

namespace Json

/-- `isinstance(x, (int, float))`; a `bool` is an `int`. -/
def isNumeric : Json → Bool
  | .bool _ | .int _ | .float _ => true
  | _ => false

def toFloat : Json → Except PyError PyFloat
  | .bool b => PyFloat.ofInt (ofBool b)
  | .int n => PyFloat.ofInt n
  | .float x => .ok x
  | _ => .ok .nan

/-- `x + y` of two numbers. -/
def pyAdd : Json → Json → Except PyError Json
  | .bool a, .bool b => .ok (.int (ofBool a + ofBool b))
  | .bool a, .int n | .int n, .bool a => .ok (.int (ofBool a + n))
  | .int m, .int n => .ok (.int (m + n))
  | x, y => do return .float ((← x.toFloat).add (← y.toFloat))

end Json

/-- `require_str`: not stripped, only not empty. -/
def JsonObject.requireStr (o : JsonObject) (key : String) : Except PyError String :=
  match o.get key with
  | some (.str s) => if s = "" then .error (.value s!"{key} must be a non-empty string") else .ok s
  | _ => .error (.value s!"{key} must be a non-empty string")

def JsonObject.getD (o : JsonObject) (key : String) (default : Json) : Json := (o.get key).getD default

/-- `_build_receipt`. -/
def buildReceipt (amb : TargetAmbient) (executionId : Option String) : Json :=
  .obj [("execution_id", match executionId with | some e => .str e | none => .null),
    ("action_id", .str amb.actionUuid), ("status", .str "committed"),
    ("committed_at", .str (isoformat amb.now))]

/-! ## Domain state -/

/-- The entry a generic action appends to `_applied_actions`. -/
def appliedAction (actionName : String) (payload : JsonObject) (receipt : Json) : Json :=
  let field (key : String) : Json := match receipt with
    | .obj r => JsonObject.getD r key .null
    | _ => .null
  .obj [("action_name", .str actionName), ("payload", .obj payload),
    ("receipt", .obj [("execution_id", field "execution_id"), ("action_id", field "action_id")])]

/-- `_apply_to_domain_state`. -/
def applyToDomainState (domainState : JsonObject) (actionName : String) (payload : JsonObject)
    (receipt : Json) : Except PyError JsonObject :=
  if actionName = "set_value" then do
    let key ← payload.requireStr "key"
    return domainState.set key (payload.getD "value" .null)
  else if actionName = "delete_value" then do
    let key ← payload.requireStr "key"
    return domainState.erase key
  else if actionName = "increment_value" then do
    let key ← payload.requireStr "key"
    let delta := payload.getD "delta" (.int 1)
    Txn.raiseIf (¬ delta.isNumeric) (.value "delta must be numeric")
    let current := domainState.getD key (.int 0)
    Txn.raiseIf (¬ current.isNumeric) (.value "existing value is not numeric")
    return domainState.set key (← current.pyAdd delta)
  else
    match domainState.getD "_applied_actions" (.arr []) with
    | .arr history =>
      .ok (domainState.set "_applied_actions" (.arr (history ++ [appliedAction actionName payload receipt])))
    | _ => .error (.value "_applied_actions must be a list")

/-- `_apply_to_distinguishable_state`: the key and the entity stored under it. -/
def distinguishableEntity (amb : TargetAmbient) (actionName key : String) (payload : JsonObject)
    (receipt : Json) : Json :=
  if actionName = "delete_value" then
    .obj [("key", .str key), ("exists", .bool false), ("deleted", .bool true),
      ("last_action_name", .str actionName), ("last_receipt", receipt),
      ("updated_at", .str (isoformat amb.now))]
  else
    .obj [("key", .str key), ("exists", .bool true), ("deleted", .bool false),
      ("value", payload.getD "value" .null), ("payload", .obj payload),
      ("last_action_name", .str actionName), ("last_receipt", receipt),
      ("updated_at", .str (isoformat amb.now))]

/-! ## Requests keyed by execution id -/

/-- The two API levels that answer a repeated id from the first record. -/
structure KeyedApi where
  level : RemoteApiLevel
  requests : TargetData → JsonObject
  update : JsonObject → TargetData → TargetData
  count : TargetStats → TargetStats
  hitField : String
  /-- What the record and the answer hold besides the common fields. -/
  recordExtra : Json → JsonObject
  answerExtra : Option JsonObject → JsonObject

/-- The record of a first request. -/
def KeyedApi.record (api : KeyedApi) (amb : TargetAmbient) (actionName : String) (payload : JsonObject)
    (executionId : String) : JsonObject :=
  let receipt := buildReceipt amb (some executionId)
  [("api_level", .str api.level.value), ("execution_id", .str executionId),
    ("action_name", .str actionName), ("payload", .obj payload), ("receipt", receipt)] ++
    api.recordExtra receipt ++ [("updated_at", .str (isoformat amb.now))]

def KeyedApi.answer (api : KeyedApi) (receipt : Json) (hit : Bool) (existing : Option JsonObject) :
    JsonObject :=
  [("receipt", receipt), (api.hitField, .bool hit)] ++ api.answerExtra existing ++
    [("api_level", .str api.level.value)]

/-- `apply_idempotent_action` and `apply_rifl_action`. -/
def KeyedApi.apply (api : KeyedApi) (amb : TargetAmbient) (actionName : String) (payload : JsonObject)
    (executionId : String) : TargetTx JsonObject := do
  require (actionName ≠ "") (.value "action_name is required")
  require (executionId ≠ "") (.value "execution_id is required")
  let data ← read
  match (api.requests data).get executionId with
  | some (.obj existing) =>
    require ((JsonObject.getD existing "action_name" .null).pyEq (.str actionName) &&
        (JsonObject.getD existing "payload" .null).pyEq (.obj payload))
      (.value "execution_id already used with a different action or payload")
    return api.answer (JsonObject.getD existing "receipt" .null) true (some existing)
  | _ =>
    let receipt := buildReceipt amb (some executionId)
    let domainState ← lift (applyToDomainState data.domainState actionName payload receipt)
    let record := api.record amb actionName payload executionId
    let data := api.update ((api.requests data).set executionId (.obj record)) data
    write { data with
      domainState := domainState
      actionLog := data.actionLog.set executionId (.obj record)
      stats := api.count { data.stats with totalCommits := data.stats.totalCommits + 1 } }
    return api.answer receipt false none

def idempotentApi : KeyedApi where
  level := .idempotent
  requests data := data.idempotentRequests
  update requests data := { data with idempotentRequests := requests }
  count stats := { stats with idempotentCommits := stats.idempotentCommits + 1 }
  hitField := "idempotent_hit"
  recordExtra _ := [("status", .str "committed")]
  answerExtra _ := []

def riflApi : KeyedApi where
  level := .rifl
  requests data := data.riflRequests
  update requests data := { data with riflRequests := requests }
  count stats := { stats with riflCommits := stats.riflCommits + 1 }
  hitField := "rifl_hit"
  recordExtra receipt := [("state", .str "committed"), ("result", .obj [("receipt", receipt)])]
  answerExtra existing := [("state", match existing with
    | some record => JsonObject.getD record "state" (.str "committed")
    | none => .str "committed")]

def applyIdempotentAction (amb : TargetAmbient) (actionName : String) (payload : JsonObject)
    (executionId : String) : TargetTx JsonObject :=
  idempotentApi.apply amb actionName payload executionId

def applyRiflAction (amb : TargetAmbient) (actionName : String) (payload : JsonObject)
    (executionId : String) : TargetTx JsonObject :=
  riflApi.apply amb actionName payload executionId

/-! ## The legacy action API -/

/-- `attempt_count` and `receipts` of a record written over an existing one. -/
def legacyAttempts (existing : Option Json) (receipt : Json) : Json × Json :=
  match existing with
  | some (.obj record) =>
    let count := match JsonObject.get record "attempt_count" with
      | some (.int n) => n
      | _ => 1
    let receipts := match JsonObject.get record "receipts", JsonObject.get record "receipt" with
      | some (.arr prior), _ => prior ++ [receipt]
      | _, some (.obj prior) => [.obj prior, receipt]
      | _, _ => [receipt]
    (.int (count + 1), .arr receipts)
  | _ => (.int 1, .arr [receipt])

/-- `apply_action`. -/
def applyAction (mode : IdempotencyMode) (amb : TargetAmbient) (actionName : String)
    (payload : JsonObject) (executionId : Option String) : TargetTx JsonObject := do
  require (actionName ≠ "") (.value "action_name is required")
  -- `execution_id or str(uuid4())`: the empty text counts as absent
  let execId := match executionId with
    | some e => if e = "" then amb.executionUuid else e
    | none => amb.executionUuid
  match mode with
  | .idempotent => applyIdempotentAction amb actionName payload execId
  | .nonIdempotent =>
    let data ← read
    let receipt := buildReceipt amb (some execId)
    let domainState ← lift (applyToDomainState data.domainState actionName payload receipt)
    let (attemptCount, receipts) := legacyAttempts (data.actionLog.get execId) receipt
    let record : Json := .obj [("api_level", .str RemoteApiLevel.legacy.value),
      ("execution_id", .str execId), ("action_name", .str actionName), ("payload", .obj payload),
      ("receipt", receipt), ("receipts", receipts), ("attempt_count", attemptCount),
      ("status", .str "committed"), ("updated_at", .str (isoformat amb.now))]
    write { data with
      domainState := domainState
      actionLog := data.actionLog.set execId record
      stats := { data.stats with totalCommits := data.stats.totalCommits + 1 } }
    return [("receipt", receipt), ("idempotent_hit", .bool false),
      ("api_level", .str RemoteApiLevel.legacy.value)]

/-! ## Queryable APIs -/

def applyQueryableDistinguishable (amb : TargetAmbient) (actionName : String) (payload : JsonObject) :
    TargetTx JsonObject := do
  require (actionName ≠ "") (.value "action_name is required")
  let key ← lift (payload.requireStr "key")
  let data ← read
  let receipt := buildReceipt amb none
  let entity := distinguishableEntity amb actionName key payload receipt
  let entry : Json := .obj [("action_id", .str amb.actionUuid), ("action_name", .str actionName),
    ("payload", .obj payload), ("receipt", receipt)]
  let history ← lift (match data.distinguishableHistory.getD key (.arr []) with
    | .arr history => .ok (history ++ [entry])
    | _ => .error (.value "distinguishable_history entries must be lists"))
  let record : Json := .obj [("api_level", .str RemoteApiLevel.queryableDistinguishable.value),
    ("action_id", .str amb.actionUuid), ("action_name", .str actionName), ("payload", .obj payload),
    ("query_key", .str key), ("receipt", receipt), ("status", .str "committed"),
    ("updated_at", .str (isoformat amb.now))]
  write { data with
    distinguishableState := data.distinguishableState.set key entity
    distinguishableHistory := data.distinguishableHistory.set key (.arr history)
    actionLog := data.actionLog.set amb.actionUuid record
    stats := { data.stats with
      totalCommits := data.stats.totalCommits + 1
      distinguishableCommits := data.stats.distinguishableCommits + 1 } }
  return [("receipt", receipt), ("query_key", .str key), ("entity", entity),
    ("api_level", .str RemoteApiLevel.queryableDistinguishable.value)]

def incrementCounter (amb : TargetAmbient) (counterName : String) (delta : Json) : TargetTx JsonObject := do
  require (counterName ≠ "") (.value "counter_name is required")
  require delta.isNumeric (.value "delta must be numeric")
  let data ← read
  let current := data.counters.getD counterName (.int 0)
  require current.isNumeric (.value "existing counter is not numeric")
  let newValue ← lift (current.pyAdd delta)
  let receipt := buildReceipt amb none
  let record : Json := .obj [("api_level", .str RemoteApiLevel.queryableCounter.value),
    ("action_id", .str amb.actionUuid), ("counter_name", .str counterName), ("delta", delta),
    ("receipt", receipt), ("status", .str "committed"), ("updated_at", .str (isoformat amb.now))]
  write { data with
    counters := data.counters.set counterName newValue
    actionLog := data.actionLog.set amb.actionUuid record
    stats := { data.stats with
      totalCommits := data.stats.totalCommits + 1
      counterCommits := data.stats.counterCommits + 1 } }
  return [("receipt", receipt), ("counter_name", .str counterName), ("value", newValue),
    ("api_level", .str RemoteApiLevel.queryableCounter.value)]

/-! ## Reads -/

/-- `bool(x)` of a JSON value. -/
def Json.truthy : Json → Bool
  | .null => false
  | .bool b => b
  | .int n => n ≠ 0
  | .float x => !(x.eqInt 0)
  | .str s => s ≠ ""
  | .arr xs => !xs.isEmpty
  | .obj fields => !fields.isEmpty

/-- `get_action_by_execution_id`: the action log, then the two request maps. -/
def TargetData.getActionByExecutionId (data : TargetData) (executionId : String) :
    Except PyError (Option Json) :=
  if executionId = "" then .error (.value "execution_id is required")
  else match data.actionLog.get executionId with
    | some (.obj record) => .ok (some (.obj record))
    | _ => match data.idempotentRequests.get executionId with
      | some record => .ok (if record.truthy then some record else data.riflRequests.get executionId)
      | none => .ok (data.riflRequests.get executionId)

/-- `query_state("get_value", {"key": key})`. -/
def TargetData.getValue (data : TargetData) (key : String) : Except PyError Json :=
  if key = "" then .error (.value "key must be a non-empty string")
  else .ok (data.domainState.getD key .null)

/-! ## Calls -/

/-- The calls that may change the store. -/
inductive TargetCall where
  | action (mode : IdempotencyMode) (actionName : String) (payload : JsonObject) (executionId : Option String)
  | idempotent (actionName : String) (payload : JsonObject) (executionId : String)
  | rifl (actionName : String) (payload : JsonObject) (executionId : String)
  | queryableDistinguishable (actionName : String) (payload : JsonObject)
  | incrementCounter (counterName : String) (delta : Json)

def TargetCall.run (amb : TargetAmbient) : TargetCall → TargetTx JsonObject
  | .action mode actionName payload executionId => applyAction mode amb actionName payload executionId
  | .idempotent actionName payload executionId => applyIdempotentAction amb actionName payload executionId
  | .rifl actionName payload executionId => applyRiflAction amb actionName payload executionId
  | .queryableDistinguishable actionName payload => applyQueryableDistinguishable amb actionName payload
  | .incrementCounter counterName delta => Raef.incrementCounter amb counterName delta

/-- The execution id of an apply call, its own or a fresh one. -/
def TargetCall.executionId (amb : TargetAmbient) : TargetCall → Option String
  | .action _ _ _ (some e) => some (if e = "" then amb.executionUuid else e)
  | .action _ _ _ none => some amb.executionUuid
  | .idempotent _ _ e | .rifl _ _ e => some e
  | .queryableDistinguishable _ _ | .incrementCounter _ _ => none

/-- The stores that calls lead to, each with the execution ids of the apply calls that succeeded. -/
inductive TargetReach : TargetData → List String → Prop
  | init : TargetReach {} []
  | call {data data' : TargetData} {applied : List String} {amb : TargetAmbient} {call : TargetCall}
      {answer : JsonObject} (before : TargetReach data applied)
      (succeeds : call.run amb data = .ok (answer, data')) :
      TargetReach data' ((call.executionId amb).toList ++ applied)

end Raef
