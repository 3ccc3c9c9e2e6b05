import Raef.Model.Target
import Raef.Model.World

/-!
# The commit verifier of the mock target

`MockTargetVerifier.verify_write`: the record under the execution id, or else
the domain value the request would have left.
-/

namespace Raef

def PyError.message : PyError → String
  | .value msg | .runtime msg | .integrity msg | .overflow msg | .type msg | .recursion msg => msg

structure VerificationDecision where
  executionId : String
  executionStatus : ExecutionStatus
  decision : String
  reason : String
  committed : Option Bool
  record : Option JsonObject := none
  receipt : Option JsonObject := none

/-- What recovery reads of it. -/
def VerificationDecision.toVerification (v : VerificationDecision) : WriteVerification :=
  { committed := v.committed, reason := v.reason, record := v.record, receipt := v.receipt }

/-- `_extract_receipt`. -/
def extractReceipt (record : JsonObject) : Option JsonObject :=
  match JsonObject.get record "receipt", JsonObject.get record "result" with
  | some (.obj receipt), _ => some receipt
  | _, some (.obj result) => match JsonObject.get result "receipt" with
    | some (.obj nested) => some nested
    | _ => none
  | _, _ => none

namespace TargetData

/-- The value a request names under its key, when the domain already holds it. -/
def matchingValue (data : TargetData) (payload : JsonObject) : Option Json :=
  match payload.get "key" with
  | some (.str key) =>
    let expected := payload.getD "value" .null
    match data.getValue key with
    | .ok observed => if observed.pyEq expected && !(expected.pyEq .null) then some observed else none
    | .error _ => none
  | _ => none

/-- `args.get("payload", {})` when it is an object. -/
def payloadOf (args : JsonObject) : JsonObject :=
  match JsonObject.getD args "payload" (.obj []) with
  | .obj payload => payload
  | _ => []

/-- `verify_write`. -/
def verifyWrite (data : TargetData) (probe : Probe) : Except PyError VerificationDecision :=
  if probe.executionId = "" then .error (.value "execution_id is required")
  else match data.getActionByExecutionId probe.executionId with
    | .error e => .ok {
        executionId := probe.executionId
        executionStatus := .dispatched
        decision := "retry_later"
        reason := s!"target lookup failed: {e.message}"
        committed := none }
    | .ok (some (.obj record)) => .ok {
        executionId := probe.executionId
        executionStatus := .verifiedCommitted
        decision := "skip_replay"
        reason := "execution id already exists in mock target action log"
        committed := some true
        record := some record
        receipt := extractReceipt record }
    | .ok _ =>
      let payload := payloadOf probe.args
      match data.matchingValue payload with
      | some observed => .ok {
          executionId := probe.executionId
          executionStatus := .verifiedCommitted
          decision := "skip_replay"
          reason := "domain state already matches the expected payload"
          committed := some true
          record := some [("payload", .obj payload), ("observed_value", observed),
            ("tool_name", .str probe.toolName)] }
      | none => .ok {
          executionId := probe.executionId
          executionStatus := .verifiedNotFound
          decision := "safe_to_replay"
          reason := "mock target has no record for the execution id"
          committed := some false }

end TargetData

end Raef
