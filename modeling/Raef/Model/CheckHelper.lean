import Raef.Lib.Json
import Raef.Lib.Txn
import Raef.Model.Status

/-!
# Check before retry

`recovery/check_helper.py`: a handoff controller asks the remote side for the earlier request before
it retries.  A request is a mapping or an object with attributes; either way its fields are a
`JsonObject` here.
-/

namespace Raef

open Text

/-- A call of the check API: it raises, or returns an object, a dictionary or not. -/
inductive CheckOutcome where
  | raised (message : String)
  | returned (response : Json)

structure CheckRecoveryResult where
  shouldRetry : Bool
  foundPreviousResult : Bool
  reason : String
  requestId : Option String := none
  checkRequestPayload : Option JsonObject := none
  checkResponsePayload : Option JsonObject := none
  recoveredResponsePayload : Option JsonObject := none

/-- `_extract_request_id`: the first of three fields that holds a text. -/
def extractRequestId (request : JsonObject) : Option String :=
  ["execution_id", "request_id", "id"].findSome? fun key =>
    match request.get key with
    | some (.str value) => if value = "" then none else some value
    | _ => none

/-! ## The default extractor -/

/-- `_extract_dict_payload`. -/
def extractDictPayload : Option Json → Option JsonObject
  | some (.obj raw) => some raw
  | _ => none

/-- `a or b` of optional dictionaries: an empty one counts as absent. -/
def orPayload : Option JsonObject → Option JsonObject → Option JsonObject
  | some (field :: fields), _ => some (field :: fields)
  | _, other => other

/-- `_extract_payload_from_record`. -/
def extractPayloadFromRecord : Option Json → Option JsonObject
  | some (.obj raw) =>
    orPayload (orPayload (extractDictPayload (JsonObject.get raw "result"))
      (extractDictPayload (JsonObject.get raw "receipt"))) (some raw)
  | _ => none

/-- `_default_response_extractor`: whether the request was committed, and the payload to reuse. -/
def defaultResponseExtractor (response : JsonObject) : Bool × Option JsonObject :=
  let payload := orPayload (extractPayloadFromRecord (response.get "record"))
    (extractDictPayload (response.get "result"))
  match response.get "found", response.get "state" with
  | some (.bool found), _ => if found then (true, payload) else (false, none)
  | _, some (.str state) =>
    if lower state = "committed" then (true, orPayload payload (some response)) else (false, none)
  | _, _ => (false, none)

/-! ## The check -/

/-- The payload the check API is called with. -/
def checkPayload (request : JsonObject) (checkRequestPayload : Option JsonObject) (requestIdField : String) :
    JsonObject :=
  let payload := checkRequestPayload.getD []
  match extractRequestId request, payload.get requestIdField with
  | some requestId, none => payload.set requestIdField (.str requestId)
  | _, _ => payload

/-- `recover_with_check_api`. -/
def recoverWithCheckApi (request : JsonObject) (checkRequestPayload : Option JsonObject)
    (callCheckApi : JsonObject → CheckOutcome) (responseExtractor : JsonObject → Bool × Option JsonObject)
    (requestIdField : String) : Except PyError CheckRecoveryResult := do
  Txn.raiseIf (requestIdField = "") (.value "request_id_field must be a non-empty string")
  let requestId := extractRequestId request
  let payload := checkPayload request checkRequestPayload requestIdField
  return match callCheckApi payload with
    | .raised message => {
        shouldRetry := true
        foundPreviousResult := false
        reason := s!"check api call failed: {message}"
        requestId := requestId
        checkRequestPayload := some payload }
    | .returned (.obj response) => match responseExtractor response with
      | (true, some recovered) => {
          shouldRetry := false
          foundPreviousResult := true
          reason := "reused previous committed result from check api"
          requestId := requestId
          checkRequestPayload := some payload
          checkResponsePayload := some response
          recoveredResponsePayload := some recovered }
      | (_, recovered) => {
          shouldRetry := true
          foundPreviousResult := false
          reason := "check api did not confirm a reusable committed result"
          requestId := requestId
          checkRequestPayload := some payload
          checkResponsePayload := some response
          recoveredResponsePayload := recovered }
    | .returned _ => {
        shouldRetry := true
        foundPreviousResult := false
        reason := "check api returned non-dict response"
        requestId := requestId
        checkRequestPayload := some payload }

end Raef
