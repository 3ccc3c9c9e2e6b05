import Raef.Model.Context

/-!
# Waiting windows and recovery decisions

`recovery/common.py` and `RuntimeRecoveryStrategy`.  The window of a dispatched
call is read off its request payload, which may hold any JSON: the float and
date arithmetic raises what Python raises.
-/

namespace Raef

open Text

/-! ## Timeout of a request -/

/-- `_parse_positive_float`. -/
def parsePositiveFloat : Option Json → Except PyError (Option PyFloat)
  | some (.int n) => do
    let value ← PyFloat.ofInt n
    return if value.pos then some value else none
  | some (.float value) => .ok (if value.pos then some value else none)
  | some (.str raw) =>
    match PyFloat.ofStr (strip raw) with
    | some value => .ok (if value.pos then some value else none)
    | none => .ok none
  | _ => .ok none

/-- The first of the keys with a positive value. -/
def firstPositive (payload : JsonObject) : List String → Except PyError (Option PyFloat)
  | [] => .ok none
  | key :: keys => do
    match ← parsePositiveFloat (payload.get key) with
    | some value => return some value
    | none => firstPositive payload keys

/-- The keys of one level: seconds, then milliseconds, then `timeout`. -/
def directTimeout (payload : JsonObject) : Except PyError (Option PyFloat) := do
  match ← firstPositive payload ["call_timeout_seconds", "timeout_seconds", "timeout_s"] with
  | some value => return some value
  | none =>
    match ← firstPositive payload ["call_timeout_ms", "timeout_ms"] with
    | some value => return some value.divThousand
    | none => parsePositiveFloat (payload.get "timeout")

/-- The first timeout found, in this order; what comes after it is not evaluated. -/
def firstTimeout : List (Option (Except PyError (Option PyFloat))) → Except PyError (Option PyFloat)
  | [] => .ok none
  | none :: rest => firstTimeout rest
  | some parsed :: rest => do
    match ← parsed with
    | some value => return some value
    | none => firstTimeout rest

def nestedKeys : List String := ["meta", "metadata", "config", "options"]

mutual

/-- `parse_call_timeout_seconds`; only objects have one.  Each object takes a frame of the stack. -/
def parseCallTimeout : ℕ → Json → Except PyError (Option PyFloat)
  | 0, .obj _ => .error (.recursion "maximum recursion depth exceeded")
  | frames + 1, .obj fields => do
    match ← directTimeout fields with
    | some value => return some value
    | none =>
      let nested := parseNested frames fields
      firstTimeout (nestedKeys.map fun key => nested.lookup key)
  | _, _ => .ok none

def parseNested : ℕ → List (String × Json) → List (String × Except PyError (Option PyFloat))
  | _, [] => []
  | frames, (key, v) :: fields => (key, parseCallTimeout frames v) :: parseNested frames fields

end

/-- `RuntimeRecoveryStrategy`, with the interpreter it runs on. -/
structure RuntimeRecoveryStrategy where
  defaultWaitSeconds : PyFloat := .fin 5
  limits : PyLimits := {}

/-- `resolve_wait_deadline`: the window in seconds and its end. -/
def resolveWaitDeadline (frames : ℕ) (startedAt : Time) (requestPayload : JsonObject)
    (fallbackSeconds : PyFloat) : Except PyError (PyFloat × Time) := do
  let timeoutSeconds ← parseCallTimeout frames (.obj requestPayload)
  let resolved := timeoutSeconds.getD fallbackSeconds
  let resolved := if resolved.nonPos then fallbackSeconds else resolved
  let micros ← resolved.timedelta
  let deadline ← addTimedelta startedAt micros
  return (resolved, deadline)

/-- The waiting window of a record. -/
def RuntimeRecoveryStrategy.waitDeadline (strategy : RuntimeRecoveryStrategy) (record : ExternalResultRecord) :
    Except PyError (PyFloat × Time) :=
  resolveWaitDeadline strategy.limits.frames record.updatedAt record.requestPayload strategy.defaultWaitSeconds

/-! ## Decisions -/

inductive RecoveryAction where
  | resumeWaiting
  | replay
  | handoffRetryOrAbandon
  | markCommitted
deriving DecidableEq, Repr

def RecoveryAction.value : RecoveryAction → String
  | .resumeWaiting => "resume_waiting"
  | .replay => "replay"
  | .handoffRetryOrAbandon => "handoff_retry_or_abandon"
  | .markCommitted => "mark_committed"

structure RecoveryDecision where
  runId : String
  executionId : String
  action : RecoveryAction
  reason : String
  executionStatus : Option ExecutionStatus
  waitTimeoutSeconds : Option PyFloat := none
  waitUntil : Option Time := none
deriving DecidableEq, Repr

/-- `RuntimeRecoveryStrategy.decide`. -/
def decideRecovery (strategy : RuntimeRecoveryStrategy) (runId executionId : String)
    (record : ExternalResultRecord) (now : Datetime) : Except PyError RecoveryDecision :=
  let decision (action : RecoveryAction) (reason : String) : RecoveryDecision :=
    { runId := runId, executionId := executionId, action := action, reason := reason,
      executionStatus := some record.executionStatus }
  match record.executionStatus with
  | .intentLogged => .ok (decision .replay "intent recorded but dispatch not observed")
  | .dispatched => do
    let (waitSeconds, deadline) ← strategy.waitDeadline record
    let waiting := if (← now.lt deadline) then
        decision .resumeWaiting "in-step execution still inside waiting window"
      else decision .handoffRetryOrAbandon "in-step execution exceeded waiting window"
    return { waiting with waitTimeoutSeconds := some waitSeconds, waitUntil := some deadline }
  | .verifiedNotFound => .ok (decision .replay "target verification indicates missing commit")
  | .acked | .verifiedCommitted => .ok (decision .markCommitted "execution already committed")
  | .failed => .ok
      (decision .handoffRetryOrAbandon "execution previously failed and requires policy handoff")

/-- The key `_emit_handoff_if_needed` remembers a decision by. -/
def RecoveryDecision.handoffKey (d : RecoveryDecision) : String :=
  d.runId ++ ":" ++ d.executionId ++ ":" ++ d.action.value ++ ":" ++
    (match d.executionStatus with | some st => st.value | none => "none") ++ ":" ++
    (match d.waitUntil with | some t => isoformat t | none => "none")

end Raef
