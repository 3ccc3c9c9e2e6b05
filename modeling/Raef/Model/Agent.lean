import Raef.Model.Recovery

/-!
# A turn of the sample agent

How the agent of `sample_agent_openrouter_mock.py` takes one tool call to its end: the call, a pass
when it is left pending, and what is made of the pass's decision on it.
-/

namespace Raef

open Program

/-- What the agent tells the model of a tool call: its answer, the outcome of its recovery, or nothing.
The content is what `json.dumps` is given. -/
inductive TurnEnd where
  | answered (content : Json)
  | resolved (outcome : String) (content : Json)
  | handedOff

/-- `payload or {"verified": True}`. -/
def verifiedContent (payload : Option JsonObject) : Json :=
  match payload with
  | some [] | none => .obj [("verified", .bool true)]
  | some fields => .obj fields

def contentOf (payload : Option JsonObject) : Json :=
  match payload with
  | some fields => .obj fields
  | none => .null

/-- `_resolve_recovered_execution`. -/
def resolveRecoveredExecution (mgr : TransactionManager) (c : ToolCall) (executionId : String)
    (decisions : List RecoveryDecision) : Prog TurnEnd :=
  match decisions.find? fun d => d.executionId = executionId with
  | none => return .handedOff
  | some decision =>
    match decision.action with
    | .markCommitted => do
      let record ← call (Op.facade (FacadeOp.getExternalResult executionId))
      let payload := record.bind ExternalResultRecord.responsePayload
      return .resolved "verified_committed (reused durable result)" (verifiedContent payload)
    | .replay => do
      let replayResult ← executeTool mgr c
      if replayResult.disposition = .succeeded ∨ replayResult.disposition = .reused then
        return .resolved "verified_not_found (replayed safely)" (contentOf replayResult.record.responsePayload)
      else return .handedOff
    | .resumeWaiting | .handoffRetryOrAbandon => return .handedOff

/-- The instant of the pass for a pending call: a second after its record. -/
def passTime (record : Option ExternalResultRecord) (clock : Time) : Except PyError Time :=
  match record with
  | some record => addTimedelta record.updatedAt 1000000
  | none => .ok clock

/-- A tool call of the agent, `clock` being the time of a pass that is given none. -/
def toolTurn (mgr : TransactionManager) (rc : RecoveryCoordinator) (clock : Time) (c : ToolCall) : Prog TurnEnd := do
  let result ← executeTool mgr c
  match result.disposition with
  | .failed =>
    raise (.runtime (result.exception.getD s!"tool execution failed for execution_id={result.executionId}"))
  | .pendingRecovery => do
    let record ← call (Op.facade (FacadeOp.getExternalResult result.executionId))
    let now ← lift (passTime record clock)
    let decisions ← recoverRun rc c.runId now
    resolveRecoveredExecution mgr c result.executionId decisions
  | .succeeded | .reused => do
    let _ ← recoverRun rc c.runId clock
    return .answered (contentOf result.record.responsePayload)

/-- A step with a tool call: the turn of the model, the call, and the plan item that is done with it. -/
def agentStep (mgr : TransactionManager) (rc : RecoveryCoordinator) (clock : Time) (turn : LlmTurn)
    (c : ToolCall) : Prog TurnEnd := do
  let _ ← call (Op.facade (FacadeOp.recordLlmTurn turn))
  let ended ← toolTurn mgr rc clock c
  let _ ← call (Op.facade (FacadeOp.advancePlanItem {
    runId := c.runId, planItemId := c.planItemId, newStatus := "done" }))
  return ended

end Raef
