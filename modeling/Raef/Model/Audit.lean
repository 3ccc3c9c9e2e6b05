import Raef.Model.Logging

/-!
# The audit command

`_cmd_audit` up to printing: the checks of a run and what they report.
-/

namespace Raef

structure AuditReport where
  runId : String
  ok : Bool
  executions : ℕ
  intentEvents : ℕ
  violations : List String
  notes : List String

def pendingViolation (records : List ExternalResultRecord) (executionId : String) : Option String :=
  match recordOf records executionId with
  | none => some s!"pending execution has no durable record: {executionId}"
  | some record =>
    if record.executionStatus.terminal then
      some s!"pending execution already terminal ({record.executionStatus.value}): {executionId}"
    else none

def intentViolation (records : List ExternalResultRecord) (event : WalEvent) : Option String :=
  match recordOf records event.entityId with
  | none => some s!"tool intent without external result record: {event.entityId}"
  | some _ => none

def checkpointViolation (checkpoint : Option WalCheckpoint) (latestSeq : Option ℕ) : Option String :=
  match checkpoint, latestSeq with
  | some c, some latest =>
    if latest < c.seqId then
      some s!"checkpoint seq {c.seqId} is ahead of latest event seq {latest}"
    else none
  | _, _ => none

/-- `_cmd_audit`; `openSpans` is the number of unfinished evaluation spans. -/
def cmdAudit (s : Store) (runId : String) (openSpans : ℕ) : Except PyError AuditReport := do
  let records ← s.listExternalResults runId
  let pending ← s.listPendingExecutions runId
  let events ← s.readWalEvents runId none 100000
  let checkpoint ← s.readLatestWalCheckpoint runId none
  let latestSeq ← s.latestWalSeq runId
  let intents := events.filter fun e => e.payload.type = .toolIntentRecorded
  let violations := pending.filterMap (pendingViolation records) ++
    intents.filterMap (intentViolation records) ++ (checkpointViolation checkpoint latestSeq).toList
  let ids := (records.map ExternalResultRecord.executionId).dedup
  let nonTerminal := ids.filter fun e => !((recordOf records e).any fun r => r.executionStatus.terminal)
  let joined := ", ".intercalate nonTerminal
  let notes := (if openSpans = 0 then [] else
      [s!"{openSpans} open evaluation span(s) (interrupted attempts)"]) ++
    (if nonTerminal = [] then [] else [s!"{nonTerminal.length} non-terminal execution(s): {joined}"])
  return {
    runId := runId
    ok := violations.isEmpty
    executions := ids.length
    intentEvents := intents.length
    violations := violations
    notes := notes }

end Raef
