import Raef.Model.Services

/-!
# The recovery bundle

`rebuild_state` and its alias `get_recovery_bundle`: the latest checkpoint of a run, the events after
it, and the projections, each read on its own.
-/

namespace Raef

structure RecoveryBundle where
  runId : String
  latestSeq : Option ℕ
  checkpoint : Option WalCheckpoint
  eventsAfterCheckpoint : List WalEvent
  plannerState : Option PlannerState
  context : Option AgentContextSnapshot
  externalResults : List ExternalResultRecord

namespace Store

/-- The greatest integer that SQLite stores. -/
def maxInteger : ℤ := 2 ^ 63 - 1

/-- The query of `read_wal_events`, its numbers bound as parameters. -/
def queryEvents (s : Store) (runId : String) (afterSeq : Option ℕ) (limit : ℤ) :
    Except PyError (List WalEvent) := do
  let events ← s.readWalEvents runId afterSeq limit.toNat
  Txn.raiseIf (∃ n ∈ afterSeq, maxInteger < n)
    (.overflow "Python int too large to convert to SQLite INTEGER")
  Txn.raiseIf (maxInteger < limit) (.overflow "Python int too large to convert to SQLite INTEGER")
  return events

/-- `SQLiteWriteAheadLog.read_events`. -/
def readEvents (s : Store) (runId : String) (afterSeq : Option ℤ) (limit : ℤ) :
    Except PyError (List WalEvent) := do
  Txn.raiseIf (∃ n ∈ afterSeq, n < 0) (.value "after_seq must be a non-negative integer when provided")
  Txn.raiseIf (limit ≤ 0) (.value "limit must be a positive integer")
  s.queryEvents runId (afterSeq.map Int.toNat) limit

/-- The records of the bundle; none without a context. -/
def bundleResults (s : Store) (runId : String) (context : Option AgentContextSnapshot) :
    Except PyError (List ExternalResultRecord) :=
  match context with
  | some _ => s.listExternalResults runId
  | none => .ok []

def rebuildState (s : Store) (runId : String) (snapshotType : Option String) (eventLimit : ℤ) :
    Except PyError RecoveryBundle := do
  let checkpoint ← s.readLatestWalCheckpoint runId snapshotType
  Txn.raiseIf (eventLimit ≤ 0) (.value "limit must be a positive integer")
  Txn.raiseIf (maxInteger < eventLimit) (.overflow "Python int too large to convert to SQLite INTEGER")
  -- the number of a checkpoint is stored, so it is one that SQLite takes
  let events ← s.readWalEvents runId (checkpoint.map WalCheckpoint.seqId) eventLimit.toNat
  let plannerState ← s.loadPlan runId
  let context ← s.loadContext runId
  let externalResults ← s.bundleResults runId context
  let latestSeq ← s.latestWalSeq runId
  return {
    runId := runId
    latestSeq := latestSeq
    checkpoint := checkpoint
    eventsAfterCheckpoint := events
    plannerState := plannerState
    context := context
    externalResults := externalResults }

/-- `event_limit: int = 1000`. -/
def eventLimit : ℕ := 1000

def getRecoveryBundle (s : Store) (runId : String) : Except PyError RecoveryBundle :=
  s.rebuildState runId none eventLimit

end Store

end Raef
