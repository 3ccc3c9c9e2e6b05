import Raef.Model.Planner
import Raef.Model.Context

/-!
# The runtime store

The tables of `runtime_store.py` and the reads and writes every service goes
through, each as a transaction on `Store`.  Run and execution ids are stripped
where the source strips them (lookups, events) and taken as they are where it
does not (the keys of saved rows).  Every primitive comes with what its success says.
-/

namespace Raef

open Text

/-! ## Events -/

inductive EventType where
  | runStarted
  | planCreated
  | planItemLlmOutputAttached
  | planItemStatusUpdated
  | planActiveItemSet
  | contextInitialized
  | contextMessageAppended
  | contextPendingExecutionSet
  | contextSynchronized
  | toolIntentRecorded
  | toolDispatched
  | externalResultRecorded
  | checkpointWritten
deriving DecidableEq, Repr

/-- The payload of an event, by type: the keys `_validate_event_payload` requires are its fields. -/
inductive EventPayload where
  | runStarted (initialMessageCount planItemCount : Nat)
  | planCreated (planSourceText : String) (planItems : List RawPlanItem) (planSchema : RawPlanSchema)
  | planItemLlmOutputAttached (llmOutput : String)
  | planItemStatusUpdated (newStatus : String) (note : Option String)
  | planActiveItemSet (planItemId : String)
  | contextInitialized (initialMessages : List RawMessage) (initialMemory : JsonObject)
  | contextMessageAppended (role content : String) (metadata : JsonObject) (name toolCallId : Option String)
  | contextPendingExecutionSet (pendingExecutionId : Option String) (pendingExecutionIds : List String)
  | contextSynchronized (plannerVersion : ℤ) (cursorIndex : Option ℤ)
  | toolIntentRecorded (planItemId toolName operationType : String) (requestPayload : JsonObject)
      (executionStatus : ExecutionStatus)
  | toolDispatched (executionStatus : ExecutionStatus) (toolName : String)
  | externalResultRecorded (resultStatus : ExternalResultStatus) (executionStatus : ExecutionStatus)
      (toolName operationType : String) (planItemId : Option String) (hasResponse : Bool)
      (errorMessage : Option String)
  | checkpointWritten (checkpointId : String) (checkpointSeq : ℕ) (snapshotType : String)

def EventPayload.type : EventPayload → EventType
  | .runStarted .. => .runStarted
  | .planCreated .. => .planCreated
  | .planItemLlmOutputAttached .. => .planItemLlmOutputAttached
  | .planItemStatusUpdated .. => .planItemStatusUpdated
  | .planActiveItemSet .. => .planActiveItemSet
  | .contextInitialized .. => .contextInitialized
  | .contextMessageAppended .. => .contextMessageAppended
  | .contextPendingExecutionSet .. => .contextPendingExecutionSet
  | .contextSynchronized .. => .contextSynchronized
  | .toolIntentRecorded .. => .toolIntentRecorded
  | .toolDispatched .. => .toolDispatched
  | .externalResultRecorded .. => .externalResultRecorded
  | .checkpointWritten .. => .checkpointWritten

structure WalEvent where
  seqId : ℕ
  runId : String
  entityType : String
  entityId : String
  payload : EventPayload
  createdAt : Time

structure SnapshotPayload where
  planner : Option PlannerState
  context : Option AgentContextSnapshot
  externalResults : Option (List ExternalResultRecord)

structure WalCheckpoint where
  checkpointId : String
  runId : String
  seqId : ℕ
  snapshotType : String
  snapshotPayload : SnapshotPayload
  createdAt : Time

/-! ## Tables -/

/-- A table: rows by their primary key, which is a field of the row. -/
structure Table (ν : Type) (key : ν → String) where
  rows : AList fun _ : String => ν
  keyed : ∀ k row, rows.lookup k = some row → key row = k

namespace Table

variable {ν : Type} {key : ν → String}

instance : EmptyCollection (Table ν key) where
  emptyCollection := ⟨∅, fun k row h => by rw [AList.lookup_empty] at h; cases h⟩

def get (t : Table ν key) (k : String) : Option ν := t.rows.lookup k

/-- `INSERT … ON CONFLICT(key) DO UPDATE`. -/
def put (t : Table ν key) (row : ν) : Table ν key where
  rows := t.rows.insert (key row) row
  keyed := by
    intro k row' h
    by_cases hk : k = key row
    · subst hk
      rw [AList.lookup_insert] at h
      cases h
      rfl
    · rw [AList.lookup_insert_ne hk] at h
      exact t.keyed k row' h

@[simp] theorem get_empty (k : String) : get (∅ : Table ν key) k = none := AList.lookup_empty k

theorem key_of_get {t : Table ν key} {k : String} {row : ν} (h : t.get k = some row) : key row = k :=
  t.keyed k row h

@[simp] theorem get_put_self (t : Table ν key) (row : ν) : (t.put row).get (key row) = some row :=
  AList.lookup_insert t.rows

theorem get_put_ne {k : String} (t : Table ν key) (row : ν) (h : k ≠ key row) :
    (t.put row).get k = t.get k :=
  AList.lookup_insert_ne h

theorem get_put (t : Table ν key) (row : ν) (k : String) :
    (t.put row).get k = if k = key row then some row else t.get k := by
  by_cases h : k = key row
  · subst h
    rw [get_put_self, if_pos rfl]
  · rw [get_put_ne t row h, if_neg h]

theorem mem_entries_iff (t : Table ν key) (k : String) (row : ν) :
    ⟨k, row⟩ ∈ t.rows.entries ↔ t.get k = some row :=
  (AList.mem_lookup_iff (s := t.rows)).symm

end Table

/-- The database.  Planner and context rows hold the items and messages of their run. -/
structure Store where
  plannerStates : Table PlannerState PlannerState.runId := ∅
  agentContexts : Table AgentContextSnapshot AgentContextSnapshot.runId := ∅
  externalResults : Table ExternalResultRecord ExternalResultRecord.executionId := ∅
  walEvents : List WalEvent := []
  walCheckpoints : List WalCheckpoint := []

/-- What an operation takes from its surroundings: `utc_now()` and `uuid4()`. -/
structure Ambient where
  now : Time
  uuid : String
  uuid_text : blank uuid = false

abbrev Tx (α : Type) : Type := Txn Store PyError α

open Txn

/-! ## Updates of the store -/

namespace Store

def addEvent (s : Store) (event : WalEvent) : Store := { s with walEvents := s.walEvents ++ [event] }

def putPlan (s : Store) (state : PlannerState) : Store :=
  { s with plannerStates := s.plannerStates.put state }

def putContext (s : Store) (snapshot : AgentContextSnapshot) : Store :=
  { s with agentContexts := s.agentContexts.put snapshot }

def putResult (s : Store) (row : ExternalResultRecord) : Store :=
  { s with externalResults := s.externalResults.put row }

def addCheckpoint (s : Store) (checkpoint : WalCheckpoint) : Store :=
  { s with walCheckpoints := s.walCheckpoints ++ [checkpoint] }

section
variable (s : Store) (e : WalEvent) (st : PlannerState) (c : AgentContextSnapshot)
  (row : ExternalResultRecord) (cp : WalCheckpoint)

@[simp] theorem addEvent_plannerStates : (s.addEvent e).plannerStates = s.plannerStates := rfl
@[simp] theorem addEvent_agentContexts : (s.addEvent e).agentContexts = s.agentContexts := rfl
@[simp] theorem addEvent_externalResults : (s.addEvent e).externalResults = s.externalResults := rfl
@[simp] theorem addEvent_walEvents : (s.addEvent e).walEvents = s.walEvents ++ [e] := rfl
@[simp] theorem addEvent_walCheckpoints : (s.addEvent e).walCheckpoints = s.walCheckpoints := rfl

@[simp] theorem putPlan_plannerStates :
    (s.putPlan st).plannerStates = s.plannerStates.put st := rfl
@[simp] theorem putPlan_agentContexts : (s.putPlan st).agentContexts = s.agentContexts := rfl
@[simp] theorem putPlan_externalResults : (s.putPlan st).externalResults = s.externalResults := rfl
@[simp] theorem putPlan_walEvents : (s.putPlan st).walEvents = s.walEvents := rfl
@[simp] theorem putPlan_walCheckpoints : (s.putPlan st).walCheckpoints = s.walCheckpoints := rfl

@[simp] theorem putContext_plannerStates : (s.putContext c).plannerStates = s.plannerStates := rfl
@[simp] theorem putContext_agentContexts :
    (s.putContext c).agentContexts = s.agentContexts.put c := rfl
@[simp] theorem putContext_externalResults : (s.putContext c).externalResults = s.externalResults := rfl
@[simp] theorem putContext_walEvents : (s.putContext c).walEvents = s.walEvents := rfl
@[simp] theorem putContext_walCheckpoints : (s.putContext c).walCheckpoints = s.walCheckpoints := rfl

@[simp] theorem putResult_plannerStates : (s.putResult row).plannerStates = s.plannerStates := rfl
@[simp] theorem putResult_agentContexts : (s.putResult row).agentContexts = s.agentContexts := rfl
@[simp] theorem putResult_externalResults :
    (s.putResult row).externalResults = s.externalResults.put row := rfl
@[simp] theorem putResult_walEvents : (s.putResult row).walEvents = s.walEvents := rfl
@[simp] theorem putResult_walCheckpoints : (s.putResult row).walCheckpoints = s.walCheckpoints := rfl

@[simp] theorem addCheckpoint_plannerStates : (s.addCheckpoint cp).plannerStates = s.plannerStates := rfl
@[simp] theorem addCheckpoint_agentContexts : (s.addCheckpoint cp).agentContexts = s.agentContexts := rfl
@[simp] theorem addCheckpoint_externalResults :
    (s.addCheckpoint cp).externalResults = s.externalResults := rfl
@[simp] theorem addCheckpoint_walEvents : (s.addCheckpoint cp).walEvents = s.walEvents := rfl
@[simp] theorem addCheckpoint_walCheckpoints :
    (s.addCheckpoint cp).walCheckpoints = s.walCheckpoints ++ [cp] := rfl

end

end Store

/-! ## Write-ahead log -/

/-- The event the next insert writes; `seq_id` is the next value of `AUTOINCREMENT`. -/
def Store.newEvent (s : Store) (amb : Ambient) (runId : String) (payload : EventPayload)
    (entityType entityId : String) : WalEvent :=
  { seqId := s.walEvents.length + 1, runId := strip runId, entityType := entityType,
    entityId := strip entityId, payload := payload, createdAt := amb.now }

/-- `append_wal_events` of one event. -/
def appendEvent (amb : Ambient) (runId : String) (payload : EventPayload)
    (entityType entityId : String) : Tx Unit := do
  let _ ← lift (requireNonEmptyStr runId "run_id")
  let _ ← lift (requireNonEmptyStr entityId "entity_id")
  let s ← read
  write (s.addEvent (s.newEvent amb runId payload entityType entityId))

@[simp] theorem appendEvent_ok {amb : Ambient} {runId : String} {payload : EventPayload}
    {entityType entityId : String} {s : Store} {r : Unit × Store} :
    appendEvent amb runId payload entityType entityId s = .ok r ↔
      blank runId = false ∧ blank entityId = false ∧
      r = ((), s.addEvent (s.newEvent amb runId payload entityType entityId)) := by
  simp [appendEvent, requireNonEmptyStr_ok, and_assoc]

namespace Store

def readWalEvents (s : Store) (runId : String) (afterSeq : Option ℕ) (limit : ℕ) :
    Except PyError (List WalEvent) := do
  let runId ← requireNonEmptyStr runId "run_id"
  let rows := s.walEvents.filter fun e =>
    e.runId = runId && (match afterSeq with | some n => decide (n < e.seqId) | none => true)
  return rows.take limit

def latestWalSeq (s : Store) (runId : String) : Except PyError (Option ℕ) := do
  let runId ← requireNonEmptyStr runId "run_id"
  return ((s.walEvents.filter fun e => e.runId = runId).map WalEvent.seqId).max?

def hasWalEvent (s : Store) (runId : String) (eventType : EventType) (entityId : String) :
    Except PyError Bool := do
  let runId ← requireNonEmptyStr runId "run_id"
  let entityId ← requireNonEmptyStr entityId "entity_id"
  return s.walEvents.any fun e => e.runId = runId && e.payload.type = eventType && e.entityId = entityId

/-- Greatest `seq_id`, then greatest `created_at`. -/
def readLatestWalCheckpoint (s : Store) (runId : String) (snapshotType : Option String) :
    Except PyError (Option WalCheckpoint) := do
  let runId ← requireNonEmptyStr runId "run_id"
  let snapshotType ← match snapshotType with
    | some t => (requireNonEmptyStr t "snapshot_type").map some
    | none => .ok none
  let rows := s.walCheckpoints.filter fun c =>
    c.runId = runId && (match snapshotType with | some t => decide (c.snapshotType = t) | none => true)
  return (rows.insertionSort fun a b =>
    b.seqId < a.seqId ∨ (a.seqId = b.seqId ∧ b.createdAt ≤ a.createdAt)).head?

end Store

def writeWalCheckpoint (amb : Ambient) (runId : String) (seqId : ℕ) (snapshotType : String)
    (snapshotPayload : SnapshotPayload) : Tx WalCheckpoint := do
  require (0 < seqId) (.value "seq_id must be a positive integer")
  let runId ← lift (requireNonEmptyStr runId "run_id")
  let snapshotType ← lift (requireNonEmptyStr snapshotType "snapshot_type")
  let s ← read
  require (s.walEvents.any fun e => e.runId = runId && e.seqId = seqId)
    (.value "checkpoint seq_id must reference an existing event in the same run")
  let checkpoint : WalCheckpoint := {
    checkpointId := amb.uuid
    runId := runId
    seqId := seqId
    snapshotType := snapshotType
    snapshotPayload := snapshotPayload
    createdAt := amb.now }
  write (s.addCheckpoint checkpoint)
  return checkpoint

/-! ## Plans -/

/-- `SQLitePlannerStateRepository.load`: the items in the order of the query, all decoded. -/
def PlannerState.decode (row : PlannerState) : Except PyError PlannerState :=
  PlannerState.fromDict { row with
    items := row.items.insertionSort fun a b =>
      a.sequenceIndex < b.sequenceIndex ∨
        (a.sequenceIndex = b.sequenceIndex ∧ a.planItemId ≤ b.planItemId) }

def Store.loadPlan (s : Store) (runId : String) : Except PyError (Option PlannerState) := do
  let runId ← requireNonEmptyStr runId "run_id"
  match s.plannerStates.get runId with
  | none => return none
  | some row => return some (← row.decode)

/-- `SQLitePlannerStateRepository.save`. -/
def savePlan (amb : Ambient) (state : PlannerState) : Tx PlannerState := do
  let state := { state with updatedAt := amb.now }
  lift state.validateIntegrity
  let s ← read
  write (s.putPlan state)
  lift state.fromDict

@[simp] theorem savePlan_ok {amb : Ambient} {state : PlannerState} {s : Store} {r : PlannerState × Store} :
    savePlan amb state s = .ok r ↔
      PlannerState.validateIntegrity { state with updatedAt := amb.now } = .ok () ∧
      PlannerState.fromDict { state with updatedAt := amb.now } = .ok r.1 ∧
      r.2 = s.putPlan { state with updatedAt := amb.now } := by
  unfold savePlan
  rw [bind_ok]
  simp only [lift_ok, bind_ok, read_ok, write_ok]
  constructor
  · rintro ⟨_, _, ⟨h1, rfl⟩, _, _, h2, _, _, h3, h4, h5⟩
    cases h2
    cases h3
    exact ⟨h1, h4, h5⟩
  · rintro ⟨h1, h2, h3⟩
    exact ⟨(), s, ⟨h1, rfl⟩, s, s, rfl, (), _, rfl, h2, h3⟩

/-! ## Contexts -/

def Store.loadContext (s : Store) (runId : String) : Except PyError (Option AgentContextSnapshot) := do
  let runId ← requireNonEmptyStr runId "run_id"
  match s.agentContexts.get runId with
  | none => return none
  | some row => return some (← row.fromDict)

def Store.loadRequiredContext (s : Store) (runId : String) : Except PyError AgentContextSnapshot := do
  match ← s.loadContext runId with
  | some snapshot => return snapshot
  | none => throw (.value s!"agent context not found for run_id={runId}")

/-- `SQLiteAgentStateRepository.save_context`. -/
def saveContext (amb : Ambient) (snapshot : AgentContextSnapshot) : Tx AgentContextSnapshot := do
  let snapshot := { snapshot with updatedAt := amb.now }
  let s ← read
  write (s.putContext snapshot)
  lift snapshot.fromDict

@[simp] theorem saveContext_ok {amb : Ambient} {c : AgentContextSnapshot} {s : Store}
    {r : AgentContextSnapshot × Store} :
    saveContext amb c s = .ok r ↔
      AgentContextSnapshot.fromDict { c with updatedAt := amb.now } = .ok r.1 ∧
      r.2 = s.putContext { c with updatedAt := amb.now } := by
  simp [saveContext]

/-! ## External results -/

/-- The row an upsert writes: the first `created_at` stays. -/
def Store.rowOf (s : Store) (amb : Ambient) (result : ExternalResultRecord) : ExternalResultRecord :=
  { result with
    createdAt := ((s.externalResults.get result.executionId).map ExternalResultRecord.createdAt).getD amb.now
    updatedAt := amb.now }

/-- The payloads of a record as `_store_payload` encodes them. -/
def ExternalResultRecord.dumps (limits : PyLimits) (result : ExternalResultRecord) : Except PyError Unit := do
  limits.dumps result.requestPayload
  limits.dumps (result.responsePayload.getD [])

/-- `SQLiteAgentStateRepository.upsert_external_result`: keyed by the id as given; the payloads are
encoded, and the run must have a context row (foreign key). -/
def upsertExternalResult (limits : PyLimits) (amb : Ambient) (result : ExternalResultRecord) :
    Tx ExternalResultRecord := do
  lift (result.dumps limits)
  let s ← read
  require (s.agentContexts.get result.runId).isSome (.integrity "FOREIGN KEY constraint failed")
  write (s.putResult (s.rowOf amb result))
  lift (s.rowOf amb result).fromDict

@[simp] theorem upsertExternalResult_ok {limits : PyLimits} {amb : Ambient} {result : ExternalResultRecord}
    {s : Store} {r : ExternalResultRecord × Store} :
    upsertExternalResult limits amb result s = .ok r ↔
      result.dumps limits = .ok () ∧ (s.agentContexts.get result.runId).isSome = true ∧ (s.rowOf amb result).fromDict = .ok r.1 ∧
      r.2 = s.putResult (s.rowOf amb result) := by
  simp [upsertExternalResult, Unique.exists_iff]

namespace Store

def getExternalResult (s : Store) (executionId : String) : Except PyError (Option ExternalResultRecord) := do
  let executionId ← requireNonEmptyStr executionId "execution_id"
  match s.externalResults.get executionId with
  | none => return none
  | some row => return some (← row.fromDict)

/-- Each of the ids in turn, those without a row left out. -/
def getExternalResults (s : Store) : List String → Except PyError (List ExternalResultRecord)
  | [] => .ok []
  | executionId :: ids => do
    let record ← s.getExternalResult executionId
    let records ← s.getExternalResults ids
    return record.toList ++ records

/-- The ids of a run's rows, by creation time, then id. -/
def executionIdsOf (s : Store) (runId : String) : List String :=
  let rows := s.externalResults.rows.entries.filter fun e => e.2.runId = runId
  (rows.insertionSort fun a b =>
    a.2.createdAt < b.2.createdAt ∨ (a.2.createdAt = b.2.createdAt ∧ a.1 ≤ b.1)).map fun e => e.1

def listExternalResults (s : Store) (runId : String) : Except PyError (List ExternalResultRecord) := do
  let _ ← s.loadRequiredContext runId
  let runId ← requireNonEmptyStr runId "run_id"
  s.getExternalResults (s.executionIdsOf runId)

def listPendingExecutions (s : Store) (runId : String) : Except PyError (List String) := do
  match ← s.loadContext runId with
  | some snapshot => return snapshot.pendingExecutionIds
  | none => return []

end Store

end Raef
