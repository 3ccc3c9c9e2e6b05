import Raef.Model.Store

/-!
# Planner and context services

`PlannerStateService` and `AgentContextService`: every operation loads the row
it changes, applies a pure update, and saves.  The plan also bumps its version.
-/

namespace Raef

open Text Txn

/-! ## Planner service -/

def Store.loadRequiredPlan (s : Store) (runId : String) : Except PyError PlannerState := do
  match ← s.loadPlan runId with
  | some state => return state
  | none => throw (.value s!"planner state not found for run_id={runId}")

/-- `next_runnable_item` of a stored plan. -/
def Store.nextRunnableItem (s : Store) (runId : String) : Except PyError (Option PlannerItem) := do
  let state ← s.loadRequiredPlan runId
  return Raef.nextRunnableItem state

/-- Load, change, bump the version, save. -/
def updatePlan (amb : Ambient) (runId : String) (f : PlannerState → Except PyError PlannerState) :
    Tx PlannerState := do
  let state ← fetch (·.loadRequiredPlan runId)
  let state ← lift (f state)
  savePlan amb { state with version := state.version + 1 }

def createPlan (amb : Ambient) (runId planSourceText : String) (items : List RawPlanItem)
    (planSchema : Option RawPlanSchema) : Tx PlannerState := do
  let state ← lift (createPlanState amb.now runId planSourceText items planSchema)
  savePlan amb state

def setActiveItem (amb : Ambient) (runId planItemId : String) : Tx PlannerState :=
  updatePlan amb runId (setActiveItemState amb.now planItemId)

def updateItemStatus (amb : Ambient) (runId planItemId status : String) (note : Option String) :
    Tx PlannerState :=
  updatePlan amb runId (updateItemStatusState amb.now planItemId status note)

def attachLlmOutput (amb : Ambient) (runId planItemId llmOutput : String) : Tx PlannerState :=
  updatePlan amb runId (attachLlmOutputState amb.now planItemId llmOutput)

def attachToolCallRef (amb : Ambient) (runId planItemId executionId : String) : Tx PlannerState :=
  updatePlan amb runId (attachToolCallRefState amb.now planItemId executionId)

/-! ## Operations of the planner service -/

inductive PlannerOp where
  | createPlan (runId planSourceText : String) (items : List RawPlanItem)
      (planSchema : Option RawPlanSchema)
  | setActiveItem (runId planItemId : String)
  | updateItemStatus (runId planItemId status : String) (note : Option String)
  | attachLlmOutput (runId planItemId llmOutput : String)
  | attachToolCallRef (runId planItemId executionId : String)

namespace PlannerOp

def runId : PlannerOp → String
  | .createPlan r .. => r
  | .setActiveItem r _ => r
  | .updateItemStatus r .. => r
  | .attachLlmOutput r .. => r
  | .attachToolCallRef r .. => r

def run (amb : Ambient) : PlannerOp → Tx PlannerState
  | .createPlan r text items schema => Raef.createPlan amb r text items schema
  | .setActiveItem r p => Raef.setActiveItem amb r p
  | .updateItemStatus r p status note => Raef.updateItemStatus amb r p status note
  | .attachLlmOutput r p output => Raef.attachLlmOutput amb r p output
  | .attachToolCallRef r p e => Raef.attachToolCallRef amb r p e

def creates : PlannerOp → Bool
  | .createPlan .. => true
  | _ => false

end PlannerOp

/-- The row that is saved. -/
def PlannerState.saved (amb : Ambient) (st : PlannerState) : PlannerState := { st with updatedAt := amb.now }

/-- `SQLitePlannerStateRepository.save` by itself: committed, then decoded. -/
def savePlanAlone (amb : Ambient) (x : Except PyError PlannerState) (s : Store) :
    Except PyError PlannerState × Store :=
  match x with
  | .error e => (.error e, s)
  | .ok state => match (state.saved amb).validateIntegrity with
    | .error e => (.error e, s)
    | .ok _ => ((state.saved amb).fromDict, s.putPlan (state.saved amb))

/-- `_load_required`, the update, `_bump_and_save`. -/
def updatePlanAlone (amb : Ambient) (runId : String) (f : PlannerState → Except PyError PlannerState) (s : Store) :
    Except PyError PlannerState × Store :=
  savePlanAlone amb (do
    let state ← s.loadRequiredPlan runId
    let state ← f state
    return { state with version := state.version + 1 }) s

/-- The outcome of an operation of the service, and the store it leaves even when it raises. -/
def PlannerOp.alone (amb : Ambient) : PlannerOp → Store → Except PyError PlannerState × Store
  | .createPlan r text items schema, s => savePlanAlone amb (createPlanState amb.now r text items schema) s
  | .setActiveItem r p, s => updatePlanAlone amb r (setActiveItemState amb.now p) s
  | .updateItemStatus r p status note, s => updatePlanAlone amb r (updateItemStatusState amb.now p status note) s
  | .attachLlmOutput r p output, s => updatePlanAlone amb r (attachLlmOutputState amb.now p output) s
  | .attachToolCallRef r p e, s => updatePlanAlone amb r (attachToolCallRefState amb.now p e) s

/-! ## Context updates -/

def appendMessageState (message : AgentMessage) (c : AgentContextSnapshot) :
    Except PyError AgentContextSnapshot := do
  let _ ← message.fromDict
  return { c with messages := c.messages ++ [message], turnIndex := c.turnIndex + 1 }

def syncPlannerStateState (plannerVersion : ℤ) (stepIndex : Option ℤ) (c : AgentContextSnapshot) :
    Except PyError AgentContextSnapshot := do
  raiseIf (plannerVersion < 0) (.value "planner_version must be a non-negative integer")
  raiseIf (∃ step ∈ stepIndex, step < 0)
    (.value "step_index must be a non-negative integer when provided")
  return { c with plannerVersion := plannerVersion, stepIndex := stepIndex.getD c.stepIndex }

def addPendingExecutionState (executionId : String) (c : AgentContextSnapshot) :
    Except PyError AgentContextSnapshot := do
  let executionId ← requireNonEmptyStr executionId "execution_id"
  let pendingExecutionIds := addOnce executionId c.pendingExecutionIds
  return { c with
    pendingExecutionIds := pendingExecutionIds
    pendingExecutionId := pendingExecutionIds.getLast? }

def clearPendingExecutionState (executionId : String) (c : AgentContextSnapshot) :
    Except PyError AgentContextSnapshot := do
  let normalized ← requireNonEmptyStr executionId "execution_id"
  let pendingExecutionIds := c.pendingExecutionIds.filter fun existing => existing ≠ normalized
  return { c with
    pendingExecutionIds := pendingExecutionIds
    pendingExecutionId := pendingExecutionIds.getLast? }

def checkpointContextState (lastCheckpointSeq : ℕ) (c : AgentContextSnapshot) :
    Except PyError AgentContextSnapshot :=
  .ok { c with lastCheckpointSeq := some lastCheckpointSeq }

/-! ## Context service -/

/-- Load, change, save. -/
def updateContext (amb : Ambient) (runId : String)
    (f : AgentContextSnapshot → Except PyError AgentContextSnapshot) : Tx AgentContextSnapshot := do
  let snapshot ← fetch (·.loadRequiredContext runId)
  let snapshot ← lift (f snapshot)
  saveContext amb snapshot

def initContext (amb : Ambient) (runId : String) (seedMessages : List RawMessage)
    (initialMemory : Option JsonObject) (forceReset : Bool) : Tx AgentContextSnapshot := do
  match ← fetch (·.loadContext runId), forceReset with
  | some existing, false => return existing
  | _, _ =>
    let messages ← lift (seedMessages.mapM (RawMessage.decode amb.now))
    saveContext amb {
      runId := runId
      turnIndex := messages.length
      messages := messages
      memory := initialMemory.getD []
      updatedAt := amb.now }

def appendMessage (amb : Ambient) (runId role content : String) (metadata : Option JsonObject)
    (name toolCallId : Option String) : Tx AgentContextSnapshot :=
  updateContext amb runId (appendMessageState {
    role := role
    content := content
    name := name
    toolCallId := toolCallId
    metadata := metadata.getD []
    createdAt := amb.now })

def syncPlannerState (amb : Ambient) (runId : String) (plannerVersion : ℤ) (stepIndex : Option ℤ) :
    Tx AgentContextSnapshot :=
  updateContext amb runId (syncPlannerStateState plannerVersion stepIndex)

def addPendingExecution (amb : Ambient) (runId executionId : String) : Tx AgentContextSnapshot :=
  updateContext amb runId (addPendingExecutionState executionId)

def clearPendingExecution (amb : Ambient) (runId executionId : String) : Tx AgentContextSnapshot :=
  updateContext amb runId (clearPendingExecutionState executionId)

def checkpointContext (amb : Ambient) (runId : String) (lastCheckpointSeq : ℕ) :
    Tx AgentContextSnapshot :=
  updateContext amb runId (checkpointContextState lastCheckpointSeq)

def saveExternalResult (limits : PyLimits) (amb : Ambient) (runId : String) (result : ExternalResultRecord) :
    Tx ExternalResultRecord := do
  let _ ← fetch (·.loadRequiredContext runId)
  require (result.runId = runId) (.value "external result run_id must match the target context run_id")
  upsertExternalResult limits amb result

/-! ## What a success says -/

@[simp] theorem updatePlan_ok {amb : Ambient} {runId : String}
    {f : PlannerState → Except PyError PlannerState} {s : Store} {r : PlannerState × Store} :
    updatePlan amb runId f s = .ok r ↔ ∃ st st', s.loadRequiredPlan runId = .ok st ∧ f st = .ok st' ∧
      savePlan amb { st' with version := st'.version + 1 } s = .ok r := by
  unfold updatePlan
  rw [bind_ok]
  simp only [fetch_ok, bind_ok, lift_ok]
  constructor
  · rintro ⟨st, _, ⟨h1, rfl⟩, st', _, ⟨h2, rfl⟩, h3⟩
    exact ⟨st, st', h1, h2, h3⟩
  · rintro ⟨st, st', h1, h2, h3⟩
    exact ⟨st, s, ⟨h1, rfl⟩, st', s, ⟨h2, rfl⟩, h3⟩

@[simp] theorem updateContext_ok {amb : Ambient} {runId : String}
    {f : AgentContextSnapshot → Except PyError AgentContextSnapshot} {s : Store}
    {r : AgentContextSnapshot × Store} :
    updateContext amb runId f s = .ok r ↔
      ∃ c c', s.loadRequiredContext runId = .ok c ∧ f c = .ok c' ∧ saveContext amb c' s = .ok r := by
  unfold updateContext
  rw [bind_ok]
  simp only [fetch_ok, bind_ok, lift_ok]
  constructor
  · rintro ⟨c, _, ⟨h1, rfl⟩, c', _, ⟨h2, rfl⟩, h3⟩
    exact ⟨c, c', h1, h2, h3⟩
  · rintro ⟨c, c', h1, h2, h3⟩
    exact ⟨c, s, ⟨h1, rfl⟩, c', s, ⟨h2, rfl⟩, h3⟩

@[simp] theorem saveExternalResult_ok {limits : PyLimits} {amb : Ambient} {runId : String}
    {result : ExternalResultRecord} {s : Store} {r : ExternalResultRecord × Store} :
    saveExternalResult limits amb runId result s = .ok r ↔ (∃ c, s.loadRequiredContext runId = .ok c) ∧
      result.runId = runId ∧ upsertExternalResult limits amb result s = .ok r := by
  unfold saveExternalResult
  rw [bind_ok]
  simp only [fetch_ok, bind_ok, require_ok, decide_eq_true_eq]
  constructor
  · rintro ⟨c, _, ⟨h1, rfl⟩, _, _, ⟨h2, h3⟩, h4⟩
    cases h3
    exact ⟨⟨c, h1⟩, h2, h4⟩
  · rintro ⟨⟨c, h1⟩, h2, h3⟩
    exact ⟨c, s, ⟨h1, rfl⟩, (), s, ⟨h2, rfl⟩, h3⟩

end Raef
