import Raef.Model.Status

/-!
# The plan: items, integrity, scheduler, updates

`planner_state.py` up to persistence.  Every update is a function of the loaded
`PlannerState`; `Raef.Model.Services` loads, applies it, bumps the version and saves.
-/

namespace Raef

open Text

inductive PlannerItemStatus where
  | pending
  | inProgress
  | blocked
  | done
  | failed
deriving DecidableEq, Repr

namespace PlannerItemStatus

def value : PlannerItemStatus → String
  | .pending => "pending"
  | .inProgress => "in_progress"
  | .blocked => "blocked"
  | .done => "done"
  | .failed => "failed"

def all : List PlannerItemStatus := [.pending, .inProgress, .blocked, .done, .failed]

/-- `PlannerStateService._ALLOWED_TRANSITIONS`. -/
def allowed : PlannerItemStatus → List PlannerItemStatus
  | .pending => [.inProgress, .blocked, .done, .failed]
  | .inProgress => [.blocked, .done, .failed, .pending]
  | .blocked => [.pending, .inProgress, .failed]
  | .done => []
  | .failed => [.pending, .inProgress]

end PlannerItemStatus

def parseStatus (raw : String) : Except PyError PlannerItemStatus :=
  let normalized := lower (strip raw)
  match PlannerItemStatus.all.find? fun st => st.value = normalized with
  | some st => .ok st
  | none => .error (.value s!"'{normalized}' is not a valid PlannerItemStatus")

/-! ## What a caller passes: the keys of the item and schema dictionaries that are there -/

structure RawPlanItem where
  planItemId : Option String := none
  title : Option String := none
  description : Option String := none
  status : Option String := none
  sequenceIndex : Option ℤ := none
  dependsOn : Option (List String) := none
  acceptanceCriteria : Option (List String) := none
  llmOutput : Option String := none
deriving DecidableEq, Repr

structure RawPlanSchema where
  goal : Option String := none
  constraints : Option (List String) := none
  verification : Option (List String) := none
  sourceFormat : Option String := none
  steps : Option (List RawPlanItem) := none
deriving DecidableEq, Repr

/-! ## Stored shapes -/

structure PlannerItem where
  planItemId : String
  title : String
  description : String
  status : PlannerItemStatus
  sequenceIndex : ℤ
  dependsOn : List String
  acceptanceCriteria : List String
  llmOutput : Option String
  llmOutputHistory : List String
  toolCallRefs : List String
  notes : List String
  updatedAt : Time
deriving DecidableEq, Repr

structure PlanStep where
  planItemId : String
  title : String
  description : String
  dependsOn : List String
  acceptanceCriteria : List String
  sequenceIndex : ℤ
deriving DecidableEq, Repr

structure PlanSchema where
  goal : String
  constraints : List String
  verification : List String
  sourceFormat : String
  steps : List PlanStep
deriving DecidableEq, Repr

structure PlannerState where
  runId : String
  version : ℤ
  planSourceText : String
  items : List PlannerItem
  planSchema : PlanSchema
  activeItemId : Option String
  cursorIndex : Option ℤ
  updatedAt : Time
deriving DecidableEq, Repr

/-! ## Plan schema -/

/-- `raw.get("plan_item_id") or f"step_{index}"`, stripped. -/
def itemIdAt (index : Nat) (raw : RawPlanItem) : String :=
  match raw.planItemId with
  | some t => if t = "" then strip s!"step_{index}" else strip t
  | none => strip s!"step_{index}"

def normalizePlanStep (index : Nat) (raw : RawPlanItem) : Except PyError PlanStep :=
  let title := strip (raw.title.getD "")
  if title = "" then .error (.value s!"plan step at index {index} must have non-empty title")
  else .ok {
    planItemId := itemIdAt index raw
    title := title
    description := raw.description.getD ""
    dependsOn := normalizeStrList (raw.dependsOn.getD [])
    acceptanceCriteria := normalizeStrList (raw.acceptanceCriteria.getD [])
    sequenceIndex := raw.sequenceIndex.getD index }

def PlannerItem.toRaw (item : PlannerItem) : RawPlanItem :=
  { planItemId := some item.planItemId, title := some item.title,
    description := some item.description, status := some item.status.value,
    sequenceIndex := some item.sequenceIndex, dependsOn := some item.dependsOn,
    acceptanceCriteria := some item.acceptanceCriteria, llmOutput := item.llmOutput }

def PlanStep.toRaw (step : PlanStep) : RawPlanItem :=
  { planItemId := some step.planItemId, title := some step.title,
    description := some step.description, sequenceIndex := some step.sequenceIndex,
    dependsOn := some step.dependsOn, acceptanceCriteria := some step.acceptanceCriteria }

def PlanSchema.toRaw (schema : PlanSchema) : RawPlanSchema :=
  { goal := some schema.goal, constraints := some schema.constraints,
    verification := some schema.verification, sourceFormat := some schema.sourceFormat,
    steps := some (schema.steps.map PlanStep.toRaw) }

def normalizePlanSchema (raw : RawPlanSchema) (items : Option (List PlannerItem)) :
    Except PyError PlanSchema := do
  let stepsRaw ← match raw.steps, items with
    | some steps, _ => .ok steps
    | none, some items => .ok (items.map PlannerItem.toRaw)
    | none, none => .error (.value "plan schema steps must be a list")
  let steps ← stepsRaw.zipIdx.mapM fun e => normalizePlanStep e.2 e.1
  let format := strip (raw.sourceFormat.getD "normalized")
  return {
    goal := strip (raw.goal.getD "")
    constraints := normalizeStrList (raw.constraints.getD [])
    verification := normalizeStrList (raw.verification.getD [])
    sourceFormat := if format = "" then "normalized" else format
    steps := steps }

/-! ## Decoding with validation -/

/-- `PlannerItem.from_dict` of a stored item. -/
def PlannerItem.fromDict (item : PlannerItem) : Except PyError PlannerItem := do
  Txn.raiseIf (item.sequenceIndex < 0) (.value "sequence_index must be non-negative")
  let planItemId ← requireNonEmptyStr item.planItemId "plan_item_id"
  let title ← requireNonEmptyStr item.title "title"
  return { item with
    planItemId := planItemId
    title := title
    dependsOn := normalizeStrList item.dependsOn
    acceptanceCriteria := normalizeStrList item.acceptanceCriteria
    llmOutputHistory := normalizeStrList item.llmOutputHistory
    toolCallRefs := normalizeStrList item.toolCallRefs
    notes := normalizeStrList item.notes }

/-- `PlannerState._validate_integrity`. -/
def PlannerState.validateIntegrity (st : PlannerState) : Except PyError Unit :=
  let ids := st.items.map PlannerItem.planItemId
  if st.version < 1 then .error (.value "version must be >= 1")
  else if ¬ ids.Nodup then .error (.value "plan item ids must be unique")
  else if ∃ a ∈ st.activeItemId, a ∉ ids then .error (.value "active_item_id does not exist in items")
  else if ∃ c ∈ st.cursorIndex, c < 0 ∨ (st.items.length : ℤ) ≤ c then
    .error (.value "cursor_index out of range")
  else .ok ()

def PlannerState.fromDict (st : PlannerState) : Except PyError PlannerState := do
  let items ← st.items.mapM PlannerItem.fromDict
  let runId ← requireNonEmptyStr st.runId "run_id"
  let schema ← normalizePlanSchema st.planSchema.toRaw (some items)
  let out : PlannerState := { st with runId := runId, items := items, planSchema := schema }
  out.validateIntegrity
  return out

/-! ## Scheduler -/

/-- First pending item, by `sequence_index`, whose dependencies are all done. -/
def nextRunnableItem (st : PlannerState) : Option PlannerItem :=
  let doneIds := (st.items.filter fun item => item.status = .done).map PlannerItem.planItemId
  (st.items.insertionSort fun a b => a.sequenceIndex ≤ b.sequenceIndex).find? fun item =>
    item.status = .pending && item.dependsOn.all fun dep => doneIds.contains dep

/-! ## Creating a plan -/

def plannerItemOfRaw (now : Time) (index : Nat) (raw : RawPlanItem) (seen : List String) :
    Except PyError PlannerItem := do
  let itemId := itemIdAt index raw
  Txn.raiseIf (itemId = "") (.value s!"item at index {index} has an empty plan_item_id")
  Txn.raiseIf (itemId ∈ seen) (.value s!"duplicate plan_item_id: {itemId}")
  let title := strip (raw.title.getD "")
  Txn.raiseIf (title = "") (.value s!"item {itemId} must have non-empty title")
  let sequenceIndex := raw.sequenceIndex.getD index
  Txn.raiseIf (sequenceIndex < 0) (.value s!"item {itemId} must have non-negative sequence_index")
  let status ← parseStatus (raw.status.getD "pending")
  return {
    planItemId := itemId
    title := title
    description := raw.description.getD ""
    status := status
    sequenceIndex := sequenceIndex
    dependsOn := normalizeStrList (raw.dependsOn.getD [])
    acceptanceCriteria := normalizeStrList (raw.acceptanceCriteria.getD [])
    llmOutput := raw.llmOutput
    llmOutputHistory := []
    toolCallRefs := []
    notes := []
    updatedAt := now }

/-- The loop over the caller's items, from position `index` with the ids `seen` before it. -/
def plannerItemsOfRaw (now : Time) : Nat → List String → List RawPlanItem →
    Except PyError (List PlannerItem)
  | _, _, [] => .ok []
  | index, seen, raw :: rest => do
    let item ← plannerItemOfRaw now index raw seen
    let items ← plannerItemsOfRaw now (index + 1) (item.planItemId :: seen) rest
    return item :: items

/-- `create_plan` up to the save. -/
def createPlanState (now : Time) (runId planSourceText : String) (items : List RawPlanItem)
    (planSchema : Option RawPlanSchema) : Except PyError PlannerState := do
  Txn.raiseIf (items = []) (.value "items cannot be empty")
  let given := planSchema.getD {}
  let raw : RawPlanSchema := if given = {} then { steps := some items } else given
  let normalizedSchema ← normalizePlanSchema raw none
  let plannerItems ← plannerItemsOfRaw now 0 [] items
  let plannerItems := plannerItems.insertionSort fun a b => a.sequenceIndex ≤ b.sequenceIndex
  let schema ← normalizePlanSchema normalizedSchema.toRaw (some plannerItems)
  let state : PlannerState := {
    runId := runId
    version := 1
    planSourceText := planSourceText
    items := plannerItems
    planSchema := schema
    activeItemId := none
    cursorIndex := none
    updatedAt := now }
  return match nextRunnableItem state with
    | some first =>
      { state with activeItemId := some first.planItemId, cursorIndex := some first.sequenceIndex }
    | none => state

/-! ## Updates of a loaded plan -/

def findItem (st : PlannerState) (planItemId : String) : Except PyError PlannerItem :=
  match st.items.find? fun item => item.planItemId = planItemId with
  | some item => .ok item
  | none => .error (.value s!"plan item not found: {planItemId}")

/-- Change the item `findItem` returns, in place. -/
def modifyItem (planItemId : String) (f : PlannerItem → PlannerItem) :
    List PlannerItem → List PlannerItem
  | [] => []
  | item :: items =>
    if item.planItemId = planItemId then f item :: items else item :: modifyItem planItemId f items

def PlannerState.setItem (st : PlannerState) (planItemId : String) (f : PlannerItem → PlannerItem) :
    PlannerState :=
  { st with items := modifyItem planItemId f st.items }

def setActiveItemState (now : Time) (planItemId : String) (st : PlannerState) :
    Except PyError PlannerState := do
  let item ← findItem st planItemId
  return { st.setItem planItemId fun it => { it with updatedAt := now } with
    activeItemId := some item.planItemId
    cursorIndex := some item.sequenceIndex }

/-- `note.strip()` when there is a note that is not blank. -/
def noteText (note : Option String) : Option String :=
  (note.map strip).filter fun text => text ≠ ""

/-- The status and the note an item takes; an unchanged status without note leaves it alone. -/
def PlannerItem.updated (now : Time) (next : PlannerItemStatus) (note : Option String)
    (item : PlannerItem) : PlannerItem :=
  let item := if next ≠ item.status then { item with status := next, updatedAt := now } else item
  match noteText note with
  | some text => { item with notes := item.notes ++ [text], updatedAt := now }
  | none => item

/-- Completing the active item moves the cursor to the next runnable one, if any. -/
def PlannerState.moveOn (planItemId : String) (next : PlannerItemStatus) (st : PlannerState) :
    PlannerState :=
  if next = .done ∧ st.activeItemId = some planItemId then
    match nextRunnableItem st with
    | some nextItem =>
      { st with activeItemId := some nextItem.planItemId, cursorIndex := some nextItem.sequenceIndex }
    | none => st
  else st

def updateItemStatusState (now : Time) (planItemId status : String) (note : Option String)
    (st : PlannerState) : Except PyError PlannerState := do
  let item ← findItem st planItemId
  let next ← parseStatus status
  Txn.raiseIf (next ≠ item.status ∧ next ∉ item.status.allowed)
    (.value s!"illegal planner status transition: {item.status.value} -> {next.value}")
  return (st.setItem planItemId (PlannerItem.updated now next note)).moveOn item.planItemId next

def attachLlmOutputState (now : Time) (planItemId llmOutput : String) (st : PlannerState) :
    Except PyError PlannerState := do
  let _ ← findItem st planItemId
  let text := strip llmOutput
  Txn.raiseIf (text = "") (.value "llm_output cannot be empty")
  return st.setItem planItemId fun it =>
    { it with llmOutput := some text, llmOutputHistory := it.llmOutputHistory ++ [text], updatedAt := now }

def attachToolCallRefState (now : Time) (planItemId executionId : String) (st : PlannerState) :
    Except PyError PlannerState := do
  let _ ← findItem st planItemId
  let ref := strip executionId
  Txn.raiseIf (ref = "") (.value "execution_id cannot be empty")
  return st.setItem planItemId fun it =>
    if ref ∈ it.toolCallRefs then it
    else { it with toolCallRefs := it.toolCallRefs ++ [ref], updatedAt := now }

end Raef
