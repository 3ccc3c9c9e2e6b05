import Raef.Model.Store

/-!
# What the log says of a run

The projections folded from the events of a run alone, in the order of the log.  This is
the abstract side: nothing here reads a table.  A plan starts over at `PLAN_CREATED`, the
messages and the pending list at `CONTEXT_INITIALIZED`.
-/

namespace Raef

open Text

/-- The events of a run. -/
def Store.eventsOf (s : Store) (runId : String) : List WalEvent := s.walEvents.filter fun e => e.runId = runId

/-! ## Views -/

/-- What the events tell of a plan item. -/
structure ItemView where
  planItemId : String
  status : PlannerItemStatus
  notes : List String
  llmOutputHistory : List String
  toolCallRefs : List String
deriving DecidableEq

structure PlanView where
  version : ℤ
  items : List ItemView

/-- What a caller says of a message. -/
structure MessageView where
  role : String
  content : String
  name : Option String
  toolCallId : Option String
  metadata : JsonObject

def PlannerItem.view (item : PlannerItem) : ItemView :=
  { planItemId := item.planItemId
    status := item.status
    notes := item.notes
    llmOutputHistory := item.llmOutputHistory
    toolCallRefs := item.toolCallRefs }

def AgentMessage.view (m : AgentMessage) : MessageView :=
  { role := m.role, content := m.content, name := m.name, toolCallId := m.toolCallId, metadata := m.metadata }

def RawMessage.view (m : RawMessage) : MessageView :=
  { role := m.role, content := m.content, name := m.name, toolCallId := m.toolCallId,
    metadata := m.metadata.getD [] }

/-! ## One event -/

/-- The items as they are passed, each without any history. -/
def ItemView.created (e : RawPlanItem × ℕ) : ItemView :=
  { planItemId := itemIdAt e.2 e.1
    status := match parseStatus (e.1.status.getD "pending") with
      | .ok st => st
      | .error _ => .pending
    notes := []
    llmOutputHistory := []
    toolCallRefs := [] }

def ItemView.updated (newStatus : String) (note : Option String) (item : ItemView) : ItemView :=
  { item with
    status := match parseStatus newStatus with
      | .ok st => st
      | .error _ => item.status
    notes := item.notes ++ (noteText note).toList }

def ItemView.answered (llmOutput : String) (item : ItemView) : ItemView :=
  { item with llmOutputHistory := item.llmOutputHistory ++ [strip llmOutput] }

def ItemView.called (executionId : String) (item : ItemView) : ItemView :=
  { item with toolCallRefs := addOnce executionId item.toolCallRefs }

/-- An edit of the items of an id is one version. -/
def PlanView.edit (planItemId : String) (f : ItemView → ItemView) (plan : PlanView) : PlanView :=
  { version := plan.version + 1
    items := plan.items.map fun item => if item.planItemId = planItemId then f item else item }

/-- What has been read from the log so far. -/
structure Journal where
  plan : Option PlanView := none
  messages : List MessageView := []
  pending : List String := []
  synchronized : Option (ℤ × Option ℤ) := none
  statuses : String → Option ExecutionStatus := fun _ => none

namespace Journal

def edit (planItemId : String) (f : ItemView → ItemView) (j : Journal) : Journal :=
  { j with plan := j.plan.map (PlanView.edit planItemId f) }

def reach (executionId : String) (status : ExecutionStatus) (j : Journal) : Journal :=
  { j with statuses := Function.update j.statuses executionId (some status) }

def read (j : Journal) (ev : WalEvent) : Journal :=
  match ev.payload with
  | .planCreated _ items _ =>
    { j with plan := some { version := 1, items := items.zipIdx.map ItemView.created } }
  | .planItemLlmOutputAttached llmOutput => j.edit ev.entityId (ItemView.answered llmOutput)
  | .planItemStatusUpdated newStatus note => j.edit ev.entityId (ItemView.updated newStatus note)
  | .planActiveItemSet planItemId => j.edit planItemId id
  | .contextInitialized initialMessages _ =>
    { j with messages := initialMessages.map RawMessage.view, pending := [] }
  | .contextMessageAppended role content metadata name toolCallId =>
    { j with messages := j.messages ++ [{ role, content, name, toolCallId, metadata }] }
  | .contextPendingExecutionSet _ pendingExecutionIds => { j with pending := pendingExecutionIds }
  | .contextSynchronized plannerVersion cursorIndex =>
    { j with synchronized := some (plannerVersion, cursorIndex) }
  | .toolIntentRecorded planItemId _ _ _ status =>
    (j.edit planItemId (ItemView.called ev.entityId)).reach ev.entityId status
  | .toolDispatched status _ => j.reach ev.entityId status
  | .externalResultRecorded _ status .. => j.reach ev.entityId status
  | .runStarted .. | .checkpointWritten .. => j

end Journal

/-- The log of a run, read from its first event on. -/
def Store.journal (s : Store) (runId : String) : Journal := (s.eventsOf runId).foldl Journal.read {}

/-! ## Reading on -/

section
variable (s : Store) (ev : WalEvent) (st : PlannerState) (c : AgentContextSnapshot)
  (row : ExternalResultRecord) (cp : WalCheckpoint) (r : String)

theorem eventsOf_addEvent :
    (s.addEvent ev).eventsOf r = if ev.runId = r then s.eventsOf r ++ [ev] else s.eventsOf r := by
  unfold Store.eventsOf
  rw [Store.addEvent_walEvents, List.filter_append]
  by_cases h : ev.runId = r
  · simp [h]
  · simp [h]

theorem journal_addEvent :
    (s.addEvent ev).journal r = if ev.runId = r then (s.journal r).read ev else s.journal r := by
  unfold Store.journal
  rw [eventsOf_addEvent]
  split
  · rw [List.foldl_append, List.foldl_cons, List.foldl_nil]
  · rfl

/-- An event the facade writes for the run. -/
@[simp] theorem journal_newEvent (amb : Ambient) (runId : String) (payload : EventPayload)
    (entityType entityId : String) :
    (s.addEvent (s.newEvent amb runId payload entityType entityId)).journal (strip runId) =
      (s.journal (strip runId)).read (s.newEvent amb runId payload entityType entityId) := by
  rw [journal_addEvent]
  exact if_pos rfl

@[simp] theorem journal_putPlan : (s.putPlan st).journal r = s.journal r := rfl
@[simp] theorem journal_putContext : (s.putContext c).journal r = s.journal r := rfl
@[simp] theorem journal_putResult : (s.putResult row).journal r = s.journal r := rfl
@[simp] theorem journal_addCheckpoint : (s.addCheckpoint cp).journal r = s.journal r := rfl

end

end Raef
