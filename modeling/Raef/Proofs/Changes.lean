import Raef.Model.Journal
import Raef.Proofs.PlanRuns

/-!
# The four parts of an operation

Whatever a facade operation does to a run, it does in the same order: it acts on the
plan or on the records, it may append one message, it synchronises the context with the
plan it has changed, and it may end with a checkpoint.

    exec succeeds → nothing changed, or Act, Spoken, Settled, Closed in turn   (exec_parts)
    a part of one run leaves the rows and the log of the others alone                (Act.others, …)
-/

namespace Raef

open Text Txn

/-! ## What an operation is about -/

def FacadeOp.run : FacadeOp → Option String
  | .startRun a => some a.runId
  | .recordContextMessage a => some a.runId
  | .recordLlmTurn a => some a.runId
  | .recordToolIntent a => some a.runId
  | .recordToolDispatch runId _ => some runId
  | .recordToolResult a => some a.runId
  | .advancePlanItem a => some a.runId
  | .setActivePlanItem runId _ => some runId
  | .checkpoint runId _ _ => some runId
  | .getExternalResult _ => none
  | .listExternalResults runId => some runId
  | .listPendingExecutions runId => some runId
  | .loadContext runId => some runId

/-- The message an operation appends. -/
def FacadeOp.message : FacadeOp → Option ContextMessage
  | .recordContextMessage a => some a
  | .recordLlmTurn a => some {
      runId := a.runId
      role := "assistant"
      content := a.assistantMessage
      metadata := a.assistantMetadata }
  | _ => none

theorem FacadeOp.message_run {o : FacadeOp} {m : ContextMessage} (h : o.message = some m) :
    o.run = some m.runId := by
  cases o with
  | recordContextMessage a =>
    cases h
    rfl
  | recordLlmTurn a =>
    cases h
    rfl
  | _ => cases h

/-- The operations that touch neither the plan nor the records: a message, a checkpoint. -/
def FacadeOp.rests : FacadeOp → Bool
  | .recordContextMessage _ | .checkpoint _ _ _ => true
  | _ => false

/-! ## The parts -/

/-- The row an update of a plan saves. -/
def PlannerState.bumped (amb : Ambient) (st : PlannerState) : PlannerState :=
  { st with version := st.version + 1, updatedAt := amb.now }

/-- The event of a plan operation and the update it describes. -/
inductive PlanEdit (now : Time) : FacadeOp → String → EventPayload → String → String →
    (PlannerState → Except PyError PlannerState) → Prop
  | llmOutput (a : LlmTurn) : PlanEdit now (.recordLlmTurn a) a.runId
      (.planItemLlmOutputAttached a.llmOutput) "planner_item" a.planItemId
      (attachLlmOutputState now a.planItemId a.llmOutput)
  | status (a : PlanItemAdvance) : PlanEdit now (.advancePlanItem a) a.runId
      (.planItemStatusUpdated a.newStatus a.note) "planner_item" a.planItemId
      (updateItemStatusState now a.planItemId a.newStatus a.note)
  | active (runId planItemId : String) : PlanEdit now (.setActivePlanItem runId planItemId) runId
      (.planActiveItemSet planItemId) "planner" runId (setActiveItemState now planItemId)

/-- A new run: its three events and its plan. -/
def Store.planStarted (s : Store) (amb : Ambient) (a : StartRun) (st : PlannerState) : Store :=
  let s1 := s.addEvent (s.newEvent amb a.runId
    (.runStarted a.initialMessages.length a.planItems.length) "run" a.runId)
  let s2 := (s1.addEvent (s1.newEvent amb a.runId
    (.planCreated a.planSourceText a.planItems (a.planSchema.getD {})) "planner" a.runId)).putPlan (st.saved amb)
  s2.addEvent (s2.newEvent amb a.runId
    (.contextInitialized a.initialMessages (a.initialMemory.getD [])) "context" a.runId)

/-- The context with one more pending execution. -/
def AgentContextSnapshot.awaiting (c : AgentContextSnapshot) (amb : Ambient) (executionId : String) :
    AgentContextSnapshot :=
  { c with
    pendingExecutionIds := addOnce (strip executionId) c.pendingExecutionIds
    pendingExecutionId := (addOnce (strip executionId) c.pendingExecutionIds).getLast?
    updatedAt := amb.now }

/-- A new intent: its event, the changed plan, the pending event and the context. -/
def Store.intentLogged (s : Store) (amb : Ambient) (a : ToolIntent) (st : PlannerState)
    (c : AgentContextSnapshot) : Store :=
  let s1 := (s.addEvent (s.newEvent amb a.runId
    (.toolIntentRecorded a.planItemId a.toolName a.operationType a.requestPayload .intentLogged)
    "tool_intent" a.executionId)).putPlan (st.bumped amb)
  (s1.addEvent (s1.newEvent amb a.runId (.contextPendingExecutionSet
    (addOnce a.executionId c.pendingExecutionIds).getLast? (addOnce a.executionId c.pendingExecutionIds))
    "context" a.runId)).putContext (c.awaiting amb a.executionId)

/-- What an operation does first, and the plan it has to synchronise the context with. -/
inductive Act (cfg : LoggingServiceConfig) (amb : Ambient) :
    FacadeOp → String → Store → Option PlannerState → Store → Prop
  | idle {o : FacadeOp} {runId : String} {s : Store} (hrun : o.run = some runId)
      (hrest : o.rests = true) : Act cfg amb o runId s none s
  | created {s : Store} (a : StartRun) (st out : PlannerState) (messages : List AgentMessage)
      (hst : createPlanState amb.now a.runId a.planSourceText a.planItems a.planSchema = .ok st)
      (hout : (st.saved amb).fromDict = .ok out)
      (hmsgs : a.initialMessages.mapM (RawMessage.decode amb.now) = .ok messages)
      (hdec : (freshContext amb a.runId messages a.initialMemory).Decodes)
      (hcase : a.forceReset = true ∨ s.loadContext a.runId = .ok none) :
      Act cfg amb (.startRun a) a.runId s (some out)
        ((s.planStarted amb a st).putContext (freshContext amb a.runId messages a.initialMemory))
  | replanned {s : Store} (a : StartRun) (st out : PlannerState) (c : AgentContextSnapshot)
      (hst : createPlanState amb.now a.runId a.planSourceText a.planItems a.planSchema = .ok st)
      (hout : (st.saved amb).fromDict = .ok out) (hplan : s.loadPlan a.runId = .ok none)
      (hctx : s.loadContext a.runId = .ok (some c)) :
      Act cfg amb (.startRun a) a.runId s (some out) (s.planStarted amb a st)
  | edited {s : Store} {o : FacadeOp} {runId entityType entityId : String} {payload : EventPayload}
      {g : PlannerState → Except PyError PlannerState} (st st' out : PlannerState)
      (hedit : PlanEdit amb.now o runId payload entityType entityId g)
      (hload : s.loadPlan runId = .ok (some st)) (hst : g st = .ok st')
      (hout : (st'.bumped amb).fromDict = .ok out) :
      Act cfg amb o runId s (some out)
        ((s.addEvent (s.newEvent amb runId payload entityType entityId)).putPlan (st'.bumped amb))
  | intended {s s' : Store} (a : ToolIntent) (st st' out : PlannerState) (c : AgentContextSnapshot)
      (hknown : s.intentKnown cfg a.runId a.executionId = .ok false)
      (hload : s.loadPlan a.runId = .ok (some st))
      (hst : attachToolCallRefState amb.now a.planItemId a.executionId st = .ok st')
      (hout : (st'.bumped amb).fromDict = .ok out)
      (hctx : s.loadContext a.runId = .ok (some c)) (hblank : blank a.executionId = false)
      (hsaved : IntentSaved amb a (s.intentLogged amb a st' c) s') :
      Act cfg amb (.recordToolIntent a) a.runId s (some out) s'
  | dispatched {s : Store} (runId executionId : String) (row : ExternalResultRecord)
      (hfound : s.externalResults.get (strip executionId) = some row) (hrun : strip row.runId = runId)
      (hparent : (s.agentContexts.get runId).isSome)
      (hmoves : ExecutionStatus.Moves row.executionStatus .dispatched) :
      Act cfg amb (.recordToolDispatch runId executionId) runId s none
        ((s.addEvent (s.newEvent amb runId (.toolDispatched .dispatched (strip row.toolName)) "tool_intent"
          executionId)).putResult (s.rowOf amb { row.stripped with executionStatus := .dispatched }))
  | resulted {s s' : Store} (a : ToolResult) (rs : ExternalResultStatus) (es : ExecutionStatus)
      (cached : Option ExternalResultRecord) (record : ExternalResultRecord)
      (hparent : (s.agentContexts.get a.runId).isSome)
      (hrs : parseResultStatus a.resultStatus = .ok rs)
      (hes : resolveExecutionStatus a.executionStatus rs = .ok es)
      (hget : s.getExternalResult a.executionId = .ok cached) (hcheck : a.check es cached = .ok ())
      (hrecord : a.record amb rs es cached = .ok record)
      (hcleared : PendingCleared amb a es ((s.addEvent (s.newEvent amb a.runId
        (.externalResultRecorded rs es record.toolName record.operationType record.planItemId
          a.responsePayload.isSome a.errorMessage) "external_result" a.executionId)).putResult
        (s.rowOf amb record)) s') :
      Act cfg amb (.recordToolResult a) a.runId s none s'

/-- A message as it is stored. -/
def ContextMessage.stored (m : ContextMessage) (amb : Ambient) : AgentMessage :=
  { role := m.role
    content := m.content
    name := m.name
    toolCallId := m.toolCallId
    metadata := m.metadata.getD []
    createdAt := amb.now }

/-- The context with one more message. -/
def AgentContextSnapshot.told (c : AgentContextSnapshot) (amb : Ambient) (m : ContextMessage) :
    AgentContextSnapshot :=
  { c with
    messages := c.messages ++ [m.stored amb]
    turnIndex := c.turnIndex + 1
    updatedAt := amb.now }

/-- The message of the operation is appended, if it has one. -/
inductive Spoken (amb : Ambient) (o : FacadeOp) (s : Store) : Store → Prop
  | silent (h : o.message = none) : Spoken amb o s s
  | said (m : ContextMessage) (c : AgentContextSnapshot) (h : o.message = some m)
      (hload : s.loadContext m.runId = .ok (some c)) (hdec : (m.stored amb).Decodes) :
      Spoken amb o s ((s.addEvent (s.newEvent amb m.runId
        (.contextMessageAppended m.role m.content (m.metadata.getD []) m.name m.toolCallId)
        "context" m.runId)).putContext (c.told amb m))

/-- The context follows the plan that was changed, if one was. -/
inductive Settled (amb : Ambient) (runId : String) (s : Store) : Option PlannerState → Store → Prop
  | same : Settled amb runId s none s
  | synced (st : PlannerState) (c : AgentContextSnapshot) (hload : s.loadContext runId = .ok (some c)) :
      Settled amb runId s (some st) ((s.addEvent (s.newEvent amb runId
        (.contextSynchronized st.version st.cursorIndex) "context" runId)).putContext (c.synced amb st))

/-- The parts of a successful operation on the run. -/
def Parts (cfg : LoggingServiceConfig) (amb : Ambient) (o : FacadeOp) (runId : String) (s s' : Store) : Prop :=
  ∃ owed s1 s2 s3, Act cfg amb o runId s owed s1 ∧ Spoken amb o s1 s2 ∧ Settled amb runId s2 owed s3 ∧
    Closed cfg amb runId s3 s'

/-- What an operation without effect is: a read, a run that exists, an intent that is known. -/
structure FacadeOp.Skips (o : FacadeOp) (s : Store) : Prop where
  message : o.message = none
  resumed : ∀ a, o = .startRun a → a.forceReset = false ∧
    (∃ st, s.loadPlan a.runId = .ok (some st)) ∧ ∃ c, s.loadContext a.runId = .ok (some c)

/-! ## Decomposition -/

section
variable {cfg : LoggingServiceConfig} {amb : Ambient} {s s' : Store} {runId : String}

theorem IntentSaved.plannerStates {a : ToolIntent} (h : IntentSaved amb a s s') :
    s'.plannerStates = s.plannerStates := by cases h <;> rfl

theorem PendingCleared.plannerStates {a : ToolResult} {es : ExecutionStatus}
    (h : PendingCleared amb a es s s') : s'.plannerStates = s.plannerStates := by cases h <;> rfl

theorem sync_settled {st : PlannerState} {u : Unit}
    (h : syncContextWithPlanner amb runId st s = .ok (u, s')) : Settled amb runId s (some st) s' := by
  obtain ⟨c, hload, -, rfl⟩ := syncContextWithPlanner_ok h
  exact .synced st c hload

theorem appendMessage_spoken {o : FacadeOp} {m : ContextMessage} {r : AgentContextSnapshot}
    (ho : o.message = some m)
    (h : appendMessage amb m.runId m.role m.content m.metadata m.name m.toolCallId
      (s.addEvent (s.newEvent amb m.runId
        (.contextMessageAppended m.role m.content (m.metadata.getD []) m.name m.toolCallId)
        "context" m.runId)) = .ok (r, s')) : Spoken amb o s s' := by
  obtain ⟨c, c', hload, hf, -, rfl⟩ := updateContext_saved h
  unfold appendMessageState at hf
  simp only [except_bind_ok, except_pure_ok, fromDict_message_ok] at hf
  obtain ⟨_, ⟨hdec, rfl⟩, rfl⟩ := hf
  exact .said m c ho hload hdec

/-- An update of the plan through the service is an edit. -/
theorem updatePlan_edited {o : FacadeOp} {payload : EventPayload} {entityType entityId : String}
    {g : PlannerState → Except PyError PlannerState} {out : PlannerState}
    (hedit : PlanEdit amb.now o runId payload entityType entityId g)
    (h : updatePlan amb runId g (s.addEvent (s.newEvent amb runId payload entityType entityId)) =
      .ok (out, s')) : Act cfg amb o runId s (some out) s' := by
  obtain ⟨st, st', hload, hst, -, hout, rfl⟩ := updatePlan_saved h
  exact .edited st st' out hedit hload hst hout

theorem startFresh_parts {a : StartRun} {r : RunProjections}
    (hcase : a.forceReset = true ∨ s.loadPlan a.runId = .ok none ∨ s.loadContext a.runId = .ok none)
    (h : startFresh cfg amb a s = .ok (r, s')) : Parts cfg amb (.startRun a) a.runId s s' := by
  obtain ⟨st, s1, s2, s3, -, hst, -, hout, rfl, rfl, hinit, s4, hsync, hcp⟩ := startFresh_ok h
  refine ⟨some r.plannerState, s3, s3, s4, ?_, .silent rfl, sync_settled hsync, hcp⟩
  rcases initContext_ok hinit with ⟨hload, hforce, rfl⟩ | ⟨messages, hnew, hmsgs, hdec, rfl⟩
  · have hplan : s.loadPlan a.runId = .ok none := by
      rcases hcase with hcase | hcase | hcase
      · rw [hforce] at hcase
        cases hcase
      · exact hcase
      · have hsome : s.loadContext a.runId = .ok (some r.context) := hload
        rw [hcase] at hsome
        cases hsome
    exact .replanned a st _ _ hst hout hplan hload
  · exact .created a st _ messages hst hout hmsgs (fromDict_context_ok.1 hdec).1 hnew

theorem recordNewIntent_parts {a : ToolIntent} {r : RunProjections}
    (hknown : s.intentKnown cfg a.runId a.executionId = .ok false)
    (h : recordNewIntent cfg amb a s = .ok (r, s')) : Parts cfg amb (.recordToolIntent a) a.runId s s' := by
  obtain ⟨ctx, s1, s2, s3, s4, s5, -, hblank, hctx, h1, rfl, h2, h3, h4, h5⟩ := recordNewIntent_ok h
  obtain ⟨st, st', hload, hst, -, hout, rfl⟩ := updatePlan_saved h1
  obtain ⟨c, c', hc, hf, -, rfl⟩ := updateContext_saved h2
  have hc' : s.loadContext a.runId = .ok (some c) := hc
  rw [hctx] at hc'
  cases hc'
  unfold addPendingExecutionState at hf
  simp only [except_bind_ok, requireNonEmptyStr_ok, except_pure_ok] at hf
  obtain ⟨_, ⟨-, rfl⟩, rfl⟩ := hf
  exact ⟨some r.plannerState, s4, s4, s5, .intended a st st' _ c hknown hload hst hout hctx hblank h3,
    .silent rfl, sync_settled h4, h5⟩

/-- **The parts of an operation.**  An operation that succeeds changes nothing, or acts,
speaks, settles and checkpoints, in this order. -/
theorem exec_parts {o : FacadeOp} {r : o.Res} (h : o.exec cfg amb s = .ok (r, s')) :
    (s' = s ∧ o.Skips s) ∨ ∃ runId, o.run = some runId ∧ Parts cfg amb o runId s s' := by
  cases o with
  | startRun a =>
    obtain ⟨plan, ctx, hplan, hctx, ⟨rfl, rfl, hforce, rfl⟩ | ⟨hcase, h⟩⟩ := startRun_ok h
    · refine .inl ⟨rfl, rfl, fun a' ha' => ?_⟩
      cases ha'
      exact ⟨hforce, ⟨_, hplan⟩, _, hctx⟩
    · refine .inr ⟨a.runId, rfl, startFresh_parts (hcase.imp_right ?_) h⟩
      rintro (rfl | rfl)
      · exact .inl hplan
      · exact .inr hctx
  | recordContextMessage a =>
    obtain ⟨s1, h1, -, h2⟩ := recordContextMessage_ok h
    exact .inr ⟨a.runId, rfl, none, s, s1, s1, .idle rfl rfl, appendMessage_spoken rfl h1, .same, h2⟩
  | recordLlmTurn a =>
    obtain ⟨s1, s2, s3, -, -, h1, h2, h3, h4⟩ := recordLlmTurn_ok h
    exact .inr ⟨a.runId, rfl, _, s1, s2, s3, updatePlan_edited (.llmOutput a) h1,
      appendMessage_spoken rfl h2, sync_settled h3, h4⟩
  | recordToolIntent a =>
    rcases recordToolIntent_ok (FacadeOp.exec_recordToolIntent.1 h) with ⟨-, -, rfl⟩ | ⟨hknown, h⟩
    · exact .inl ⟨rfl, rfl, by nofun⟩
    · exact .inr ⟨a.runId, rfl, recordNewIntent_parts hknown h⟩
  | recordToolDispatch runId e =>
    obtain ⟨row, new, hrow, -, hrun, hmoves, -, -, hparent, rfl, -, -, h1⟩ :=
      recordToolDispatch_ok (FacadeOp.exec_recordToolDispatch.1 h)
    exact .inr ⟨runId, rfl, none, _, _, _, .dispatched runId e row hrow hrun hparent hmoves, .silent rfl, .same, h1⟩
  | recordToolResult a =>
    obtain ⟨rs, es, cached, record, new, s1, hrs, hes, hget, hcheck, hrecord, -, -, -, -, hparent, rfl, -, -, h1, h2⟩ :=
      recordToolResult_ok (FacadeOp.exec_recordToolResult.1 h)
    exact .inr ⟨a.runId, rfl, none, _, _, _, .resulted a rs es cached record hparent hrs hes hget hcheck hrecord h1,
      .silent rfl, .same, h2⟩
  | advancePlanItem a =>
    obtain ⟨s1, s2, -, -, h1, h2, h3⟩ := advancePlanItem_ok h
    exact .inr ⟨a.runId, rfl, _, s1, s1, s2, updatePlan_edited (.status a) h1, .silent rfl,
      sync_settled h2, h3⟩
  | setActivePlanItem runId planItemId =>
    obtain ⟨s1, s2, -, h1, h2, h3⟩ := setActivePlanItem_ok h
    exact .inr ⟨runId, rfl, _, s1, s1, s2, updatePlan_edited (.active runId planItemId) h1, .silent rfl,
      sync_settled h2, h3⟩
  | checkpoint runId snapshotType inc =>
    exact .inr ⟨runId, rfl, none, s, s, s, .idle rfl rfl, .silent rfl, .same,
      checkpointLocked_closed h cfg⟩
  | getExternalResult e => exact .inl ⟨(fetch_pair.1 h).2, rfl, by nofun⟩
  | listExternalResults runId => exact .inl ⟨(fetch_pair.1 h).2, rfl, by nofun⟩
  | listPendingExecutions runId => exact .inl ⟨(fetch_pair.1 h).2, rfl, by nofun⟩
  | loadContext runId => exact .inl ⟨(fetch_pair.1 h).2, rfl, by nofun⟩

end

/-! ## Rows and log of the other runs -/

/-- What belongs to the run `k` is the same in both stores, the records apart. -/
structure Beside (k : String) (s s' : Store) : Prop where
  plan : s'.plannerStates.get k = s.plannerStates.get k
  context : s'.agentContexts.get k = s.agentContexts.get k
  log : s'.eventsOf k = s.eventsOf k

section
variable {cfg : LoggingServiceConfig} {amb : Ambient} {o : FacadeOp} {runId k : String}
  {s s' s'' : Store} {owed : Option PlannerState}

theorem Beside.refl (s : Store) : Beside k s s := ⟨rfl, rfl, rfl⟩

theorem Beside.trans (h : Beside k s s') (h' : Beside k s' s'') : Beside k s s'' :=
  ⟨h'.plan.trans h.plan, h'.context.trans h.context, h'.log.trans h.log⟩

theorem Beside.journal (h : Beside k s s') : s'.journal k = s.journal k := by
  unfold Store.journal
  rw [h.log]

theorem beside_addEvent {ev : WalEvent} (h : ev.runId ≠ k) : Beside k s (s.addEvent ev) := by
  refine ⟨rfl, rfl, ?_⟩
  rw [eventsOf_addEvent, if_neg h]

theorem beside_putPlan {st : PlannerState} (h : st.runId ≠ k) : Beside k s (s.putPlan st) :=
  ⟨Table.get_put_ne _ st h.symm, rfl, rfl⟩

theorem beside_putContext {c : AgentContextSnapshot} (h : c.runId ≠ k) : Beside k s (s.putContext c) :=
  ⟨rfl, Table.get_put_ne _ c h.symm, rfl⟩

theorem beside_putResult (row : ExternalResultRecord) : Beside k s (s.putResult row) := ⟨rfl, rfl, rfl⟩

theorem beside_addCheckpoint (cp : WalCheckpoint) : Beside k s (s.addCheckpoint cp) := ⟨rfl, rfl, rfl⟩

/-- An event of the facade is one of its own run. -/
theorem beside_newEvent {payload : EventPayload} {entityType entityId : String} (h : strip runId ≠ k) :
    Beside k s (s.addEvent (s.newEvent amb runId payload entityType entityId)) :=
  beside_addEvent h

/-- The update of an edit is a change of one item. -/
theorem PlanEdit.update {now : Time} {payload : EventPayload} {entityType entityId : String}
    {g : PlannerState → Except PyError PlannerState} (h : PlanEdit now o runId payload entityType entityId g)
    {st st' : PlannerState} (hst : g st = .ok st') : ∃ p f, PlanUpdate p f st st' := by
  cases h with
  | llmOutput a => exact ⟨_, _, (attachLlmOutputState_ok hst).1⟩
  | status a =>
    obtain ⟨next, -, hu⟩ := updateItemStatusState_ok hst
    exact ⟨_, _, hu⟩
  | active runId planItemId => exact ⟨_, _, setActiveItemState_ok hst⟩

theorem planStarted_beside {a : StartRun} {st : PlannerState} (hrun : st.runId = strip a.runId)
    (hk : strip a.runId ≠ k) : Beside k s (s.planStarted amb a st) := by
  refine .trans (beside_newEvent hk) (.trans (beside_newEvent hk) (.trans (beside_putPlan ?_) (beside_newEvent hk)))
  show st.runId ≠ k
  rw [hrun]
  exact hk

theorem intentLogged_beside {a : ToolIntent} {st : PlannerState} {c : AgentContextSnapshot}
    (hrun : st.runId = strip a.runId) (hctx : c.runId = strip a.runId) (hk : strip a.runId ≠ k) :
    Beside k s (s.intentLogged amb a st c) := by
  refine .trans (beside_newEvent hk) (.trans (beside_putPlan ?_) (.trans (beside_newEvent hk) (beside_putContext ?_)))
  · show st.runId ≠ k
    rw [hrun]
    exact hk
  · show c.runId ≠ k
    rw [hctx]
    exact hk

theorem IntentSaved.beside {a : ToolIntent} (h : IntentSaved amb a s s') : Beside k s s' := by
  cases h with
  | present => exact .refl _
  | written => exact beside_putResult _

theorem PendingCleared.beside {a : ToolResult} {es : ExecutionStatus} (h : PendingCleared amb a es s s')
    (hk : strip a.runId ≠ k) : Beside k s s' := by
  cases h with
  | off => exact .refl _
  | absent => exact .refl _
  | dropped c ids hcl hc hin hids hsave =>
    refine .trans (beside_newEvent hk) (beside_putContext ?_)
    show c.runId ≠ k
    rw [loadContext_runId hc]
    exact hk

theorem Act.beside (h : Act cfg amb o runId s owed s') (hstart : ∀ a, o = .startRun a → Trimmed a.runId)
    (hk : strip runId ≠ k) : Beside k s s' := by
  cases h with
  | idle hrun => exact .refl _
  | created a st out messages hst hout hmsgs hdec hcase =>
    have hrun : strip a.runId = a.runId := hstart a rfl
    refine .trans (planStarted_beside ?_ hk) (beside_putContext ?_)
    · exact (createPlanState_ok hst).runId.trans hrun.symm
    · show a.runId ≠ k
      exact hrun ▸ hk
  | replanned a st out c hst hout hplan hctx =>
    exact planStarted_beside ((createPlanState_ok hst).runId.trans (hstart a rfl).symm) hk
  | edited st st' out hedit hload hst hout =>
    refine .trans (beside_newEvent hk) (beside_putPlan ?_)
    obtain ⟨p, f, hu⟩ := hedit.update hst
    show st'.runId ≠ k
    rw [hu.runId, loadPlan_runId hload]
    exact hk
  | intended a st st' out c hknown hload hst hout hctx hblank hsaved =>
    refine .trans (intentLogged_beside ?_ (loadContext_runId hctx) hk) hsaved.beside
    rw [(attachToolCallRefState_ok hst).1.runId, loadPlan_runId hload]
  | dispatched runId e row hfound hrun hparent hmoves =>
    exact .trans (beside_newEvent hk) (beside_putResult _)
  | resulted a rs es cached record hparent hrs hes hget hcheck hrecord hcleared =>
    exact .trans (beside_newEvent hk) (.trans (beside_putResult _) (hcleared.beside hk))

theorem Spoken.beside (h : Spoken amb o s s') (hrun : o.run = some runId) (hk : strip runId ≠ k) :
    Beside k s s' := by
  cases h with
  | silent => exact .refl _
  | said m c hm hload hdec =>
    rw [FacadeOp.message_run hm] at hrun
    cases hrun
    refine .trans (beside_newEvent hk) (beside_putContext ?_)
    show c.runId ≠ k
    rw [loadContext_runId hload]
    exact hk

theorem Settled.beside (h : Settled amb runId s owed s') (hk : strip runId ≠ k) : Beside k s s' := by
  cases h with
  | same => exact .refl _
  | synced st c hload =>
    refine .trans (beside_newEvent hk) (beside_putContext ?_)
    show c.runId ≠ k
    rw [loadContext_runId hload]
    exact hk

theorem Checkpointed.beside (h : Checkpointed amb runId s s') (hk : strip runId ≠ k) : Beside k s s' := by
  cases h with
  | none => exact .refl _
  | bare cp => exact .trans (beside_addCheckpoint cp) (beside_newEvent hk)
  | withContext cp c hrun hseq hc hsave =>
    refine .trans (beside_addCheckpoint cp) (.trans (beside_putContext ?_) (beside_newEvent hk))
    show c.runId ≠ k
    rw [loadContext_runId hc]
    exact hk

theorem Act.run (h : Act cfg amb o runId s owed s') : o.run = some runId := by
  cases h with
  | idle hrun => exact hrun
  | edited st st' out hedit => cases hedit <;> rfl
  | _ => rfl

/-- An operation of one run leaves the others alone. -/
theorem Parts.beside (h : Parts cfg amb o runId s s') (hstart : ∀ a, o = .startRun a → Trimmed a.runId)
    (hk : strip runId ≠ k) : Beside k s s' := by
  obtain ⟨owed, s1, s2, s3, hact, hspoken, hsettled, hcp⟩ := h
  exact .trans (hact.beside hstart hk) (.trans (hspoken.beside hact.run hk)
    (.trans (hsettled.beside hk) (hcp.checkpointed.beside hk)))

end

end Raef
