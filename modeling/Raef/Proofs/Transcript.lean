import Raef.Proofs.Replay

/-!
# The transcript of a run

Every operation on a context loads all its messages and saves all of them again, and a load
strips role and content.  A message that is stripped already survives any number of such
rewrites; one that is not is stored as it was passed in, and rewritten without its white
space by the next operation, whatever that operation is about.

    MessagesRead: stored messages are the ones in the log, stripped     (transcribed_exec)
    stripped messages → loads give exactly what the calls passed in     (transcript_faithful)
    a padded content is changed by a checkpoint                          (padded_content_rewritten)
-/

namespace Raef

open Text Txn

/-! ## Statements -/

def ContextMessage.view (m : ContextMessage) : MessageView :=
  { role := m.role, content := m.content, name := m.name, toolCallId := m.toolCallId,
    metadata := m.metadata.getD [] }

/-- A start of a run that is reset, or is not there. -/
def FacadeOp.initialises (s : Store) : FacadeOp → Bool
  | .startRun a => a.forceReset || match s.loadPlan a.runId with
    | .ok none => true
    | _ => false
  | _ => false

/-- The messages a successful operation makes of those passed in before it. -/
def FacadeOp.transcript (s : Store) (k : String) (o : FacadeOp) (said : List MessageView) : List MessageView :=
  match o, o.message with
  | .startRun a, _ =>
    if strip a.runId = k ∧ o.initialises s = true then a.initialMessages.map RawMessage.view else said
  | _, some m => if strip m.runId = k then said ++ [m.view] else said
  | _, none => said

/-- Resets name their run stripped, and what becomes a message has stripped role and content. -/
structure FacadeOp.SpeaksStripped (s : Store) (o : FacadeOp) : Prop where
  resets : o.ResetsStripped s
  message : ∀ m, o.message = some m → Trimmed m.role ∧ Trimmed m.content
  initial : ∀ a, o = .startRun a → o.initialises s = true →
    ∀ m ∈ a.initialMessages, Trimmed m.role ∧ Trimmed m.content

/-- Operations one after the other, and for each run the messages passed in since it was initialised. -/
inductive Told (cfg : LoggingServiceConfig) (allowed : Store → FacadeOp → Prop) :
    Store → (String → List MessageView) → Prop
  | start : Told cfg allowed {} fun _ => []
  | step {s s' : Store} {said : String → List MessageView} {amb : Ambient} {o : FacadeOp} {r : o.Res}
      (h : Told cfg allowed s said) (ho : allowed s o) (hx : o.exec cfg amb s = .ok (r, s')) :
      Told cfg allowed s' fun k => o.transcript s k (said k)

/-- The messages of all rows are the same. -/
def MessagesKept (s s' : Store) : Prop :=
  ∀ k, (s'.agentContexts.get k).map AgentContextSnapshot.messages =
    (s.agentContexts.get k).map AgentContextSnapshot.messages

/-- The run has no context and nothing was said, or its messages are what was said, counted. -/
structure Store.Recounts (s : Store) (runId : String) (said : List MessageView) : Prop where
  journal : (s.journal (strip runId)).messages = said
  loaded : ∃ ctx, s.loadContext runId = .ok ctx ∧ (ctx = none → said = []) ∧
    ∀ c, ctx = some c → c.messages.map AgentMessage.view = said ∧ c.turnIndex = c.messages.length

/-! ## The invariant -/

def AgentMessage.Normal (m : AgentMessage) : Prop := m.stripped = m

structure Store.MessagesRead (s : Store) (k : String) : Prop where
  absent : s.agentContexts.get k = none → (s.journal k).messages = []
  present : ∀ c, s.agentContexts.get k = some c → (∀ m ∈ c.messages, m.Normal) ∧
    c.messages.map AgentMessage.view = (s.journal k).messages ∧ c.turnIndex = c.messages.length

/-- The messages of a run are read, and are those they were. -/
structure Store.StillRead (s s' : Store) (k : String) : Prop where
  read : s'.MessagesRead k
  journal : (s'.journal k).messages = (s.journal k).messages
  rows : (s'.agentContexts.get k).map AgentContextSnapshot.messages =
    (s.agentContexts.get k).map AgentContextSnapshot.messages

section
variable {cfg : LoggingServiceConfig} {amb : Ambient} {o : FacadeOp} {runId k : String}
  {s s' s'' : Store} {owed : Option PlannerState}

theorem Store.StillRead.refl (h : s.MessagesRead k) : s.StillRead s k := ⟨h, rfl, rfl⟩

theorem Store.StillRead.trans (h : s.StillRead s' k) (h' : s'.StillRead s'' k) : s.StillRead s'' k :=
  ⟨h'.read, h'.journal.trans h.journal, h'.rows.trans h.rows⟩

theorem Store.MessagesRead.of_eq (h : s.MessagesRead k) (hc : s'.agentContexts.get k = s.agentContexts.get k)
    (hj : (s'.journal k).messages = (s.journal k).messages) : s.StillRead s' k :=
  ⟨⟨fun hnone => hj.trans (h.absent (hc ▸ hnone)), fun c hget => hj ▸ h.present c (hc ▸ hget)⟩, hj, by rw [hc]⟩

theorem messagesRead_some {c : AgentContextSnapshot} (hget : s.agentContexts.get k = some c)
    (hn : ∀ m ∈ c.messages, m.Normal) (hview : c.messages.map AgentMessage.view = (s.journal k).messages)
    (hturn : c.turnIndex = c.messages.length) : s.MessagesRead k := by
  refine ⟨fun hnone => ?_, fun c' hc' => ?_⟩
  · rw [hget] at hnone
    cases hnone
  · rw [hget] at hc'
    cases hc'
    exact ⟨hn, hview, hturn⟩

theorem map_stripped_of_normal {l : List AgentMessage} (h : ∀ m ∈ l, m.Normal) :
    l.map AgentMessage.stripped = l := by
  conv_rhs => rw [← List.map_id l]
  exact List.map_congr_left h

/-- The messages a load gives are those of the row. -/
theorem Store.MessagesRead.loaded {c : AgentContextSnapshot} (h : s.MessagesRead (strip runId))
    (hload : s.loadContext runId = .ok (some c)) :
    (s.agentContexts.get (strip runId)).map AgentContextSnapshot.messages = some c.messages ∧
      (∀ m ∈ c.messages, m.Normal) ∧
      c.messages.map AgentMessage.view = (s.journal (strip runId)).messages ∧
      c.turnIndex = c.messages.length := by
  obtain ⟨-, row, hrow, -, rfl⟩ := loadContext_ok.1 hload
  obtain ⟨hn, hview, hturn⟩ := h.present row hrow
  have hsame : row.decoded.messages = row.messages := map_stripped_of_normal hn
  rw [hrow, hsame]
  exact ⟨rfl, hn, hview, hturn⟩

/-- Saving a loaded context with the messages it was loaded with. -/
theorem Store.MessagesRead.put {c d : AgentContextSnapshot} (h : s.MessagesRead (strip runId))
    (hload : s.loadContext runId = .ok (some c)) (hrun : d.runId = c.runId) (hm : d.messages = c.messages)
    (ht : d.turnIndex = c.turnIndex) (hc : s'.agentContexts = s.agentContexts.put d)
    (hj : (s'.journal (strip runId)).messages = (s.journal (strip runId)).messages) :
    s.StillRead s' (strip runId) := by
  obtain ⟨hrow, hn, hview, hturn⟩ := h.loaded hload
  have hget : s'.agentContexts.get (strip runId) = some d := by
    rw [hc]
    exact get_put_context hload hrun
  refine ⟨messagesRead_some hget (hm ▸ hn) ?_ ?_, hj, ?_⟩
  · rw [hm, hj]
    exact hview
  · rw [ht, hm]
    exact hturn
  · rw [hget, hrow, Option.map_some, hm]

/-! ## The parts -/

theorem PlanEdit.messages {now : Time} {payload : EventPayload} {entityType entityId : String}
    {g : PlannerState → Except PyError PlannerState} (h : PlanEdit now o runId payload entityType entityId g)
    (j : Journal) : (j.read (s.newEvent amb runId payload entityType entityId)).messages = j.messages := by
  cases h <;> rfl

theorem PendingCleared.stillRead {a : ToolResult} {es : ExecutionStatus} (h : PendingCleared amb a es s s')
    (hread : s.MessagesRead (strip a.runId)) : s.StillRead s' (strip a.runId) := by
  cases h with
  | off => exact .refl hread
  | absent => exact .refl hread
  | dropped c ids hcl hc hin hids hsave =>
    refine hread.put hc (d := { c with
      pendingExecutionIds := ids, pendingExecutionId := ids.getLast?, updatedAt := amb.now }) rfl rfl rfl rfl ?_
    rw [journal_putContext, journal_newEvent]
    rfl

/-- An act that is no start leaves the messages. -/
theorem Act.stillRead (h : Act cfg amb o runId s owed s') (ho : ∀ a, o ≠ .startRun a)
    (hread : s.MessagesRead (strip runId)) : s.StillRead s' (strip runId) := by
  cases h with
  | idle hrun => exact .refl hread
  | created a => exact absurd rfl (ho a)
  | replanned a => exact absurd rfl (ho a)
  | edited st st' out hedit hload hst hout =>
    refine hread.of_eq rfl ?_
    rw [journal_putPlan, journal_newEvent, hedit.messages]
  | intended a st st' out c hknown hload hst hout hctx hblank hsaved =>
    refine hread.put hctx (d := c.awaiting amb a.executionId) rfl rfl rfl hsaved.agentContexts ?_
    rw [hsaved.journal]
    unfold Store.intentLogged
    simp only [journal_putContext, journal_newEvent, journal_putPlan]
    rfl
  | dispatched runId e row hfound hrun hparent hmoves =>
    refine hread.of_eq rfl ?_
    rw [journal_putResult, journal_newEvent]
    rfl
  | resulted a rs es cached record hparent hrs hes hget hcheck hrecord hcleared =>
    have hfront : s.StillRead ((s.addEvent (s.newEvent amb a.runId
        (.externalResultRecorded rs es record.toolName record.operationType record.planItemId
          a.responsePayload.isSome a.errorMessage) "external_result" a.executionId)).putResult
        (s.rowOf amb record)) (strip a.runId) := by
      refine hread.of_eq rfl ?_
      rw [journal_putResult, journal_newEvent]
      rfl
    exact hfront.trans (hcleared.stillRead hfront.read)

theorem Settled.stillRead (h : Settled amb runId s owed s') (hread : s.MessagesRead (strip runId)) :
    s.StillRead s' (strip runId) := by
  cases h with
  | same => exact .refl hread
  | synced st c hload =>
    refine hread.put hload (d := c.synced amb st) rfl rfl rfl rfl ?_
    rw [journal_putContext, journal_newEvent]
    rfl

theorem Checkpointed.stillRead (h : Checkpointed amb runId s s') (hread : s.MessagesRead (strip runId)) :
    s.StillRead s' (strip runId) := by
  have hj := h.journal
  cases h with
  | none => exact .refl hread
  | bare cp => exact hread.of_eq rfl (by rw [hj])
  | withContext cp c hrun hseq hc hsave =>
    exact hread.put hc (d := { c with lastCheckpointSeq := some (cp.seqId : ℤ), updatedAt := amb.now })
      rfl rfl rfl rfl (by rw [hj])

/-- The message of an operation is appended as it was passed in. -/
theorem Spoken.messagesRead (h : Spoken amb o s s') (hrun : o.run = some runId)
    (hm : ∀ m, o.message = some m → Trimmed m.role ∧ Trimmed m.content)
    (hread : s.MessagesRead (strip runId)) :
    s'.MessagesRead (strip runId) ∧ (s'.journal (strip runId)).messages =
      (s.journal (strip runId)).messages ++ (o.message.map ContextMessage.view).toList := by
  cases h with
  | silent hnone =>
    rw [hnone]
    exact ⟨hread, (List.append_nil _).symm⟩
  | said m c hsome hload hdec =>
    rw [FacadeOp.message_run hsome] at hrun
    cases hrun
    obtain ⟨hrole, hcontent⟩ := hm m hsome
    obtain ⟨-, hn, hview, hturn⟩ := hread.loaded hload
    have hj : ((s.addEvent (s.newEvent amb m.runId
        (.contextMessageAppended m.role m.content (m.metadata.getD []) m.name m.toolCallId)
        "context" m.runId)).putContext (c.told amb m)).journal (strip m.runId) =
        { s.journal (strip m.runId) with messages := (s.journal (strip m.runId)).messages ++ [m.view] } := by
      rw [journal_putContext, journal_newEvent]
      rfl
    refine ⟨messagesRead_some (c := c.told amb m) (get_put_context hload rfl) ?_ ?_ ?_, ?_⟩
    · intro x hx
      rcases List.mem_append.1 hx with hx | hx
      · exact hn x hx
      · cases List.mem_singleton.1 hx
        unfold AgentMessage.Normal AgentMessage.stripped
        rw [show strip (m.stored amb).role = (m.stored amb).role from hrole,
          show strip (m.stored amb).content = (m.stored amb).content from hcontent]
    · rw [hj]
      show (c.messages ++ [m.stored amb]).map AgentMessage.view = _
      rw [List.map_append, hview]
      rfl
    · show c.turnIndex + 1 = ((c.messages ++ [m.stored amb]).length : ℤ)
      rw [hturn, List.length_append, List.length_singleton]
      push_cast
      rfl
    · rw [hj, hsome]
      rfl

/-- The message a dictionary is checked as. -/
def RawMessage.drafted (m : RawMessage) (now : Time) : AgentMessage :=
  { role := m.role
    content := m.content
    name := m.name
    toolCallId := m.toolCallId
    metadata := m.metadata.getD []
    createdAt := m.createdAt.getD now }

/-- Stripped initial messages are stored as they are. -/
theorem decoded_initial {now : Time} {msgs : List RawMessage} {messages : List AgentMessage}
    (h : msgs.mapM (RawMessage.decode now) = .ok messages) (ht : ∀ m ∈ msgs, Trimmed m.role ∧ Trimmed m.content) :
    (∀ m ∈ messages, m.Normal) ∧ messages.map AgentMessage.view = msgs.map RawMessage.view := by
  have hdecode : ∀ (m : RawMessage) (m' : AgentMessage), m.decode now = .ok m' ↔ AgentMessage.Decodes (m.drafted now) ∧
      m' = AgentMessage.stripped (m.drafted now) := fun m m' => fromDict_message_ok _ _
  obtain ⟨-, rfl⟩ := (mapM_ok hdecode).1 h
  have hstripped : ∀ m ∈ msgs, (m.drafted now).stripped = m.drafted now := by
    intro m hm
    obtain ⟨hrole, hcontent⟩ := ht m hm
    unfold AgentMessage.stripped
    rw [show strip (m.drafted now).role = (m.drafted now).role from hrole,
      show strip (m.drafted now).content = (m.drafted now).content from hcontent]
  refine ⟨fun x hx => ?_, ?_⟩
  · obtain ⟨m, hm, rfl⟩ := List.mem_map.1 hx
    rw [hstripped m hm]
    exact hstripped m hm
  · rw [List.map_map]
    refine List.map_congr_left fun m hm => ?_
    show (m.drafted now).stripped.view = m.view
    rw [hstripped m hm]
    rfl

/-- A fresh context has the initial messages. -/
theorem created_messagesRead {a : StartRun} {x : PlannerState} {messages : List AgentMessage}
    (hrun : Trimmed a.runId) (hmsgs : a.initialMessages.mapM (RawMessage.decode amb.now) = .ok messages)
    (ht : ∀ m ∈ a.initialMessages, Trimmed m.role ∧ Trimmed m.content) :
    ((s.planStarted amb a x).putContext (freshContext amb a.runId messages a.initialMemory)).MessagesRead
        (strip a.runId) ∧
      (((s.planStarted amb a x).putContext (freshContext amb a.runId messages a.initialMemory)).journal
        (strip a.runId)).messages = a.initialMessages.map RawMessage.view := by
  have hj : (((s.planStarted amb a x).putContext
      (freshContext amb a.runId messages a.initialMemory)).journal (strip a.runId)).messages =
        a.initialMessages.map RawMessage.view := by
    unfold Store.planStarted
    simp only [journal_putContext, journal_newEvent, journal_putPlan]
    rfl
  obtain ⟨hn, hview⟩ := decoded_initial hmsgs ht
  refine ⟨messagesRead_some (c := freshContext amb a.runId messages a.initialMemory) ?_ hn ?_ rfl, hj⟩
  · rw [show strip a.runId = (freshContext amb a.runId messages a.initialMemory).runId from hrun]
    exact Table.get_put_self _ _
  · rw [hj]
    exact hview

theorem transcript_of_not_start (h : ∀ a, o ≠ .startRun a) (said : List MessageView) :
    o.transcript s k said = match o.message with
      | some m => if strip m.runId = k then said ++ [m.view] else said
      | none => said := by
  cases o with
  | startRun a => exact absurd rfl (h a)
  | _ => rfl

/-- What the parts of an operation do to the messages of its run. -/
structure Recounted (o : FacadeOp) (s s' : Store) (k : String) : Prop where
  read : s'.MessagesRead k
  journal : (s'.journal k).messages = o.transcript s k (s.journal k).messages
  rows : o.message = none → o.initialises s = false →
    (s'.agentContexts.get k).map AgentContextSnapshot.messages =
      (s.agentContexts.get k).map AgentContextSnapshot.messages

/-- An operation that starts no run appends its message, if it has one. -/
theorem Parts.appends (h : Parts cfg amb o runId s s') (ho : ∀ a, o ≠ .startRun a)
    (hm : ∀ m, o.message = some m → Trimmed m.role ∧ Trimmed m.content)
    (hread : s.MessagesRead (strip runId)) : Recounted o s s' (strip runId) := by
  obtain ⟨owed, s1, s2, s3, hact, hspoken, hsettled, hcp⟩ := h
  have hrun := hact.run
  have hacted := hact.stillRead ho hread
  obtain ⟨hsaid, hjournal⟩ := hspoken.messagesRead hrun hm hacted.read
  have hsettle := hsettled.stillRead hsaid
  have hback := hsettle.trans (hcp.checkpointed.stillRead hsettle.read)
  refine ⟨hback.read, ?_, fun hnone _ => ?_⟩
  · rw [hback.journal, hjournal, hacted.journal, transcript_of_not_start ho]
    cases hmsg : o.message with
    | none => exact List.append_nil _
    | some m =>
      rw [FacadeOp.message_run hmsg] at hrun
      cases hrun
      exact (if_pos rfl).symm
  · rw [hback.rows]
    cases hspoken with
    | said m c hsome => rw [hnone] at hsome; cases hsome
    | silent => exact hacted.rows

/-- A start of a run that goes through initialises its messages. -/
theorem Parts.initialises {a : StartRun} (h : Parts cfg amb (.startRun a) runId s s') (hrun : Trimmed a.runId)
    (hinit : (FacadeOp.startRun a).initialises s = true →
      ∀ m ∈ a.initialMessages, Trimmed m.role ∧ Trimmed m.content)
    (hk : s.Tracked (strip runId)) : Recounted (.startRun a) s s' (strip runId) := by
  obtain ⟨owed, s1, s2, s3, hact, hspoken, hsettled, hcp⟩ := h
  cases hspoken with
  | said m c hm => cases hm
  | silent =>
    cases hact with
    | idle _ hrest => cases hrest
    | edited st st' out hedit => cases hedit
    | replanned _ st out c hst hout hplan hctx =>
      obtain ⟨-, crow, hcrow, -⟩ := loadContext_ok.1 hctx
      have htogether := hk.together
      rw [hcrow, (loadPlan_none.1 hplan).2] at htogether
      cases htogether
    | created _ st out messages hst hout hmsgs hdec hcase =>
      have hfresh : (FacadeOp.startRun a).initialises s = true := by
        show (a.forceReset || match s.loadPlan a.runId with | .ok none => true | _ => false) = true
        rcases hcase with hforce | hnone
        · rw [hforce]
          rfl
        · have hplan : s.loadPlan a.runId = .ok none := by
            refine loadPlan_none.2 ⟨hdec.runId, ?_⟩
            have htogether := hk.together
            rw [loadContext_none hnone] at htogether
            simpa using htogether
          rw [hplan, Bool.or_true]
      obtain ⟨hread, hjournal⟩ := created_messagesRead (s := s) (x := st) hrun hmsgs (hinit hfresh)
      have hsettle := hsettled.stillRead hread
      have hback := hsettle.trans (hcp.checkpointed.stillRead hsettle.read)
      refine ⟨hback.read, ?_, fun _ hnot => ?_⟩
      · rw [hback.journal, hjournal]
        exact (if_pos ⟨rfl, hfresh⟩).symm
      · rw [hfresh] at hnot
        cases hnot

theorem Parts.recounted (h : Parts cfg amb o runId s s') (hspeaks : o.SpeaksStripped s)
    (hstart : ∀ a, o = .startRun a → Trimmed a.runId) (hk : s.Tracked (strip runId))
    (hread : s.MessagesRead (strip runId)) : Recounted o s s' (strip runId) := by
  cases o with
  | startRun a => exact h.initialises (hstart a rfl) (hspeaks.initial a rfl) hk
  | _ => exact h.appends (by nofun) hspeaks.message hread

/-- What an operation of one run says to another. -/
theorem transcript_beside (hrun : o.run = some runId) (hk : strip runId ≠ k) (said : List MessageView) :
    o.transcript s k said = said := by
  cases o with
  | startRun a =>
    cases hrun
    exact if_neg fun h => hk h.1
  | recordContextMessage a =>
    cases hrun
    exact if_neg hk
  | recordLlmTurn a =>
    cases hrun
    exact if_neg hk
  | _ => rfl

theorem transcript_skips (h : o.Skips s) (said : List MessageView) : o.transcript s k said = said := by
  cases o with
  | startRun a =>
    obtain ⟨hforce, ⟨st, hplan⟩, -⟩ := h.resumed a rfl
    have hnot : (FacadeOp.startRun a).initialises s = false := by
      show (a.forceReset || match s.loadPlan a.runId with | .ok none => true | _ => false) = false
      rw [hforce, hplan]
      rfl
    refine if_neg fun hboth => ?_
    rw [hnot] at hboth
    cases hboth.2
  | recordContextMessage a => cases h.message
  | recordLlmTurn a => cases h.message
  | _ => rfl

/-- The transcripts of all runs, and the rows behind them. -/
structure Store.Transcribed (s : Store) : Prop where
  sound : s.Sound
  tracked : ∀ k, s.Tracked k
  read : ∀ k, s.MessagesRead k

theorem transcribed_empty : ({} : Store).Transcribed :=
  ⟨sound_empty, tracked_empty, fun _ => ⟨fun _ => rfl, fun _ h => nomatch h⟩⟩

/-- One operation: rows read, the log tells what was passed in, other rows stay. -/
theorem transcribed_exec {r : o.Res} (hs : s.Transcribed) (ho : o.SpeaksStripped s)
    (hx : o.exec cfg amb s = .ok (r, s')) :
    s'.Transcribed ∧ (∀ k, (s'.journal k).messages = o.transcript s k (s.journal k).messages) ∧
      (o.message = none → o.initialises s = false → MessagesKept s s') := by
  rcases exec_parts hx with ⟨rfl, hskips⟩ | ⟨runId, hrun, hparts⟩
  · exact ⟨hs, fun k => (transcript_skips hskips _).symm, fun _ _ _ => rfl⟩
  · have hstart := hparts.start_trimmed ho.resets (hs.tracked _).together
    have hall : ∀ k, Recounted o s s' k := by
      intro k
      by_cases hk : strip runId = k
      · subst hk
        exact hparts.recounted ho hstart (hs.tracked _) (hs.read _)
      · have hb := hparts.beside hstart hk
        refine ⟨((hs.read k).of_eq hb.context (by rw [hb.journal])).read, ?_, fun _ _ => by rw [hb.context]⟩
        rw [hb.journal, transcript_beside hrun hk]
    exact ⟨⟨(exec_kept hx).sound hs.sound, tracked_parts hparts ho.resets hs.tracked, fun k => (hall k).read⟩,
      fun k => (hall k).journal, fun hnone hinit k => (hall k).rows hnone hinit⟩

theorem told_transcribed {said : String → List MessageView}
    (h : Told cfg FacadeOp.SpeaksStripped s said) :
    s.Transcribed ∧ ∀ k, (s.journal k).messages = said k := by
  induction h with
  | start => exact ⟨transcribed_empty, fun _ => rfl⟩
  | @step s s' said amb o r h ho hx ih =>
    obtain ⟨hs, hsaid⟩ := ih
    obtain ⟨hs', hjournal, -⟩ := transcribed_exec hs ho hx
    exact ⟨hs', fun k => (hjournal k).trans (by rw [hsaid k])⟩

end

/-- **The transcript is faithful.**  While what becomes a message has stripped role and content
(and resets a stripped run id), the messages of a run are those passed in since it was
initialised, in order, as its events hold them; an operation without a message leaves all rows
of messages unchanged. -/
theorem transcript_faithful (cfg : LoggingServiceConfig) (s : Store) (said : String → List MessageView)
    (h : Told cfg FacadeOp.SpeaksStripped s said) :
    (∀ runId, blank runId = false → s.Recounts runId (said (strip runId))) ∧
    ∀ amb o r s', FacadeOp.SpeaksStripped s o → o.exec cfg amb s = .ok (r, s') → o.message = none →
      o.initialises s = false → MessagesKept s s' := by
  obtain ⟨hs, hsaid⟩ := told_transcribed h
  refine ⟨fun runId hr => ⟨hsaid _, ?_⟩, fun amb o r s' ho hx => (transcribed_exec hs ho hx).2.2⟩
  have hload := loadContext_run hs.sound hr
  have hread := hs.read (strip runId)
  cases hc : s.agentContexts.get (strip runId) with
  | none =>
    rw [hc] at hload
    exact ⟨none, hload, fun _ => (hsaid _).symm.trans (hread.absent hc), (fun _ hsome => nomatch hsome)⟩
  | some c =>
    rw [hc] at hload
    obtain ⟨hn, hview, hturn⟩ := hread.present c hc
    have hsame : c.decoded.messages = c.messages := map_stripped_of_normal hn
    refine ⟨some c.decoded, hload, (fun hnone => nomatch hnone), ?_⟩
    rintro _ ⟨⟩
    rw [hsame]
    exact ⟨hview.trans (hsaid _), hturn⟩

/-! ## With and without padding -/

/-- A run is started and a user message recorded. -/
def chatOps (content : String) : List FacadeOp :=
  [.startRun tripRun, .recordContextMessage { runId := "trip", role := "user", content := content }]

/-- The contents in the row of the trip, and those a load gives. -/
def contentsAfter (os : List FacadeOp) : Option (List String × List String) :=
  match execAll os {} with
  | .error _ => none
  | .ok s => match s.agentContexts.get "trip", s.loadContext "trip" with
    | some row, .ok (some c) =>
      some (row.messages.map AgentMessage.content, c.messages.map AgentMessage.content)
    | _, _ => none

/-- A padded content: stored as passed in, loaded without padding, and rewritten by a checkpoint. -/
theorem padded_content_rewritten :
    contentsAfter (chatOps " hi ") = some ([" hi "], ["hi"]) ∧
    contentsAfter (chatOps " hi " ++ [.checkpoint "trip" "agent_context" false]) = some (["hi"], ["hi"]) := by
  decide +kernel

theorem execAll_told {allowed : Store → FacadeOp → Prop} {os : List FacadeOp}
    (hos : ∀ o ∈ os, ∀ s, allowed s o) {s s' : Store} {said : String → List MessageView}
    (h : Told {} allowed s said) (hx : execAll os s = .ok s') : ∃ said', Told {} allowed s' said' := by
  induction os generalizing s said with
  | nil =>
    cases hx
    exact ⟨said, h⟩
  | cons o os ih =>
    unfold execAll at hx
    rw [except_bind_ok] at hx
    obtain ⟨⟨r, s1⟩, h1, h2⟩ := hx
    exact ih (fun o' ho' => hos o' (List.mem_cons_of_mem _ ho')) (h.step (hos o List.mem_cons_self s) h1) h2

/-- Without padding, the message of the trip is what was said. -/
theorem transcript_faithful_chat : ∃ (s : Store) (said : String → List MessageView),
    execAll (chatOps "hi") {} = .ok s ∧ s.Recounts "trip" (said (strip "trip")) := by
  obtain ⟨s, hs⟩ : ∃ s, execAll (chatOps "hi") {} = .ok s := except_ok_of_toBool (by decide +kernel)
  have hos : ∀ o ∈ chatOps "hi", ∀ s, FacadeOp.SpeaksStripped s o := by
    intro o ho s
    unfold chatOps at ho
    simp only [List.mem_cons, List.not_mem_nil, or_false] at ho
    rcases ho with rfl | rfl
    · refine ⟨fun a ha _ => ?_, (fun m hm => nomatch hm), fun a ha _ m hm => ?_⟩
      · cases ha
        exact trimmed_trip
      · cases ha
        cases hm
    · refine ⟨by nofun, fun m hm => ?_, by nofun⟩
      cases hm
      refine ⟨?_, ?_⟩ <;> decide +kernel
  obtain ⟨said, htold⟩ := execAll_told hos .start hs
  exact ⟨s, said, hs, (transcript_faithful {} s said htold).1 "trip" (by decide +kernel)⟩

end Raef
