import Raef.Model.Audit
import Raef.Proofs.Passes
import Raef.Proofs.Script
import Raef.Proofs.Total

/-!
# The audit of a run

What `cmdAudit` checks is an invariant of every pool of calls: pending ids have
open records of their run, intents have records, checkpoints point at events.
It is broken by one thing only: a run id with white space at its ends that both
resets a run and executes tools.  The reset leaves a context row under the padded
id, and the record written under it belongs to no run that lists it.

    Audited s ⇒ cmdAudit reports no violation            (Audited.reports)
    every operation of a call keeps `Audited`            (audited_op)
    no run id is padded, reset and executed ⇒ no violation  (audit_clean)
-/

namespace Raef

open Text Txn Program

/-! ## What an operation leaves alone -/

/-- The checkpoint points at an event of its run. -/
def WalCheckpoint.Anchored (cp : WalCheckpoint) (events : List WalEvent) : Prop :=
  ∃ ev ∈ events, ev.runId = cp.runId ∧ ev.seqId = cp.seqId

/-- Records stay, no intent is added, pending lists stay or are emptied, new
checkpoints are anchored; a new context row is under an id of `New`. -/
structure Quiet (New : String → Prop) (s s' : Store) : Prop where
  kept : Kept s s'
  results : s'.externalResults = s.externalResults
  log : s.walEvents <+: s'.walEvents
  intents : ∀ ev ∈ s'.walEvents, ev.payload.type = .toolIntentRecorded → ev ∈ s.walEvents
  contexts : ∀ k c', s'.agentContexts.get k = some c' →
    (New k ∧ c'.pendingExecutionIds = [] ∧ c'.pendingExecutionId = none) ∨
      ∃ c, s.agentContexts.get k = some c ∧ (c.PendingNormal → c'.PendingNormal ∧
        (c'.pendingExecutionIds = [] ∨ c'.pendingExecutionIds = c.pendingExecutionIds))
  checkpoints : ∀ cp ∈ s'.walCheckpoints, cp ∈ s.walCheckpoints ∨ cp.Anchored s'.walEvents

theorem WalCheckpoint.Anchored.mono {cp : WalCheckpoint} {l l' : List WalEvent} (h : cp.Anchored l)
    (hp : l <+: l') : cp.Anchored l' := by
  obtain ⟨ev, hev, h1⟩ := h
  exact ⟨ev, hp.subset hev, h1⟩

theorem pendingNormal_nil {c : AgentContextSnapshot} (h : c.pendingExecutionIds = [])
    (h' : c.pendingExecutionId = none) : c.PendingNormal := by
  refine ⟨?_, ?_, .inl h'⟩
  · rw [h]
    intro e he
    cases he
  · rw [h]
    exact List.nodup_nil

section
variable {New : String → Prop} {s s' s'' : Store}

theorem Quiet.of_contexts (hk : Kept s s') (hr : s'.externalResults = s.externalResults)
    (hl : s'.walEvents = s.walEvents) (hc : s'.walCheckpoints = s.walCheckpoints)
    (hx : ∀ k c', s'.agentContexts.get k = some c' →
      (New k ∧ c'.pendingExecutionIds = [] ∧ c'.pendingExecutionId = none) ∨
        ∃ c, s.agentContexts.get k = some c ∧ (c.PendingNormal → c'.PendingNormal ∧
          (c'.pendingExecutionIds = [] ∨ c'.pendingExecutionIds = c.pendingExecutionIds))) :
    Quiet New s s' :=
  ⟨hk, hr, hl ▸ List.prefix_refl _, fun _ hev _ => hl ▸ hev, hx, fun _ hcp => .inl (hc ▸ hcp)⟩

theorem contexts_same (heq : s'.agentContexts = s.agentContexts) (k : String) (c' : AgentContextSnapshot)
    (h : s'.agentContexts.get k = some c') :
    (New k ∧ c'.pendingExecutionIds = [] ∧ c'.pendingExecutionId = none) ∨
      ∃ c, s.agentContexts.get k = some c ∧ (c.PendingNormal → c'.PendingNormal ∧
        (c'.pendingExecutionIds = [] ∨ c'.pendingExecutionIds = c.pendingExecutionIds)) :=
  .inr ⟨c', heq ▸ h, fun hn => ⟨hn, .inr rfl⟩⟩

theorem Quiet.refl (s : Store) : Quiet New s s := .of_contexts (.refl s) rfl rfl rfl (contexts_same rfl)

theorem Quiet.trans (h : Quiet New s s') (h' : Quiet New s' s'') : Quiet New s s'' := by
  refine ⟨h.kept.trans h'.kept, h'.results.trans h.results, h.log.trans h'.log,
    fun ev hev ht => h.intents ev (h'.intents ev hev ht) ht, fun k c'' hc'' => ?_, fun cp hcp => ?_⟩
  · rcases h'.contexts k c'' hc'' with hnew | ⟨c', hc', hn'⟩
    · exact .inl hnew
    · rcases h.contexts k c' hc' with ⟨hnew, hids, hid⟩ | ⟨c, hc, hn⟩
      · obtain ⟨hnormal, hsame⟩ := hn' (pendingNormal_nil hids hid)
        have hempty : c''.pendingExecutionIds = [] := by
          rcases hsame with hsame | hsame
          · exact hsame
          · exact hsame.trans hids
        refine .inl ⟨hnew, hempty, ?_⟩
        rcases hnormal.last with hl | hl
        · exact hl
        · rw [hl, hempty]
          rfl
      · refine .inr ⟨c, hc, fun hnormal => ?_⟩
        obtain ⟨h1, h2⟩ := hn hnormal
        obtain ⟨h3, h4⟩ := hn' h1
        refine ⟨h3, ?_⟩
        rcases h4 with h4 | h4
        · exact .inl h4
        · rcases h2 with h2 | h2
          · exact .inl (h4.trans h2)
          · exact .inr (h4.trans h2)
  · rcases h'.checkpoints cp hcp with hcp | hcp
    · rcases h.checkpoints cp hcp with hcp | hcp
      · exact .inl hcp
      · exact .inr (hcp.mono h'.log)
    · exact .inr hcp

theorem quiet_addEvent {ev : WalEvent} (hev : ev.payload.type ≠ .toolIntentRecorded) :
    Quiet New s (s.addEvent ev) := by
  refine ⟨kept_addEvent _ _, rfl, List.prefix_append _ _, fun ev' hev' ht => ?_, contexts_same rfl,
    fun cp hcp => .inl hcp⟩
  rcases List.mem_append.1 hev' with hev' | hev'
  · exact hev'
  · cases List.mem_singleton.1 hev'
    exact absurd ht hev

theorem quiet_putPlan {st st' : PlannerState} (h : st.fromDict = .ok st') : Quiet New s (s.putPlan st) :=
  .of_contexts (kept_putPlan _ h) rfl rfl rfl (contexts_same rfl)

/-- Saving a loaded context with the pending list it was loaded with. -/
theorem quiet_putContext {r : String} {c c' d : AgentContextSnapshot} (hd : c'.fromDict = .ok d)
    (hc : s.loadContext r = .ok (some c)) (hrun : c'.runId = c.runId)
    (hids : c'.pendingExecutionIds = c.pendingExecutionIds)
    (hid : c'.pendingExecutionId = c.pendingExecutionId) : Quiet New s (s.putContext c') := by
  refine .of_contexts (kept_putContext _ hd) rfl rfl rfl fun k x hx => ?_
  rw [Store.putContext_agentContexts, Table.get_put] at hx
  split at hx
  · next hk =>
    cases hx
    have hkey : k = strip r := by rw [hk, hrun, loadContext_runId hc]
    obtain ⟨-, row, hrow, -, rfl⟩ := loadContext_ok.1 hc
    refine .inr ⟨row, hkey ▸ hrow, fun hn => ?_⟩
    have hdec := hn.decoded
    have hsame := hids.trans hn.decoded_ids
    exact ⟨⟨hids ▸ hdec.texts, hids ▸ hdec.nodup, by rw [hids, hid]; exact hdec.last⟩, .inr hsame⟩
  · exact .inr ⟨x, hx, fun hn => ⟨hn, .inr rfl⟩⟩

end

/-! ## Operations that leave records and pending lists alone -/

section
variable {New : String → Prop} {cfg : LoggingServiceConfig} {amb : Ambient} {runId : String} {s s' : Store}

theorem quiet_addCheckpoint {cp : WalCheckpoint} (h : cp.Anchored s.walEvents) :
    Quiet New s (s.addCheckpoint cp) := by
  refine ⟨kept_addCheckpoint _ _, rfl, List.prefix_refl _, fun _ hev _ => hev, contexts_same rfl,
    fun cp' hcp' => ?_⟩
  rcases List.mem_append.1 hcp' with hcp' | hcp'
  · exact .inl hcp'
  · cases List.mem_singleton.1 hcp'
    exact .inr h

theorem anchored_of_latest {cp : WalCheckpoint} (hrun : cp.runId = strip runId)
    (hseq : s.latestWalSeq runId = .ok (some cp.seqId)) : cp.Anchored s.walEvents := by
  obtain ⟨ev, hev, h1, h2⟩ := event_of_latest hseq
  exact ⟨ev, hev, h1.trans hrun.symm, h2⟩

theorem Checkpointed.quiet (h : Checkpointed amb runId s s') : Quiet New s s' := by
  cases h with
  | none => exact .refl _
  | bare cp hrun hseq =>
    exact (quiet_addCheckpoint (anchored_of_latest hrun hseq)).trans (quiet_addEvent (by nofun))
  | withContext cp c hrun hseq hc hsave =>
    obtain ⟨c', hsave⟩ := hsave
    exact (quiet_addCheckpoint (anchored_of_latest hrun hseq)).trans <|
      (quiet_putContext (s := s.addCheckpoint cp) hsave hc rfl rfl rfl).trans (quiet_addEvent (by nofun))

theorem Closed.quiet (h : Closed cfg amb runId s s') : Quiet New s s' := h.checkpointed.quiet

/-- An event of the facade that is not an intent. -/
theorem quiet_newEvent {payload : EventPayload} {entityType entityId : String}
    (h : payload.type ≠ .toolIntentRecorded) :
    Quiet New s (s.addEvent (s.newEvent amb runId payload entityType entityId)) :=
  quiet_addEvent h

theorem updatePlan_quiet {f : PlannerState → Except PyError PlannerState} {r : PlannerState}
    (h : updatePlan amb runId f s = .ok (r, s')) : Quiet New s s' := by
  obtain ⟨st, st', -, -, -, hst, rfl⟩ := updatePlan_saved h
  exact quiet_putPlan hst

theorem appendMessage_quiet {role content : String} {metadata : Option JsonObject}
    {name toolCallId : Option String} {r : AgentContextSnapshot}
    (h : appendMessage amb runId role content metadata name toolCallId s = .ok (r, s')) : Quiet New s s' := by
  obtain ⟨c, c', hc, hf, hsave, rfl⟩ := updateContext_saved h
  unfold appendMessageState at hf
  simp only [except_bind_ok, except_pure_ok] at hf
  obtain ⟨_, -, rfl⟩ := hf
  exact quiet_putContext hsave hc rfl rfl rfl

theorem syncContextWithPlanner_quiet {st : PlannerState} {u : Unit}
    (h : syncContextWithPlanner amb runId st s = .ok (u, s')) : Quiet New s s' := by
  obtain ⟨c, hc, ⟨c', hsave⟩, rfl⟩ := syncContextWithPlanner_ok h
  exact .trans (quiet_newEvent (by nofun)) (quiet_putContext hsave hc rfl rfl rfl)

theorem initContext_quiet {msgs : List RawMessage} {mem : Option JsonObject} {force : Bool}
    {r : AgentContextSnapshot} (h : initContext amb runId msgs mem force s = .ok (r, s'))
    (hnew : force = true ∨ s.loadContext runId = .ok none → New runId) : Quiet New s s' := by
  rcases initContext_ok h with ⟨-, -, rfl⟩ | ⟨messages, hcase, -, hsave, rfl⟩
  · exact .refl _
  · refine .of_contexts (kept_putContext _ hsave) rfl rfl rfl fun k x hx => ?_
    rw [Store.putContext_agentContexts, Table.get_put] at hx
    split at hx
    · next hk =>
      cases hx
      exact .inl ⟨hk ▸ hnew hcase, rfl, rfl⟩
    · exact contexts_same rfl k x hx

/-- The context a fresh run synchronises is under the stripped id: a new one without
reset is only saved for a stripped id. -/
theorem startFresh_quiet {a : StartRun} {r : RunProjections} (h : startFresh cfg amb a s = .ok (r, s')) :
    Quiet (fun k => k = a.runId ∧ (a.forceReset = true ∨ Trimmed k)) s s' := by
  obtain ⟨st, s1, s2, s3, -, -, -, hst, rfl, rfl, h1, s4, h2, h3⟩ := startFresh_ok h
  refine (quiet_newEvent (by nofun)).trans <| (quiet_newEvent (by nofun)).trans <| (quiet_putPlan hst).trans <|
    (quiet_newEvent (by nofun)).trans <| (initContext_quiet h1 fun hcase => ⟨rfl, ?_⟩).trans <|
    (syncContextWithPlanner_quiet h2).trans h3.quiet
  refine hcase.imp_right fun hnone => ?_
  obtain ⟨c, hc, -⟩ := syncContextWithPlanner_ok h2
  obtain ⟨-, row, hrow, -, -⟩ := loadContext_ok.1 hc
  rcases initContext_ok h1 with ⟨hsome, -, -⟩ | ⟨messages, -, -, -, rfl⟩
  · rw [hnone] at hsome
    cases hsome
  · rw [Store.putContext_agentContexts, Table.get_put] at hrow
    split at hrow
    · next hk => exact hk
    · rw [loadContext_none hnone] at hrow
      cases hrow

/-- Every operation but intents and results, the tool records apart. -/
theorem exec_quiet {o : FacadeOp} (ho : o.plain = true) (hs : ∀ a, o ≠ .startRun a) {r : o.Res}
    (h : o.exec cfg amb s = .ok (r, s')) : Quiet New s s' := by
  cases o with
  | startRun a => exact absurd rfl (hs a)
  | recordContextMessage a =>
    obtain ⟨s1, h1, -, h2⟩ := recordContextMessage_ok h
    exact (quiet_newEvent (by nofun)).trans ((appendMessage_quiet h1).trans h2.quiet)
  | recordLlmTurn a =>
    obtain ⟨s1, s2, s3, -, -, h1, h2, h3, h4⟩ := recordLlmTurn_ok h
    exact (quiet_newEvent (by nofun)).trans <| (updatePlan_quiet h1).trans <|
      (quiet_newEvent (by nofun)).trans <| (appendMessage_quiet h2).trans <|
      (syncContextWithPlanner_quiet h3).trans h4.quiet
  | advancePlanItem a =>
    obtain ⟨s1, s2, -, -, h1, h2, h3⟩ := advancePlanItem_ok h
    exact (quiet_newEvent (by nofun)).trans <| (updatePlan_quiet h1).trans <|
      (syncContextWithPlanner_quiet h2).trans h3.quiet
  | setActivePlanItem runId planItemId =>
    obtain ⟨s1, s2, -, h1, h2, h3⟩ := setActivePlanItem_ok h
    exact (quiet_newEvent (by nofun)).trans <| (updatePlan_quiet h1).trans <|
      (syncContextWithPlanner_quiet h2).trans h3.quiet
  | checkpoint runId snapshotType inc => exact (checkpointLocked_ok h).quiet
  | getExternalResult e => exact (fetch_pair.1 h).2 ▸ .refl _
  | listExternalResults runId => exact (fetch_pair.1 h).2 ▸ .refl _
  | listPendingExecutions runId => exact (fetch_pair.1 h).2 ▸ .refl _
  | loadContext runId => exact (fetch_pair.1 h).2 ▸ .refl _
  | recordToolIntent a => cases ho
  | recordToolDispatch runId e => cases ho
  | recordToolResult a => cases ho

end

/-! ## The invariant -/

/-- What the audit checks, for all runs at once.  Context rows are under stripped
ids, but for the padded ones of `Padded`. -/
structure Audited (Padded : String → Prop) (s : Store) : Prop where
  sound : s.Sound
  contextKeys : ∀ k, (s.agentContexts.get k).isSome → Trimmed k ∨ Padded k
  rowKeys : ∀ k row, s.externalResults.get k = some row → Trimmed k
  rowRuns : ∀ k row, s.externalResults.get k = some row → Trimmed row.runId
  pendingNormal : ∀ k c, s.agentContexts.get k = some c → c.PendingNormal
  pending : ∀ k c, s.agentContexts.get k = some c → ∀ e ∈ c.pendingExecutionIds,
    ∃ row, s.externalResults.get e = some row ∧ row.runId = k ∧ row.executionStatus.terminal = false
  intents : ∀ ev ∈ s.walEvents, ev.payload.type = .toolIntentRecorded → Trimmed ev.entityId ∧
    ∃ row, s.externalResults.get ev.entityId = some row ∧ row.runId = ev.runId
  checkpoints : ∀ cp ∈ s.walCheckpoints, cp.Anchored s.walEvents

section
variable {Padded New : String → Prop} {cfg : LoggingServiceConfig} {amb : Ambient} {s s' : Store}

theorem audited_empty : Audited Padded {} := by
  refine ⟨sound_empty, ?_, ?_, ?_, ?_, ?_, ?_, ?_⟩
  · intro k h
    cases h
  all_goals intro k h
  all_goals first
    | (intro h'; cases h')
    | cases h

theorem Audited.quiet (h : Audited Padded s) (hq : Quiet New s s') (hnew : ∀ k, New k → Trimmed k ∨ Padded k) :
    Audited Padded s' := by
  have hctx : ∀ k c', s'.agentContexts.get k = some c' → (Trimmed k ∨ Padded k) ∧ c'.PendingNormal ∧
      (c'.pendingExecutionIds = [] ∨
        ∃ c, s.agentContexts.get k = some c ∧ c'.pendingExecutionIds = c.pendingExecutionIds) := by
    intro k c' hc'
    rcases hq.contexts k c' hc' with ⟨hk, hids, hid⟩ | ⟨c, hc, hn⟩
    · exact ⟨hnew k hk, pendingNormal_nil hids hid, .inl hids⟩
    · obtain ⟨h1, h2⟩ := hn (h.pendingNormal k c hc)
      exact ⟨h.contextKeys k (by rw [hc]; rfl), h1, h2.imp_right fun h2 => ⟨c, hc, h2⟩⟩
  refine ⟨hq.kept.sound h.sound, ?_, ?_, ?_, fun k c hc => (hctx k c hc).2.1, ?_, ?_, ?_⟩
  · intro k hk
    obtain ⟨c, hc⟩ := Option.isSome_iff_exists.1 hk
    exact (hctx k c hc).1
  · intro k row hrow
    exact h.rowKeys k row (hq.results ▸ hrow)
  · intro k row hrow
    exact h.rowRuns k row (hq.results ▸ hrow)
  · intro k c' hc' e he
    rw [hq.results]
    rcases (hctx k c' hc').2.2 with hnil | ⟨c, hc, hids⟩
    · rw [hnil] at he
      cases he
    · exact h.pending k c hc e (hids ▸ he)
  · intro ev hev ht
    rw [hq.results]
    exact h.intents ev (hq.intents ev hev ht) ht
  · intro cp hcp
    rcases hq.checkpoints cp hcp with hcp | hcp
    · exact (h.checkpoints cp hcp).mono hq.log
    · exact hcp

theorem Audited.quiet' (h : Audited Padded s) (hq : Quiet (fun _ => False) s s') : Audited Padded s' :=
  h.quiet hq fun _ hk => hk.elim

/-- The run id of a context row that is not a padded one. -/
theorem Audited.run (h : Audited Padded s) {r : String} (hr : Padded r → Trimmed r)
    (hsome : (s.agentContexts.get r).isSome) : Trimmed r :=
  (h.contextKeys r hsome).elim id hr

/-! ## Tool operations -/

/-- A store with one record written, none but that of its run: no id is pending that was not, and that of a call
that is over is not. -/
theorem Audited.written {e r : String} {new : ExternalResultRecord} (h : Audited Padded s) (he : Trimmed e)
    (hr : Trimmed r) (hold : ∀ x, s.externalResults.get e = some x → x.runId = r) (hk : Kept s s')
    (hresults : s'.externalResults = s.externalResults.put new) (hkey : new.executionId = e) (hnewrun : new.runId = r)
    (hctx : ∀ k c', s'.agentContexts.get k = some c' → c'.PendingNormal ∧ ∃ c, s.agentContexts.get k = some c ∧
      (∀ x ∈ c'.pendingExecutionIds, x ∈ c.pendingExecutionIds) ∧
      (k = r → new.executionStatus.terminal = true → e ∉ c'.pendingExecutionIds))
    (hcps : s'.walCheckpoints = s.walCheckpoints) (hlog : s.walEvents <+: s'.walEvents)
    (hintents : ∀ ev ∈ s'.walEvents, ev.payload.type = .toolIntentRecorded → ev ∈ s.walEvents) :
    Audited Padded s' := by
  refine ⟨hk.sound h.sound, ?_, ?_, ?_, fun k c hc => (hctx k c hc).1, ?_, ?_, ?_⟩
  · intro k hsome
    obtain ⟨c', hc'⟩ := Option.isSome_iff_exists.1 hsome
    obtain ⟨-, c, hc, -⟩ := hctx k c' hc'
    exact h.contextKeys k (Option.isSome_iff_exists.2 ⟨c, hc⟩)
  · intro k x hx
    rw [hresults, Table.get_put] at hx
    split at hx
    · next hkk => rw [hkk, hkey]; exact he
    · exact h.rowKeys k x hx
  · rw [hresults]
    exact Table.forall_put h.rowRuns (hnewrun ▸ hr)
  · intro k c' hc' e' he'
    obtain ⟨-, c, hc, hsub, hout⟩ := hctx k c' hc'
    obtain ⟨x, hx, hxrun, hxopen⟩ := h.pending k c hc e' (hsub e' he')
    rw [hresults, Table.get_put, hkey]
    split
    · next hee =>
      have hkr : k = r := by rw [← hxrun, hold x (hee ▸ hx)]
      refine ⟨new, rfl, hnewrun.trans hkr.symm, ?_⟩
      cases hterm : new.executionStatus.terminal with
      | false => rfl
      | true => exact absurd (hee ▸ he') (hout hkr hterm)
    · exact ⟨x, hx, hxrun, hxopen⟩
  · intro ev hev ht
    obtain ⟨h2, x, hx, hxrun⟩ := h.intents ev (hintents ev hev ht) ht
    refine ⟨h2, ?_⟩
    rw [hresults, Table.get_put, hkey]
    split
    · next hee =>
      refine ⟨new, rfl, ?_⟩
      rw [hnewrun, ← hxrun]
      exact (hold x (hee ▸ hx)).symm
    · exact ⟨x, hx, hxrun⟩
  · intro cp hcp
    exact (h.checkpoints cp (hcps ▸ hcp)).mono hlog

/-- A dispatch writes an open record over one of the same run. -/
theorem audited_dispatch {runId e : String} {r : ExternalResultRecord} (h : Audited Padded s)
    (hx : recordToolDispatch cfg amb runId e s = .ok (r, s')) : Audited Padded s' := by
  obtain ⟨row, new, hrow, -, hrun, -, -, -, -, hnew, hdec, -, hcp⟩ := recordToolDispatch_ok hx
  have hkey : new.executionId = strip e := by
    rw [hnew]
    show strip row.executionId = _
    rw [Table.key_of_get hrow, strip_strip]
  have hnewrun : new.runId = row.runId := by
    rw [hnew]
    exact h.rowRuns _ row hrow
  have hopen : new.executionStatus.terminal = false := by rw [hnew]; rfl
  refine Audited.quiet' ?_ hcp.quiet
  refine h.written (trimmed_strip e) (h.rowRuns _ row hrow) ?_ ((kept_addEvent _ _).trans (kept_putResult _ hdec))
    rfl hkey hnewrun ?_ rfl (List.prefix_append _ _) fun ev hev ht => mem_of_mem_addEvent hev ht (by nofun)
  · intro x hx
    rw [hrow] at hx
    cases hx
    rfl
  · intro k c hc
    refine ⟨h.pendingNormal k c hc, c, hc, fun _ hx => hx, fun _ hterm => ?_⟩
    rw [hopen] at hterm
    cases hterm

/-- A result without a record to complete names its tool. -/
theorem toolName_of_first {a : ToolResult} {rs : ExternalResultStatus} {es : ExecutionStatus}
    {record : ExternalResultRecord} (h : a.record amb rs es none = .ok record) : a.toolName ≠ none := by
  intro hn
  unfold ToolResult.record at h
  rw [hn] at h
  cases h

theorem clears_of_terminal {a : ToolResult} {es : ExecutionStatus} (hterm : es.terminal = true)
    (hclear : a.clearPending = true) : a.clears es = true := by
  unfold ToolResult.clears
  cases es <;> simp_all [ExecutionStatus.terminal]

/-- The context rows after a result: no new pending id, and a call that is over is not pending. -/
theorem PendingCleared.contexts {a : ToolResult} {es : ExecutionStatus} (h : PendingCleared amb a es s s')
    (hn : ∀ k c, s.agentContexts.get k = some c → c.PendingNormal) (he : Trimmed a.executionId)
    (hr : Trimmed a.runId) (hclear : es.terminal = true → a.clearPending = true) (k : String)
    (c' : AgentContextSnapshot) (hc' : s'.agentContexts.get k = some c') :
    c'.PendingNormal ∧ ∃ c, s.agentContexts.get k = some c ∧
      (∀ x ∈ c'.pendingExecutionIds, x ∈ c.pendingExecutionIds) ∧
      (k = a.runId → es.terminal = true → a.executionId ∉ c'.pendingExecutionIds) := by
  have hsame : s.agentContexts.get k = some c' →
      (k = a.runId → es.terminal = true → a.executionId ∉ c'.pendingExecutionIds) →
      c'.PendingNormal ∧ ∃ c, s.agentContexts.get k = some c ∧
        (∀ x ∈ c'.pendingExecutionIds, x ∈ c.pendingExecutionIds) ∧
        (k = a.runId → es.terminal = true → a.executionId ∉ c'.pendingExecutionIds) :=
    fun hc hout => ⟨hn k c' hc, c', hc, fun _ hx => hx, hout⟩
  cases h with
  | off hoff =>
    refine hsame hc' fun _ hterm => ?_
    rw [clears_of_terminal hterm (hclear hterm)] at hoff
    cases hoff
  | absent c hc hout =>
    refine hsame hc' fun hk _ => ?_
    obtain ⟨-, row, hrow, -, rfl⟩ := loadContext_ok.1 hc
    rw [hr, ← hk, hc'] at hrow
    cases hrow
    rwa [(hn k c' hc').decoded_ids] at hout
  | dropped c ids hcl hc hin hids hsave =>
    rw [Store.putContext_agentContexts, Table.get_put] at hc'
    split at hc'
    · next hk =>
      cases hc'
      have hkey : k = a.runId := by
        rw [hk]
        exact (loadContext_runId hc).trans hr
      obtain ⟨-, row, hrow, -, rfl⟩ := loadContext_ok.1 hc
      rw [hr, ← hkey] at hrow
      have hnormal := hn k row hrow
      have hdec := hnormal.decoded
      rw [he] at hids
      refine ⟨⟨fun x hx => ?_, ?_, .inr rfl⟩, row, hrow, fun x hx => ?_, fun _ _ hx => ?_⟩
      · exact hdec.texts x (List.mem_of_mem_filter (hids ▸ hx))
      · exact hids ▸ hdec.nodup.filter _
      · exact hnormal.decoded_ids ▸ List.mem_of_mem_filter (hids ▸ hx)
      · have := List.of_mem_filter (hids ▸ hx : a.executionId ∈ List.filter _ _)
        simp at this
    · next hk =>
      refine hsame hc' fun hkr _ => absurd ?_ hk
      rw [hkr]
      exact ((loadContext_runId hc).trans hr).symm

/-- The record a result completes is of the run it names. -/
theorem Audited.completed_run {a : ToolResult} {es : ExecutionStatus} {cached : Option ExternalResultRecord}
    (h : Audited Padded s) (he : Trimmed a.executionId) (hget : s.getExternalResult a.executionId = .ok cached)
    (hcheck : a.check es cached = .ok ()) (x : ExternalResultRecord)
    (hx : s.externalResults.get a.executionId = some x) : x.runId = a.runId := by
  have hcached := (getExternalResult_ok.1 hget).2
  rw [he, hx] at hcached
  obtain ⟨-, rfl⟩ := hcached
  unfold ToolResult.check at hcheck
  dsimp only at hcheck
  split at hcheck
  · cases hcheck
  · next hne => exact (h.rowRuns _ x hx).symm.trans (not_not.1 hne)

/-- A result with a status that says whether the call is over. -/
theorem audited_result {a : ToolResult} (he : Trimmed a.executionId)
    (hr : a.toolName ≠ none → Padded a.runId → Trimmed a.runId) {st : ExecutionStatus}
    (hst : a.executionStatus = some st.value) (hclear : st.terminal = true → a.clearPending = true)
    {r : ExternalResultRecord} (h : Audited Padded s) (hx : recordToolResult cfg amb a s = .ok (r, s')) :
    Audited Padded s' := by
  obtain ⟨rs, es, cached, record, new, s1, -, hes, hget, hcheck, hrecord, -, -, hrun, -, hfk, hnew, hdec, -,
    hpc, hcp⟩ := recordToolResult_ok hx
  rw [hst, resolveExecutionStatus_value] at hes
  cases hes
  have hold := h.completed_run he hget hcheck
  have htrim : Trimmed a.runId := by
    cases hg : s.externalResults.get a.executionId with
    | some x => exact hold x hg ▸ h.rowRuns _ x hg
    | none =>
      have hcached := (getExternalResult_ok.1 hget).2
      rw [he, hg] at hcached
      subst hcached
      exact h.run (hr (toolName_of_first hrecord)) hfk
  have hkey : new.executionId = a.executionId := by
    rw [hnew]
    exact (toolResult_record_ok hrecord).1
  have hnewrun : new.runId = a.runId := by
    rw [hnew]
    exact hrun
  have hnewst : new.executionStatus = st := by
    rw [hnew]
    exact (toolResult_record_ok hrecord).2.2.1
  refine Audited.quiet' ?_ hcp.quiet
  refine h.written he htrim hold ((kept_addEvent _ _).trans ((kept_putResult _ hdec).trans hpc.kept))
    hpc.externalResults hkey hnewrun ?_ hpc.walCheckpoints ((List.prefix_append _ _).trans hpc.log)
    fun ev hev ht => mem_of_mem_addEvent (hpc.intents ev hev ht) ht (by nofun)
  rw [hnewst]
  exact hpc.contexts h.pendingNormal he htrim hclear

/-- A store with one more pending id, its open record and its intent event. -/
theorem Audited.intend {e r : String} {row c' : AgentContextSnapshot} {new : ExternalResultRecord}
    (h : Audited Padded s) (he : Trimmed e) (hne : e ≠ "") (hr : Trimmed r)
    (hrow : s.agentContexts.get r = some row) (hnone : s.externalResults.get e = none) (hk : Kept s s')
    (hctx : s'.agentContexts = s.agentContexts.put c') (hrun : c'.runId = r)
    (hids : c'.pendingExecutionIds = addOnce e row.pendingExecutionIds)
    (hid : c'.pendingExecutionId = c'.pendingExecutionIds.getLast?)
    (hresults : s'.externalResults = s.externalResults.put new) (hkey : new.executionId = e)
    (hnewrun : new.runId = r) (hopen : new.executionStatus.terminal = false)
    (hcps : s'.walCheckpoints = s.walCheckpoints) (hlog : s.walEvents <+: s'.walEvents)
    (hintents : ∀ ev ∈ s'.walEvents, ev.payload.type = .toolIntentRecorded →
      ev ∈ s.walEvents ∨ (ev.runId = r ∧ ev.entityId = e)) : Audited Padded s' := by
  have hnormal := h.pendingNormal r row hrow
  have hold : ∀ k x, s.externalResults.get k = some x → s'.externalResults.get k = some x := by
    intro k x hk
    rw [hresults, Table.get_put_ne _ _ _]
    · exact hk
    · rintro rfl
      rw [hkey, hnone] at hk
      cases hk
  have hnew : s'.externalResults.get e = some new := by rw [hresults, ← hkey, Table.get_put_self]
  refine ⟨hk.sound h.sound, ?_, ?_, ?_, ?_, ?_, ?_, ?_⟩
  · intro k hsome
    rw [hctx, Table.get_put] at hsome
    split at hsome
    · next hkk => exact .inl (hkk.trans hrun ▸ hr)
    · exact h.contextKeys k hsome
  · intro k x hx
    rw [hresults, Table.get_put] at hx
    split at hx
    · next hkk => rw [hkk, hkey]; exact he
    · exact h.rowKeys k x hx
  · rw [hresults]
    exact Table.forall_put h.rowRuns (hnewrun ▸ hr)
  · rw [hctx]
    refine Table.forall_put h.pendingNormal ⟨?_, ?_, .inr hid⟩
    · intro x hx
      rw [hids, mem_addOnce] at hx
      rcases hx with hx | rfl
      · exact hnormal.texts x hx
      · exact ⟨he, hne⟩
    · rw [hids]
      exact nodup_addOnce hnormal.nodup
  · intro k c hc x hx
    rw [hctx, Table.get_put] at hc
    split at hc
    · next hkk =>
      cases hc
      rw [hids, mem_addOnce] at hx
      rw [hkk, hrun]
      rcases hx with hx | rfl
      · obtain ⟨y, hy, h1, h2⟩ := h.pending r row hrow x hx
        exact ⟨y, hold x y hy, h1, h2⟩
      · exact ⟨new, hnew, hnewrun, hopen⟩
    · obtain ⟨y, hy, h1, h2⟩ := h.pending k c hc x hx
      exact ⟨y, hold x y hy, h1, h2⟩
  · intro ev hev ht
    rcases hintents ev hev ht with hev | ⟨h1, h2⟩
    · obtain ⟨h1, x, hx, h2⟩ := h.intents ev hev ht
      exact ⟨h1, x, hold _ x hx, h2⟩
    · rw [h2, h1]
      exact ⟨he, new, hnew, hnewrun⟩
  · intro cp hcp
    exact (h.checkpoints cp (hcps ▸ hcp)).mono hlog

/-- A dedup check that knows no intent found no record. -/
theorem intentKnown_false {a : ToolIntent} (hdedup : cfg.enforceExecutionDedup = true)
    (h : s.intentKnown cfg a.runId a.executionId = .ok false) :
    s.externalResults.get (strip a.executionId) = none := by
  unfold Store.intentKnown at h
  rw [if_pos hdedup] at h
  unfold Store.toolIntentExists at h
  simp only [except_bind_ok] at h
  obtain ⟨o, hget, h⟩ := h
  cases o with
  | none => exact getExternalResult_none hget
  | some x =>
    simp only [except_bind_ok, except_pure_ok] at h
    obtain ⟨_, -, hfalse⟩ := h
    cases hfalse

/-- An intent of an id without a record adds the record, the event and the pending id. -/
theorem audited_intent {a : ToolIntent} (hdedup : cfg.enforceExecutionDedup = true)
    (he : Trimmed a.executionId) (hr : Padded a.runId → Trimmed a.runId) {r : RunProjections}
    (h : Audited Padded s) (hx : recordToolIntent cfg amb a s = .ok (r, s')) : Audited Padded s' := by
  rcases recordToolIntent_ok hx with ⟨-, -, rfl⟩ | ⟨hknown, hx⟩
  · exact h
  have hnone := intentKnown_false hdedup hknown
  obtain ⟨ctx, s1, s2, s3, s4, s5, -, hb, -, h1, rfl, h2, h3, h4, h5⟩ := recordNewIntent_ok hx
  obtain ⟨st, st', -, -, -, hst, rfl⟩ := updatePlan_saved h1
  obtain ⟨c, c', hc, hadd, hsave, rfl⟩ := updateContext_saved h2
  simp only [addPendingExecutionState, except_bind_ok, requireNonEmptyStr_ok, except_pure_ok] at hadd
  obtain ⟨_, ⟨-, rfl⟩, rfl⟩ := hadd
  refine Audited.quiet' (Audited.quiet' ?_ (syncContextWithPlanner_quiet h4)) h5.quiet
  cases h3 with
  | present x hx =>
    have hx' : s.externalResults.get (strip a.executionId) = some x := hx
    rw [hnone] at hx'
    cases hx'
  | written _ hfk hdec =>
    have hkey : c.runId = strip a.runId := loadContext_runId hc
    have htrim : Trimmed a.runId := by
      rw [Store.putContext_agentContexts, Table.get_put] at hfk
      split at hfk
      · next hk => exact hk.trans hkey ▸ trimmed_strip a.runId
      · exact h.run hr hfk
    obtain ⟨-, row, hrow, -, rfl⟩ := loadContext_ok.1 hc
    have hrow' : s.agentContexts.get (strip a.runId) = some row := hrow
    have hne : a.executionId ≠ "" := by
      intro h0
      rw [h0] at hb
      exact absurd hb (by decide +kernel)
    rw [he] at hnone
    rw [htrim] at hrow' hkey
    refine h.intend he hne htrim hrow' hnone ?_ rfl hkey ?_ rfl rfl rfl rfl rfl rfl ?_ ?_
    · exact (kept_addEvent _ _).trans <| (kept_putPlan _ hst).trans <| (kept_addEvent _ _).trans <|
        (kept_putContext _ hsave).trans (kept_putResult _ hdec)
    · rw [he, (h.pendingNormal _ row hrow').decoded_ids]
    · exact (List.prefix_append _ _).trans (List.prefix_append _ _)
    · intro ev hev ht
      rcases List.mem_append.1 hev with hev | hev
      · rcases List.mem_append.1 hev with hev | hev
        · exact .inl hev
        · cases List.mem_singleton.1 hev
          exact .inr ⟨htrim, he⟩
      · cases List.mem_singleton.1 hev
        cases ht

end

/-! ## The report -/

/-- What the audit of a run asks of the store. -/
structure RunAudited (s : Store) (runId : String) (context : AgentContextSnapshot) : Prop where
  pending : ∀ e ∈ context.pendingExecutionIds, ∃ record, s.getExternalResult e = .ok (some record) ∧
    record.runId = strip runId ∧ record.executionStatus.terminal = false
  nodup : context.pendingExecutionIds.Nodup
  last : context.pendingExecutionId = none ∨ context.pendingExecutionId = context.pendingExecutionIds.getLast?
  intents : ∀ ev ∈ s.walEvents, ev.payload.type = .toolIntentRecorded → ev.runId = strip runId →
    ∃ record, s.getExternalResult ev.entityId = .ok (some record) ∧ record.runId = strip runId
  checkpoint : ∀ cp latest, s.readLatestWalCheckpoint runId none = .ok (some cp) →
    s.latestWalSeq runId = .ok latest → ∃ n, latest = some n ∧ cp.seqId ≤ n

section
variable {Padded : String → Prop} {s : Store} {runId : String} {context : AgentContextSnapshot}

theorem readLatestWalCheckpoint_ok {cp : WalCheckpoint}
    (h : s.readLatestWalCheckpoint runId none = .ok (some cp)) :
    cp ∈ s.walCheckpoints ∧ cp.runId = strip runId := by
  unfold Store.readLatestWalCheckpoint at h
  simp only [except_bind_ok, requireNonEmptyStr_ok, except_pure_ok] at h
  obtain ⟨_, ⟨-, rfl⟩, _, -, h⟩ := h
  have hmem := List.mem_of_mem_head? h.symm
  rw [List.mem_insertionSort, List.mem_filter] at hmem
  simp only [Bool.and_eq_true, decide_eq_true_eq] at hmem
  exact ⟨hmem.1, hmem.2.1⟩

theorem Audited.runAudited (h : Audited Padded s) (hctx : s.loadContext runId = .ok (some context)) :
    RunAudited s runId context := by
  obtain ⟨-, row, hrow, -, rfl⟩ := loadContext_ok.1 hctx
  have hnormal := h.pendingNormal _ row hrow
  have hdec := hnormal.decoded
  have hget : ∀ e x, Trimmed e → s.externalResults.get e = some x →
      s.getExternalResult e = .ok (some x.stripped) := by
    intro e x he hx
    have hb : blank e = false := by
      rw [← Table.key_of_get hx]
      exact (h.sound.records e x hx).executionId
    rw [getExternalResult_run h.sound hb, he, hx]
    rfl
  refine ⟨?_, hdec.nodup, hdec.last, ?_, ?_⟩
  · intro e he
    obtain ⟨x, hx, hrun, hopen⟩ := h.pending _ row hrow e (hnormal.decoded_ids ▸ he)
    refine ⟨x.stripped, hget e x (hdec.texts e he).1 hx, ?_, hopen⟩
    exact (h.rowRuns e x hx).trans hrun
  · intro ev hev ht hrun
    obtain ⟨he, x, hx, hxrun⟩ := h.intents ev hev ht
    exact ⟨x.stripped, hget _ x he hx, (h.rowRuns _ x hx).trans (hxrun.trans hrun)⟩
  · intro cp latest hcp hlatest
    obtain ⟨hmem, hrun⟩ := readLatestWalCheckpoint_ok hcp
    obtain ⟨ev, hev, h1, h2⟩ := h.checkpoints cp hmem
    obtain ⟨-, rfl⟩ := latestWalSeq_ok.1 hlatest
    have hin : cp.seqId ∈ (s.walEvents.filter fun e => e.runId = strip runId).map WalEvent.seqId :=
      List.mem_map.2 ⟨ev, List.mem_filter.2 ⟨hev, by simpa using h1.trans hrun⟩, h2⟩
    cases hmax : ((s.walEvents.filter fun e => e.runId = strip runId).map WalEvent.seqId).max? with
    | none => exact absurd (List.max?_eq_none_iff.1 hmax) (List.ne_nil_of_mem hin)
    | some n => exact ⟨n, rfl, (List.max?_eq_some_iff.1 hmax).2 _ hin⟩

theorem Audited.pendingViolation_nil (h : Audited Padded s) (hctx : s.loadContext runId = .ok (some context))
    {records : List ExternalResultRecord} (hlist : s.listExternalResults runId = .ok records) :
    context.pendingExecutionIds.filterMap (pendingViolation records) = [] := by
  obtain ⟨-, row, hrow, -, rfl⟩ := loadContext_ok.1 hctx
  have hnormal := h.pendingNormal _ row hrow
  refine List.filterMap_eq_nil_iff.2 fun e he => ?_
  obtain ⟨x, hx, hxrun, hopen⟩ := h.pending _ row hrow e (hnormal.decoded_ids ▸ he)
  have hopen' : x.stripped.executionStatus.terminal = false := hopen
  unfold pendingViolation
  rw [recordOf_listed hlist (hnormal.decoded.texts e he).1 hx hxrun]
  dsimp only
  rw [hopen']
  rfl

theorem Audited.intentViolation_nil (h : Audited Padded s) {records : List ExternalResultRecord}
    (hlist : s.listExternalResults runId = .ok records) {events : List WalEvent}
    (hread : s.readWalEvents runId none 100000 = .ok events) :
    (events.filter fun e => e.payload.type = .toolIntentRecorded).filterMap (intentViolation records) = [] := by
  unfold Store.readWalEvents at hread
  simp only [except_bind_ok, requireNonEmptyStr_ok, except_pure_ok] at hread
  obtain ⟨_, ⟨-, rfl⟩, rfl⟩ := hread
  refine List.filterMap_eq_nil_iff.2 fun ev hev => ?_
  obtain ⟨hmem, ht⟩ := List.mem_filter.1 hev
  obtain ⟨hmem, hrun⟩ := List.mem_filter.1 (List.mem_of_mem_take hmem)
  obtain ⟨he, x, hx, hxrun⟩ := h.intents ev hmem (by simpa using ht)
  unfold intentViolation
  rw [recordOf_listed hlist he hx (hxrun.trans (by simpa using hrun))]

/-- The audit of an audited run succeeds without violations. -/
theorem Audited.reports (h : Audited Padded s) (hctx : s.loadContext runId = .ok (some context))
    (openSpans : ℕ) : ∃ report, cmdAudit s runId openSpans = .ok report ∧ report.violations = [] ∧
      report.ok = true := by
  have hb := (loadContext_ok.1 hctx).1
  obtain ⟨records, hlist⟩ := listExternalResults_run h.sound hctx
  have hpending : s.listPendingExecutions runId = .ok context.pendingExecutionIds := by
    unfold Store.listPendingExecutions
    rw [hctx]
    rfl
  have hread : ∃ events, s.readWalEvents runId none 100000 = .ok events := by
    unfold Store.readWalEvents
    rw [requireNonEmptyStr_run _ hb]
    exact ⟨_, rfl⟩
  obtain ⟨events, hread⟩ := hread
  have hcheckpoint : ∃ cp, s.readLatestWalCheckpoint runId none = .ok cp := by
    unfold Store.readLatestWalCheckpoint
    rw [requireNonEmptyStr_run _ hb]
    exact ⟨_, rfl⟩
  obtain ⟨cp, hcp⟩ := hcheckpoint
  have hlatest : ∃ latest, s.latestWalSeq runId = .ok latest := ⟨_, latestWalSeq_ok.2 ⟨hb, rfl⟩⟩
  obtain ⟨latest, hlatest⟩ := hlatest
  have hbound : checkpointViolation cp latest = none := by
    cases cp with
    | none => rfl
    | some cp =>
      obtain ⟨n, rfl, hle⟩ := (h.runAudited hctx).checkpoint cp _ hcp hlatest
      exact if_neg (not_lt.2 hle)
  have hclean : context.pendingExecutionIds.filterMap (pendingViolation records) ++
      (events.filter fun e => e.payload.type = .toolIntentRecorded).filterMap (intentViolation records) ++
      (checkpointViolation cp latest).toList = [] := by
    rw [h.pendingViolation_nil hctx hlist, h.intentViolation_nil hlist hread, hbound]
    rfl
  unfold cmdAudit
  rw [hlist, hpending, hread, hcp, hlatest]
  refine ⟨_, rfl, hclean, ?_⟩
  show List.isEmpty _ = true
  rw [hclean]
  rfl

end

/-! ## Processes -/

/-- What the operations of the pool look like, `Padded` being the padded ids of resets. -/
def Op.Audited (Padded : String → Prop) : Op → Prop
  | .facade (.recordToolIntent a) => Trimmed a.executionId ∧ (Padded a.runId → Trimmed a.runId)
  | .facade (.recordToolResult a) => Trimmed a.executionId ∧
      (a.toolName ≠ none → Padded a.runId → Trimmed a.runId) ∧
      ∃ st, a.executionStatus = some (ExecutionStatus.value st) ∧ (st.terminal = true → a.clearPending = true)
  | .facade (.startRun a) => a.forceReset = true → Trimmed a.runId ∨ Padded a.runId
  | _ => True

section
variable {τ : Type} {Padded : String → Prop} {cfg : LoggingServiceConfig} {env : Environment τ}

theorem audited_facade (hdedup : cfg.enforceExecutionDedup = true) {o : FacadeOp}
    (ho : Op.Audited Padded (.facade o)) {amb : Ambient} {s s' : Store} {r : o.Res} (h : Audited Padded s)
    (hx : o.exec cfg amb s = .ok (r, s')) : Audited Padded s' := by
  cases o with
  | startRun a =>
    obtain ⟨-, -, -, -, ⟨-, -, -, rfl⟩ | ⟨-, hfresh⟩⟩ := startRun_ok hx
    · exact h
    · refine h.quiet (startFresh_quiet hfresh) fun k hk => ?_
      obtain ⟨rfl, hforce | htrim⟩ := hk
      · exact ho hforce
      · exact .inl htrim
  | recordToolIntent a => exact audited_intent hdedup ho.1 ho.2 h (FacadeOp.exec_recordToolIntent.1 hx)
  | recordToolDispatch runId e => exact audited_dispatch h (FacadeOp.exec_recordToolDispatch.1 hx)
  | recordToolResult a =>
    obtain ⟨he, hr, st, hst, hclear⟩ := ho
    exact audited_result he hr hst hclear h (FacadeOp.exec_recordToolResult.1 hx)
  | _ => exact h.quiet' (exec_quiet rfl (by nofun) hx)

/-- Every operation of the pool keeps the invariant. -/
theorem audited_op (hdedup : cfg.enforceExecutionDedup = true) {w w' : World τ} {o : Op}
    {r : Except PyError o.Res} (ho : o.Audited Padded) (h : Audited Padded w.store)
    (hs : sem cfg env w o r w') : Audited Padded w'.store := by
  cases o with
  | facade o =>
    cases r with
    | error e =>
      rw [(sem_facade_error.1 hs).2]
      exact h
    | ok a =>
      obtain ⟨amb, s, hx, rfl⟩ := sem_facade_ok.1 hs
      exact audited_facade hdedup ho h hx
  | invoke call =>
    obtain ⟨_, _, -, -, rfl⟩ := hs
    exact h
  | verify probe =>
    obtain ⟨_, _, -, -, rfl⟩ := hs
    exact h
  | handoff d =>
    rcases sem_handoff hs with rfl | ⟨keys, rfl⟩
    · exact h
    · exact h

theorem invokeAndRecord_uses (c : ToolCall) (op : OperationType) (replay : Bool)
    (hc : Padded c.runId → Trimmed c.runId) :
    (invokeAndRecord c op replay).Uses (Op.Audited Padded) := by
  refine ⟨trivial, fun outcome => ⟨?_, fun _ => trivial⟩⟩
  refine ⟨?_, fun _ => ?_, resultOf_clears c op replay outcome⟩
  · rw [resultOf_executionId]
    exact c.trimmed_executionId
  · rw [resultOf_runId]
    exact hc

theorem executeTool_uses (mgr : TransactionManager) (c : ToolCall) (hc : Padded c.runId → Trimmed c.runId) :
    (executeTool mgr c).Uses (Op.Audited Padded) := by
  unfold executeTool
  cases normalizeOperationType c.operationType with
  | error e => trivial
  | ok op =>
    refine ⟨trivial, fun existing => ?_⟩
    cases existing with
    | none =>
      refine ⟨⟨c.trimmed_executionId, hc⟩, fun _ => ⟨trivial, fun current => ?_⟩⟩
      cases current with
      | none => trivial
      | some current =>
        show Uses _ (if _ then _ else _)
        split
        · trivial
        · refine Uses.bind ?_ fun _ => invokeAndRecord_uses c op false hc
          unfold markDispatched
          split
          · exact ⟨trivial, fun _ => trivial⟩
          · trivial
    | some existing =>
      show Uses _ (if _ then _ else _)
      split
      · trivial
      · exact invokeAndRecord_uses c op true hc

/-- A pass, whose verdicts go to the ids of listed records. -/
theorem audited_recoverRun (hdedup : cfg.enforceExecutionDedup = true) (rc : RecoveryCoordinator)
    (runId : String) (now : Datetime) (w : World τ) :
    Safe (sem cfg env) (fun w => Audited Padded w.store) (fun _ _ => True) (fun _ _ => True)
      (fun _ _ => True) (recoverRun rc runId now) w := by
  refine recoverRun_safe (K := fun records _ _ => ∀ x ∈ records, Trimmed x.executionId) ?_ ?_
    (fun _ _ _ _ h => h) ?_ (fun _ => trivial) w
  · rintro w o r w' hI (rfl | rfl | rfl) hs
    · exact ⟨audited_op hdedup (o := .facade (.loadContext runId)) trivial hI hs, trivial⟩
    · exact ⟨audited_op hdedup (o := .facade (.listExternalResults runId)) trivial hI hs, trivial⟩
    · exact ⟨audited_op hdedup (o := .facade (.listPendingExecutions runId)) trivial hI hs, trivial⟩
  · intro w records hI hlist w' pending _ _ _ x hx
    exact (listed_row hlist hx).1
  · intro records e es w hK
    refine recoverOne_safe (F := fun _ => True) (Q := fun _ => ∀ x ∈ records, Trimmed x.executionId)
      (V := fun _ _ _ => True) (fun _ _ _ _ => trivial) (fun _ _ _ _ => hK)
      (fun _ _ _ _ _ _ => trivial) (fun _ _ => hK) ?_ ?_ ?_ trivial
    · intro w o r w' ho hI _ hs
      refine ⟨audited_op hdedup ?_ hI hs, trivial, hK⟩
      cases ho <;> trivial
    · intro record w r w' _ _ _ hI _ hs
      exact ⟨audited_op hdedup (o := .verify _) trivial hI hs, trivial, trivial, fun _ _ _ _ => trivial⟩
    · intro record v b w r w' hrec _ hI _ hs
      obtain ⟨hmem, rfl⟩ := recordOf_some hrec
      refine ⟨audited_op hdedup (o := .facade (.recordToolResult _)) ⟨?_, ?_, ?_⟩ hI hs, trivial, hK⟩
      · rw [verdictResult_executionId]
        exact hK record hmem
      · cases b <;> exact fun h => absurd rfl h
      · refine ⟨verdictStatus b, verdictResult_status runId _ v b, fun hterm => ?_⟩
        cases b with
        | true => rfl
        | false => cases hterm

/-- A call of the framework: any tool call, any pass, any operation that writes no tool record. -/
def Call.Framework : Call → Prop
  | .facade o => o.plain = true
  | _ => True

/-- The run ids that some `start_run` of the pool resets. -/
def ResetId {ι : Type} (calls : ι → Call) (runId : String) : Prop :=
  ∃ i a, calls i = .facade (.startRun a) ∧ a.forceReset = true ∧ a.runId = runId

/-- No run id with white space at its ends both resets a run and executes tools. -/
def NoPaddedReset {ι : Type} (calls : ι → Call) : Prop :=
  ∀ i mgr c, calls i = .executeTool mgr c → ResetId calls c.runId → Trimmed c.runId

theorem reach_audited {ι : Type} [DecidableEq ι] (hdedup : cfg.enforceExecutionDedup = true)
    {calls : ι → Call} (hcalls : ∀ i, (calls i).Framework) (hids : NoPaddedReset calls) {w0 w : World τ}
    (h0 : Audited (ResetId calls) w0.store) {pool : Pool ι Op Op.Res PyError fun i => (calls i).Result}
    (hr : Reach (fun _ => sem cfg env) (w0, fun i => some (calls i).program) (w, pool)) :
    Audited (ResetId calls) w.store := by
  refine (reach_safe (I := fun w => Audited (ResetId calls) w.store)
    (R := fun _ _ _ => True) (G := fun _ _ _ => True) (Q := fun _ _ _ => True) (fun _ _ => trivial)
    (fun _ _ _ _ _ _ => trivial) (fun _ _ _ _ _ _ => trivial) (fun _ _ _ _ _ _ => trivial)
    ⟨h0, ?_⟩ hr).1
  intro i p hp
  cases hp
  have huses : ∀ {α : Type} {p : Prog α}, p.Uses (Op.Audited (ResetId calls)) →
      Safe (sem cfg env) (fun w => Audited (ResetId calls) w.store) (fun _ _ => True) (fun _ _ => True)
        (fun _ _ => True) p w0 :=
    fun hp => Uses.safe (fun _ _ _ _ ho hI hs => audited_op hdedup ho hI hs) hp w0
  cases hi : calls i with
  | executeTool mgr c =>
    exact huses (executeTool_uses mgr c (hids i mgr c hi))
  | recoverRun rc runId now =>
    exact audited_recoverRun hdedup rc runId now w0
  | facade o =>
    have ho := hcalls i
    rw [hi] at ho
    refine huses (p := Call.program (.facade o)) ⟨?_, fun _ => trivial⟩
    cases o with
    | startRun a => exact fun hforce => .inr ⟨i, a, hi, hforce, rfl⟩
    | recordToolIntent a => cases ho
    | recordToolResult a => cases ho
    | _ => trivial

/-- **The audit.**  In every state of a pool of calls where no padded run id both
resets and executes, a run passes every check, and its audit reports no violation. -/
theorem audit_clean {ι : Type} [DecidableEq ι] (cfg : LoggingServiceConfig)
    (hdedup : cfg.enforceExecutionDedup = true) (env : Environment τ) (calls : ι → Call)
    (hcalls : ∀ i, (calls i).Framework) (hids : NoPaddedReset calls) (target : τ) (w : World τ)
    (pool : Pool ι Op Op.Res PyError fun i => (calls i).Result)
    (hr : Reach (fun _ => sem cfg env) ({ target := target }, fun i => some (calls i).program) (w, pool))
    (runId : String) (context : AgentContextSnapshot)
    (hctx : w.store.loadContext runId = .ok (some context)) :
    RunAudited w.store runId context ∧ ∀ openSpans, ∃ report,
      cmdAudit w.store runId openSpans = .ok report ∧ report.violations = [] ∧ report.ok = true := by
  have h := reach_audited hdedup hcalls hids audited_empty hr
  exact ⟨h.runAudited hctx, h.reports hctx⟩

end

theorem bookingPool_framework : ∀ i, (bookingPool i).Framework
  | false => rfl
  | true => trivial

theorem bookingPool_noPaddedReset : NoPaddedReset bookingPool := by
  rintro i mgr c - ⟨j, a, hj, hforce, -⟩
  cases j with
  | false =>
    cases hj
    cases hforce
  | true => cases hj

theorem isSome_loadContext {s : Store} {runId : String}
    (h : ((s.loadContext runId).toOption.bind id).isSome = true) :
    ∃ context, s.loadContext runId = .ok (some context) := by
  cases hx : s.loadContext runId with
  | error e =>
    rw [hx] at h
    cases h
  | ok c =>
    cases c with
    | none =>
      rw [hx] at h
      cases h
    | some c => exact ⟨c, rfl⟩

theorem audit_clean_booked : ∃ report, cmdAudit bookedWorld.store "trip" 0 = .ok report ∧
    report.violations = [] ∧ report.ok = true := by
  obtain ⟨context, hctx⟩ : ∃ context, bookedWorld.store.loadContext "trip" = .ok (some context) :=
    isSome_loadContext (by decide +kernel)
  exact (audit_clean {} rfl (Environment.any Script) bookingPool bookingPool_framework
    bookingPool_noPaddedReset _ _ _ (playTurns_reach bookingPool _ _) "trip" context hctx).2 0

/-! ## A padded reset -/

/-- Start the run, reset it under a padded id, and execute a tool under that id. -/
def paddedPool : Fin 3 → Call
  | 0 => .facade (.startRun tripRun)
  | 1 => .facade (.startRun { tripRun with runId := " trip ", forceReset := true })
  | 2 => .executeTool {} { bookingCall with runId := " trip " }

def paddedWorld : World Script := (playTurns paddedPool [(0, 1), (1, 1), (2, 4)] { target := {} }).1

/-- The intent under the padded id is pending in the run, which has no record of it. -/
theorem padded_reset_violates :
    (∃ pool, Reach (fun _ => sem {} (Environment.any Script))
      ({ target := {} }, fun i => some (paddedPool i).program) (paddedWorld, pool)) ∧
    ((cmdAudit paddedWorld.store "trip" 0).toOption.map fun report =>
      (report.ok, report.violations.length)) = some (false, 2) :=
  ⟨⟨_, playTurns_reach paddedPool _ _⟩, by decide +kernel⟩

end Raef
