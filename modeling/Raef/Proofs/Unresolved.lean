import Raef.Proofs.Transcript

/-!
# Which executions stay pending

An execution that an intent introduced and that is not over should be pending.  Four steps
lose it: a reset of the run, a `VERIFIED_NOT_FOUND` result that clears (recovery passes
`clear_pending=False`, the default is `True`), a retry out of `FAILED`, which nothing puts
back on the list, and an intent under an id with white space around it.

    no such step ⇒ introduced and unresolved executions are pending     (unresolved_pending)
    each of the four steps loses one                                     (unresolved_dropped)
-/

namespace Raef

open Text Txn

/-! ## Statements -/

/-- The call is not over. -/
def ExecutionStatus.unresolved : ExecutionStatus → Bool
  | .intentLogged | .dispatched | .verifiedNotFound => true
  | _ => false

/-- The log of the run of the record has an intent of the execution. -/
def Store.Introduced (s : Store) (e : String) (row : ExternalResultRecord) : Prop :=
  ∃ ev ∈ s.walEvents, ev.runId = strip row.runId ∧ ev.marks .toolIntentRecorded e

instance (ev : WalEvent) (type : EventType) (e : String) : Decidable (ev.marks type e) :=
  inferInstanceAs (Decidable (ev.payload.type = type ∧ ev.entityId = e))

instance (s : Store) (e : String) (row : ExternalResultRecord) : Decidable (s.Introduced e row) :=
  inferInstanceAs (Decidable (∃ ev ∈ s.walEvents, ev.runId = strip row.runId ∧ ev.marks .toolIntentRecorded e))

/-- The execution is on the pending list of the run of its record. -/
def Store.Awaited (s : Store) (e : String) (row : ExternalResultRecord) : Prop :=
  ∃ pending, s.listPendingExecutions row.runId = .ok pending ∧ e ∈ pending

/-- The operation drops no unresolved execution: a run is reset without any, a result clears none,
a retry out of `FAILED` is of one still pending, and a new record is named stripped. -/
def FacadeOp.KeepsAwaited (s : Store) : FacadeOp → Prop
  | .startRun a => a.forceReset = true → Trimmed a.runId → ∀ e row, s.externalResults.get e = some row →
      strip row.runId = a.runId → s.Introduced e row → row.executionStatus.unresolved = false
  | .recordToolIntent a => s.externalResults.get (strip a.executionId) = none → Trimmed a.executionId
  | .recordToolDispatch _ e => ∀ row, s.externalResults.get (strip e) = some row →
      s.Introduced (strip e) row → row.executionStatus = .failed → s.Awaited (strip e) row
  | .recordToolResult a => ∀ rs es row, parseResultStatus a.resultStatus = .ok rs →
      resolveExecutionStatus a.executionStatus rs = .ok es → es.unresolved = true →
      s.externalResults.get a.executionId = some row → s.Introduced a.executionId row →
      a.clears es = false ∧ (row.executionStatus = .failed → s.Awaited a.executionId row)
  | _ => True

/-- An unresolved status is reached from an unresolved one, or by a retry. -/
theorem ExecutionStatus.Moves.unresolved {a b : ExecutionStatus} (h : Moves a b) (hb : b.unresolved = true) :
    a.unresolved = true ∨ a = .failed := by
  cases a <;> cases b <;> simp_all [Moves, allowed, ExecutionStatus.unresolved]

/-! ## The invariant -/

/-- Pending lists are normal, intents have rows, and what is introduced and unresolved is pending. -/
structure Store.AllAwaited (s : Store) : Prop where
  normal : ∀ k c, s.agentContexts.get k = some c → c.PendingNormal
  intents : ∀ ev ∈ s.walEvents, ev.payload.type = .toolIntentRecorded →
    Trimmed ev.entityId ∧ (s.externalResults.get ev.entityId).isSome
  awaited : ∀ e row, s.externalResults.get e = some row → s.Introduced e row →
    row.executionStatus.unresolved = true →
    ∃ c, s.agentContexts.get (strip row.runId) = some c ∧ e ∈ c.pendingExecutionIds

/-- Records, intents and pending lists are what they were. -/
structure Undisturbed (s s' : Store) : Prop where
  results : s'.externalResults = s.externalResults
  intents : ∀ ev ∈ s'.walEvents, ev.payload.type = .toolIntentRecorded → ev ∈ s.walEvents
  contexts : (∀ k c, s.agentContexts.get k = some c → c.PendingNormal) →
    (∀ k c, s.agentContexts.get k = some c →
      ∃ c', s'.agentContexts.get k = some c' ∧ c'.pendingExecutionIds = c.pendingExecutionIds) ∧
    ∀ k c', s'.agentContexts.get k = some c' → c'.PendingNormal

section
variable {cfg : LoggingServiceConfig} {amb : Ambient} {o : FacadeOp} {runId k : String}
  {s s' s'' : Store} {owed : Option PlannerState}

theorem undisturbed_same (hr : s'.externalResults = s.externalResults)
    (hi : ∀ ev ∈ s'.walEvents, ev.payload.type = .toolIntentRecorded → ev ∈ s.walEvents)
    (hc : s'.agentContexts = s.agentContexts) : Undisturbed s s' :=
  ⟨hr, hi, fun hn => ⟨fun _ c hget => ⟨c, hc ▸ hget, rfl⟩, fun j c hget => hn j c (hc ▸ hget)⟩⟩

theorem Undisturbed.refl (s : Store) : Undisturbed s s := undisturbed_same rfl (fun _ hev _ => hev) rfl

theorem Undisturbed.trans (h : Undisturbed s s') (h' : Undisturbed s' s'') : Undisturbed s s'' := by
  refine ⟨h'.results.trans h.results, fun ev hev ht => h.intents ev (h'.intents ev hev ht) ht, fun hn => ?_⟩
  obtain ⟨h1, h2⟩ := h.contexts hn
  obtain ⟨h3, h4⟩ := h'.contexts h2
  refine ⟨fun k c hc => ?_, h4⟩
  obtain ⟨c', hc', heq⟩ := h1 k c hc
  obtain ⟨c'', hc'', heq'⟩ := h3 k c' hc'
  exact ⟨c'', hc'', heq'.trans heq⟩

theorem undisturbed_addEvent {ev : WalEvent} (hev : ev.payload.type ≠ .toolIntentRecorded) :
    Undisturbed s (s.addEvent ev) :=
  undisturbed_same rfl (fun _ hx ht => mem_of_mem_addEvent hx ht hev) rfl

theorem undisturbed_newEvent {payload : EventPayload} {entityType entityId : String}
    (h : payload.type ≠ .toolIntentRecorded) :
    Undisturbed s (s.addEvent (s.newEvent amb runId payload entityType entityId)) :=
  undisturbed_addEvent h

theorem undisturbed_putPlan (st : PlannerState) : Undisturbed s (s.putPlan st) :=
  undisturbed_same rfl (fun _ hev _ => hev) rfl

theorem undisturbed_addCheckpoint (cp : WalCheckpoint) : Undisturbed s (s.addCheckpoint cp) :=
  undisturbed_same rfl (fun _ hev _ => hev) rfl

/-- Saving a loaded context with the pending list it was loaded with. -/
theorem undisturbed_putContext {c d : AgentContextSnapshot} (hload : s.loadContext runId = .ok (some c))
    (hrun : d.runId = c.runId) (hids : d.pendingExecutionIds = c.pendingExecutionIds)
    (hid : d.pendingExecutionId = c.pendingExecutionId) : Undisturbed s (s.putContext d) := by
  have hkey : d.runId = strip runId := hrun.trans (loadContext_runId hload)
  obtain ⟨-, row, hrow, -, rfl⟩ := loadContext_ok.1 hload
  refine ⟨rfl, fun _ hev _ => hev, fun hn => ?_⟩
  have hnrow := hn _ row hrow
  have hsame : d.pendingExecutionIds = row.pendingExecutionIds := hids.trans hnrow.decoded_ids
  have hnormal := hnrow.decoded
  refine ⟨fun k x hx => ?_, fun k x hx => ?_⟩
  · rw [Store.putContext_agentContexts, Table.get_put]
    split
    · next hk =>
      rw [hk, hkey, hrow] at hx
      cases hx
      exact ⟨d, rfl, hsame⟩
    · exact ⟨x, hx, rfl⟩
  · rw [Store.putContext_agentContexts, Table.get_put] at hx
    split at hx
    · cases hx
      exact ⟨hids ▸ hnormal.texts, hids ▸ hnormal.nodup, by rw [hids, hid]; exact hnormal.last⟩
    · exact hn k x hx

theorem Spoken.undisturbed (h : Spoken amb o s s') : Undisturbed s s' := by
  cases h with
  | silent => exact .refl _
  | said m c hm hload hdec =>
    exact .trans (undisturbed_newEvent (by nofun)) (undisturbed_putContext (d := c.told amb m) hload rfl rfl rfl)

theorem Settled.undisturbed (h : Settled amb runId s owed s') : Undisturbed s s' := by
  cases h with
  | same => exact .refl _
  | synced st c hload =>
    exact .trans (undisturbed_newEvent (by nofun))
      (undisturbed_putContext (d := c.synced amb st) hload rfl rfl rfl)

theorem Checkpointed.undisturbed (h : Checkpointed amb runId s s') : Undisturbed s s' := by
  cases h with
  | none => exact .refl _
  | bare cp => exact .trans (undisturbed_addCheckpoint cp) (undisturbed_addEvent (by nofun))
  | withContext cp c hrun hseq hc hsave =>
    have hload : (s.addCheckpoint cp).loadContext runId = .ok (some c) := hc
    exact .trans (undisturbed_addCheckpoint cp) <| .trans (undisturbed_putContext (d := { c with
      lastCheckpointSeq := some (cp.seqId : ℤ), updatedAt := amb.now }) hload rfl rfl rfl)
      (undisturbed_addEvent (by nofun))

theorem planStarted_undisturbed {a : StartRun} {st : PlannerState} :
    Undisturbed s (s.planStarted amb a st) :=
  .trans (undisturbed_newEvent (by nofun)) <| .trans (undisturbed_newEvent (by nofun)) <|
    .trans (undisturbed_putPlan _) (undisturbed_newEvent (by nofun))

theorem Store.Introduced.mono {e : String} {row row' : ExternalResultRecord} (h : s'.Introduced e row')
    (hrun : strip row'.runId = strip row.runId)
    (hi : ∀ ev ∈ s'.walEvents, ev.payload.type = .toolIntentRecorded → ev ∈ s.walEvents) : s.Introduced e row := by
  obtain ⟨ev, hev, hevrun, hmarks⟩ := h
  exact ⟨ev, hi ev hev hmarks.1, hevrun.trans hrun, hmarks⟩

theorem allAwaited_empty : ({} : Store).AllAwaited :=
  ⟨(fun _ _ h => nomatch h), (fun _ h => nomatch h), (fun _ _ h => nomatch h)⟩

theorem Store.AllAwaited.undisturbed (h : s.AllAwaited) (hu : Undisturbed s s') : s'.AllAwaited := by
  obtain ⟨hkept, hnormal⟩ := hu.contexts h.normal
  refine ⟨hnormal, fun ev hev ht => ?_, fun e row hrow hin hun => ?_⟩
  · rw [hu.results]
    exact h.intents ev (hu.intents ev hev ht) ht
  · rw [hu.results] at hrow
    obtain ⟨c, hc, hmem⟩ := h.awaited e row hrow (hin.mono rfl hu.intents) hun
    obtain ⟨c', hc', heq⟩ := hkept _ c hc
    exact ⟨c', hc', heq ▸ hmem⟩

/-- What the listing of the run shows is the row's pending list. -/
theorem Store.AllAwaited.listed (h : s.AllAwaited) (hs : s.Sound) {e : String} {row : ExternalResultRecord}
    (hrow : s.externalResults.get e = some row) :
    s.Awaited e row ↔ ∃ c, s.agentContexts.get (strip row.runId) = some c ∧ e ∈ c.pendingExecutionIds := by
  have hload := loadContext_run hs (hs.records e row hrow).runId
  unfold Store.Awaited Store.listPendingExecutions
  rw [hload]
  cases hc : s.agentContexts.get (strip row.runId) with
  | none =>
    refine ⟨?_, fun ⟨c, hsome, _⟩ => nomatch hsome⟩
    rintro ⟨pending, hpending, hmem⟩
    cases except_pure_ok.1 hpending
    cases hmem
  | some c =>
    have hids := (h.normal _ c hc).decoded_ids
    constructor
    · rintro ⟨pending, hpending, hmem⟩
      cases except_pure_ok.1 hpending
      exact ⟨c, rfl, hids ▸ hmem⟩
    · rintro ⟨_, ⟨⟩, hmem⟩
      exact ⟨_, rfl, hids.symm ▸ hmem⟩

/-! ## Acts -/

/-- A fresh context replaces no list with an unresolved execution. -/
theorem awaited_created {a : StartRun} {st : PlannerState} {messages : List AgentMessage} (h : s.AllAwaited)
    (ho : (FacadeOp.startRun a).KeepsAwaited s)
    (hcase : a.forceReset = true ∨ s.loadContext a.runId = .ok none) :
    ((s.planStarted amb a st).putContext (freshContext amb a.runId messages a.initialMemory)).AllAwaited := by
  have hu : Undisturbed s (s.planStarted amb a st) := planStarted_undisturbed
  refine ⟨fun k c hc => ?_, fun ev hev ht => h.intents ev (hu.intents ev hev ht) ht,
    fun e row hrow hin hun => ?_⟩
  · rw [Store.putContext_agentContexts, Table.get_put] at hc
    split at hc
    · cases hc
      exact pendingNormal_nil rfl rfl
    · exact h.normal k c hc
  · have hin' : s.Introduced e row := hin.mono rfl hu.intents
    obtain ⟨c, hc, hmem⟩ := h.awaited e row hrow hin' hun
    refine ⟨c, ?_, hmem⟩
    rw [Store.putContext_agentContexts, Table.get_put]
    split
    · next hk =>
      have hk : strip row.runId = a.runId := hk
      have htrim : Trimmed a.runId := hk ▸ trimmed_strip row.runId
      rcases hcase with hforce | hnone
      · rw [ho hforce htrim e row hrow hk hin'] at hun
        cases hun
      · have habsent := loadContext_none hnone
        rw [htrim, ← hk, hc] at habsent
        cases habsent
    · exact hc

/-- The log after an intent: the intents of before, and the new one. -/
theorem IntentSaved.intents {a : ToolIntent} {st : PlannerState} {c : AgentContextSnapshot}
    (h : IntentSaved amb a (s.intentLogged amb a st c) s') :
    ∀ ev ∈ s'.walEvents, ev.payload.type = .toolIntentRecorded →
      ev ∈ s.walEvents ∨ (ev.entityId = strip a.executionId ∧ ev.runId = strip a.runId) := by
  intro ev hev ht
  have hlog : s'.walEvents = (s.intentLogged amb a st c).walEvents := by cases h <;> rfl
  rw [hlog] at hev
  have hev' := mem_of_mem_addEvent hev ht (by nofun)
  rcases List.mem_append.1 hev' with hev' | hev'
  · exact .inl hev'
  · cases List.mem_singleton.1 hev'
    exact .inr ⟨rfl, rfl⟩

/-- The context rows after an intent: that of the run lists the execution, and none loses one. -/
structure Listed (runId e : String) (s s' : Store) : Prop where
  normal : ∀ k c, s'.agentContexts.get k = some c → c.PendingNormal
  keeps : ∀ k c, s.agentContexts.get k = some c → ∀ x ∈ c.pendingExecutionIds,
    ∃ c', s'.agentContexts.get k = some c' ∧ x ∈ c'.pendingExecutionIds
  listed : ∃ c', s'.agentContexts.get (strip runId) = some c' ∧ strip e ∈ c'.pendingExecutionIds

theorem listed_awaiting {e : String} {c : AgentContextSnapshot}
    (hn : ∀ k c, s.agentContexts.get k = some c → c.PendingNormal) (hctx : s.loadContext runId = .ok (some c))
    (hblank : blank e = false) (hput : s'.agentContexts = s.agentContexts.put (c.awaiting amb e)) :
    Listed runId e s s' := by
  obtain ⟨-, crow, hcrow, -, rfl⟩ := loadContext_ok.1 hctx
  have hncrow := hn _ crow hcrow
  have hmine : s'.agentContexts.get (strip runId) = some (crow.decoded.awaiting amb e) := by
    rw [hput]
    exact get_put_context hctx rfl
  refine ⟨fun k x hx => ?_, fun k x hx y hy => ?_, _, hmine, mem_addOnce.2 (.inr rfl)⟩
  · rw [hput] at hx
    exact Table.forall_put hn (pendingNormal_awaiting hncrow.decoded hblank) k x hx
  · by_cases hk : k = strip runId
    · subst hk
      rw [hcrow] at hx
      cases hx
      refine ⟨_, hmine, mem_addOnce.2 (.inl ?_)⟩
      rw [hncrow.decoded_ids]
      exact hy
    · refine ⟨x, ?_, hy⟩
      have hrun : (crow.decoded.awaiting amb e).runId = strip runId := by
        show crow.decoded.runId = _
        exact loadContext_runId hctx
      rw [hput, Table.get_put, hrun, if_neg hk]
      exact hx

/-- A new intent adds its execution to the pending list of its run. -/
theorem awaited_intended {a : ToolIntent} {st : PlannerState} {c : AgentContextSnapshot} (h : s.AllAwaited)
    (ho : (FacadeOp.recordToolIntent a).KeepsAwaited s) (hctx : s.loadContext a.runId = .ok (some c))
    (hblank : blank a.executionId = false) (hsaved : IntentSaved amb a (s.intentLogged amb a st c) s') :
    s'.AllAwaited := by
  have hlisted : Listed a.runId a.executionId s s' := listed_awaiting h.normal hctx hblank hsaved.agentContexts
  have hintents := hsaved.intents
  have hintro : ∀ e row, s'.Introduced e row → s.Introduced e row ∨
      (e = strip a.executionId ∧ strip row.runId = strip a.runId) := by
    rintro e row ⟨ev, hev, hevrun, hmarks⟩
    rcases hintents ev hev hmarks.1 with hold | ⟨hentity, hrun⟩
    · exact .inl ⟨ev, hold, hevrun, hmarks⟩
    · exact .inr ⟨hmarks.2.symm.trans hentity, hevrun.symm.trans hrun⟩
  cases hsaved with
  | present row0 hrow0 =>
    refine ⟨hlisted.normal, fun ev hev ht => ?_, fun e row hrow hin hun => ?_⟩
    · rcases hintents ev hev ht with hold | ⟨hentity, -⟩
      · exact h.intents ev hold ht
      · rw [hentity]
        refine ⟨trimmed_strip _, ?_⟩
        rw [hrow0]
        rfl
    · rcases hintro e row hin with hin | ⟨rfl, hrun⟩
      · obtain ⟨x, hx, hmem⟩ := h.awaited e row hrow hin hun
        exact hlisted.keeps _ x hx e hmem
      · exact hrun ▸ hlisted.listed
  | written hnone hfk hdec =>
    have hnone : s.externalResults.get (strip a.executionId) = none := hnone
    have htrim : strip a.executionId = a.executionId := ho hnone
    have hkey : (s.rowOf amb (a.record amb)).executionId = a.executionId := rfl
    refine ⟨hlisted.normal, fun ev hev ht => ?_, fun e row hrow hin hun => ?_⟩
    · rcases hintents ev hev ht with hold | ⟨hentity, -⟩
      · exact ⟨(h.intents ev hold ht).1, Table.isSome_put (h.intents ev hold ht).2⟩
      · refine ⟨hentity ▸ trimmed_strip _, ?_⟩
        show ((s.externalResults.put (s.rowOf amb (a.record amb))).get ev.entityId).isSome
        rw [hentity, htrim, ← hkey, Table.get_put_self]
        rfl
    · have hrow : (s.externalResults.put (s.rowOf amb (a.record amb))).get e = some row := hrow
      rw [Table.get_put, hkey] at hrow
      split at hrow
      · next hk =>
        cases hrow
        rw [hk, ← htrim]
        exact hlisted.listed
      · next hk =>
        rcases hintro e row hin with hin | ⟨he, -⟩
        · obtain ⟨x, hx, hmem⟩ := h.awaited e row hrow hin hun
          exact hlisted.keeps _ x hx e hmem
        · exact absurd (he.trans htrim) hk

/-- One record is rewritten: it stays awaited if it is not over. -/
theorem awaited_rewritten {n : ExternalResultRecord} (h : s.AllAwaited)
    (hr : s'.externalResults = s.externalResults.put n)
    (hi : ∀ ev ∈ s'.walEvents, ev.payload.type = .toolIntentRecorded → ev ∈ s.walEvents)
    (hnormal : ∀ k c, s'.agentContexts.get k = some c → c.PendingNormal)
    (hothers : ∀ k c e, e ≠ n.executionId → s.agentContexts.get k = some c → e ∈ c.pendingExecutionIds →
      ∃ c', s'.agentContexts.get k = some c' ∧ e ∈ c'.pendingExecutionIds)
    (hnew : s'.Introduced n.executionId n → n.executionStatus.unresolved = true →
      ∃ c, s'.agentContexts.get (strip n.runId) = some c ∧ n.executionId ∈ c.pendingExecutionIds) :
    s'.AllAwaited := by
  refine ⟨hnormal, fun ev hev ht => ?_, fun e row hrow hin hun => ?_⟩
  · rw [hr]
    have hold := h.intents ev (hi ev hev ht) ht
    exact ⟨hold.1, Table.isSome_put hold.2⟩
  · rw [hr, Table.get_put] at hrow
    split at hrow
    · next hk =>
      cases hrow
      subst hk
      exact hnew hin hun
    · next hk =>
      obtain ⟨c, hc, hmem⟩ := h.awaited e row hrow (hin.mono rfl hi) hun
      exact hothers _ c e hk hc hmem

theorem awaited_dispatched {e : String} {row : ExternalResultRecord} (h : s.AllAwaited) (hs : s.Sound)
    (ho : (FacadeOp.recordToolDispatch runId e).KeepsAwaited s)
    (hfound : s.externalResults.get (strip e) = some row)
    (hmoves : ExecutionStatus.Moves row.executionStatus .dispatched) :
    ((s.addEvent (s.newEvent amb runId (.toolDispatched .dispatched (strip row.toolName)) "tool_intent"
      e)).putResult (s.rowOf amb { row.stripped with executionStatus := .dispatched })).AllAwaited := by
  have hid : strip row.executionId = strip e := by rw [Table.key_of_get hfound, strip_strip]
  have hintents : ∀ ev ∈ (s.addEvent (s.newEvent amb runId (.toolDispatched .dispatched (strip row.toolName))
      "tool_intent" e)).walEvents, ev.payload.type = .toolIntentRecorded → ev ∈ s.walEvents :=
    fun _ hev ht => mem_of_mem_addEvent hev ht (by nofun)
  refine awaited_rewritten (n := s.rowOf amb { row.stripped with executionStatus := .dispatched }) h rfl
    hintents h.normal (fun k c x _ hc hx => ⟨c, hc, hx⟩) (fun hin _ => ?_)
  have hin : s.Introduced (strip e) row := by
    rw [← hid]
    exact hin.mono (by show strip (strip row.runId) = _; rw [strip_strip]) hintents
  have hawaited : ∃ c, s.agentContexts.get (strip row.runId) = some c ∧ strip e ∈ c.pendingExecutionIds := by
    rcases hmoves.unresolved rfl with hun | hfailed
    · exact h.awaited _ row hfound hin hun
    · exact (h.listed hs hfound).1 (ho row hfound hin hfailed)
  obtain ⟨c, hc, hmem⟩ := hawaited
  refine ⟨c, ?_, ?_⟩
  · show s.agentContexts.get (strip (strip row.runId)) = some c
    rw [strip_strip]
    exact hc
  · show strip row.executionId ∈ _
    rw [hid]
    exact hmem

/-- What a result does to the pending lists: all stay normal, and keep all but its own execution;
one that does not clear keeps that too. -/
theorem PendingCleared.lists {a : ToolResult} {es : ExecutionStatus} (h : PendingCleared amb a es s s')
    (hn : ∀ k c, s.agentContexts.get k = some c → c.PendingNormal) :
    (∀ k c, s'.agentContexts.get k = some c → c.PendingNormal) ∧
      ∀ k c e, s.agentContexts.get k = some c → e ∈ c.pendingExecutionIds →
        e ≠ a.executionId ∨ a.clears es = false →
        ∃ c', s'.agentContexts.get k = some c' ∧ e ∈ c'.pendingExecutionIds := by
  cases h with
  | off => exact ⟨hn, fun k c e hc he _ => ⟨c, hc, he⟩⟩
  | absent => exact ⟨hn, fun k c e hc he _ => ⟨c, hc, he⟩⟩
  | dropped c ids hcl hc hin hids hsave =>
    have hkey : c.runId = strip a.runId := loadContext_runId hc
    obtain ⟨-, crow, hcrow, -, rfl⟩ := loadContext_ok.1 hc
    have hncrow := hn _ crow hcrow
    have hndec := hncrow.decoded
    have htrim : strip a.executionId = a.executionId := (hndec.texts _ hin).1
    refine ⟨fun k x hx => ?_, fun k x e hx he hkeep => ?_⟩
    · rw [Store.putContext_agentContexts, Table.get_put] at hx
      split at hx
      · cases hx
        refine ⟨fun y hy => ?_, ?_, .inr rfl⟩
        · have hy : y ∈ ids := hy
          rw [hids] at hy
          exact hndec.texts y (List.mem_filter.1 hy).1
        · show ids.Nodup
          rw [hids]
          exact hndec.nodup.filter _
      · exact hn k x hx
    · rw [Store.putContext_agentContexts, Table.get_put]
      split
      · next hk =>
        have hk : k = crow.decoded.runId := hk
        rw [hk, hkey] at hx
        have hx : s.agentContexts.get (strip a.runId) = some x := hx
        rw [hcrow] at hx
        cases hx
        refine ⟨_, rfl, ?_⟩
        show e ∈ ids
        rcases hkeep with hne | hclears
        · rw [hids, List.mem_filter, hncrow.decoded_ids, htrim]
          exact ⟨he, by simpa using hne⟩
        · rw [hcl] at hclears
          cases hclears
      · exact ⟨x, hx, he⟩

theorem awaited_resulted {a : ToolResult} {rs : ExternalResultStatus} {es : ExecutionStatus}
    {cached : Option ExternalResultRecord} {record : ExternalResultRecord} (h : s.AllAwaited) (hs : s.Sound)
    (ho : (FacadeOp.recordToolResult a).KeepsAwaited s) (hrs : parseResultStatus a.resultStatus = .ok rs)
    (hes : resolveExecutionStatus a.executionStatus rs = .ok es)
    (hget : s.getExternalResult a.executionId = .ok cached) (hcheck : a.check es cached = .ok ())
    (hrecord : a.record amb rs es cached = .ok record)
    (hcleared : PendingCleared amb a es ((s.addEvent (s.newEvent amb a.runId
      (.externalResultRecorded rs es record.toolName record.operationType record.planItemId
        a.responsePayload.isSome a.errorMessage) "external_result" a.executionId)).putResult
      (s.rowOf amb record)) s') : s'.AllAwaited := by
  obtain ⟨hid, hrun, hstatus, -, -⟩ := toolResult_record_ok hrecord
  obtain ⟨hnormal, hlists⟩ := hcleared.lists h.normal
  have hintents : ∀ ev ∈ s'.walEvents, ev.payload.type = .toolIntentRecorded → ev ∈ s.walEvents :=
    fun ev hev ht => mem_of_mem_addEvent (hcleared.intents ev hev ht) ht (by nofun)
  refine awaited_rewritten (n := s.rowOf amb record) h (by rw [hcleared.externalResults]; rfl) hintents hnormal
    (fun k c e he hc hmem => hlists k c e hc hmem (.inl (by rw [← hid]; exact he))) (fun hin hun => ?_)
  have hid' : (s.rowOf amb record).executionId = a.executionId := hid
  have hun : es.unresolved = true := by rw [← hstatus]; exact hun
  rw [hid'] at hin ⊢
  obtain ⟨ev, hev, hevrun, hmarks⟩ := hin
  obtain ⟨htrim, hsome⟩ := h.intents ev (hintents ev hev hmarks.1) hmarks.1
  rw [hmarks.2] at htrim hsome
  obtain ⟨row, hrow⟩ := Option.isSome_iff_exists.1 hsome
  obtain ⟨-, hlook⟩ := getExternalResult_ok.1 hget
  rw [htrim, hrow] at hlook
  obtain ⟨-, rfl⟩ := hlook
  unfold ToolResult.check at hcheck
  dsimp only at hcheck
  split at hcheck
  · cases hcheck
  · next hsame =>
    have hrowrun : strip row.runId = a.runId := not_not.1 hsame
    have hkey : strip (s.rowOf amb record).runId = strip row.runId := by
      show strip record.runId = _
      rw [hrun, ← hrowrun, strip_strip]
    have hin : s.Introduced a.executionId row := ⟨ev, hintents ev hev hmarks.1, hevrun.trans hkey, hmarks⟩
    obtain ⟨hclears, hfailed⟩ := ho rs es row hrs hes hun hrow hin
    have hmoves : ExecutionStatus.Moves row.executionStatus es := assertExecutionTransition_ok.1 hcheck
    have hawaited : ∃ c, s.agentContexts.get (strip row.runId) = some c ∧ a.executionId ∈ c.pendingExecutionIds := by
      rcases hmoves.unresolved hun with hopen | hretry
      · exact h.awaited _ row hrow hin hopen
      · exact (h.listed hs hrow).1 (hfailed hretry)
    obtain ⟨c, hc, hmem⟩ := hawaited
    rw [hkey]
    exact hlists _ c _ hc hmem (.inr hclears)

theorem Act.awaited (h : Act cfg amb o runId s owed s') (ho : o.KeepsAwaited s) (hs : s.Sound)
    (hawaited : s.AllAwaited) : s'.AllAwaited := by
  cases h with
  | idle hrun => exact hawaited
  | created a st out messages hst hout hmsgs hdec hcase => exact awaited_created hawaited ho hcase
  | replanned a st out c hst hout hplan hctx => exact hawaited.undisturbed planStarted_undisturbed
  | edited st st' out hedit hload hst hout =>
    refine hawaited.undisturbed (.trans (undisturbed_newEvent ?_) (undisturbed_putPlan _))
    cases hedit <;> nofun
  | intended a st st' out c hknown hload hst hout hctx hblank hsaved =>
    exact awaited_intended hawaited ho hctx hblank hsaved
  | dispatched runId e row hfound hrun hparent hmoves => exact awaited_dispatched hawaited hs ho hfound hmoves
  | resulted a rs es cached record hparent hrs hes hget hcheck hrecord hcleared =>
    exact awaited_resulted hawaited hs ho hrs hes hget hcheck hrecord hcleared

/-- The pending list of every context row is normal. -/
def Store.ListsNormal (s : Store) : Prop := ∀ k c, s.agentContexts.get k = some c → c.PendingNormal

theorem Act.listsNormal (h : Act cfg amb o runId s owed s') (hn : s.ListsNormal) : s'.ListsNormal := by
  cases h with
  | idle hrun => exact hn
  | created a st out messages hst hout hmsgs hdec hcase =>
    exact Table.forall_put (planStarted_undisturbed.contexts hn).2 (pendingNormal_nil rfl rfl)
  | replanned a st out c hst hout hplan hctx => exact (planStarted_undisturbed.contexts hn).2
  | edited st st' out hedit hload hst hout => exact hn
  | intended a st st' out c hknown hload hst hout hctx hblank hsaved =>
    exact (listed_awaiting hn hctx hblank hsaved.agentContexts).normal
  | dispatched runId e row hfound hrun hparent hmoves => exact hn
  | resulted a rs es cached record hparent hrs hes hget hcheck hrecord hcleared => exact (hcleared.lists hn).1

/-- Whatever the operations are, the pending lists stay normal. -/
theorem listsNormal_reachable (h : Relation.ReflTransGen (FacadeStep cfg fun _ _ => True) {} s) :
    s.ListsNormal := by
  induction h with
  | refl => exact fun _ _ h => nomatch h
  | tail _ hstep ih =>
    obtain ⟨amb, o, r, -, hx⟩ := hstep
    rcases exec_parts hx with ⟨rfl, -⟩ | ⟨runId, -, owed, s1, s2, s3, hact, hspoken, hsettled, hcp⟩
    · exact ih
    · have hquiet := hspoken.undisturbed.trans (hsettled.undisturbed.trans hcp.checkpointed.undisturbed)
      exact (hquiet.contexts (hact.listsNormal ih)).2

/-- One operation that drops nothing. -/
theorem awaited_step (h : FacadeStep cfg FacadeOp.KeepsAwaited s s') (hs : s.Sound) (hawaited : s.AllAwaited) :
    s'.AllAwaited := by
  obtain ⟨amb, o, r, ho, hx⟩ := h
  rcases exec_parts hx with ⟨rfl, -⟩ | ⟨runId, -, owed, s1, s2, s3, hact, hspoken, hsettled, hcp⟩
  · exact hawaited
  · have hquiet := hspoken.undisturbed.trans (hsettled.undisturbed.trans hcp.checkpointed.undisturbed)
    exact (hact.awaited ho hs hawaited).undisturbed hquiet

theorem awaited_reachable (h : Relation.ReflTransGen (FacadeStep cfg FacadeOp.KeepsAwaited) {} s) :
    s.Sound ∧ s.AllAwaited := by
  induction h with
  | refl => exact ⟨sound_empty, allAwaited_empty⟩
  | tail _ hstep ih =>
    refine ⟨?_, awaited_step hstep ih.1 ih.2⟩
    obtain ⟨amb, o, r, -, hx⟩ := hstep
    exact (exec_kept hx).sound ih.1

end

/-- **Unresolved executions are pending.**  While no operation drops one, every record an intent
introduced that is `INTENT_LOGGED`, `DISPATCHED` or `VERIFIED_NOT_FOUND` is on the pending list of
its run. -/
theorem unresolved_pending (cfg : LoggingServiceConfig) (s : Store)
    (h : Relation.ReflTransGen (FacadeStep cfg FacadeOp.KeepsAwaited) {} s) (e : String)
    (row : ExternalResultRecord) (hrow : s.externalResults.get e = some row) (hin : s.Introduced e row)
    (hun : row.executionStatus.unresolved = true) : s.Awaited e row := by
  obtain ⟨hs, hawaited⟩ := awaited_reachable h
  exact (hawaited.listed hs hrow).2 (hawaited.awaited e row hrow hin hun)

/-! ## The four steps, and a run without them -/

/-- The status of the record under this key and the pending list of the trip. -/
def awaitedAfter (key : String) (os : List FacadeOp) : Option (ExecutionStatus × List String) :=
  match execAll os {} with
  | .error _ => none
  | .ok s => match s.externalResults.get key, s.listPendingExecutions "trip" with
    | some row, .ok pending => some (row.executionStatus, pending)
    | _, _ => none

/-- A result of the trip with this status. -/
def tripResult (status : ExecutionStatus) (clearPending : Bool) : FacadeOp :=
  .recordToolResult {
    runId := "trip", executionId := "e", resultStatus := ExternalResultStatus.unknown.value,
    responsePayload := none, executionStatus := some status.value, clearPending := clearPending }

/-- Each of the four steps leaves an unresolved execution that is not pending: the default result
`VERIFIED_NOT_FOUND`, a retry out of `FAILED`, a reset of the run, and an intent under a padded id,
which goes on the list stripped and leaves it with the execution of that name. -/
theorem unresolved_dropped :
    awaitedAfter "e" (lifecycleOps "e" [] ++ [.recordToolDispatch "trip" "e", tripResult .verifiedNotFound true]) =
      some (.verifiedNotFound, []) ∧
    awaitedAfter "e" (lifecycleOps "e" [] ++ [tripResult .failed true, .recordToolDispatch "trip" "e"]) =
      some (.dispatched, []) ∧
    awaitedAfter "e" (lifecycleOps "e" [] ++ [.startRun { tripRun with forceReset := true }]) =
      some (.intentLogged, []) ∧
    awaitedAfter " e " (lifecycleOps " e " [] ++ (lifecycleOps "e" [.ok]).tail) = some (.intentLogged, []) := by
  decide +kernel

/-- The record "e" is there, introduced and unresolved. -/
def introducedAfter (os : List FacadeOp) : Bool :=
  match execAll os {} with
  | .error _ => false
  | .ok s => match s.externalResults.get "e" with
    | some row => s.Introduced "e" row && row.executionStatus.unresolved
    | none => false

/-- A new intent is pending. -/
theorem unresolved_pending_intent : ∃ s row, execAll (lifecycleOps "e" []) {} = .ok s ∧
    s.externalResults.get "e" = some row ∧ s.Awaited "e" row := by
  obtain ⟨s, hs⟩ : ∃ s, execAll (lifecycleOps "e" []) {} = .ok s := except_ok_of_toBool (by decide +kernel)
  have hin : introducedAfter (lifecycleOps "e" []) = true := by decide +kernel
  unfold introducedAfter at hin
  rw [hs] at hin
  dsimp only at hin
  have hos : ∀ o ∈ lifecycleOps "e" [], ∀ s, FacadeOp.KeepsAwaited s o := by
    intro o ho s
    unfold lifecycleOps at ho
    simp only [List.map_nil, List.append_nil, List.mem_cons, List.not_mem_nil, or_false] at ho
    rcases ho with rfl | rfl
    · intro hforce
      cases hforce
    · intro _
      show Trimmed "e"
      decide +kernel
  cases hrow : s.externalResults.get "e" with
  | none =>
    rw [hrow] at hin
    cases hin
  | some row =>
    rw [hrow] at hin
    dsimp only at hin
    rw [Bool.and_eq_true, decide_eq_true_eq] at hin
    exact ⟨s, row, hs, hrow, unresolved_pending {} s (execAll_reach hos hs) "e" row hrow hin.1 hin.2⟩

end Raef
