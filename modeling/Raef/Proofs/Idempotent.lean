import Raef.Proofs.Heard
import Raef.Proofs.Isolation
import Raef.Proofs.Replay

/-!
# A second pass changes nothing

A turn of a recovery pass touches one execution: its record, when the verifier has a verdict, and
the transcript, when a committed record has a response and no tool message.  After it there is
nothing left to do for this execution, and the turns on the others leave that so.

    one turn: the record and at most one message of its execution      (ends_recoverOne)
    a pass that returned leaves nothing to do                           (ends_recoverEach)
    nothing to do → the next pass leaves the store                      (still_recoverRun)
    complete transcript ↔ committed records no lookup finds are told    (recovery_idempotent)
-/

namespace Raef

open Text Txn Program

variable {τ : Type}

/-! ## Statements -/

/-- The answers of the verifier do not change. -/
def Environment.Constant (env : Environment τ) (answers : Probe → Option WriteVerification) : Prop :=
  ∀ probe target answer target', env.verify probe target answer target' → answer = answers probe

/-- The row is that of a committed execution with a response. -/
def ExternalResultRecord.Tellable (row : ExternalResultRecord) : Prop :=
  row.executionStatus.committed = true ∧ row.responsePayload.isSome

/-- Every committed execution of the run with a response has its tool message. -/
def Store.TranscriptComplete (s : Store) (runId : String) : Prop :=
  ∀ e row, s.externalResults.get e = some row → strip row.runId = strip runId → row.Tellable →
    s.Answered (strip runId) e

/-- A listing of the run does not look the id up: no row under the stripped run id has it, once stripped.
So it is for a padded execution id, and for a record alone under a padded run id. -/
def Store.Missed (s : Store) (runId e : String) : Prop :=
  ∀ id row, s.externalResults.get id = some row → row.runId = strip runId → strip id ≠ e

/-- Those that no listing looks up have theirs. -/
def Store.MissedTold (s : Store) (runId : String) : Prop :=
  ∀ e row, s.externalResults.get e = some row → strip row.runId = strip runId → row.Tellable →
    s.Missed runId e → s.Answered (strip runId) e

/-- The new messages are tool messages for executions taken, one for each, where there was none. -/
structure ToldOnce (taken : String → Prop) (before after added : List AgentMessage) : Prop where
  appended : after = before ++ added
  about : ∀ m ∈ added, ∃ e, taken e ∧ m.answers e ∧ ∀ m' ∈ before, ¬ m'.answers e
  once : added.Pairwise fun m m' => m.toolCallId ≠ m'.toolCallId

/-- A turn on the execution would neither write a verdict nor a message. -/
structure Store.Resolved (s : Store) (rc : RecoveryCoordinator) (runId : String) (now : Datetime)
    (answers : Probe → Option WriteVerification) (e : String) : Prop where
  answered : ∀ row, s.externalResults.get e = some row → row.Tellable → s.Answered (strip runId) e
  verified : ∀ row d, s.externalResults.get e = some row →
    decideRecovery rc.strategy runId e row.stripped now = .ok d →
    needsVerification rc row.stripped d = true →
    ∀ v, answers ⟨e, row.stripped.toolName, row.stripped.requestPayload⟩ = some v → v.committed = none

/-- What a turn on `e` may change: the record under `e`, and a message when there is none. -/
structure Turned (k e : String) (s s' : Store) : Prop where
  others : ∀ id, id ≠ e → s'.externalResults.get id = s.externalResults.get id
  found : (s'.externalResults.get e).isSome = (s.externalResults.get e).isSome
  contexts : ∀ j, (s.agentContexts.get j).isSome → (s'.agentContexts.get j).isSome
  told : s'.heard k = s.heard k ∨
    ∃ m, m.answers e ∧ ¬ s.Answered k e ∧ s'.heard k = s.heard k ++ [m]

section
variable {k e : String} {s s' s'' : Store}

theorem Turned.refl (s : Store) : Turned k e s s := ⟨fun _ _ => rfl, rfl, fun _ => id, .inl rfl⟩

theorem Store.Answered.append {l : List AgentMessage} (h : s.Answered k e) (hl : s'.heard k = s.heard k ++ l) :
    s'.Answered k e := by
  obtain ⟨m, hm, ha⟩ := h
  exact ⟨m, hl ▸ List.mem_append_left _ hm, ha⟩

theorem Turned.trans (h : Turned k e s s') (h' : Turned k e s' s'') : Turned k e s s'' := by
  refine ⟨fun id hid => (h'.others id hid).trans (h.others id hid), h'.found.trans h.found,
    fun j hj => h'.contexts j (h.contexts j hj), ?_⟩
  rcases h.told with hsame | ⟨m, hm, hnone, happ⟩
  · rcases h'.told with hsame' | ⟨m, hm, hnone, happ⟩
    · exact .inl (hsame'.trans hsame)
    · refine .inr ⟨m, hm, fun hans => hnone ?_, happ.trans (by rw [hsame])⟩
      unfold Store.Answered
      rw [hsame]
      exact hans
  · rcases h'.told with hsame' | ⟨m', hm', hnone', happ'⟩
    · exact .inr ⟨m, hm, hnone, hsame'.trans happ⟩
    · exact absurd ⟨m, happ ▸ List.mem_append_right _ (List.mem_singleton.2 rfl), hm⟩ hnone'

/-- A turn takes no tool message away. -/
theorem Turned.answered {id : String} (h : Turned k e s s') (ha : s.Answered k id) : s'.Answered k id := by
  rcases h.told with hsame | ⟨m, -, -, happ⟩
  · exact ha.append (hsame.trans (List.append_nil _).symm)
  · exact ha.append happ

end

/-! ## One turn -/

section
variable {cfg : LoggingServiceConfig} {env : Environment τ} {rc : RecoveryCoordinator} {runId e : String}
  {now : Datetime} {answers : Probe → Option WriteVerification} {w : World τ}

/-- An operation on the store, and what follows it. -/
theorem Ends.facade {α : Type} {Q : Except PyError α → World τ → Prop} {o : FacadeOp} {f : o.Res → Prog α}
    (hok : ∀ amb a s, o.exec cfg amb w.store = .ok (a, s) → Ends (sem cfg env) Q (f a) { w with store := s })
    (herr : ∀ e, Q (.error e) w) : Ends (sem cfg env) Q (Program.call (Op.facade o) >>= f) w := by
  intro r w' hs
  cases r with
  | ok a =>
    obtain ⟨amb, s, hx, rfl⟩ := sem_facade_ok.1 hs
    exact hok amb a s hx
  | error e =>
    rw [(sem_facade_error.1 hs).2]
    exact herr e

/-- A probe, and what follows its answer. -/
theorem Ends.verify {α : Type} {Q : Except PyError α → World τ → Prop} {probe : Probe}
    {f : Option WriteVerification → Prog α}
    (hok : ∀ answer target, env.verify probe w.target answer target → Ends (sem cfg env) Q (f answer) { w with
      target := target
      trace := w.trace ++ [.probed probe.executionId (answer.bind WriteVerification.committed)] }) :
    Ends (sem cfg env) Q (Program.call (Op.verify probe) >>= f) w := by
  intro r w' hs
  obtain ⟨answer, target, hanswer, rfl, rfl⟩ := sem_verify.1 hs
  exact hok answer target hanswer

theorem ends_emitHandoff (rc : RecoveryCoordinator) (d : RecoveryDecision) (w : World τ) :
    Ends (sem cfg env) (fun _ w' => w'.store = w.store) (emitHandoff rc d) w := by
  unfold emitHandoff
  split
  · intro r w' hs
    have hstore : w'.store = w.store := by
      rcases sem_handoff hs with rfl | ⟨keys, rfl⟩ <;> rfl
    cases r with
    | ok a => exact hstore
    | error err => exact hstore
  · exact rfl

/-- Completing the transcript of a run with a context. -/
theorem ends_reconcileToolMessage {record : ExternalResultRecord} (he : record.executionId = e)
    (hctx : (w.store.agentContexts.get (strip runId)).isSome) :
    Ends (sem cfg env) (fun x w' => Turned (strip runId) e w.store w'.store ∧
      w'.store.externalResults = w.store.externalResults ∧
      (x = .ok () → record.responsePayload.isSome → w'.store.Answered (strip runId) e))
      (reconcileToolMessage runId record) w := by
  unfold reconcileToolMessage
  cases hp : record.responsePayload with
  | none => exact ⟨.refl _, rfl, fun _ h => by cases h⟩
  | some responsePayload =>
    refine Ends.facade (fun amb context s hx => ?_) fun _ => ⟨.refl _, rfl, fun h => by cases h⟩
    obtain ⟨hload, rfl⟩ := FacadeOp.exec_loadContext.1 hx
    cases context with
    | none =>
      rw [loadContext_none hload] at hctx
      cases hctx
    | some c =>
      have hheard := loadContext_heard hload
      dsimp only
      split
      · next hany =>
        obtain ⟨m, hm, hans⟩ := List.any_eq_true.1 hany
        simp only [Bool.and_eq_true, decide_eq_true_eq] at hans
        exact ⟨.refl _, rfl, fun _ _ => ⟨m, hheard ▸ hm, hans.1, he ▸ hans.2⟩⟩
      · next hnone =>
        have hnot : ¬ w.store.Answered (strip runId) e := by
          rintro ⟨m, hm, hrole, hcall⟩
          refine hnone (List.any_eq_true.2 ⟨m, hheard ▸ hm, ?_⟩)
          simp [hrole, hcall, he]
        refine Ends.facade (fun amb out s hx => ?_) fun _ => ⟨.refl _, rfl, fun h => by cases h⟩
        have hframed := exec_framed rfl hx
        have happ := message_heard (k := strip runId) hx
        rw [if_pos (show strip runId = strip (reconciledMessage runId record responsePayload).runId from rfl)] at happ
        have hanswers : (((reconciledMessage runId record responsePayload).stored amb).stripped).answers e :=
          ⟨show strip "tool" = "tool" by decide +kernel, congrArg some he⟩
        refine ⟨⟨fun id _ => by rw [hframed.externalResults], by rw [hframed.externalResults],
          (exec_kept hx).contexts, .inr ⟨_, hanswers, hnot, happ⟩⟩, hframed.externalResults, fun _ _ => ?_⟩
        exact ⟨_, happ ▸ List.mem_append_right _ (List.mem_singleton.2 rfl), hanswers⟩

theorem executionId_stripped {s : Store} {row : ExternalResultRecord} (he : Trimmed e)
    (hrow : s.externalResults.get e = some row) : row.stripped.executionId = e := by
  show strip row.executionId = e
  rw [Table.key_of_get hrow, he]

/-- What follows a decision resolves the execution, when a committed record is decided as one. -/
theorem ends_actOn {row : ExternalResultRecord} {d : RecoveryDecision} (he : Trimmed e)
    (hctx : (w.store.agentContexts.get (strip runId)).isSome)
    (hrow : w.store.externalResults.get e = some row) (htell : row.Tellable → d.action = .markCommitted)
    (hver : ∀ d', decideRecovery rc.strategy runId e row.stripped now = .ok d' →
      needsVerification rc row.stripped d' = true →
      ∀ v, answers ⟨e, row.stripped.toolName, row.stripped.requestPayload⟩ = some v → v.committed = none) :
    Ends (sem cfg env) (fun x w' => Turned (strip runId) e w.store w'.store ∧
      (x = .ok () → w'.store.Resolved rc runId now answers e)) (actOn rc runId d row.stripped) w := by
  have hstill : d.action ≠ .markCommitted → w.store.Resolved rc runId now answers e := by
    intro hne
    refine ⟨fun row' hrow' ht => ?_, fun row' d' hrow' => ?_⟩
    · rw [hrow] at hrow'
      cases hrow'
      exact absurd (htell ht) hne
    · rw [hrow] at hrow'
      cases hrow'
      exact hver d'
  unfold actOn
  cases hact : d.action with
  | markCommitted =>
    refine (ends_reconcileToolMessage (executionId_stripped he hrow) hctx).mono fun x w' h => ?_
    obtain ⟨hturned, hresults, hanswered⟩ := h
    refine ⟨hturned, fun hx => ⟨fun row' hrow' ht => ?_, fun row' d' hrow' => ?_⟩⟩
    · rw [hresults, hrow] at hrow'
      cases hrow'
      exact hanswered hx ht.2
    · rw [hresults, hrow] at hrow'
      cases hrow'
      exact hver d'
  | handoffRetryOrAbandon =>
    refine (ends_emitHandoff rc d w).mono fun x w' hstore => ?_
    rw [hstore]
    exact ⟨.refl _, fun _ => hstill (by rw [hact]; decide)⟩
  | resumeWaiting => exact ⟨.refl _, fun _ => hstill (by rw [hact]; decide)⟩
  | replay => exact ⟨.refl _, fun _ => hstill (by rw [hact]; decide)⟩

/-- The verdict is recorded: the record under `e` has its status, and no transcript changes. -/
theorem verdict_turned {v : WriteVerification} {b : Bool} {amb : Ambient} {r : ExternalResultRecord} {s s' : Store}
    (hfound : (s.externalResults.get e).isSome)
    (h : recordToolResult cfg amb (verdictResult runId e v b) s = .ok (r, s')) :
    Turned (strip runId) e s s' ∧ ∃ new, s'.externalResults.get e = some new ∧ r = new.stripped ∧
      new.executionStatus = verdictStatus b := by
  obtain ⟨es, new, hres, rfl⟩ := result_records h
  have hkey : new.executionId = e := hres.executionId.trans (verdictResult_executionId runId e v b)
  have hstatus := hres.status_eq (verdictResult_status runId e v b)
  have hget : s'.externalResults.get e = some new := by
    rw [hres.externalResults, ← hkey]
    exact Table.get_put_self _ new
  refine ⟨⟨fun id hid => ?_, by rw [hget, hfound]; rfl,
    (exec_kept (FacadeOp.exec_recordToolResult.2 h)).contexts, .inl (result_heard h)⟩, new, hget, rfl, ?_⟩
  · rw [hres.externalResults, Table.get_put, if_neg (fun hk => hid (hk.trans hkey))]
  · rw [hres.executionStatus, hstatus]

/-- What a decision on a record leaves, verified or not, is ready to be acted on. -/
theorem ends_settle (henv : env.Constant answers) {row : ExternalResultRecord} {decision : RecoveryDecision}
    (hrow : w.store.externalResults.get e = some row)
    (hdec : decideRecovery rc.strategy runId e row.stripped now = .ok decision) :
    Ends (sem cfg env) (fun x w' => Turned (strip runId) e w.store w'.store ∧ ∀ p, x = .ok p →
      ∃ row', w'.store.externalResults.get e = some row' ∧ p.2 = row'.stripped ∧
        (row'.Tellable → p.1.action = .markCommitted) ∧
        ∀ d', decideRecovery rc.strategy runId e row'.stripped now = .ok d' →
          needsVerification rc row'.stripped d' = true →
          ∀ v, answers ⟨e, row'.stripped.toolName, row'.stripped.requestPayload⟩ = some v → v.committed = none)
      (settle rc runId e row.stripped decision) w := by
  have hsame : ∀ w' : World τ, w'.store = w.store →
      (∀ v, needsVerification rc row.stripped decision = true →
        answers ⟨e, row.stripped.toolName, row.stripped.requestPayload⟩ = some v → v.committed = none) →
      Turned (strip runId) e w.store w'.store ∧ ∀ p : RecoveryDecision × ExternalResultRecord,
        Except.ok (ε := PyError) (decision, row.stripped) = .ok p →
        ∃ row', w'.store.externalResults.get e = some row' ∧ p.2 = row'.stripped ∧
          (row'.Tellable → p.1.action = .markCommitted) ∧
          ∀ d', decideRecovery rc.strategy runId e row'.stripped now = .ok d' →
            needsVerification rc row'.stripped d' = true →
            ∀ v, answers ⟨e, row'.stripped.toolName, row'.stripped.requestPayload⟩ = some v →
              v.committed = none := by
    intro w' hstore hver
    rw [hstore]
    refine ⟨.refl _, fun p hp => ?_⟩
    cases hp
    refine ⟨row, hrow, rfl, fun ht => (decideRecovery_ok hdec).markCommitted_iff.2 ht.1, fun d' hd' hneeds v hv => ?_⟩
    rw [hdec] at hd'
    cases hd'
    exact hver v hneeds hv
  unfold settle
  split
  · unfold verifyAmbiguousWrite
    refine Ends.verify fun answer target hanswer => ?_
    have hanswer := henv _ _ _ _ hanswer
    cases answer with
    | none =>
      refine hsame _ rfl fun v _ hv => ?_
      rw [hv] at hanswer
      cases hanswer
    | some v =>
      dsimp only
      cases hc : v.committed with
      | none =>
        refine hsame _ rfl fun v' _ hv => ?_
        rw [hv] at hanswer
        cases hanswer
        exact hc
      | some b =>
        refine Ends.facade (fun amb updated s hx => ?_) fun _ => ⟨.refl _, fun p hp => by cases hp⟩
        obtain ⟨hturned, new, hget, rfl, hstatus⟩ := verdict_turned (hrow ▸ rfl) (FacadeOp.exec_recordToolResult.1 hx)
        refine ⟨hturned, fun p hp => ?_⟩
        cases hp
        refine ⟨new, hget, rfl, fun ht => ?_, fun d' _ hneeds => ?_⟩
        · have hcommitted := ht.1
          rw [hstatus] at hcommitted
          cases b with
          | true => rfl
          | false => cases hcommitted
        · unfold needsVerification at hneeds
          simp only [Bool.and_eq_true, decide_eq_true_eq] at hneeds
          have hdisp : new.executionStatus = .dispatched := hneeds.2
          rw [hstatus] at hdisp
          cases b <;> cases hdisp
  · next hneeds => exact hsame w rfl fun v hn _ => absurd hn hneeds

/-- The records of a pass are those under their ids, for the ids it has still to take. -/
def Lists (records : List ExternalResultRecord) (s : Store) (e : String) : Prop :=
  ∀ record, recordOf records e = some record → Trimmed e ∧
    ∃ row, s.externalResults.get e = some row ∧ record = row.stripped

/-- One turn: its execution is resolved, and nothing else has changed. -/
theorem ends_recoverOne (henv : env.Constant answers) {records : List ExternalResultRecord}
    (hrec : Lists records w.store e) (hctx : (w.store.agentContexts.get (strip runId)).isSome) :
    Ends (sem cfg env) (fun x w' => (recordOf records e = none → w'.store = w.store) ∧
      Turned (strip runId) e w.store w'.store ∧ ((recordOf records e).isSome →
        ∀ d, x = .ok d → w'.store.Resolved rc runId now answers e)) (recoverOne rc runId now records e) w := by
  unfold recoverOne
  cases hr : recordOf records e with
  | none =>
    have hstill : ∀ w' : World τ, w'.store = w.store → Turned (strip runId) e w.store w'.store :=
      fun w' hstore => hstore ▸ .refl _
    exact (ends_emitHandoff rc _ w).bind
      (fun _ w' hstore => ⟨fun _ => hstore, hstill w' hstore, fun h => by cases h⟩)
      fun _ w' hstore => ⟨fun _ => hstore, hstill w' hstore, fun h => by cases h⟩
  | some record =>
    obtain ⟨he, row, hrow, rfl⟩ := hrec record hr
    dsimp only
    cases hdec : decideRecovery rc.strategy runId e row.stripped now with
    | error err => exact ⟨fun _ => rfl, .refl _, fun _ d hd => by cases hd⟩
    | ok decision =>
      rw [lift_ok_bind]
      refine (ends_settle henv hrow hdec).bind (fun p w1 h => ?_)
        fun _ w1 h => ⟨fun hn => (by cases hn), h.1, fun _ d hd => by cases hd⟩
      obtain ⟨hturned, hp⟩ := h
      obtain ⟨row', hrow', hp2, htell, hver⟩ := hp p rfl
      rw [hp2]
      refine (ends_actOn he (hturned.contexts _ hctx) hrow' htell hver).bind (fun _ w2 h2 => ?_) fun _ w2 h2 => ?_
      · exact ⟨fun hn => (by cases hn), hturned.trans h2.1, fun _ _ _ => h2.2 rfl⟩
      · exact ⟨fun hn => (by cases hn), hturned.trans h2.1, fun _ d hd => by cases hd⟩

/-! ## The pass -/

/-- What a pass that took these executions leaves. -/
structure Passed (rc : RecoveryCoordinator) (runId : String) (now : Datetime)
    (answers : Probe → Option WriteVerification) (taken : String → Prop) (s s' : Store) : Prop where
  touched : ∀ id, s'.externalResults.get id ≠ s.externalResults.get id → taken id
  found : ∀ id, (s'.externalResults.get id).isSome = (s.externalResults.get id).isSome
  contexts : ∀ j, (s.agentContexts.get j).isSome → (s'.agentContexts.get j).isSome
  told : ∃ added, ToldOnce taken (s.heard (strip runId)) (s'.heard (strip runId)) added
  resolved : ∀ e, taken e → s'.Resolved rc runId now answers e

theorem passed_none {s : Store} : Passed rc runId now answers (fun _ => False) s s := by
  refine ⟨fun _ h => absurd rfl h, fun _ => rfl, fun _ => id, ⟨[], (List.append_nil _).symm, ?_, .nil⟩,
    fun _ h => h.elim⟩
  intro m hm
  cases hm

/-- A turn before a pass that does not take its execution. -/
theorem Passed.cons {taken taken' : String → Prop} {s s1 s2 : Store} (h1 : Turned (strip runId) e s s1)
    (hrest : ¬ taken e) (htaken : ∀ id, taken id → taken' id) (hone : ∀ id, taken' id → id ≠ e → taken id)
    (hsame : ¬ taken' e → s1 = s) (hres : taken' e → s1.Resolved rc runId now answers e)
    (h2 : Passed rc runId now answers taken s1 s2) : Passed rc runId now answers taken' s s2 := by
  obtain ⟨added, hadded⟩ := h2.told
  have hunder : s2.externalResults.get e = s1.externalResults.get e := by
    by_contra hne
    exact hrest (h2.touched e hne)
  refine ⟨fun id hid => ?_, fun id => (h2.found id).trans ?_, fun j hj => h2.contexts j (h1.contexts j hj), ?_,
    fun id hid => ?_⟩
  · by_cases hide : id = e
    · subst hide
      by_contra hnot
      exact hid (by rw [hunder, hsame hnot])
    · refine htaken id (h2.touched id ?_)
      rw [h1.others id hide]
      exact hid
  · by_cases hide : id = e
    · subst hide
      exact h1.found
    · rw [h1.others id hide]
  · rcases h1.told with hheard | ⟨m, hm, hnone, happ⟩
    · refine ⟨added, by rw [hadded.appended, hheard], fun x hx => ?_, hadded.once⟩
      obtain ⟨id, hid, hx1, hx2⟩ := hadded.about x hx
      exact ⟨id, htaken id hid, hx1, hheard ▸ hx2⟩
    · have htake : taken' e := by
        by_contra hnot
        rw [hsame hnot] at happ
        have hlen := congrArg List.length happ
        rw [List.length_append, List.length_singleton] at hlen
        omega
      refine ⟨m :: added, by rw [hadded.appended, happ, List.append_assoc]; rfl, fun x hx => ?_, ?_⟩
      · rcases List.mem_cons.1 hx with rfl | hx
        · exact ⟨e, htake, hm, fun x' hx' ha => hnone ⟨x', hx', ha⟩⟩
        · obtain ⟨id, hid, hx1, hx2⟩ := hadded.about x hx
          exact ⟨id, htaken id hid, hx1, fun x' hx' => hx2 x' (happ ▸ List.mem_append_left _ hx')⟩
      · refine List.pairwise_cons.2 ⟨fun x hx hcall => ?_, hadded.once⟩
        obtain ⟨id, hid, hx1, -⟩ := hadded.about x hx
        rw [hm.2, hx1.2] at hcall
        cases hcall
        exact hrest hid
  · by_cases hide : id = e
    · subst hide
      have hr := hres hid
      refine ⟨fun row hrow ht => ?_, fun row d hrow => ?_⟩
      · rw [hunder] at hrow
        exact (hr.answered row hrow ht).append hadded.appended
      · rw [hunder] at hrow
        exact hr.verified row d hrow
    · exact h2.resolved id (hone id hid hide)

/-- The executions a pass takes: those of its ids that have a record. -/
def TakenOf (records : List ExternalResultRecord) (ids : List String) (e : String) : Prop :=
  e ∈ ids ∧ (recordOf records e).isSome

theorem ends_recoverEach (henv : env.Constant answers) {records : List ExternalResultRecord} (ids : List String)
    (hnodup : ids.Nodup) (hrec : ∀ e ∈ ids, Lists records w.store e)
    (hctx : (w.store.agentContexts.get (strip runId)).isSome) :
    Ends (sem cfg env) (fun x w' => ∀ ds, x = .ok ds →
      Passed rc runId now answers (TakenOf records ids) w.store w'.store)
      (recoverEach rc runId now records ids) w := by
  induction ids generalizing w with
  | nil =>
    intro _ _
    have hnone : TakenOf records [] = fun _ => False := funext fun e => by simp [TakenOf]
    rw [hnone]
    exact passed_none
  | cons e es ih =>
    obtain ⟨he, hes⟩ := List.nodup_cons.1 hnodup
    unfold recoverEach
    refine (ends_recoverOne henv (hrec e List.mem_cons_self) hctx).bind (fun d w1 h1 => ?_)
      fun _ _ _ ds hds => by cases hds
    obtain ⟨hnone, hturned, hres⟩ := h1
    have hlists : ∀ e' ∈ es, Lists records w1.store e' := by
      intro e' he' record hr
      obtain ⟨ht, row, hrow, hrecord⟩ := hrec e' (List.mem_cons_of_mem _ he') record hr
      have hne : e' ≠ e := fun h => he (h ▸ he')
      exact ⟨ht, row, by rw [hturned.others e' hne]; exact hrow, hrecord⟩
    refine (ih hes hlists (hturned.contexts _ hctx)).bind (fun ds w2 h2 => ?_) fun _ _ _ ds hds => by cases hds
    intro _ _
    refine (h2 ds rfl).cons hturned (fun h => he h.1) (fun id h => ⟨List.mem_cons_of_mem _ h.1, h.2⟩)
      (fun id h hne => ⟨(List.mem_cons.1 h.1).resolve_left hne, h.2⟩) (fun hnot => hnone ?_)
      fun h => hres h.2 d rfl
    by_contra hsome
    exact hnot ⟨List.mem_cons_self, Option.isSome_iff_ne_none.2 hsome⟩

/-! ## A pass with nothing to do -/

/-- A committed record whose tool message is there, or that has no response. -/
theorem still_reconcileToolMessage {record : ExternalResultRecord} (he : record.executionId = e)
    (hans : record.responsePayload.isSome → w.store.Answered (strip runId) e) :
    Ends (sem cfg env) (fun _ w' => w'.store = w.store) (reconcileToolMessage runId record) w := by
  unfold reconcileToolMessage
  cases hp : record.responsePayload with
  | none => exact rfl
  | some responsePayload =>
    refine Ends.facade (fun amb context s hx => ?_) fun _ => rfl
    obtain ⟨hload, rfl⟩ := FacadeOp.exec_loadContext.1 hx
    cases context with
    | none => exact rfl
    | some c =>
      obtain ⟨m, hm, hrole, hcall⟩ := hans (by rw [hp]; rfl)
      have hany : (c.messages.any fun m => m.role = "tool" && m.toolCallId = some record.executionId) = true := by
        refine List.any_eq_true.2 ⟨m, loadContext_heard hload ▸ hm, ?_⟩
        simp [hrole, hcall, he]
      dsimp only
      rw [if_pos hany]
      exact rfl

/-- Acting on what was decided for a resolved record. -/
theorem still_actOn {row : ExternalResultRecord} {d : RecoveryDecision} (he : Trimmed e)
    (hrow : w.store.externalResults.get e = some row) (hcommitted : d.action = .markCommitted →
      row.executionStatus.committed = true) (hres : w.store.Resolved rc runId now answers e) :
    Ends (sem cfg env) (fun _ w' => w'.store = w.store) (actOn rc runId d row.stripped) w := by
  unfold actOn
  cases hact : d.action with
  | markCommitted =>
    exact still_reconcileToolMessage (executionId_stripped he hrow)
      fun hp => hres.answered row hrow ⟨hcommitted hact, hp⟩
  | handoffRetryOrAbandon => exact ends_emitHandoff rc d w
  | resumeWaiting => exact rfl
  | replay => exact rfl

/-- A turn on a resolved execution leaves the store, however it ends. -/
theorem still_recoverOne (henv : env.Constant answers) {records : List ExternalResultRecord}
    (hrec : Lists records w.store e) (hres : (recordOf records e).isSome → w.store.Resolved rc runId now answers e) :
    Ends (sem cfg env) (fun _ w' => w'.store = w.store) (recoverOne rc runId now records e) w := by
  unfold recoverOne
  cases hr : recordOf records e with
  | none => exact (ends_emitHandoff rc _ w).bind (fun _ _ h => h) fun _ _ h => h
  | some record =>
    obtain ⟨he, row, hrow, rfl⟩ := hrec record hr
    have hres := hres (by rw [hr]; rfl)
    dsimp only
    cases hdec : decideRecovery rc.strategy runId e row.stripped now with
    | error err => exact rfl
    | ok decision =>
      rw [lift_ok_bind]
      have hsettle : Ends (sem cfg env) (fun x w' => w'.store = w.store ∧ ∀ p, x = .ok p →
          p = (decision, row.stripped)) (settle rc runId e row.stripped decision) w := by
        unfold settle
        split
        · next hneeds =>
          unfold verifyAmbiguousWrite
          refine Ends.verify fun answer target hanswer => ?_
          have hanswer := henv _ _ _ _ hanswer
          cases answer with
          | none => exact ⟨rfl, fun p hp => (Except.ok.inj hp).symm⟩
          | some v =>
            dsimp only
            rw [hres.verified row decision hrow hdec hneeds v hanswer.symm]
            exact ⟨rfl, fun p hp => (Except.ok.inj hp).symm⟩
        · exact ⟨rfl, fun p hp => (Except.ok.inj hp).symm⟩
      refine hsettle.bind (fun p w1 h1 => ?_) fun _ _ h => h.1
      obtain ⟨hstore, hp⟩ := h1
      cases hp p rfl
      have hcommitted : decision.action = .markCommitted → row.executionStatus.committed = true :=
        (decideRecovery_ok hdec).markCommitted_iff.1
      refine (still_actOn he (hstore ▸ hrow) hcommitted (hstore ▸ hres)).bind
        (fun _ w2 h2 => ?_) fun _ w2 h2 => h2.trans hstore
      exact h2.trans hstore

theorem still_recoverEach (henv : env.Constant answers) {records : List ExternalResultRecord} (ids : List String)
    (hrec : ∀ e ∈ ids, Lists records w.store e)
    (hres : ∀ e ∈ ids, (recordOf records e).isSome → w.store.Resolved rc runId now answers e) :
    Ends (sem cfg env) (fun _ w' => w'.store = w.store) (recoverEach rc runId now records ids) w := by
  induction ids generalizing w with
  | nil => exact rfl
  | cons e es ih =>
    unfold recoverEach
    refine (still_recoverOne henv (hrec e List.mem_cons_self) (hres e List.mem_cons_self)).bind
      (fun d w1 h1 => ?_) fun _ _ h => h
    refine (ih (fun e' he' => ?_) fun e' he' => ?_).bind (fun _ w2 h2 => ?_) fun _ w2 h2 => h2.trans h1
    · rw [h1]
      exact hrec e' (List.mem_cons_of_mem _ he')
    · rw [h1]
      exact hres e' (List.mem_cons_of_mem _ he')
    · exact h2.trans h1

/-! ## From one pass to the next -/

/-- A listed record is the one under its id. -/
theorem lists_listed {s : Store} {records : List ExternalResultRecord}
    (h : s.listExternalResults runId = .ok records) (e : String) : Lists records s e := by
  intro record hr
  obtain ⟨hmem, hid⟩ := recordOf_some hr
  obtain ⟨ht, row, hrow, -, hrecord⟩ := listed_row h hmem
  rw [hid] at ht hrow
  exact ⟨ht, row, hrow, hrecord⟩

/-- The ids a listing has: those under which a row of the run is looked up. -/
theorem recordOf_listing {s : Store} {records : List ExternalResultRecord}
    (h : s.listExternalResults runId = .ok records) : (recordOf records e).isSome ↔
      ∃ id row, s.externalResults.get id = some row ∧ row.runId = strip runId ∧ strip id = e ∧
        (s.externalResults.get e).isSome := by
  obtain ⟨-, -, hget⟩ := listExternalResults_ok h
  obtain ⟨hlook, hmem⟩ := getExternalResults_ok hget
  rw [recordOf_isSome]
  constructor
  · rintro ⟨record, hrecord, rfl⟩
    obtain ⟨id, own, row, hown, hrun, hid, hrow, -, -⟩ := listed_from h hrecord
    refine ⟨id, own, hown, hrun, hid.symm, ?_⟩
    rw [hid, hrow]
    rfl
  · rintro ⟨id, row, hrow, hrun, rfl, hsome⟩
    have hid : id ∈ s.executionIdsOf (strip runId) := mem_executionIdsOf.2 ⟨row, hrow, hrun⟩
    obtain ⟨o, ho⟩ := hlook id hid
    obtain ⟨row', hrow'⟩ := Option.isSome_iff_exists.1 hsome
    have hfound := (getExternalResult_ok.1 ho).2
    rw [hrow'] at hfound
    obtain ⟨-, rfl⟩ := hfound
    refine ⟨row'.stripped, (hmem _).2 ⟨id, hid, ho⟩, ?_⟩
    show strip row'.executionId = strip id
    rw [Table.key_of_get hrow', strip_strip]

/-- A pass over a run with a context that returned has taken the recorded candidates. -/
theorem ends_recoverRun (henv : env.Constant answers) (w : World τ) :
    Ends (sem cfg env) (fun x w' => ∀ ds, x = .ok ds →
      (w.store.loadContext runId = .ok none ∧ w'.store = w.store) ∨ ∃ records pending,
        w.store.listExternalResults runId = .ok records ∧
        Passed rc runId now answers (TakenOf records (candidateIds records pending)) w.store w'.store)
      (recoverRun rc runId now) w := by
  unfold recoverRun
  refine Ends.facade (fun amb context s hx => ?_) fun _ ds hds => by cases hds
  obtain ⟨hload, rfl⟩ := FacadeOp.exec_loadContext.1 hx
  cases context with
  | none => exact fun _ _ => .inl ⟨hload, rfl⟩
  | some c =>
    refine Ends.facade (fun amb records s hx => ?_) fun _ ds hds => by cases hds
    obtain ⟨hlist, rfl⟩ := FacadeOp.exec_listExternalResults.1 hx
    refine Ends.facade (fun amb pending s hx => ?_) fun _ ds hds => by cases hds
    obtain ⟨-, rfl⟩ := FacadeOp.exec_listPendingExecutions.1 hx
    obtain ⟨-, row, hrow, -⟩ := loadContext_ok.1 hload
    refine (ends_recoverEach henv _ (nodup_candidateIds records pending)
      (fun e _ => lists_listed hlist e) (hrow ▸ rfl)).mono fun x w' h ds hds => ?_
    exact .inr ⟨records, pending, hlist, h ds hds⟩

theorem mem_candidates_of_record {records : List ExternalResultRecord} {pending : List String}
    (h : (recordOf records e).isSome) : TakenOf records (candidateIds records pending) e := by
  obtain ⟨record, hmem, hid⟩ := recordOf_isSome.1 h
  exact ⟨mem_candidateIds.2 (.inl ⟨record, hmem, hid⟩), h⟩

/-- What a pass has taken is resolved for every listing of the store it leaves. -/
theorem Passed.resolves {records records' : List ExternalResultRecord} {pending : List String} {s s' : Store}
    (hlist : s.listExternalResults runId = .ok records)
    (h : Passed rc runId now answers (TakenOf records (candidateIds records pending)) s s')
    (hlist' : s'.listExternalResults runId = .ok records') (hsome : (recordOf records' e).isSome) :
    s'.Resolved rc runId now answers e := by
  obtain ⟨id, row, hrow, hrun, rfl, hfound⟩ := (recordOf_listing hlist').1 hsome
  by_cases hsame : s'.externalResults.get id = s.externalResults.get id
  · refine h.resolved _ (mem_candidates_of_record ((recordOf_listing hlist).2 ?_))
    exact ⟨id, row, hsame ▸ hrow, hrun, rfl, (h.found _) ▸ hfound⟩
  · -- a record that was changed sits under a stripped id
    have htaken := h.touched id hsame
    obtain ⟨record, hr⟩ := Option.isSome_iff_exists.1 htaken.2
    have hid : Trimmed id := (lists_listed hlist id record hr).1
    rw [hid]
    exact h.resolved id htaken

/-- The pass after a pass that returned leaves the store. -/
theorem still_recoverRun (henv : env.Constant answers) {s : Store} {w : World τ}
    (h : (s.loadContext runId = .ok none ∧ w.store = s) ∨ ∃ records pending,
      s.listExternalResults runId = .ok records ∧
      Passed rc runId now answers (TakenOf records (candidateIds records pending)) s w.store) :
    Ends (sem cfg env) (fun _ w' => w'.store = w.store) (recoverRun rc runId now) w := by
  unfold recoverRun
  refine Ends.facade (fun amb context s1 hx => ?_) fun _ => rfl
  obtain ⟨hload, rfl⟩ := FacadeOp.exec_loadContext.1 hx
  cases context with
  | none => exact rfl
  | some c =>
    refine Ends.facade (fun amb records' s1 hx => ?_) fun _ => rfl
    obtain ⟨hlist', rfl⟩ := FacadeOp.exec_listExternalResults.1 hx
    refine Ends.facade (fun amb pending' s1 hx => ?_) fun _ => rfl
    obtain ⟨-, rfl⟩ := FacadeOp.exec_listPendingExecutions.1 hx
    refine still_recoverEach henv _ (fun e _ => lists_listed hlist' e) fun e _ hsome => ?_
    rcases h with ⟨hnone, rfl⟩ | ⟨records, pending, hlist, hpassed⟩
    · rw [hload] at hnone
      cases hnone
    · exact hpassed.resolves hlist hlist' hsome

end

/-! ## Records belong to runs with a context -/

/-- Every record names a run with a context row. -/
def Store.Parented (s : Store) : Prop :=
  ∀ e row, s.externalResults.get e = some row → (s.agentContexts.get row.runId).isSome

section
variable {cfg : LoggingServiceConfig} {amb : Ambient} {o : FacadeOp} {runId : String} {s s' : Store}
  {owed : Option PlannerState}

/-- The record an act writes, if it writes one, belongs to a run that has a context already. -/
theorem Act.parented (h : Act cfg amb o runId s owed s') :
    s'.externalResults = s.externalResults ∨ ∃ new, s'.externalResults = s.externalResults.put new ∧
      (s.agentContexts.get new.runId).isSome := by
  cases h with
  | idle => exact .inl rfl
  | created => exact .inl rfl
  | replanned => exact .inl rfl
  | edited => exact .inl rfl
  | intended a st st' out c hknown hload hst hout hctx hblank hsaved =>
    cases hsaved with
    | present => exact .inl rfl
    | written hnone hfk hdec =>
      refine .inr ⟨s.rowOf amb (a.record amb), rfl, ?_⟩
      have hfk : ((s.agentContexts.put (c.awaiting amb a.executionId)).get a.runId).isSome := hfk
      rw [Table.get_put] at hfk
      split at hfk
      · next hkey =>
        obtain ⟨-, row, hrow, -⟩ := loadContext_ok.1 hctx
        have hown : (c.awaiting amb a.executionId).runId = strip a.runId :=
          show c.runId = strip a.runId from loadContext_runId hctx
        have hrun : a.runId = strip a.runId := hkey.trans hown
        show (s.agentContexts.get a.runId).isSome
        rw [hrun, hrow]
        rfl
      · exact hfk
  | dispatched _ e row hfound hrun hparent hmoves =>
    refine .inr ⟨_, rfl, ?_⟩
    show (s.agentContexts.get (strip row.runId)).isSome
    rw [hrun]
    exact hparent
  | resulted a rs es cached record hparent hrs hes hget hcheck hrecord hcleared =>
    refine .inr ⟨s.rowOf amb record, by rw [hcleared.externalResults]; rfl, ?_⟩
    show (s.agentContexts.get record.runId).isSome
    rw [(toolResult_record_ok hrecord).2.1]
    exact hparent

theorem parented_step {allowed : Store → FacadeOp → Prop} (h : FacadeStep cfg allowed s s') (hs : s.Parented) :
    s'.Parented := by
  obtain ⟨amb, o, r, -, hx⟩ := h
  have hkept := (exec_kept hx).contexts
  rcases exec_parts hx with ⟨rfl, -⟩ | ⟨runId, -, owed, s1, s2, s3, hact, hspoken, hsettled, hclosed⟩
  · exact hs
  · have hresults : s'.externalResults = s1.externalResults := by
      rw [hclosed.checkpointed.externalResults, hsettled.results, hspoken.results]
    unfold Store.Parented
    rcases hact.parented with hsame | ⟨new, hput, hnew⟩
    · rw [hresults, hsame]
      exact fun e row hrow => hkept _ (hs e row hrow)
    · rw [hresults, hput]
      exact Table.forall_put (P := fun row => (s'.agentContexts.get row.runId).isSome)
        (fun e row hrow => hkept _ (hs e row hrow)) (hkept _ hnew)

theorem parented_reachable {allowed : Store → FacadeOp → Prop}
    (h : Relation.ReflTransGen (FacadeStep cfg allowed) {} s) : s.Parented := by
  induction h with
  | refl =>
    intro e row hrow
    cases hrow
  | tail _ hstep ih => exact parented_step hstep ih

end

/-! ## Two passes -/

/-- What a pass from `s` to `s'` was to do, and what the pass after it may not. -/
structure RecoversOnce (cfg : LoggingServiceConfig) (env : Environment τ) (rc : RecoveryCoordinator)
    (runId : String) (now : Datetime) (s s' : Store) : Prop where
  complete : s'.TranscriptComplete runId
  once : ∃ added, ToldOnce (fun _ => True) (s.heard (strip runId)) (s'.heard (strip runId)) added
  again : ∀ w2 w3 : World τ, ∀ x, w2.store = s' →
    Runs (sem cfg env) w2 (recoverRun rc runId now) w3 (.ret x) → w3.store = s'

section
variable {cfg : LoggingServiceConfig} {env : Environment τ} {rc : RecoveryCoordinator} {runId e : String}
  {now : Datetime} {answers : Probe → Option WriteVerification} {s s' : Store}

/-- What no listing looks up the pass leaves alone: it has a tool message after only if it had one before. -/
theorem Passed.missed {records : List ExternalResultRecord} {pending : List String}
    (hlist : s.listExternalResults runId = .ok records)
    (h : Passed rc runId now answers (TakenOf records (candidateIds records pending)) s s')
    (hmissed : s.Missed runId e) : s'.externalResults.get e = s.externalResults.get e ∧
      (s'.Answered (strip runId) e ↔ s.Answered (strip runId) e) := by
  have hnot : ¬ TakenOf records (candidateIds records pending) e := by
    rintro ⟨-, hsome⟩
    obtain ⟨id, row, hrow, hrun, hid, -⟩ := (recordOf_listing hlist).1 hsome
    exact hmissed id row hrow hrun hid
  obtain ⟨added, hadded⟩ := h.told
  refine ⟨?_, fun hans => ?_, fun hans => hans.append hadded.appended⟩
  · by_contra hne
    exact hnot (h.touched e hne)
  · obtain ⟨m, hm, hanswers⟩ := hans
    rw [hadded.appended] at hm
    rcases List.mem_append.1 hm with hm | hm
    · exact ⟨m, hm, hanswers⟩
    · obtain ⟨id, hid, hid', -⟩ := hadded.about m hm
      have hsame : e = id := Option.some.inj (hanswers.2.symm.trans hid'.2)
      exact absurd (hsame ▸ hid) hnot

/-- A recorded id that the listing looks up is resolved by the pass. -/
theorem Passed.found_resolved {records : List ExternalResultRecord} {pending : List String}
    {row : ExternalResultRecord} (hlist : s.listExternalResults runId = .ok records)
    (h : Passed rc runId now answers (TakenOf records (candidateIds records pending)) s s')
    (hrow : s'.externalResults.get e = some row) (hfound : ¬ s.Missed runId e) :
    s'.Resolved rc runId now answers e := by
  unfold Store.Missed at hfound
  push Not at hfound
  obtain ⟨id, own, hown, hrun, hid⟩ := hfound
  refine h.resolved e (mem_candidates_of_record ((recordOf_listing hlist).2 ⟨id, own, hown, hrun, hid, ?_⟩))
  rw [← h.found e, hrow]
  rfl

/-- **Recovery completes the transcript once.**  With a verifier whose answers do not change, a pass
that returned has told every committed response of its run, each at most once, and the pass after it
leaves the store, if and only if the responses that no listing of the run looks up were told before. -/
theorem recovery_idempotent (cfg : LoggingServiceConfig) (env : Environment τ) (rc : RecoveryCoordinator)
    (runId : String) (now : Datetime) (answers : Probe → Option WriteVerification) (henv : env.Constant answers)
    (w w1 : World τ) (hreach : Relation.ReflTransGen (FacadeStep cfg fun _ _ => True) {} w.store)
    (ds : List RecoveryDecision) (hpass : Runs (sem cfg env) w (recoverRun rc runId now) w1 (.ret (.ok ds))) :
    RecoversOnce cfg env rc runId now w.store w1.store ↔ w.store.MissedTold runId := by
  have hended := (ends_recoverRun henv w).runs hpass ds rfl
  constructor
  · intro h e row hrow hrun htell hmissed
    rcases hended with ⟨-, hsame⟩ | ⟨records, pending, hlist, hpassed⟩
    · have hcomplete := h.complete
      rw [hsame] at hcomplete
      exact hcomplete e row hrow hrun htell
    · obtain ⟨hkept, hans⟩ := hpassed.missed hlist hmissed
      exact hans.1 (h.complete e row (hkept ▸ hrow) hrun htell)
  · intro hpadded
    refine ⟨fun e row hrow hrun htell => ?_, ?_, fun w2 w3 x hstore hruns => ?_⟩
    · rcases hended with ⟨hnone, hsame⟩ | ⟨records, pending, hlist, hpassed⟩
      · rw [hsame] at hrow ⊢
        refine hpadded e row hrow hrun htell fun id own hown hrun' _ => ?_
        -- a run without a context has no records under its stripped id
        have hctx := parented_reachable hreach id own hown
        rw [hrun', loadContext_none hnone] at hctx
        cases hctx
      · by_cases hmissed : w.store.Missed runId e
        · obtain ⟨hkept, hans⟩ := hpassed.missed hlist hmissed
          exact hans.2 (hpadded e row (hkept ▸ hrow) hrun htell hmissed)
        · exact (hpassed.found_resolved hlist hrow hmissed).answered row hrow htell
    · rcases hended with ⟨-, hsame⟩ | ⟨records, pending, -, hpassed⟩
      · rw [hsame]
        exact ⟨[], (List.append_nil _).symm, (fun m hm => nomatch hm), .nil⟩
      · obtain ⟨added, hadded⟩ := hpassed.told
        refine ⟨added, hadded.appended, fun m hm => ?_, hadded.once⟩
        obtain ⟨id, -, hanswers, hnone⟩ := hadded.about m hm
        exact ⟨id, trivial, hanswers, hnone⟩
    · rw [← hstore] at hended
      have hstill := (still_recoverRun henv hended).runs hruns
      rw [hstill, hstore]

end

/-! ## With and without padding -/

/-- A run in which a write was answered, under this id. -/
def answeredOps (executionId : String) : List FacadeOp :=
  [.startRun tripRun, .recordToolResult {
    runId := "trip", executionId := executionId, resultStatus := "ok", responsePayload := some [],
    toolName := some "book", operationType := some "WRITE", requestPayload := some bookingPayload }]

/-- The world after these operations. -/
def worldAfter (os : List FacadeOp) : World Script :=
  { store := (execAll os {}).toOption.getD {}, target := {} }

/-- The tool messages a pass leaves for the execution, with the outcome of the pass and of the record. -/
def toldByPass (executionId : String) : Option (Option ExecutionStatus × ℕ) :=
  let w := worldAfter (answeredOps executionId)
  let s := (play 10 (.recoverRun plainCoordinator "trip" 0) w).store
  match played 10 (.recoverRun plainCoordinator "trip" 0) w with
  | some (.ok _) => some ((s.externalResults.get executionId).map ExternalResultRecord.executionStatus,
      ((s.heard "trip").filter fun m => m.role = "tool" ∧ m.toolCallId = some executionId).length)
  | _ => none

/-- The pass returns, and the committed execution with the padded id has no tool message. -/
theorem padded_id_untold : toldByPass " e " = some (some .acked, 0) ∧ toldByPass "e" = some (some .acked, 1) := by
  decide +kernel

/-- A verifier that never answers, and a callback that returns. -/
def silentEnvironment : Environment Script :=
  { Environment.any Script with verify := fun _ _ answer _ => answer = none, onHandoff := fun _ r => r = .ok () }

theorem sound_of_reach {cfg : LoggingServiceConfig} {allowed : Store → FacadeOp → Prop} {s : Store}
    (h : Relation.ReflTransGen (FacadeStep cfg allowed) {} s) : s.Sound := by
  induction h with
  | refl => exact sound_empty
  | tail _ hstep ih =>
    obtain ⟨amb, o, r, -, hx⟩ := hstep
    exact (exec_kept hx).sound ih

/-- The id `e` has no padding: two passes over the trip are as they should be. -/
theorem recovery_idempotent_stripped : ∃ (w w1 : World Script) (ds : List RecoveryDecision),
    w = worldAfter (answeredOps "e") ∧
    Runs (sem {} silentEnvironment) w (recoverRun plainCoordinator "trip" 0) w1 (.ret (.ok ds)) ∧
    RecoversOnce {} silentEnvironment plainCoordinator "trip" 0 w.store w1.store := by
  obtain ⟨s, hs⟩ : ∃ s, execAll (answeredOps "e") {} = .ok s := except_ok_of_toBool (by decide +kernel)
  have hstore : (worldAfter (answeredOps "e")).store = s := by
    unfold worldAfter
    rw [hs]
    rfl
  have hreach : Relation.ReflTransGen (FacadeStep {} fun _ _ => True) {} s :=
    execAll_reach (fun _ _ _ => trivial) hs
  have hrows : (worldAfter (answeredOps "e")).store.externalResults.rows.entries.all
      (fun entry => decide (strip entry.1 = entry.1 ∧ entry.2.runId = strip "trip")) = true := by decide +kernel
  have hopen : s.Opened "trip" := by
    refine ⟨sound_of_reach hreach, by decide +kernel, ?_⟩
    rw [← hstore]
    decide +kernel
  have hlisted : (match (worldAfter (answeredOps "e")).store.listExternalResults "trip" with
      | .ok records => records.all fun record => decide (record.executionStatus ≠ .dispatched)
      | .error _ => false) = true := by decide +kernel
  obtain ⟨records, hrecords⟩ : ∃ records, (worldAfter (answeredOps "e")).store.listExternalResults "trip" = .ok records :=
    except_ok_of_toBool (by decide +kernel)
  obtain ⟨pending, hpending⟩ : ∃ pending, (worldAfter (answeredOps "e")).store.listPendingExecutions "trip" = .ok pending :=
    except_ok_of_toBool (by decide +kernel)
  rw [hrecords] at hlisted
  have hends : Sure (sem {} silentEnvironment) (fun x _ => ∃ ds : List RecoveryDecision, x = .ok ds ∧ _)
      (recoverRun plainCoordinator "trip" 0) (worldAfter (answeredOps "e")) :=
    sure_recoverRun (fun _ _ _ => Iff.rfl) rfl (hstore ▸ hopen) hrecords hpending fun record hmem hst =>
      absurd hst (of_decide_eq_true (List.all_eq_true.1 hlisted record hmem))
  obtain ⟨w1, x, hruns, ds, rfl, -⟩ := hends.finishes
  refine ⟨_, w1, ds, rfl, hruns, ?_⟩
  refine (recovery_idempotent {} silentEnvironment plainCoordinator "trip" 0 (fun _ => none)
    (fun _ _ _ _ h => h) _ w1 (hstore ▸ hreach) ds hruns).2 fun e row hrow _ _ hmissed => ?_
  have hplain := of_decide_eq_true (List.all_eq_true.1 hrows ⟨e, row⟩ ((Table.mem_entries_iff _ _ _).2 hrow))
  exact absurd hplain.1 (hmissed e row hrow hplain.2)

end Raef
