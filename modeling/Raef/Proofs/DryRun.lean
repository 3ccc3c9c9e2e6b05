import Raef.Proofs.Heard
import Raef.Proofs.Isolation

/-!
# What a dry run foretells

`recover --dry-run` decides on the listed records; the pass decides on the ids of the listed
records and on the pending ids, each once, and writes to the transcript as it goes.  Neither
asks whether the store is in order: a row that does not decode raises wherever it is read.

    the pass ends with its decisions, or breaks off at a checkpoint      (sure_recoverEach_foretold)
    run loads → same entries iff listed once, all pending listed,
      and no checkpoint breaks the pass off                               (dry_run_predicts)
    an absent run, a pending id without a record                          (absent_run_differs)
-/

namespace Raef

open Text Txn Program

variable {τ : Type}

/-! ## Statements -/

/-- Both raise, or both give decisions that print the same entries, in some order. -/
def SameEntries (forecast decided : Except PyError (List RecoveryDecision)) : Prop :=
  match forecast, decided with
  | .ok ds, .ok ds' => (ds.map RecoveryDecision.entry).Perm (ds'.map RecoveryDecision.entry)
  | .error _, .error _ => True
  | _, _ => False

/-- The dry run foretells the pass from here. -/
def Foretold (cfg : LoggingServiceConfig) (env : Environment τ) (rc : RecoveryCoordinator) (runId : String)
    (now : Datetime) (w : World τ) : Prop :=
  Sure (sem cfg env) (fun x _ => SameEntries (dryRun rc.strategy runId now w.store) x)
    (recoverRun rc runId now) w

/-- A committed record whose response is not in the transcript. -/
def Store.owes (s : Store) (runId : String) (record : ExternalResultRecord) : Bool :=
  record.executionStatus.committed && record.responsePayload.isSome &&
    !(s.heard (strip runId)).any fun m => m.role = "tool" && m.toolCallId = some record.executionId

/-- The last sequence number of the run after `k` more events of it. -/
def Store.seqAfter (s : Store) (runId : String) (k : ℕ) : ℕ :=
  ((s.walEvents.filter fun e => e.runId = strip runId).map WalEvent.seqId).foldr max (s.walEvents.length + k)

/-- The plan does not decode, and one of the next `n` messages is due for a checkpoint. -/
def Store.Stumbles (s : Store) (cfg : LoggingServiceConfig) (runId : String) (n : ℕ) : Prop :=
  (∃ e, s.loadPlan runId = .error e) ∧ ∃ k, 1 ≤ k ∧ k ≤ n ∧ 0 < cfg.checkpointEveryNEvents ∧
    (s.seqAfter runId k : ℤ) % cfg.checkpointEveryNEvents = 0

/-- The records are what the pass decides on, and nothing stops it. -/
structure Foreseeable (cfg : LoggingServiceConfig) (s : Store) (runId : String) (c : AgentContextSnapshot)
    (records : List ExternalResultRecord) : Prop where
  once : (records.map ExternalResultRecord.executionId).Nodup
  pending : ∀ e ∈ c.pendingExecutionIds, e ∈ records.map ExternalResultRecord.executionId
  unbroken : ¬ s.Stumbles cfg runId (records.countP (s.owes runId))

/-- The windows of the dispatched records can be computed. -/
def WindowsFit (d : RuntimeRecoveryStrategy) (now : Datetime) (records : List ExternalResultRecord) : Prop :=
  ∀ record ∈ records, record.executionStatus = .dispatched → WindowFits d now record

/-- The run is there, and where its records are listed and their windows fit, they are foreseeable. -/
def Store.Foreseen (s : Store) (cfg : LoggingServiceConfig) (d : RuntimeRecoveryStrategy) (runId : String)
    (now : Datetime) : Prop :=
  ∀ context, s.loadContext runId = .ok context → ∃ c, context = some c ∧
    ∀ records, s.listExternalResults runId = .ok records → WindowsFit d now records →
      Foreseeable cfg s runId c records

/-! ## Checkpoints that fall due -/

section
variable {cfg : LoggingServiceConfig} {amb : Ambient} {runId : String} {s s' : Store}

theorem fetch_raise {σ ε α : Type} {f : σ → Except ε α} {s : σ} {e : ε} (h : f s = .error e) :
    (fetch f : Txn σ ε α) s = .error e := by
  show (Txn.lift (f s) : Txn σ ε α) s = _
  rw [h]
  rfl

theorem max?_append_singleton (l : List ℕ) (n : ℕ) : (l ++ [n]).max? = some (l.foldr max n) := by
  induction l with
  | nil => rfl
  | cons a l ih =>
    have hne : l ++ [n] ≠ [] := by simp
    rw [List.cons_append, List.max?_cons, ih]
    rfl

theorem latestWalSeq_addEvent {e : WalEvent} (hr : blank runId = false) (hrun : e.runId = strip runId)
    (hseq : e.seqId = s.walEvents.length + 1) :
    (s.addEvent e).latestWalSeq runId = .ok (some (s.seqAfter runId 1)) := by
  refine latestWalSeq_ok.2 ⟨hr, ?_⟩
  unfold Store.seqAfter
  rw [Store.addEvent_walEvents, List.filter_append, List.map_append, List.filter_cons_of_pos (by simp [hrun])]
  rw [List.filter_nil, List.map_cons, List.map_nil, max?_append_singleton, hseq]

theorem seqAfter_addEvent {e : WalEvent} (hrun : e.runId = strip runId)
    (hseq : e.seqId = s.walEvents.length + 1) (k : ℕ) :
    (s.addEvent e).seqAfter runId k = s.seqAfter runId (k + 1) := by
  unfold Store.seqAfter
  rw [Store.addEvent_walEvents, List.filter_append, List.map_append, List.filter_cons_of_pos (by simp [hrun])]
  rw [List.filter_nil, List.map_cons, List.map_nil, List.foldr_append, hseq, List.length_append]
  have hlast : [s.walEvents.length + 1].foldr max (s.walEvents.length + [e].length + k) =
      s.walEvents.length + (k + 1) := by
    show max (s.walEvents.length + 1) (s.walEvents.length + 1 + k) = _
    omega
  rw [hlast]

theorem maybeAutoCheckpoint_idle (hr : blank runId = false) (hdue : ¬ s.Due cfg runId) :
    maybeAutoCheckpoint cfg amb runId s = .ok (none, s) := by
  unfold maybeAutoCheckpoint
  split
  · rfl
  · next hon =>
    obtain ⟨latest, hlatest⟩ : ∃ latest, s.latestWalSeq runId = .ok latest :=
      ⟨_, latestWalSeq_ok.2 ⟨hr, rfl⟩⟩
    have hread : (fetch (·.latestWalSeq runId) : Tx (Option ℕ)) s = .ok (latest, s) := fetch_run hlatest
    refine (bind_run hread).trans ?_
    cases latest with
    | none => rfl
    | some seq =>
      dsimp only
      split
      · rfl
      · next hseq =>
        refine absurd ⟨seq, hlatest, ?_⟩ hdue
        omega

theorem maybeAutoCheckpoint_breaks (hdue : s.Due cfg runId) {e : PyError} (hplan : s.loadPlan runId = .error e) :
    maybeAutoCheckpoint cfg amb runId s = .error e := by
  obtain ⟨seq, hlatest, hpos, hon, hdvd⟩ := hdue
  have hread : (fetch (·.latestWalSeq runId) : Tx (Option ℕ)) s = .ok (some seq, s) := fetch_run hlatest
  unfold maybeAutoCheckpoint
  rw [if_neg (by omega)]
  refine (bind_run hread).trans ?_
  dsimp only
  rw [if_neg (by omega)]
  exact (bind_run hread).trans (bind_raise (fetch_raise hplan))

/-- One step nearer to the checkpoint that is due. -/
theorem stumbles_succ (hplan : s'.loadPlan runId = s.loadPlan runId)
    (hseq : ∀ k, s'.seqAfter runId k = s.seqAfter runId (k + 1)) (hfirst : ¬ s.Stumbles cfg runId 1) (n : ℕ) :
    s'.Stumbles cfg runId n ↔ s.Stumbles cfg runId (n + 1) := by
  unfold Store.Stumbles
  rw [hplan]
  constructor
  · rintro ⟨he, k, hk, hkn, hon, hdue⟩
    rw [hseq] at hdue
    exact ⟨he, k + 1, by omega, by omega, hon, hdue⟩
  · rintro ⟨he, k, hk, hkn, hon, hdue⟩
    have hk1 : k ≠ 1 := by
      rintro rfl
      exact hfirst ⟨he, 1, le_refl 1, le_refl 1, hon, hdue⟩
    refine ⟨he, k - 1, by omega, by omega, hon, ?_⟩
    rw [hseq, Nat.sub_add_cancel hk]
    exact hdue

theorem Checkpointed.loads (h : Checkpointed amb runId s s') (hl : s.Loads runId) : s'.Loads runId := by
  cases h with
  | none => exact hl
  | bare cp hrun hseq => exact hl
  | withContext cp c hrun hseq hc hsave =>
    obtain ⟨c', hsave⟩ := hsave
    have hagain : (s.putContext { c with
        lastCheckpointSeq := some (cp.seqId : ℤ), updatedAt := amb.now }).loadContext runId = .ok (some c') :=
      loadContext_saved hc rfl hsave
    exact ⟨c', hagain⟩

/-- A message up to its checkpoint. -/
theorem message_front (cfg : LoggingServiceConfig) (amb : Ambient) {a : ContextMessage} (h : s.Loads a.runId)
    (hrole : strip a.role = a.role)
    (hknown : a.role ∈ ["system", "user", "assistant", "tool"]) (hcontent : blank a.content = false)
    (hdumps : cfg.limits.dumps (a.metadata.getD []) = .ok ()) :
    ∃ r s1, recordContextMessage cfg amb a s = (maybeAutoCheckpoint cfg amb a.runId >>= fun _ => pure r) s1 ∧
      s1.Loads a.runId ∧ s1.loadPlan a.runId = s.loadPlan a.runId ∧
      s1.latestWalSeq a.runId = .ok (some (s.seqAfter a.runId 1)) ∧
      ∀ k, s1.seqAfter a.runId k = s.seqAfter a.runId (k + 1) := by
  let ev := s.newEvent amb a.runId
    (.contextMessageAppended a.role a.content (a.metadata.getD []) a.name a.toolCallId) "context" a.runId
  have hloads : (s.addEvent ev).Loads a.runId := h
  have happends : Succeeds (appendMessage amb a.runId a.role a.content a.metadata a.name a.toolCallId)
      (s.addEvent ev) := appendMessage_run hloads hrole hknown hcontent
  obtain ⟨r, s1, happend⟩ := happends
  have hevent : appendEvent amb a.runId
      (.contextMessageAppended a.role a.content (a.metadata.getD []) a.name a.toolCallId) "context" a.runId s =
      .ok ((), s.addEvent ev) := appendEvent_ok.2 ⟨h.notBlank, h.notBlank, rfl⟩
  obtain ⟨c, c', -, rfl, -, hload, -⟩ := appendMessage_saved happend
  have hchecked : (Txn.lift (cfg.limits.dumps (a.metadata.getD [])) : Tx Unit) s = .ok ((), s) :=
    lift_ok.2 ⟨hdumps, rfl⟩
  refine ⟨r, _, (bind_run hchecked).trans ((bind_run hevent).trans (bind_run happend)), ⟨r, hload⟩, rfl, ?_,
    fun k => ?_⟩
  · exact latestWalSeq_addEvent h.notBlank rfl rfl
  · exact seqAfter_addEvent rfl rfl k

theorem due_first {s1 : Store} (hlatest : s1.latestWalSeq runId = .ok (some (s.seqAfter runId 1))) :
    s1.Due cfg runId ↔ 0 < cfg.checkpointEveryNEvents ∧
      (s.seqAfter runId 1 : ℤ) % cfg.checkpointEveryNEvents = 0 := by
  have hpos : ∀ l : List ℕ, 0 < l.foldr max (s.walEvents.length + 1) := by
    intro l
    induction l with
    | nil => exact Nat.succ_pos _
    | cons n l ih => exact lt_of_lt_of_le ih (le_max_right _ _)
  constructor
  · rintro ⟨seq, hseq, -, hon, hdvd⟩
    rw [hlatest] at hseq
    cases hseq
    exact ⟨hon, hdvd⟩
  · rintro ⟨hon, hdvd⟩
    exact ⟨_, hlatest, hpos _, hon, hdvd⟩

/-- The message of a run whose plan does not load and whose checkpoint is due. -/
theorem message_breaks (cfg : LoggingServiceConfig) (amb : Ambient) {a : ContextMessage} (h : s.Loads a.runId)
    (hrole : strip a.role = a.role)
    (hknown : a.role ∈ ["system", "user", "assistant", "tool"]) (hcontent : blank a.content = false)
    (hdumps : cfg.limits.dumps (a.metadata.getD []) = .ok ()) (hst : s.Stumbles cfg a.runId 1) : ∃ e, recordContextMessage cfg amb a s = .error e := by
  obtain ⟨⟨e, hplan⟩, k, hk1, hk2, hon, hdue⟩ := hst
  obtain rfl : k = 1 := by omega
  obtain ⟨r, s1, hfront, -, hplan1, hlatest, -⟩ := message_front cfg amb h hrole hknown hcontent hdumps
  refine ⟨e, hfront.trans (bind_raise ?_)⟩
  exact maybeAutoCheckpoint_breaks ((due_first hlatest).2 ⟨hon, hdue⟩) (hplan1.trans hplan)

/-- Any other message of a run whose context loads is written, and the next is one step nearer. -/
theorem message_goes (cfg : LoggingServiceConfig) (amb : Ambient) {a : ContextMessage} (h : s.Loads a.runId)
    (hrole : strip a.role = a.role)
    (hknown : a.role ∈ ["system", "user", "assistant", "tool"]) (hcontent : blank a.content = false)
    (hdumps : cfg.limits.dumps (a.metadata.getD []) = .ok ()) (hst : ¬ s.Stumbles cfg a.runId 1) : Succeeds (recordContextMessage cfg amb a) s ∧
      ∀ r s', recordContextMessage cfg amb a s = .ok (r, s') → s'.Loads a.runId ∧
        ∀ n, s'.Stumbles cfg a.runId n ↔ s.Stumbles cfg a.runId (n + 1) := by
  obtain ⟨r, s1, hfront, hloads, hplan1, hlatest, hseq⟩ :=
    message_front cfg amb h hrole hknown hcontent hdumps
  cases hplan : s.loadPlan a.runId with
  | ok plan =>
    have hruns : Succeeds (maybeAutoCheckpoint cfg amb a.runId) s1 :=
      maybeAutoCheckpoint_run hloads ⟨plan, hplan1.trans hplan⟩
    obtain ⟨cp, s2, hauto⟩ := hruns
    refine ⟨⟨r, s2, hfront.trans (bind_run hauto)⟩, fun r' s' hx => ?_⟩
    obtain ⟨cp', s3, hauto', hpure⟩ := bind_ok.1 (hfront.symm.trans hx)
    cases pure_ok.1 hpure
    have hclosed := (maybeAutoCheckpoint_ok hauto').checkpointed
    refine ⟨hclosed.loads hloads, fun n => ⟨?_, ?_⟩⟩
    · rintro ⟨⟨e, he⟩, -⟩
      rw [hclosed.loadPlan, hplan1, hplan] at he
      cases he
    · rintro ⟨⟨e, he⟩, -⟩
      rw [hplan] at he
      cases he
  | error e =>
    have hdue : ¬ s1.Due cfg a.runId := fun hdue =>
      hst ⟨⟨e, hplan⟩, 1, le_refl 1, le_refl 1, (due_first hlatest).1 hdue⟩
    have hrun : recordContextMessage cfg amb a s = .ok (r, s1) :=
      hfront.trans (bind_run (maybeAutoCheckpoint_idle h.notBlank hdue))
    refine ⟨⟨r, s1, hrun⟩, fun r' s' hx => ?_⟩
    rw [hrun] at hx
    cases hx
    exact ⟨hloads, stumbles_succ hplan1 hseq hst⟩

end

/-! ## One pass -/

section
variable {cfg : LoggingServiceConfig} {env : Environment τ} {rc : RecoveryCoordinator} {runId : String}
  {now : Datetime}

/-- The execution is taken care of; the checkpoint is `n` messages nearer. -/
structure Reconciled (cfg : LoggingServiceConfig) (runId e : String) (s s' : Store) (n : ℕ) : Prop where
  loads : s'.Loads runId
  others : ∀ record : ExternalResultRecord, record.executionId ≠ e → s'.owes runId record = s.owes runId record
  stumbles : ∀ m, s'.Stumbles cfg runId m ↔ s.Stumbles cfg runId (m + n)

theorem reconciled_same {e : String} {s s' : Store} (hl : s.Loads runId) (hs : s' = s) :
    Reconciled cfg runId e s s' 0 := by
  subst hs
  exact ⟨hl, fun _ _ => rfl, fun _ => Iff.rfl⟩

theorem owes_append {s s' : Store} {e : String} {m : AgentMessage} (hm : m.toolCallId = some e)
    (h : s'.heard (strip runId) = s.heard (strip runId) ++ [m]) (record : ExternalResultRecord)
    (hne : record.executionId ≠ e) : s'.owes runId record = s.owes runId record := by
  have hlast : decide (m.toolCallId = some record.executionId) = false := by
    rw [hm]
    simpa using Ne.symm hne
  unfold Store.owes
  rw [h, List.any_append, List.any_cons, List.any_nil, hlast, Bool.and_false, Bool.or_false, Bool.or_false]

/-- One committed record: its message, when the transcript lacks it. -/
theorem sure_reconcile_foretold {w : World τ} (hl : w.store.Loads runId) (record : ExternalResultRecord)
    (hc : record.executionStatus.committed = true) (n : ℕ)
    (hn : n = if w.store.owes runId record then 1 else 0) :
    Sure (sem cfg env) (fun x w' => (w.store.Stumbles cfg runId n → ∃ e, x = .error e) ∧
      (¬ w.store.Stumbles cfg runId n →
        x = .ok () ∧ Reconciled cfg runId record.executionId w.store w'.store n))
      (reconcileToolMessage runId record) w := by
  have hnever : ¬ w.store.Stumbles cfg runId 0 := by
    rintro ⟨-, k, hk1, hk0, -⟩
    omega
  obtain ⟨c, hc'⟩ := hl
  unfold reconcileToolMessage
  cases hresp : record.responsePayload with
  | none =>
    have hn0 : n = 0 := by
      rw [hn, if_neg]
      unfold Store.owes
      rw [hresp]
      simp
    subst hn0
    exact ⟨fun h => absurd h hnever, fun _ => ⟨rfl, reconciled_same ⟨c, hc'⟩ rfl⟩⟩
  | some payload =>
    refine Sure.facade (fun amb => succeeds_fetch hc') fun amb context s hx => ?_
    obtain ⟨hload, rfl⟩ := FacadeOp.exec_loadContext.1 hx
    rw [hc'] at hload
    cases hload
    have howes : w.store.owes runId record =
        !c.messages.any fun m => m.role = "tool" && m.toolCallId = some record.executionId := by
      unfold Store.owes
      rw [hc, hresp, loadContext_heard hc']
      rfl
    dsimp only
    split
    · next hany =>
      have hn0 : n = 0 := by
        rw [hn, howes, hany]
        rfl
      subst hn0
      exact ⟨fun h => absurd h hnever, fun _ => ⟨rfl, reconciled_same ⟨c, hc'⟩ rfl⟩⟩
    · next hany =>
      have hn1 : n = 1 := by
        rw [hn, howes, Bool.eq_false_of_not_eq_true hany]
        rfl
      subst hn1
      have hrole : strip "tool" = "tool" := by decide +kernel
      have hknown : "tool" ∈ ["system", "user", "assistant", "tool"] := by decide
      have hcontent : blank (Json.dumps (.obj payload)) = false :=
        not_blank_of_trimmed (Json.trimmed_dumps_obj _) (Json.dumps_obj_ne_empty _)
      have hl : w.store.Loads runId := ⟨c, hc'⟩
      by_cases hst : w.store.Stumbles cfg runId 1
      · refine Sure.facade_raises (fun amb => ?_) fun e => ⟨fun _ => ⟨e, rfl⟩, fun h => absurd hst h⟩
        exact message_breaks cfg amb (a := reconciledMessage runId record payload) hl hrole hknown hcontent
          (reconciledMessage_dumps _ _ _ _) hst
      · have hgoes := fun amb => message_goes cfg amb
          (a := reconciledMessage runId record payload) hl hrole hknown hcontent
          (reconciledMessage_dumps _ _ _ _) hst
        refine Sure.facade (fun amb => (hgoes amb).1) fun amb r s hx => ?_
        obtain ⟨hl', hstumbles⟩ := (hgoes amb).2 r s hx
        have hheard := message_heard (k := strip runId) hx
        have hsame : strip runId = strip (reconciledMessage runId record payload).runId := rfl
        rw [if_pos hsame] at hheard
        exact ⟨fun h => absurd h hst, fun _ => ⟨rfl, hl', fun other hne =>
          owes_append (e := record.executionId) rfl hheard other hne, hstumbles⟩⟩

/-- What the pass decides on an id. -/
def decideOn (d : RuntimeRecoveryStrategy) (runId : String) (now : Datetime) (records : List ExternalResultRecord) (e : String) :
    Except PyError RecoveryDecision :=
  match recordOf records e with
  | none => .ok (missingRecordDecision runId e)
  | some record => decideRecovery d runId e record now

/-- The message a turn writes, counted. -/
def Store.turnOwes (s : Store) (runId : String) (records : List ExternalResultRecord) (e : String) : Bool :=
  (recordOf records e).any (s.owes runId)

/-- One turn. -/
theorem sure_recoverOne_foretold (henv : HandoffReturns rc env) (hrc : rc.hasVerifier = false) {w : World τ}
    (hl : w.store.Loads runId) {records : List ExternalResultRecord} {e : String} {decision : RecoveryDecision}
    (hd : decideOn rc.strategy runId now records e = .ok decision) (n : ℕ)
    (hn : n = if w.store.turnOwes runId records e then 1 else 0) :
    Sure (sem cfg env) (fun x w' => (w.store.Stumbles cfg runId n → ∃ err, x = .error err) ∧
      (¬ w.store.Stumbles cfg runId n → x = .ok decision ∧ Reconciled cfg runId e w.store w'.store n))
      (recoverOne rc runId now records e) w := by
  have hnever : ¬ w.store.Stumbles cfg runId 0 := by
    rintro ⟨-, k, hk1, hk0, -⟩
    omega
  unfold decideOn at hd
  unfold recoverOne
  cases hrec : recordOf records e with
  | none =>
    rw [hrec] at hd
    cases hd
    have hn0 : n = 0 := by
      rw [hn]
      unfold Store.turnOwes
      rw [hrec]
      rfl
    subst hn0
    refine (sure_emitHandoff henv _ w).bind (fun _ w' hx => ?_) fun _ _ hx => by cases hx.1
    exact ⟨fun h => absurd h hnever, fun _ => ⟨rfl, reconciled_same hl hx.2⟩⟩
  | some record =>
    rw [hrec] at hd
    dsimp only at hd ⊢
    rw [hd, lift_ok_bind]
    have hsettle : settle rc runId e record decision = pure (decision, record) := by
      unfold settle needsVerification
      rw [if_neg (by simp [hrc])]
    rw [hsettle, pure_bind']
    have hid : record.executionId = e := (recordOf_some hrec).2
    have howes : w.store.turnOwes runId records e = w.store.owes runId record := by
      unfold Store.turnOwes
      rw [hrec]
      rfl
    rw [howes] at hn
    by_cases hc : record.executionStatus.committed = true
    · have hmark : decision.action = .markCommitted := (decideRecovery_ok hd).markCommitted_iff.2 hc
      have hact : actOn rc runId decision record = reconcileToolMessage runId record := by
        unfold actOn
        rw [hmark]
      dsimp only
      rw [hact]
      refine (sure_reconcile_foretold hl record hc n hn).bind (fun _ w' hx => ?_) fun err w' hx => ?_
      · refine ⟨fun h => ?_, fun h => ⟨rfl, hid ▸ (hx.2 h).2⟩⟩
        obtain ⟨err, herr⟩ := hx.1 h
        cases herr
      · refine ⟨fun _ => ⟨err, rfl⟩, fun h => ?_⟩
        cases (hx.2 h).1
    · have hn0 : n = 0 := by
        rw [hn, if_neg]
        unfold Store.owes
        simp [hc]
      subst hn0
      have hact : Sure (sem cfg env) (fun x w' => x = .ok () ∧ w'.store = w.store)
          (actOn rc runId decision record) w := by
        unfold actOn
        cases haction : decision.action with
        | markCommitted => exact absurd ((decideRecovery_ok hd).markCommitted_iff.1 haction) hc
        | handoffRetryOrAbandon => exact sure_emitHandoff henv decision w
        | resumeWaiting => exact ⟨rfl, rfl⟩
        | replay => exact ⟨rfl, rfl⟩
      refine hact.bind (fun _ w' hx => ?_) fun _ _ hx => by cases hx.1
      exact ⟨fun h => absurd h hnever, fun _ => ⟨rfl, reconciled_same hl hx.2⟩⟩

theorem Store.Stumbles.mono {s : Store} {m n : ℕ} (h : s.Stumbles cfg runId m) (hmn : m ≤ n) :
    s.Stumbles cfg runId n := by
  obtain ⟨he, k, hk1, hkm, hdue⟩ := h
  exact ⟨he, k, hk1, hkm.trans hmn, hdue⟩

theorem turnOwes_others {s s' : Store} {e : String} {n : ℕ} (h : Reconciled cfg runId e s s' n)
    (records : List ExternalResultRecord) {e' : String} (hne : e' ≠ e) :
    s'.turnOwes runId records e' = s.turnOwes runId records e' := by
  unfold Store.turnOwes
  cases hrec : recordOf records e' with
  | none => rfl
  | some record =>
    have hid := (recordOf_some hrec).2
    exact h.others record (hid ▸ hne)

/-- The pass over ids that can all be decided on. -/
theorem sure_recoverEach_foretold (henv : HandoffReturns rc env) (hrc : rc.hasVerifier = false)
    {records : List ExternalResultRecord} {decided : String → RecoveryDecision} {ids : List String}
    (hnodup : ids.Nodup)
    (hd : ∀ e ∈ ids, decideOn rc.strategy runId now records e = .ok (decided e))
    {w : World τ} (hl : w.store.Loads runId) :
    Sure (sem cfg env) (fun x _ =>
      (w.store.Stumbles cfg runId (ids.countP (w.store.turnOwes runId records)) → ∃ err, x = .error err) ∧
      (¬ w.store.Stumbles cfg runId (ids.countP (w.store.turnOwes runId records)) → x = .ok (ids.map decided)))
      (recoverEach rc runId now records ids) w := by
  induction ids generalizing w with
  | nil =>
    refine ⟨fun h => ?_, fun _ => rfl⟩
    obtain ⟨-, k, hk1, hk0, -⟩ := h
    rw [List.countP_nil] at hk0
    omega
  | cons e es ih =>
    obtain ⟨hnotin, hnodup⟩ := List.nodup_cons.1 hnodup
    have hcount : (e :: es).countP (w.store.turnOwes runId records) =
        es.countP (w.store.turnOwes runId records) + if w.store.turnOwes runId records e then 1 else 0 :=
      List.countP_cons
    unfold recoverEach
    rw [hcount]
    refine (sure_recoverOne_foretold henv hrc hl (hd e List.mem_cons_self) _ rfl).bind (fun d w' hx => ?_)
      fun err w' hx => ?_
    · have hst : ¬ w.store.Stumbles cfg runId (if w.store.turnOwes runId records e then 1 else 0) := by
        intro h
        obtain ⟨err, herr⟩ := hx.1 h
        cases herr
      obtain ⟨hdec, hrec⟩ := hx.2 hst
      cases hdec
      have hsame : es.countP (w'.store.turnOwes runId records) = es.countP (w.store.turnOwes runId records) := by
        refine List.countP_congr fun e' he' => ?_
        rw [turnOwes_others hrec records (ne_of_mem_of_not_mem he' hnotin)]
      have hrest := ih hnodup (fun e' he' => hd e' (List.mem_cons_of_mem _ he')) hrec.loads
      rw [hsame, hrec.stumbles] at hrest
      refine hrest.bind (fun ds _ hx => ?_) fun err _ hx => ?_
      · refine ⟨fun h => ?_, fun h => ?_⟩
        · obtain ⟨err, herr⟩ := hx.1 h
          cases herr
        · have hds := hx.2 h
          cases hds
          rfl
      · refine ⟨fun _ => ⟨err, rfl⟩, fun h => ?_⟩
        have hds := hx.2 h
        cases hds
    · refine ⟨fun _ => ⟨err, rfl⟩, fun h => ?_⟩
      have hst : ¬ w.store.Stumbles cfg runId (if w.store.turnOwes runId records e then 1 else 0) :=
        fun h' => h (h'.mono (Nat.le_add_left _ _))
      cases (hx.2 hst).1

/-- A pass that meets an id it cannot decide on raises. -/
theorem sure_recoverEach_raises (henv : HandoffReturns rc env) (hrc : rc.hasVerifier = false)
    {records : List ExternalResultRecord} {ids : List String} {bad : String} (hbad : bad ∈ ids) {err : PyError}
    (herr : decideOn rc.strategy runId now records bad = .error err) {w : World τ}
    (hl : w.store.Loads runId) :
    Sure (sem cfg env) (fun x _ => ∃ e, x = .error e) (recoverEach rc runId now records ids) w := by
  induction ids generalizing w with
  | nil => cases hbad
  | cons e es ih =>
    unfold recoverEach
    cases hdec : decideOn rc.strategy runId now records e with
    | error e' =>
      have hone : recoverOne rc runId now records e = .ret (.error e') := by
        unfold decideOn at hdec
        unfold recoverOne
        cases hrec : recordOf records e with
        | none =>
          rw [hrec] at hdec
          cases hdec
        | some record =>
          rw [hrec] at hdec
          dsimp only at hdec ⊢
          rw [hdec, lift_error_bind]
      rw [hone]
      exact ⟨e', rfl⟩
    | ok decision =>
      refine (sure_recoverOne_foretold henv hrc hl hdec _ rfl).bind (fun d w' hx => ?_) fun e' _ _ => ⟨e', rfl⟩
      have hmem : bad ∈ es := by
        rcases List.mem_cons.1 hbad with rfl | hmem
        · rw [hdec] at herr
          cases herr
        · exact hmem
      have hst : ¬ w.store.Stumbles cfg runId (if w.store.turnOwes runId records e then 1 else 0) := by
        intro h
        obtain ⟨err, herr⟩ := hx.1 h
        cases herr
      exact (ih hmem (hx.2 hst).2.loads).bind (fun ds _ hx => by obtain ⟨_, hx⟩ := hx; cases hx)
        fun e' _ _ => ⟨e', rfl⟩

/-! ## The two against each other -/

/-- The decision on an id, where there is one. -/
def decidedOn (d : RuntimeRecoveryStrategy) (runId : String) (now : Datetime) (records : List ExternalResultRecord) (e : String) :
    RecoveryDecision :=
  match decideOn d runId now records e with
  | .ok decision => decision
  | .error _ => missingRecordDecision runId e

theorem decideOn_ok {d : RuntimeRecoveryStrategy} {records : List ExternalResultRecord} {e : String}
    {decision : RecoveryDecision} : decideOn d runId now records e = .ok decision ↔
      (∃ x, decideOn d runId now records e = .ok x) ∧ decision = decidedOn d runId now records e := by
  unfold decidedOn
  cases decideOn d runId now records e with
  | ok x => simp [eq_comm]
  | error err => simp

theorem decideOn_listed {s : Store} {records : List ExternalResultRecord}
    (h : s.listExternalResults runId = .ok records) {d : RuntimeRecoveryStrategy} {record : ExternalResultRecord}
    (hmem : record ∈ records) :
    decideOn d runId now records record.executionId = decideRecovery d runId record.executionId record now := by
  unfold decideOn
  rw [recordOf_mem h hmem]

theorem mapM_congr_mem {ε α β : Type} {f g : α → Except ε β} {l : List α} (h : ∀ a ∈ l, f a = g a) :
    l.mapM f = l.mapM g := by
  induction l with
  | nil => rfl
  | cons a l ih =>
    rw [List.mapM_cons, List.mapM_cons, h a List.mem_cons_self,
      ih fun b hb => h b (List.mem_cons_of_mem _ hb)]

theorem dryRun_listed {s : Store} {records : List ExternalResultRecord}
    (h : s.listExternalResults runId = .ok records) (d : RuntimeRecoveryStrategy) :
    dryRun d runId now s = records.mapM fun record => decideOn d runId now records record.executionId := by
  unfold dryRun
  rw [h]
  show records.mapM _ = _
  exact mapM_congr_mem fun record hmem => (decideOn_listed h hmem).symm

theorem decideOn_fits {records : List ExternalResultRecord} {d : RuntimeRecoveryStrategy} (hfits : WindowsFit d now records)
    (e : String) :
    ∃ decision, decideOn d runId now records e = .ok decision ∧ decision.executionId = e := by
  unfold decideOn
  cases hrec : recordOf records e with
  | none => exact ⟨_, rfl, rfl⟩
  | some record => exact decideRecovery_run (hfits record (recordOf_some hrec).1)

theorem decideOn_decided {records : List ExternalResultRecord} {d : RuntimeRecoveryStrategy} (hfits : WindowsFit d now records)
    (e : String) :
    decideOn d runId now records e = .ok (decidedOn d runId now records e) ∧
      (decidedOn d runId now records e).executionId = e := by
  obtain ⟨decision, hok, hid⟩ : ∃ decision, decideOn d runId now records e = .ok decision ∧
      decision.executionId = e := decideOn_fits hfits e
  obtain ⟨-, rfl⟩ := decideOn_ok.1 hok
  exact ⟨hok, hid⟩

/-- The forecast where it does not raise. -/
theorem dryRun_fits {s : Store} {records : List ExternalResultRecord}
    (h : s.listExternalResults runId = .ok records) {d : RuntimeRecoveryStrategy} (hfits : WindowsFit d now records) :
    dryRun d runId now s =
      .ok (records.map fun record => decidedOn d runId now records record.executionId) := by
  rw [dryRun_listed h]
  refine (mapM_ok fun record decision => decideOn_ok).2 ⟨fun record _ => ?_, rfl⟩
  exact ⟨_, (decideOn_decided hfits record.executionId).1⟩

/-- A window that does not fit ends both. -/
theorem misfit_raises (now : Datetime) {s : Store} {records : List ExternalResultRecord}
    (h : s.listExternalResults runId = .ok records) {d : RuntimeRecoveryStrategy} (hfits : ¬ WindowsFit d now records) :
    ∃ record ∈ records, ∃ err, decideOn d runId now records record.executionId = .error err := by
  unfold WindowsFit at hfits
  push Not at hfits
  obtain ⟨record, hmem, hst, hmisfit⟩ := hfits
  refine ⟨record, hmem, ?_⟩
  rw [decideOn_listed h hmem]
  cases hdec : decideRecovery d runId record.executionId record now with
  | error err => exact ⟨err, rfl⟩
  | ok decision => exact absurd ((decideRecovery_ok hdec).fits hst) hmisfit

theorem dryRun_misfit (now : Datetime) {s : Store} {records : List ExternalResultRecord}
    (h : s.listExternalResults runId = .ok records) {d : RuntimeRecoveryStrategy} (hfits : ¬ WindowsFit d now records) :
    ∃ err, dryRun d runId now s = .error err := by
  obtain ⟨record, hmem, err, herr⟩ := misfit_raises now h hfits
  cases hrun : dryRun d runId now s with
  | error err => exact ⟨err, rfl⟩
  | ok ds =>
    rw [dryRun_listed h] at hrun
    obtain ⟨hall, -⟩ := (mapM_ok fun record decision => decideOn_ok).1 hrun
    obtain ⟨x, hx⟩ := hall record hmem
    rw [herr] at hx
    cases hx

/-- A listing of a run that does not load raises. -/
theorem dryRun_unloaded {s : Store} {d : RuntimeRecoveryStrategy} {err : PyError} (h : s.loadRequiredContext runId = .error err) :
    dryRun d runId now s = .error err := by
  unfold dryRun Store.listExternalResults
  rw [h]
  rfl

/-- A pass that finds nothing. -/
theorem sure_absent {w : World τ} (h : w.store.loadContext runId = .ok none) :
    Sure (sem cfg env) (fun x _ => x = .ok []) (recoverRun rc runId now) w := by
  refine Sure.facade (fun amb => succeeds_fetch h) fun amb context s hx => ?_
  obtain ⟨hload, rfl⟩ := FacadeOp.exec_loadContext.1 hx
  rw [h] at hload
  cases hload
  rfl

/-- A pass that gets to its loop. -/
theorem sure_recoverRun_of_each {w : World τ} {c : AgentContextSnapshot} {records : List ExternalResultRecord}
    (hc : w.store.loadContext runId = .ok (some c)) (hrecords : w.store.listExternalResults runId = .ok records)
    {Q : Except PyError (List RecoveryDecision) → World τ → Prop}
    (h : Sure (sem cfg env) Q (recoverEach rc runId now records (candidateIds records c.pendingExecutionIds)) w) :
    Sure (sem cfg env) Q (recoverRun rc runId now) w := by
  have hpending : w.store.listPendingExecutions runId = .ok c.pendingExecutionIds := by
    unfold Store.listPendingExecutions
    rw [hc]
    rfl
  refine Sure.facade (fun amb => succeeds_fetch hc) fun amb context s hx => ?_
  obtain ⟨hload, rfl⟩ := FacadeOp.exec_loadContext.1 hx
  rw [hc] at hload
  cases hload
  refine Sure.facade (fun amb => succeeds_fetch hrecords) fun amb listed s hx => ?_
  obtain ⟨hlisted, rfl⟩ := FacadeOp.exec_listExternalResults.1 hx
  rw [hrecords] at hlisted
  cases hlisted
  refine Sure.facade (fun amb => succeeds_fetch hpending) fun amb waiting s hx => ?_
  obtain ⟨hwaiting, rfl⟩ := FacadeOp.exec_listPendingExecutions.1 hx
  rw [hpending] at hwaiting
  cases hwaiting
  exact h

/-- The ids the pass takes are the listed ones, when each is listed once and no other is pending. -/
theorem candidateIds_perm {records : List ExternalResultRecord} {pending : List String} :
    (candidateIds records pending).Perm (records.map ExternalResultRecord.executionId) ↔
      (records.map ExternalResultRecord.executionId).Nodup ∧
        ∀ e ∈ pending, e ∈ records.map ExternalResultRecord.executionId := by
  have hnodup := nodup_candidateIds records pending
  have hmem : ∀ e, e ∈ candidateIds records pending ↔
      e ∈ records.map ExternalResultRecord.executionId ∨ e ∈ pending := by
    intro e
    rw [mem_candidateIds, List.mem_map]
  constructor
  · intro h
    exact ⟨h.nodup_iff.1 hnodup, fun e he => h.mem_iff.1 ((hmem e).2 (.inr he))⟩
  · rintro ⟨honce, hpending⟩
    refine (List.perm_ext_iff_of_nodup hnodup honce).2 fun e => (hmem e).trans ⟨?_, .inl⟩
    rintro (he | he)
    · exact he
    · exact hpending e he

/-- The messages the turns write are those the records owe. -/
theorem turnOwes_count {s : Store} {records : List ExternalResultRecord} {ids : List String}
    (h : s.listExternalResults runId = .ok records)
    (hperm : ids.Perm (records.map ExternalResultRecord.executionId)) :
    ids.countP (s.turnOwes runId records) = records.countP (s.owes runId) := by
  rw [hperm.countP_eq, List.countP_map]
  refine List.countP_congr fun record hmem => ?_
  show (recordOf records record.executionId).any (s.owes runId) = true ↔ _
  rw [recordOf_mem h hmem]
  rfl

/-- How a pass over listed records ends. -/
theorem sure_recoverRun_fits (cfg : LoggingServiceConfig) (now : Datetime) (henv : HandoffReturns rc env)
    (hrc : rc.hasVerifier = false) {w : World τ} {c : AgentContextSnapshot} {records : List ExternalResultRecord}
    (hc : w.store.loadContext runId = .ok (some c)) (hrecords : w.store.listExternalResults runId = .ok records)
    (hfits : WindowsFit rc.strategy now records) :
    Sure (sem cfg env) (fun x _ =>
      (w.store.Stumbles cfg runId
        ((candidateIds records c.pendingExecutionIds).countP (w.store.turnOwes runId records)) →
          ∃ err, x = .error err) ∧
      (¬ w.store.Stumbles cfg runId
        ((candidateIds records c.pendingExecutionIds).countP (w.store.turnOwes runId records)) →
          x = .ok ((candidateIds records c.pendingExecutionIds).map
            (decidedOn rc.strategy runId now records))))
      (recoverRun rc runId now) w :=
  sure_recoverRun_of_each hc hrecords (sure_recoverEach_foretold henv hrc (nodup_candidateIds _ _)
    (fun e _ => (decideOn_decided hfits e).1) ⟨c, hc⟩)

/-- The entries agree exactly when the ids do. -/
theorem sameEntries_iff {d : RuntimeRecoveryStrategy} {records : List ExternalResultRecord} (hfits : WindowsFit d now records)
    (ids : List String) :
    SameEntries (.ok (records.map fun record => decidedOn d runId now records record.executionId))
      (.ok (ids.map (decidedOn d runId now records))) ↔
      ids.Perm (records.map ExternalResultRecord.executionId) := by
  have hentry : ∀ ids : List String, ((ids.map (decidedOn d runId now records)).map
      RecoveryDecision.entry).map RecoveryEntry.executionId = ids := by
    intro ids
    rw [List.map_map, List.map_map]
    conv_rhs => rw [← List.map_id ids]
    exact List.map_congr_left fun e _ => (decideOn_decided hfits e).2
  have hlisted : (records.map fun record => decidedOn d runId now records record.executionId) =
      (records.map ExternalResultRecord.executionId).map (decidedOn d runId now records) := by
    rw [List.map_map]
    rfl
  unfold SameEntries
  dsimp only
  rw [hlisted]
  constructor
  · intro h
    have hids := h.map RecoveryEntry.executionId
    rw [hentry, hentry] at hids
    exact hids.symm
  · intro h
    exact ((h.map _).map _).symm

/-- The listing asks for the context, the pass returns without one. -/
theorem not_foretold_absent {w : World τ} (hc : w.store.loadContext runId = .ok none) :
    ¬ Foretold cfg env rc runId now w := by
  intro hsure
  obtain ⟨w', x, hrun, hsame⟩ := hsure.finishes
  obtain ⟨err, hrequired⟩ : ∃ err, w.store.loadRequiredContext runId = .error err := by
    unfold Store.loadRequiredContext
    rw [hc]
    exact ⟨_, rfl⟩
  have habsent : Sure (sem cfg env) (fun x _ => x = .ok []) (recoverRun rc runId now) w := sure_absent hc
  have hx : x = .ok [] := habsent.runs hrun
  rw [dryRun_unloaded hrequired, hx] at hsame
  exact hsame

/-- Listed records whose windows fit. -/
theorem foretold_fits (henv : HandoffReturns rc env) (hrc : rc.hasVerifier = false) {w : World τ}
    {c : AgentContextSnapshot} {records : List ExternalResultRecord}
    (hc : w.store.loadContext runId = .ok (some c)) (hrecords : w.store.listExternalResults runId = .ok records)
    (hfits : WindowsFit rc.strategy now records) :
    Foretold cfg env rc runId now w ↔ Foreseeable cfg w.store runId c records := by
  have hpass := sure_recoverRun_fits cfg now henv hrc hc hrecords hfits
  unfold Foretold
  rw [dryRun_fits hrecords hfits]
  constructor
  · intro hsure
    obtain ⟨w', x, hrun, hsame⟩ := hsure.finishes
    obtain ⟨hbroken, hgoes⟩ := hpass.runs hrun
    have hst : ¬ w.store.Stumbles cfg runId
        ((candidateIds records c.pendingExecutionIds).countP (w.store.turnOwes runId records)) := by
      intro hst
      obtain ⟨err, rfl⟩ := hbroken hst
      exact hsame
    rw [hgoes hst] at hsame
    have hperm := (sameEntries_iff hfits _).1 hsame
    obtain ⟨honce, hpending⟩ := candidateIds_perm.1 hperm
    exact ⟨honce, hpending, turnOwes_count hrecords hperm ▸ hst⟩
  · rintro ⟨honce, hpending, hunbroken⟩
    have hperm := candidateIds_perm.2 ⟨honce, hpending⟩
    rw [turnOwes_count hrecords hperm] at hpass
    refine hpass.mono fun x _ hx => ?_
    rw [hx.2 hunbroken]
    exact (sameEntries_iff hfits _).2 hperm

/-- A run that loads. -/
theorem foretold_loaded (henv : HandoffReturns rc env) (hrc : rc.hasVerifier = false) {w : World τ}
    {c : AgentContextSnapshot} (hc : w.store.loadContext runId = .ok (some c)) :
    Foretold cfg env rc runId now w ↔ ∀ records, w.store.listExternalResults runId = .ok records →
      WindowsFit rc.strategy now records → Foreseeable cfg w.store runId c records := by
  cases hrecords : w.store.listExternalResults runId with
  | error err =>
    refine iff_of_true ?_ fun records h => by cases h
    have hdry : dryRun rc.strategy runId now w.store = .error err := by
      unfold dryRun
      rw [hrecords]
      rfl
    unfold Foretold
    rw [hdry]
    refine Sure.facade (fun amb => succeeds_fetch hc) fun amb context s hx => ?_
    obtain ⟨hload, rfl⟩ := FacadeOp.exec_loadContext.1 hx
    rw [hc] at hload
    cases hload
    exact Sure.facade_raises (fun amb => ⟨err, fetch_raise hrecords⟩) fun e => trivial
  | ok records =>
    by_cases hfits : WindowsFit rc.strategy now records
    · refine (foretold_fits henv hrc hc hrecords hfits).trans ⟨fun h records' h' _ => ?_, fun h => ?_⟩
      · cases h'
        exact h
      · exact h records rfl hfits
    · refine iff_of_true ?_ fun records' h' hfits' => ?_
      · obtain ⟨err, hdry⟩ := dryRun_misfit now hrecords hfits
        obtain ⟨record, hmem, err', herr⟩ := misfit_raises now hrecords hfits
        have hid : record.executionId ∈ candidateIds records c.pendingExecutionIds :=
          mem_candidateIds.2 (.inl ⟨record, hmem, rfl⟩)
        unfold Foretold
        rw [hdry]
        refine (sure_recoverRun_of_each hc hrecords
          (sure_recoverEach_raises henv hrc hid herr ⟨c, hc⟩)).mono fun x _ hx => ?_
        obtain ⟨e, rfl⟩ := hx
        trivial
      · cases h'
        exact absurd hfits' hfits

end

/-- **Dry runs.**  The pass without a verifier raises with the dry run, and else comes to the same
entries, exactly when the run is there and, where its records can be listed and decided on, each of
them is listed once, every pending id is among them, and no checkpoint breaks the pass off. -/
theorem dry_run_predicts (cfg : LoggingServiceConfig) (env : Environment τ) (rc : RecoveryCoordinator)
    (runId : String) (now : Datetime) (w : World τ) (henv : HandoffReturns rc env) (hrc : rc.hasVerifier = false) :
    Foretold cfg env rc runId now w ↔ w.store.Foreseen cfg rc.strategy runId now := by
  cases hc : w.store.loadContext runId with
  | error err =>
    -- neither gets past the context
    unfold Foretold
    have hrequired : w.store.loadRequiredContext runId = .error err := by
      unfold Store.loadRequiredContext
      rw [hc]
      rfl
    rw [dryRun_unloaded hrequired]
    refine iff_of_true ?_ fun context hcontext => ?_
    · refine Sure.facade_raises (fun amb => ⟨err, fetch_raise hc⟩) fun e => trivial
    · rw [hc] at hcontext
      cases hcontext
  | ok context =>
    cases context with
    | none =>
      refine iff_of_false (not_foretold_absent hc) fun hforeseen => ?_
      obtain ⟨c, hnone, -⟩ := hforeseen none hc
      cases hnone
    | some c =>
      refine (foretold_loaded henv hrc hc).trans ⟨fun h context hcontext => ?_, fun h => ?_⟩
      · rw [hc] at hcontext
        cases hcontext
        exact ⟨c, rfl, h⟩
      · obtain ⟨c', hsome, hrecords⟩ := h (some c) hc
        cases hsome
        exact hrecords

/-! ## Three runs -/

/-- The forecast of the trip that waits for an answer comes true. -/
theorem dry_run_predicts_waiting :
    Foretold {} calmEnvironment plainCoordinator "trip" 0 (waitingTrip bookingPayload) := by
  refine (dry_run_predicts {} calmEnvironment plainCoordinator "trip" 0 _ (fun _ _ _ => Iff.rfl) rfl).2 ?_
  intro context hcontext
  have hall : (((waitingTrip bookingPayload).store.loadContext "trip").toOption.any fun context =>
      context.any fun c => ((waitingTrip bookingPayload).store.listExternalResults "trip").toOption.any fun records =>
        decide ((records.map ExternalResultRecord.executionId).Nodup) &&
          c.pendingExecutionIds.all fun e => records.any fun record => record.executionId = e) = true := by
    decide +kernel
  rw [hcontext] at hall
  cases context with
  | none => cases hall
  | some c =>
    refine ⟨c, rfl, fun records hrecords _ => ?_⟩
    rw [hrecords] at hall
    obtain ⟨honce, hpending⟩ := Bool.and_eq_true_iff.1 hall
    refine ⟨of_decide_eq_true honce, fun e he => ?_, ?_⟩
    · obtain ⟨record, hmem, hid⟩ := List.any_eq_true.1 (List.all_eq_true.1 hpending e he)
      exact List.mem_map.2 ⟨record, hmem, of_decide_eq_true hid⟩
    · rintro ⟨-, k, -, -, hon, -⟩
      exact absurd hon (by decide)

/-- A context with a pending id that has no record. -/
def danglingTrip : World Script where
  store := ({} : Store).putContext { runId := "trip", pendingExecutionIds := ["lost"], updatedAt := 0 }
  target := {}

/-- A run that is not there, and one with a pending id without a record. -/
theorem absent_run_differs :
    ¬ Foretold {} (Environment.any Script) plainCoordinator "nowhere" 0 { target := {} } ∧
      ¬ Foretold {} (Environment.any Script) plainCoordinator "trip" 0 danglingTrip := by
  have habsent : ({} : Store).loadContext "nowhere" = .ok none := rfl
  have hdangling : ((danglingTrip.store.loadContext "trip").toOption.any fun context =>
      context.any fun c => (danglingTrip.store.listExternalResults "trip").toOption.any fun records =>
        decide ("lost" ∈ c.pendingExecutionIds) && records.isEmpty) = true := by decide +kernel
  refine ⟨not_foretold_absent habsent, fun h => ?_⟩
  cases hc : danglingTrip.store.loadContext "trip" with
  | error e =>
    rw [hc] at hdangling
    cases hdangling
  | ok context =>
    cases context with
    | none =>
      rw [hc] at hdangling
      cases hdangling
    | some c =>
      cases hrecords : danglingTrip.store.listExternalResults "trip" with
      | error e =>
        rw [hc, hrecords] at hdangling
        cases hdangling
      | ok records =>
        rw [hc, hrecords] at hdangling
        obtain ⟨hmem, hempty⟩ := Bool.and_eq_true_iff.1 hdangling
        have hnil : records = [] := List.isEmpty_iff.1 hempty
        subst hnil
        have hcalm : HandoffReturns plainCoordinator (Environment.any Script) := fun hon => absurd hon (by decide)
        have hfore := (foretold_fits hcalm rfl hc hrecords
          (fun record hr => absurd hr List.not_mem_nil)).1 h
        exact absurd (hfore.pending "lost" (of_decide_eq_true hmem)) List.not_mem_nil

end Raef
