import Raef.Lib.Once
import Raef.Proofs.Isolation
import Raef.Proofs.Lifecycle

/-!
# Which failures are handed off

A coordinator remembers a handoff by the text `run:execution:action:status:deadline`, and remembers
it before the callback runs.  The text does not tell two failures of one execution apart, nor two
ids with a colon in them, and a callback that raised is not called again.  While a record is not
written, its text depends only on how the pass spells the run id.

    the texts of one record differ only in the run id                     (handoffKey_of_decided)
    what a pass attempts, it asked for from the rows before it            (asked_of_pass)
    what a pass decided was given to the callback, or its text was known  (HandoffTurns.attempted)
    exactly once ↔ the text is new and no call raised                     (handoffs_once)
-/

namespace Raef

open Text Txn Program

variable {τ : Type}

/-! ## Statements -/

/-- A decision given to `_emit_handoff_if_needed`, and what the callback did; `none` where the
decision was known. -/
structure HandoffAttempt where
  decision : RecoveryDecision
  called : Option (Except PyError Unit)

/-- The callback was called and did not raise. -/
def HandoffAttempt.returned (a : HandoffAttempt) : Bool :=
  match a.called with
  | some (.ok _) => true
  | _ => false

def HandoffAttempt.raised (a : HandoffAttempt) : Bool :=
  match a.called with
  | some (.error _) => true
  | _ => false

/-- The decision was made on the record of the execution. -/
def RecoveryDecision.decidesOn (d : RecoveryDecision) (e : String) : Bool :=
  d.executionId = e && d.executionStatus.isSome

def HandoffAttempt.deliveredFor (e : String) (a : HandoffAttempt) : Bool :=
  a.decision.decidesOn e && a.returned

def noteHandoff (w : World τ) : (o : Op) → Except PyError o.Res → List HandoffAttempt
  | .handoff d, r => [⟨d, if d.handoffKey ∈ w.handoffEmitted then none else some r⟩]
  | .facade _, _ | .invoke _, _ | .verify _, _ => []

/-- A pass of the coordinator, whether it returns or raises, with the handoffs it attempted and the
decisions it returned. -/
def HandoffPass (cfg : LoggingServiceConfig) (env : Environment τ) (rc : RecoveryCoordinator) (runId : String)
    (now : Datetime) (w : World τ) (attempts : List HandoffAttempt) (decisions : List RecoveryDecision)
    (w' : World τ) : Prop :=
  ∃ x : Except PyError (List RecoveryDecision),
    Noted (sem cfg env) noteHandoff w (recoverRun rc runId now) attempts w' (.ret x) ∧ decisions = x.toOption.getD []

/-- Turns between which `P` holds, with passes over a run at a time as `G` allows from where they start. -/
inductive HandoffTurns (cfg : LoggingServiceConfig) (env : Environment τ) (rc : RecoveryCoordinator)
    (P : World τ → Prop) (G : World τ → String → Datetime → Prop) :
    World τ → List HandoffAttempt → List RecoveryDecision → World τ → Prop
  | here {w : World τ} : P w → HandoffTurns cfg env rc P G w [] [] w
  | pass (runId : String) (now : Datetime) {w w1 w' : World τ} {attempts rest : List HandoffAttempt}
      {decisions later : List RecoveryDecision} :
      P w → G w runId now → HandoffPass cfg env rc runId now w attempts decisions w1 →
        HandoffTurns cfg env rc P G w1 rest later w' →
          HandoffTurns cfg env rc P G w (attempts ++ rest) (decisions ++ later) w'
  | facade (o : FacadeOp) {w w1 w' : World τ} {rest : List HandoffAttempt} {later : List RecoveryDecision}
      {r : Except PyError o.Res} :
      P w → sem cfg env w (.facade o) r w1 → HandoffTurns cfg env rc P G w1 rest later w' →
        HandoffTurns cfg env rc P G w rest later w'

/-- The record under the id. -/
def World.Holds (e : String) (row : ExternalResultRecord) (w : World τ) : Prop :=
  w.store.externalResults.get e = some row

/-- The id of the record an operation writes. -/
def FacadeOp.writesRecord : FacadeOp → Option String
  | .recordToolIntent a => some (strip a.executionId)
  | .recordToolDispatch _ e => some (strip e)
  | .recordToolResult a => some (strip a.executionId)
  | _ => none

/-- A pass returned the decision to hand the execution off, made on its record. -/
def HandoffDecided (e : String) (decisions : List RecoveryDecision) : Prop :=
  ∃ d ∈ decisions, d.decidesOn e = true ∧ d.action = .handoffRetryOrAbandon

/-- The callback returned exactly once for the record of the execution. -/
def DeliveredOnce (e : String) (attempts : List HandoffAttempt) : Prop :=
  (attempts.filter (HandoffAttempt.deliveredFor e)).length = 1

instance {e : String} {attempts : List HandoffAttempt} : Decidable (DeliveredOnce e attempts) :=
  inferInstanceAs (Decidable (_ = 1))

/-- Handoffs are neither lost nor repeated: in any history from an empty store, after an operation
wrote a record and while it is not written again, if a pass returned the decision to hand it off,
the callback has returned exactly once for it. -/
def HandedOffOnce (cfg : LoggingServiceConfig) (env : Environment τ) (rc : RecoveryCoordinator) : Prop :=
  ∀ (target : τ) (before attempts : List HandoffAttempt) (past decisions : List RecoveryDecision)
    (w0 w w' : World τ) (o : FacadeOp) (a : o.Res) (e : String) (row : ExternalResultRecord),
    HandoffTurns cfg env rc (fun _ => True) (fun _ _ _ => True) { target := target } before past w0 →
    sem cfg env w0 (.facade o) (.ok a) w → o.writesRecord = some e →
    HandoffTurns cfg env rc (World.Holds e row) (fun _ _ _ => True) w attempts decisions w' →
    HandoffDecided e decisions → DeliveredOnce e attempts

/-- The handoff a candidate of the pass calls for, before any probe. -/
def RecoveryCoordinator.asksFor (rc : RecoveryCoordinator) (runId : String) (now : Datetime)
    (records : List ExternalResultRecord) (e : String) : Option RecoveryDecision :=
  match recordOf records e with
  | none => some (missingRecordDecision runId e)
  | some record =>
    match decideRecovery rc.strategy runId e record now with
    | .ok d => if d.action = .handoffRetryOrAbandon then some d else none
    | .error _ => none

/-- The handoffs that a pass over the run may attempt, read off the rows it starts from. -/
def RecoveryCoordinator.asks (rc : RecoveryCoordinator) (s : Store) (runId : String) (now : Datetime) :
    List RecoveryDecision :=
  match s.listExternalResults runId, s.listPendingExecutions runId with
  | .ok records, .ok pending => (candidateIds records pending).filterMap (rc.asksFor runId now records)
  | _, _ => []

/-- What follows the run id in the text of the record. -/
def handoffSuffix (wait : RuntimeRecoveryStrategy) (e : String) (record : ExternalResultRecord) : String :=
  let deadline := match record.executionStatus with
    | .dispatched => match wait.waitDeadline record with
      | .ok window => isoformat window.2
      | .error _ => "none"
    | _ => "none"
  ":" ++ e ++ ":" ++ RecoveryAction.handoffRetryOrAbandon.value ++ ":" ++ record.executionStatus.value ++
    ":" ++ deadline

/-- A pass that hands the record off spells the run id `r`, and for nothing else does a pass compose
the text of the record under `r`. -/
structure OneText (rc : RecoveryCoordinator) (e : String) (row : ExternalResultRecord) (r : String) (w : World τ)
    (runId : String) (now : Datetime) : Prop where
  spelled : ∀ d ∈ rc.asks w.store runId now, d.decidesOn e = true → runId = r
  own : ∀ d ∈ rc.asks w.store runId now, d.decidesOn e = false →
    d.handoffKey ≠ r ++ handoffSuffix rc.strategy e row.stripped

/-! ## The text of a record -/

section
variable {wait : RuntimeRecoveryStrategy} {runId e : String} {record : ExternalResultRecord} {now : Datetime} {d : RecoveryDecision}

theorem handoffKey_of_decided (h : decideRecovery wait runId e record now = .ok d)
    (haction : d.action = .handoffRetryOrAbandon) :
    d.handoffKey = runId ++ handoffSuffix wait e record ∧ d.runId = runId ∧ d.decidesOn e = true := by
  cases decideRecovery_ok h with
  | failed hst =>
    unfold RecoveryDecision.handoffKey handoffSuffix
    rw [hst]
    exact ⟨by simp [String.append_assoc], rfl, by simp [RecoveryDecision.decidesOn]⟩
  | exceeded hst hwindow =>
    unfold RecoveryDecision.handoffKey handoffSuffix
    rw [hst, hwindow]
    exact ⟨by simp [String.append_assoc], rfl, by simp [RecoveryDecision.decidesOn]⟩
  | _ => nomatch haction

end

/-! ## Deduplication -/

section
variable {cfg : LoggingServiceConfig} {env : Environment τ} {rc : RecoveryCoordinator}

/-- A callback is called for the first attempt under its text. -/
abbrev Deduplicated (known : List String) (attempts : List HandoffAttempt) : Prop :=
  Once (fun a => a.decision.handoffKey) (fun a => a.called.isSome) known attempts

abbrev knownAfter (known : List String) (attempts : List HandoffAttempt) : List String :=
  seeKeys (fun a => a.decision.handoffKey) known attempts

/-- What one operation notes, it makes known. -/
theorem deduplicated_op {w w' : World τ} {o : Op} {r : Except PyError o.Res} (h : sem cfg env w o r w') :
    Deduplicated w.handoffEmitted (noteHandoff w o r) ∧
      w'.handoffEmitted = knownAfter w.handoffEmitted (noteHandoff w o r) := by
  cases o with
  | facade o =>
    refine ⟨trivial, ?_⟩
    exact sem_facade (P := fun w' => w'.handoffEmitted = w.handoffEmitted) h rfl fun _ _ _ _ => rfl
  | invoke call =>
    obtain ⟨outcome, target, -, -, rfl⟩ := h
    exact ⟨trivial, rfl⟩
  | verify probe =>
    obtain ⟨answer, target, -, -, rfl⟩ := h
    exact ⟨trivial, rfl⟩
  | handoff d =>
    have h : if d.handoffKey ∈ w.handoffEmitted then r = .ok () ∧ w' = w
      else env.onHandoff d r ∧ w' = { w with
        trace := w.trace ++ [.handedOff d], handoffEmitted := w.handoffEmitted ++ [d.handoffKey] } := h
    split at h
    · next hknown =>
      obtain ⟨-, rfl⟩ := h
      refine ⟨⟨?_, trivial⟩, ?_⟩
      · simp [hknown]
      · show _ = seeKey w'.handoffEmitted d.handoffKey
        rw [seeKey, if_pos hknown]
    · next hnew =>
      obtain ⟨-, rfl⟩ := h
      refine ⟨⟨?_, trivial⟩, ?_⟩
      · simp [hnew]
      · show _ = seeKey w.handoffEmitted d.handoffKey
        rw [seeKey, if_neg hnew]

theorem deduplicated_noted {α : Type} {w w' : World τ} {p p' : Prog α} {attempts : List HandoffAttempt}
    (h : Noted (sem cfg env) noteHandoff w p attempts w' p') :
    Deduplicated w.handoffEmitted attempts ∧ w'.handoffEmitted = knownAfter w.handoffEmitted attempts := by
  induction h with
  | here => exact ⟨trivial, rfl⟩
  | step hs _ ih =>
    obtain ⟨hop, hknown⟩ := deduplicated_op hs
    rw [hknown] at ih
    exact ⟨once_append.2 ⟨hop, ih.1⟩, ih.2.trans seeKeys_append.symm⟩

theorem deduplicated_turns {P : World τ → Prop} {G : World τ → String → Datetime → Prop} {w w' : World τ}
    {attempts : List HandoffAttempt} {decisions : List RecoveryDecision}
    (h : HandoffTurns cfg env rc P G w attempts decisions w') : Deduplicated w.handoffEmitted attempts := by
  induction h with
  | here => trivial
  | pass runId now _ _ hpass _ ih =>
    obtain ⟨x, hrun, -⟩ := hpass
    obtain ⟨hfirst, hknown⟩ := deduplicated_noted hrun
    rw [hknown] at ih
    exact once_append.2 ⟨hfirst, ih⟩
  | facade o _ hs _ ih =>
    obtain ⟨-, hknown⟩ := deduplicated_op hs
    rw [hknown] at ih
    exact ih

/-- Where the attempts under a text are the attempts on a record, the callback returned exactly once for
the record if and only if the text was new and no call for the record raised. -/
theorem deliveredOnce_iff {e text : String} {known : List String} {attempts : List HandoffAttempt}
    (h : Deduplicated known attempts)
    (htext : ∀ a ∈ attempts, a.decision.handoffKey = text ↔ a.decision.decidesOn e = true)
    (hsome : ∃ a ∈ attempts, a.decision.decidesOn e = true) :
    DeliveredOnce e attempts ↔ text ∉ known ∧
      ∀ a ∈ attempts, a.decision.decidesOn e = true → a.raised = false := by
  -- a call that did not raise returned, and where there was no call nothing raised
  have hcalled : ∀ a : HandoffAttempt, (a.called.isSome = true → a.returned = true) ↔ a.raised = false := by
    rintro ⟨d, _ | _ | _⟩ <;> simp [HandoffAttempt.returned, HandoffAttempt.raised]
  have hdelivered : attempts.filter (HandoffAttempt.deliveredFor e) =
      attempts.filter fun a => a.returned && (a.called.isSome && decide (a.decision.handoffKey = text)) := by
    refine List.filter_congr fun a ha => ?_
    have hon : a.decision.decidesOn e = decide (a.decision.handoffKey = text) := by
      rw [Bool.eq_iff_iff, decide_eq_true_iff, htext a ha]
    have hreturned : a.returned = (a.returned && a.called.isSome) := by
      obtain ⟨d, _ | _ | _⟩ := a <;> rfl
    unfold HandoffAttempt.deliveredFor
    rw [hon, ← Bool.and_assoc, ← hreturned, Bool.and_comm]
  obtain ⟨a, ha, hon⟩ := hsome
  unfold DeliveredOnce
  rw [hdelivered, h.length_good_eq_one_iff _ ⟨a, ha, (htext a ha).2 hon⟩]
  refine and_congr_right fun _ => forall₂_congr fun a ha => ?_
  rw [htext a ha]
  exact imp_congr_right fun _ => hcalled a

/-! ## What a pass attempts -/

/-- A handoff is what one of these candidates calls for. -/
def Asked (rc : RecoveryCoordinator) (runId : String) (now : Datetime) (records : List ExternalResultRecord)
    (ids : List String) : Op → Prop
  | .handoff d => ∃ e ∈ ids, rc.asksFor runId now records e = some d
  | .facade _ | .invoke _ | .verify _ => True

variable {runId e : String} {now : Datetime} {records : List ExternalResultRecord} {ids : List String}

theorem asked_emitHandoff {d : RecoveryDecision} (h : Asked rc runId now records ids (.handoff d)) :
    (emitHandoff rc d).Uses (Asked rc runId now records ids) := by
  unfold emitHandoff
  split
  · exact ⟨h, fun _ => trivial⟩
  · trivial

theorem asked_reconcile (record : ExternalResultRecord) :
    (reconcileToolMessage runId record).Uses (Asked rc runId now records ids) := by
  unfold reconcileToolMessage
  cases record.responsePayload with
  | none => trivial
  | some responsePayload =>
    refine ⟨trivial, fun context => ?_⟩
    cases context with
    | none => trivial
    | some context =>
      show Uses (Asked rc runId now records ids) (if _ then _ else _)
      split
      · trivial
      · exact ⟨trivial, fun _ => trivial⟩

theorem asked_actOn {d : RecoveryDecision} (record : ExternalResultRecord)
    (h : d.action = .handoffRetryOrAbandon → Asked rc runId now records ids (.handoff d)) :
    (actOn rc runId d record).Uses (Asked rc runId now records ids) := by
  unfold actOn
  cases haction : d.action with
  | markCommitted => exact asked_reconcile record
  | handoffRetryOrAbandon => exact asked_emitHandoff (h haction)
  | resumeWaiting => trivial
  | replay => trivial

/-- A verdict decides for something else than a handoff. -/
theorem verdictDecision_action (v : WriteVerification) (committed : Bool) :
    (verdictDecision runId e v committed).action ≠ .handoffRetryOrAbandon := by
  cases committed <;> exact fun h => by cases h

/-- What follows a decision of a turn; the probe settles on the decision or on a verdict. -/
theorem asked_settled {d : RecoveryDecision} (record : ExternalResultRecord)
    (h : d.action = .handoffRetryOrAbandon → Asked rc runId now records ids (.handoff d)) :
    Uses (Asked rc runId now records ids) (do
      let settled ← settle rc runId e record d
      actOn rc runId settled.1 settled.2
      return settled.1) := by
  have tail : ∀ (d : RecoveryDecision) (record : ExternalResultRecord),
      (d.action = .handoffRetryOrAbandon → Asked rc runId now records ids (.handoff d)) →
      Uses (Asked rc runId now records ids) (do actOn rc runId d record; return d) :=
    fun d record h => (asked_actOn record h).bind fun _ => trivial
  unfold settle
  split
  · unfold verifyAmbiguousWrite
    rw [call_bind, op_bind]
    refine ⟨trivial, fun answer => ?_⟩
    cases answer with
    | none => exact tail d record h
    | some v =>
      dsimp only
      cases v.committed with
      | none => exact tail d record h
      | some committed =>
        exact ⟨trivial, fun updated => tail _ updated fun haction =>
          absurd haction (verdictDecision_action v committed)⟩
  · exact tail d record h

theorem asked_recoverEach {es : List String} (hes : es ⊆ ids) :
    (recoverEach rc runId now records es).Uses (Asked rc runId now records ids) := by
  induction es with
  | nil => trivial
  | cons e es ih =>
    have he : e ∈ ids := hes (List.mem_cons_self ..)
    refine Uses.bind ?_ fun d => (ih fun e' he' => hes (List.mem_cons_of_mem _ he')).bind fun _ => trivial
    unfold recoverOne
    cases hrec : recordOf records e with
    | none =>
      refine (asked_emitHandoff ⟨e, he, ?_⟩).bind fun _ => trivial
      unfold RecoveryCoordinator.asksFor
      rw [hrec]
    | some record =>
      dsimp only
      cases hdec : decideRecovery rc.strategy runId e record now with
      | error err => trivial
      | ok d =>
        rw [lift_ok_bind]
        refine asked_settled record fun haction => ⟨e, he, ?_⟩
        unfold RecoveryCoordinator.asksFor
        rw [hrec]
        dsimp only
        rw [hdec]
        exact if_pos haction

/-- A pass reads the records it lists, and attempts nothing before its first turn. -/
theorem noted_recoverRun {w w' : World τ} {attempts : List HandoffAttempt} {p' : Prog (List RecoveryDecision)}
    (h : Noted (sem cfg env) noteHandoff w (recoverRun rc runId now) attempts w' p') :
    (attempts = [] ∧ ∀ ds, p' = .ret (.ok ds) → ds = []) ∨
      ∃ records pending, w.store.listExternalResults runId = .ok records ∧
        w.store.listPendingExecutions runId = .ok pending ∧
        Noted (sem cfg env) noteHandoff w (recoverEach rc runId now records (candidateIds records pending))
          attempts w' p' := by
  have stop : ∀ {w1 : World τ} {x : Except PyError (List RecoveryDecision)} {notes : List HandoffAttempt},
      (∀ ds, x = .ok ds → ds = []) → Noted (sem cfg env) noteHandoff w1 (.ret x) notes w' p' →
      notes = [] ∧ ∀ ds, p' = .ret (.ok ds) → ds = [] := by
    intro w1 x notes hx hrun
    obtain ⟨rfl, -, rfl⟩ := hrun.of_ret
    exact ⟨rfl, fun ds hds => hx ds (by cases hds; rfl)⟩
  rcases h.of_op with ⟨rfl, -, rfl⟩ | ⟨context, w1, notes, hread, rfl, hrun⟩
  · exact .inl ⟨rfl, fun ds hds => by cases hds⟩
  cases context with
  | error err => exact .inl (stop (fun ds hds => by cases hds) hrun)
  | ok context =>
    obtain ⟨-, rfl⟩ := sem_loadContext hread
    cases context with
    | none => exact .inl (stop (fun ds hds => by cases hds; rfl) hrun)
    | some context =>
      rcases Noted.of_op hrun with ⟨rfl, -, rfl⟩ | ⟨listed, w2, notes, hlisted, rfl, hrest⟩
      · exact .inl ⟨rfl, fun ds hds => by cases hds⟩
      cases listed with
      | error err => exact .inl (stop (fun ds hds => by cases hds) hrest)
      | ok records =>
        obtain ⟨hlist, rfl⟩ := sem_listExternalResults hlisted
        rcases Noted.of_op hrest with ⟨rfl, -, rfl⟩ | ⟨pending, w3, notes, hpending, rfl, heach⟩
        · exact .inl ⟨rfl, fun ds hds => by cases hds⟩
        cases pending with
        | error err => exact .inl (stop (fun ds hds => by cases hds) heach)
        | ok pending =>
          obtain ⟨hpend, rfl⟩ := sem_listPendingExecutions hpending
          exact .inr ⟨records, pending, hlist, hpend, heach⟩

/-- What a pass attempts, it asks for. -/
theorem asked_of_pass {w w' : World τ} {attempts : List HandoffAttempt} {p' : Prog (List RecoveryDecision)}
    (h : Noted (sem cfg env) noteHandoff w (recoverRun rc runId now) attempts w' p') {a : HandoffAttempt}
    (ha : a ∈ attempts) : a.decision ∈ rc.asks w.store runId now := by
  rcases noted_recoverRun h with ⟨rfl, -⟩ | ⟨records, pending, hlist, hpend, hrun⟩
  · cases ha
  have hasked : Asked rc runId now records (candidateIds records pending) (.handoff a.decision) := by
    refine (asked_recoverEach (List.Subset.refl _)).noted
      (P := fun a => Asked rc runId now records (candidateIds records pending) (.handoff a.decision))
      (fun w o r ho a ha => ?_) hrun a ha
    cases o with
    | handoff d =>
      rw [List.mem_singleton.1 ha]
      exact ho
    | facade o => cases ha
    | invoke call => cases ha
    | verify probe => cases ha
  unfold RecoveryCoordinator.asks
  rw [hlist, hpend]
  exact List.mem_filterMap.2 hasked

/-- A handoff asked for on the record carries the text of the record. -/
theorem text_of_asked {w : World τ} {row : ExternalResultRecord} {d : RecoveryDecision}
    (hd : d ∈ rc.asks w.store runId now) (hrow : w.Holds e row) (hon : d.decidesOn e = true) :
    d.handoffKey = runId ++ handoffSuffix rc.strategy e row.stripped := by
  unfold RecoveryCoordinator.asks at hd
  split at hd
  · next records pending hlist _ =>
    obtain ⟨e', -, hasked⟩ := List.mem_filterMap.1 hd
    unfold RecoveryCoordinator.asksFor at hasked
    split at hasked
    · cases hasked
      simp [RecoveryDecision.decidesOn, missingRecordDecision] at hon
    · next record hrec =>
      split at hasked
      · next d' hdec =>
        split at hasked
        · next haction =>
          cases hasked
          obtain ⟨htext, -, hon'⟩ := handoffKey_of_decided hdec haction
          simp only [RecoveryDecision.decidesOn, Bool.and_eq_true, decide_eq_true_eq] at hon hon'
          obtain rfl : e' = e := hon'.1.symm.trans hon.1
          obtain ⟨hmem, rfl⟩ := recordOf_some hrec
          obtain ⟨-, row', hrow', -, rfl⟩ := listed_row hlist hmem
          cases hrow'.symm.trans hrow
          exact htext
        · cases hasked
      · cases hasked
  · cases hd

theorem attempted_emitHandoff (hrc : rc.hasHandoff = true) {d : RecoveryDecision} {w w' : World τ}
    {attempts : List HandoffAttempt} {u : Unit}
    (h : Noted (sem cfg env) noteHandoff w (emitHandoff rc d) attempts w' (.ret (.ok u))) :
    ∃ a ∈ attempts, a.decision = d ∧ a.raised = false := by
  unfold emitHandoff at h
  rw [if_pos hrc] at h
  rcases Noted.of_op h with ⟨-, -, hend⟩ | ⟨r, w1, notes, hs, rfl, hrun⟩
  · cases hend
  refine ⟨_, List.mem_append_left _ (List.mem_singleton_self _), rfl, ?_⟩
  cases r with
  | error err =>
    obtain ⟨-, -, hend⟩ := hrun.of_ret
    cases hend
  | ok u =>
    unfold HandoffAttempt.raised
    split
    · next heq =>
      dsimp only at heq
      split at heq <;> cases heq
    · rfl

/-- What the turn of a decision ends with was attempted. -/
theorem attempted_settled (hrc : rc.hasHandoff = true) {d decision : RecoveryDecision}
    {record : ExternalResultRecord} {w w' : World τ} {attempts : List HandoffAttempt}
    (h : Noted (sem cfg env) noteHandoff w (do
      let settled ← settle rc runId e record decision
      actOn rc runId settled.1 settled.2
      return settled.1) attempts w' (.ret (.ok d)))
    (haction : d.action = .handoffRetryOrAbandon) : ∃ a ∈ attempts, a.decision = d ∧ a.raised = false := by
  obtain ⟨settled, w1, first, rest, rfl, -, h⟩ := h.of_bind
  obtain ⟨u, w2, acted, last, rfl, hacted, hret⟩ := h.of_bind
  obtain ⟨-, -, hend⟩ := Noted.of_ret hret
  cases hend
  unfold actOn at hacted
  rw [haction] at hacted
  obtain ⟨a, ha, hd, hraised⟩ := attempted_emitHandoff hrc hacted
  exact ⟨a, List.mem_append_right _ (List.mem_append_left _ ha), hd, hraised⟩

theorem attempted_recoverEach (hrc : rc.hasHandoff = true) {ids : List String} {ds : List RecoveryDecision}
    {w w' : World τ} {attempts : List HandoffAttempt}
    (h : Noted (sem cfg env) noteHandoff w (recoverEach rc runId now records ids) attempts w' (.ret (.ok ds)))
    {d : RecoveryDecision} (hd : d ∈ ds) (haction : d.action = .handoffRetryOrAbandon) :
    ∃ a ∈ attempts, a.decision = d ∧ a.raised = false := by
  induction ids generalizing ds w w' attempts with
  | nil =>
    obtain ⟨-, -, hend⟩ := h.of_ret
    cases hend
    cases hd
  | cons e es ih =>
    unfold recoverEach at h
    obtain ⟨d', w1, first, rest, rfl, hone, h⟩ := h.of_bind
    obtain ⟨ds', w2, others, last, rfl, heach, hret⟩ := h.of_bind
    obtain ⟨-, -, hend⟩ := Noted.of_ret hret
    cases hend
    rcases List.mem_cons.1 hd with rfl | hd
    · have hattempt : ∃ a ∈ first, a.decision = d ∧ a.raised = false := by
        unfold recoverOne at hone
        cases hrec : recordOf records e with
        | none =>
          rw [hrec] at hone
          obtain ⟨u, w3, emitted, last', rfl, hemit, hret⟩ := hone.of_bind
          obtain ⟨-, -, hend⟩ := Noted.of_ret hret
          cases hend
          obtain ⟨a, ha, hd, hraised⟩ := attempted_emitHandoff hrc hemit
          exact ⟨a, List.mem_append_left _ ha, hd, hraised⟩
        | some record =>
          rw [hrec] at hone
          dsimp only at hone
          cases hdec : decideRecovery rc.strategy runId e record now with
          | error err =>
            rw [hdec] at hone
            obtain ⟨-, -, hend⟩ := Noted.of_ret hone
            cases hend
          | ok decision =>
            rw [hdec, lift_ok_bind] at hone
            exact attempted_settled hrc hone haction
      obtain ⟨a, ha, hattempt⟩ := hattempt
      exact ⟨a, List.mem_append_left _ ha, hattempt⟩
    · obtain ⟨a, ha, hattempt⟩ := ih heach hd
      exact ⟨a, List.mem_append_right _ (List.mem_append_left _ ha), hattempt⟩

/-- While the record stands and passes compose its text for it alone, an attempt is on the record if
and only if it has this text, and each decision a pass returned was attempted without a raise. -/
theorem HandoffTurns.attempted {row : ExternalResultRecord} {r : String} {w w' : World τ}
    {attempts : List HandoffAttempt} {decisions : List RecoveryDecision} (hrc : rc.hasHandoff = true)
    (h : HandoffTurns cfg env rc (World.Holds e row) (OneText rc e row r) w attempts decisions w') :
    (∀ a ∈ attempts, a.decision.handoffKey = r ++ handoffSuffix rc.strategy e row.stripped ↔
      a.decision.decidesOn e = true) ∧
    ∀ d ∈ decisions, d.action = .handoffRetryOrAbandon → ∃ a ∈ attempts, a.decision = d ∧ a.raised = false := by
  induction h with
  | here =>
    constructor
    · intro a ha
      cases ha
    · intro d hd
      cases hd
  | facade o _ _ _ ih => exact ih
  | @pass runId now w w1 w' attempts rest decisions later hrow htext hpass _ ih =>
    obtain ⟨x, hrun, rfl⟩ := hpass
    have hfirst : ∀ a ∈ attempts, a.decision.handoffKey = r ++ handoffSuffix rc.strategy e row.stripped ↔
        a.decision.decidesOn e = true := by
      intro a ha
      have hasked := asked_of_pass hrun ha
      cases hon : a.decision.decidesOn e with
      | false => exact iff_of_false (htext.own _ hasked hon) Bool.false_ne_true
      | true =>
        refine iff_of_true ?_ rfl
        rw [text_of_asked hasked hrow hon, htext.spelled _ hasked hon]
    have hdecided : ∀ d ∈ x.toOption.getD [], d.action = .handoffRetryOrAbandon →
        ∃ a ∈ attempts, a.decision = d ∧ a.raised = false := by
      intro d hd haction
      cases x with
      | error err => cases hd
      | ok ds =>
        rcases noted_recoverRun hrun with ⟨-, hnone⟩ | ⟨records, pending, -, -, heach⟩
        · rw [hnone ds rfl] at hd
          cases hd
        · exact attempted_recoverEach hrc heach hd haction
    constructor
    · intro a ha
      exact (List.mem_append.1 ha).elim (hfirst a) (ih.1 a)
    · intro d hd haction
      rcases List.mem_append.1 hd with hd | hd
      · obtain ⟨a, ha, hattempt⟩ := hdecided d hd haction
        exact ⟨a, List.mem_append_left _ ha, hattempt⟩
      · obtain ⟨a, ha, hattempt⟩ := ih.2 d hd haction
        exact ⟨a, List.mem_append_right _ ha, hattempt⟩

end

/-- **When a failure is handed off exactly once.**  While a record is not written, and passes compose
its text for it alone, in one spelling: once a pass decided to hand it off, the callback has returned
exactly once for it if and only if the text was new and no call of the callback for it raised. -/
theorem handoffs_once (cfg : LoggingServiceConfig) (env : Environment τ) (rc : RecoveryCoordinator)
    (hrc : rc.hasHandoff = true) {e r : String} {row : ExternalResultRecord} {w w' : World τ}
    {attempts : List HandoffAttempt} {decisions : List RecoveryDecision}
    (h : HandoffTurns cfg env rc (World.Holds e row) (OneText rc e row r) w attempts decisions w')
    (hdecided : HandoffDecided e decisions) :
    DeliveredOnce e attempts ↔ r ++ handoffSuffix rc.strategy e row.stripped ∉ w.handoffEmitted ∧
      ∀ a ∈ attempts, a.decision.decidesOn e = true → a.raised = false := by
  obtain ⟨htext, hattempted⟩ := h.attempted hrc
  obtain ⟨d, hd, hon, haction⟩ := hdecided
  obtain ⟨a, ha, rfl, -⟩ := hattempted d hd haction
  exact deliveredOnce_iff (deduplicated_turns h) htext ⟨a, ha, hon⟩

/-! ## A repeated failure, and a callback that raises -/

section
variable {cfg : LoggingServiceConfig} {env : Environment τ} {rc : RecoveryCoordinator}

theorem HandoffTurns.append {P : World τ → Prop} {G : World τ → String → Datetime → Prop} {w w1 w' : World τ}
    {attempts rest : List HandoffAttempt} {decisions later : List RecoveryDecision}
    (h : HandoffTurns cfg env rc P G w attempts decisions w1) (h' : HandoffTurns cfg env rc P G w1 rest later w') :
    HandoffTurns cfg env rc P G w (attempts ++ rest) (decisions ++ later) w' := by
  induction h with
  | here => exact h'
  | pass runId now hP hG hpass _ ih =>
    rw [List.append_assoc, List.append_assoc]
    exact .pass runId now hP hG hpass (ih h')
  | facade o hP hs _ ih => exact .facade o hP hs (ih h')

/-- Without a verifier a pass writes no records. -/
theorem neutral_recoverEach (hrc : rc.hasVerifier = false) {runId : String} {now : Datetime}
    {records : List ExternalResultRecord} (ids : List String) :
    (recoverEach rc runId now records ids).Uses Neutral := by
  induction ids with
  | nil => trivial
  | cons e es ih =>
    refine Uses.bind ?_ fun d => ih.bind fun _ => trivial
    unfold recoverOne
    cases recordOf records e with
    | none => exact (emitHandoff_uses rc _).bind fun _ => trivial
    | some record =>
      dsimp only
      cases decideRecovery rc.strategy runId e record now with
      | error err => trivial
      | ok d =>
        rw [lift_ok_bind]
        have hsettle : settle rc runId e record d = return (d, record) := by
          unfold settle needsVerification
          simp [hrc]
        rw [hsettle]
        exact (actOn_uses rc runId d record).bind fun _ => trivial

theorem records_of_pass (hrc : rc.hasVerifier = false) {runId : String} {now : Datetime} {w w' : World τ}
    {attempts : List HandoffAttempt} {x : Except PyError (List RecoveryDecision)}
    (h : Noted (sem cfg env) noteHandoff w (recoverRun rc runId now) attempts w' (.ret x)) :
    w'.store.externalResults = w.store.externalResults := by
  have hkeeps : (recoverRun rc runId now).Uses fun o => ∀ (w : World τ) r w', sem cfg env w o r w' →
      w'.store.externalResults = w.store.externalResults := by
    have hread : ∀ {o : FacadeOp}, o.plain = true → ∀ (w : World τ) r w', sem cfg env w (.facade o) r w' →
        w'.store.externalResults = w.store.externalResults := fun ho w r w' hs =>
      sem_facade (P := fun w' => w'.store.externalResults = w.store.externalResults) hs rfl
        fun _ _ _ hx => (exec_framed ho hx).externalResults
    refine ⟨hread rfl, fun context => ?_⟩
    cases context with
    | none => trivial
    | some context =>
      refine ⟨hread rfl, fun records => ⟨hread rfl, fun pending => ?_⟩⟩
      exact (neutral_recoverEach hrc _).mono fun o ho w r w' hs => records_neutral ho hs
  exact (h.runs.safe (I := fun w' => w'.store.externalResults = w.store.externalResults)
    (G := fun _ _ => True) (Q := fun _ _ => True) (fun _ => trivial) (fun _ _ _ _ _ => trivial) rfl
    (hkeeps.keeping (F := fun _ => True) (fun w1 o r w2 ho hI _ hs => ⟨(ho w1 r w2 hs).trans hI, trivial, trivial⟩)
      (fun _ _ _ _ => trivial) trivial)).1

end

/-- A coordinator with a callback and without a verifier. -/
def reportingCoordinator : RecoveryCoordinator := { hasVerifier := false, hasHandoff := true }

/-- How a script is played when the callback answers so. -/
def handoffAnswer (callback : Except PyError Unit) (w : World Script) :
    (o : Op) → Except PyError o.Res × World Script
  | .handoff d =>
    if d.handoffKey ∈ w.handoffEmitted then (.ok (), w)
    else (callback, { w with
      trace := w.trace ++ [.handedOff d], handoffEmitted := w.handoffEmitted ++ [d.handoffKey] })
  | .facade o => scripted {} stillAmbient w (.facade o)
  | .invoke call => scripted {} stillAmbient w (.invoke call)
  | .verify probe => scripted {} stillAmbient w (.verify probe)

theorem handoffAnswer_sem (env : Environment Script) (callback : Except PyError Unit)
    (henv : env = { Environment.any Script with onHandoff := env.onHandoff })
    (hcallback : ∀ d, env.onHandoff d callback) (w : World Script) (o : Op) :
    sem {} env w o (handoffAnswer callback w o).1 (handoffAnswer callback w o).2 := by
  rw [henv]
  cases o with
  | facade o => exact scripted_sem {} stillAmbient w (.facade o)
  | invoke call => exact ⟨_, _, trivial, rfl, rfl⟩
  | verify probe => exact ⟨_, _, trivial, rfl, rfl⟩
  | handoff d =>
    show if _ then _ else _
    unfold handoffAnswer
    dsimp only
    split
    · exact ⟨rfl, rfl⟩
    · exact ⟨hcallback d, rfl⟩

section
variable {env : Environment Script} {callback : Except PyError Unit}

/-- The operations of a failed booking, up to the failure. -/
def sentOps : List FacadeOp := lifecycleOps "e" [] ++ [.recordToolDispatch "trip" "e"]

/-- The record `e` fails. -/
def failOp : FacadeOp :=
  .recordToolResult { runId := "trip", executionId := "e", resultStatus := "error", responsePayload := none }

def afterOps (os : List FacadeOp) (w : World Script) : World Script :=
  os.foldl (fun w o => (scripted {} stillAmbient w (.facade o)).2) w

theorem turns_afterOps (rc : RecoveryCoordinator) (h : ∀ w o, sem {} env w (.facade o)
    (scripted {} stillAmbient w (.facade o)).1 (scripted {} stillAmbient w (.facade o)).2)
    (os : List FacadeOp) (w : World Script) :
    HandoffTurns {} env rc (fun _ => True) (fun _ _ _ => True) w [] [] (afterOps os w) := by
  induction os generalizing w with
  | nil => exact .here trivial
  | cons o os ih => exact .facade o trivial (h w o) (ih _)

/-- Ten operations of a pass over the trip, with the callback's answer. -/
def passed (callback : Except PyError Unit) (w : World Script) : World Script :=
  (advance (handoffAnswer callback) 10 (recoverRun reportingCoordinator "trip" 0) w).2

def passValue (callback : Except PyError Unit) (w : World Script) :
    Option (Except PyError (List RecoveryDecision)) :=
  (advance (handoffAnswer callback) 10 (recoverRun reportingCoordinator "trip" 0) w).1.result

def passAttempts (callback : Except PyError Unit) (w : World Script) : List HandoffAttempt :=
  notesOf (handoffAnswer callback) noteHandoff 10 (recoverRun reportingCoordinator "trip" 0) w

theorem turn_passed (env : Environment Script)
    (henv : env = { Environment.any Script with onHandoff := env.onHandoff }) (hcallback : ∀ d, env.onHandoff d callback) {w : World Script}
    {x : Except PyError (List RecoveryDecision)} (hx : passValue callback w = some x) :
    HandoffPass {} env reportingCoordinator "trip" 0 w (passAttempts callback w) (x.toOption.getD [])
        (passed callback w) ∧
      (passed callback w).store.externalResults = w.store.externalResults := by
  have hrun : Noted (sem {} env) noteHandoff w (recoverRun reportingCoordinator "trip" 0)
      (passAttempts callback w) (passed callback w) _ :=
    advance_noted (handoffAnswer_sem env callback henv hcallback) 10 (recoverRun reportingCoordinator "trip" 0) w
  have hend : (advance (handoffAnswer callback) 10 (recoverRun reportingCoordinator "trip" 0) w).1 = .ret x :=
    ret_of_result hx
  rw [hend] at hrun
  exact ⟨⟨x, hrun, rfl⟩, records_of_pass rfl hrun⟩

/-- The pass returned a decision to hand `e` off. -/
def handsOff (callback : Except PyError Unit) (w : World Script) : Bool :=
  match passValue callback w with
  | some (.ok ds) => ds.any fun d => d.decidesOn "e" && decide (d.action = .handoffRetryOrAbandon)
  | _ => false

theorem passValue_of_handsOff {w : World Script} (h : handsOff callback w = true) :
    ∃ ds, passValue callback w = some (.ok ds) ∧
      ∃ d ∈ ds, d.decidesOn "e" = true ∧ d.action = .handoffRetryOrAbandon := by
  unfold handsOff at h
  split at h
  · next ds heq =>
    obtain ⟨d, hd, hon⟩ := List.any_eq_true.1 h
    rw [Bool.and_eq_true, decide_eq_true_eq] at hon
    exact ⟨ds, heq, d, hd, hon⟩
  · cases h

end

/-- The world in which the booking failed once and a pass handed it off. -/
def handedOffOnce : World Script := passed (.ok ()) (afterOps (sentOps ++ [failOp]) { target := {} })

/-- The callback always returns, and a second failure is never handed off. -/
theorem repeated_failure_lost : ¬ HandedOffOnce {} calmEnvironment reportingCoordinator := by
  intro h
  have hsem := handoffAnswer_sem calmEnvironment (.ok ()) rfl fun _ => rfl
  have hfirst : handsOff (.ok ()) (afterOps (sentOps ++ [failOp]) { target := {} }) = true := by decide +kernel
  have hsecond : handsOff (.ok ()) (afterOps [failOp] handedOffOnce) = true := by decide +kernel
  obtain ⟨ds, hds, -⟩ := passValue_of_handsOff hfirst
  obtain ⟨ds', hds', d, hd, hon⟩ := passValue_of_handsOff hsecond
  obtain ⟨a, ha⟩ := except_ok_of_toBool (x := (scripted {} stillAmbient handedOffOnce (.facade failOp)).1) (by decide +kernel)
  obtain ⟨row, hrow⟩ : ∃ row, (afterOps [failOp] handedOffOnce).store.externalResults.get "e" = some row :=
    Option.isSome_iff_exists.1 (by decide +kernel)
  have hbefore := (turns_afterOps reportingCoordinator (fun w o => hsem w (.facade o))
    (sentOps ++ [failOp]) { target := {} }).append
    (.pass "trip" 0 trivial trivial (turn_passed calmEnvironment rfl (fun _ => rfl) hds).1 (.here trivial))
  obtain ⟨hturn, hrows⟩ := turn_passed calmEnvironment rfl (fun _ => rfl) hds'
  have hepisode : HandoffTurns {} calmEnvironment reportingCoordinator (World.Holds "e" row) (fun _ _ _ => True)
      (afterOps [failOp] handedOffOnce) _ _ _ :=
    .pass "trip" 0 hrow trivial hturn (.here (by unfold World.Holds; rwa [hrows]))
  have hone := h {} _ _ _ _ handedOffOnce _ _ failOp a "e" row hbefore (ha ▸ hsem handedOffOnce (.facade failOp))
    (by decide +kernel) hepisode ⟨d, List.mem_append_left _ hd, hon⟩
  exact absurd hone (by decide +kernel)

/-- The failed booking, before any pass. -/
def failedOnce : World Script := afterOps [failOp] (afterOps sentOps { target := {} })

/-- The callback raises at its first call, and is not called again. -/
theorem raising_callback_lost : ¬ HandedOffOnce {} (Environment.any Script) reportingCoordinator := by
  intro h
  have hsem := handoffAnswer_sem (Environment.any Script) (.ok ()) rfl fun _ => trivial
  have hraises : (passValue (.error (.runtime "unreachable")) failedOnce).isSome = true := by decide +kernel
  have hsecond : handsOff (.ok ()) (passed (.error (.runtime "unreachable")) failedOnce) = true := by
    decide +kernel
  obtain ⟨x, hx⟩ := Option.isSome_iff_exists.1 hraises
  obtain ⟨ds', hds', d, hd, hon⟩ := passValue_of_handsOff hsecond
  obtain ⟨a, ha⟩ := except_ok_of_toBool
    (x := (scripted {} stillAmbient (afterOps sentOps { target := {} }) (.facade failOp)).1) (by decide +kernel)
  obtain ⟨row, hrow⟩ : ∃ row, failedOnce.store.externalResults.get "e" = some row :=
    Option.isSome_iff_exists.1 (by decide +kernel)
  have hbefore := turns_afterOps reportingCoordinator (fun w o => hsem w (.facade o)) sentOps
    { target := {} }
  obtain ⟨hraised, hrows⟩ := turn_passed (Environment.any Script) rfl (fun _ => trivial) hx
  obtain ⟨hturn, hrows'⟩ := turn_passed (Environment.any Script) rfl (fun _ => trivial) hds'
  have hepisode : HandoffTurns {} (Environment.any Script) reportingCoordinator (World.Holds "e" row)
      (fun _ _ _ => True) failedOnce _ _ _ :=
    .pass "trip" 0 hrow trivial hraised (.pass "trip" 0 (by unfold World.Holds; rwa [hrows]) trivial hturn
      (.here (by unfold World.Holds; rwa [hrows', hrows])))
  have hone := h {} _ _ _ _ (afterOps sentOps { target := {} }) _ _ failOp a "e" row hbefore
    (ha ▸ hsem (afterOps sentOps { target := {} }) (.facade failOp)) (by decide +kernel) hepisode
    ⟨d, List.mem_append_right _ (List.mem_append_left _ hd), hon⟩
  exact absurd hone (by decide +kernel)

/-- A callback that always returns, and one that raised once: in both histories a failure that the
pass decided to hand off has had no returning call. -/
theorem handoffs_lost : ¬ HandedOffOnce {} calmEnvironment reportingCoordinator ∧
    ¬ HandedOffOnce {} (Environment.any Script) reportingCoordinator :=
  ⟨repeated_failure_lost, raising_callback_lost⟩

/-- The booking failed, and of two passes that attempt its handoff the first gives it to the callback. -/
theorem handoffs_once_booking : ∃ (row : ExternalResultRecord) (attempts : List HandoffAttempt)
    (decisions : List RecoveryDecision) (w' : World Script),
    HandoffTurns {} calmEnvironment reportingCoordinator (World.Holds "e" row)
      (OneText reportingCoordinator "e" row "trip") failedOnce attempts decisions w' ∧
    HandoffDecided "e" decisions ∧ attempts.length = 2 ∧ DeliveredOnce "e" attempts := by
  have hsem := handoffAnswer_sem calmEnvironment (.ok ()) rfl fun _ => rfl
  have hpass : handsOff (.ok ()) failedOnce = true := by decide +kernel
  have hagain : handsOff (.ok ()) (passed (.ok ()) failedOnce) = true := by decide +kernel
  obtain ⟨ds, hds, d, hd, hon⟩ := passValue_of_handsOff hpass
  obtain ⟨ds', hds', -⟩ := passValue_of_handsOff hagain
  obtain ⟨row, hrow⟩ : ∃ row, failedOnce.store.externalResults.get "e" = some row :=
    Option.isSome_iff_exists.1 (by decide +kernel)
  obtain ⟨hfirst, hrows⟩ := turn_passed calmEnvironment rfl (fun _ => rfl) hds
  obtain ⟨hsecond, hrows'⟩ := turn_passed calmEnvironment rfl (fun _ => rfl) hds'
  -- both passes ask for nothing but the handoff of the booking
  have hone : ∀ {w : World Script}, (∀ d ∈ reportingCoordinator.asks w.store "trip" 0, d.decidesOn "e" = true) →
      OneText reportingCoordinator "e" row "trip" w "trip" 0 := fun hall =>
    ⟨fun _ _ _ => rfl, fun d hd hoff => absurd (hall d hd) (by rw [hoff]; exact Bool.false_ne_true)⟩
  have hepisode : HandoffTurns {} calmEnvironment reportingCoordinator (World.Holds "e" row)
      (OneText reportingCoordinator "e" row "trip") failedOnce _ _ _ :=
    .pass "trip" 0 hrow (hone (by decide +kernel)) hfirst (.pass "trip" 0 (by unfold World.Holds; rwa [hrows])
      (hone (by decide +kernel)) hsecond (.here (by unfold World.Holds; rwa [hrows', hrows])))
  have hdecided : HandoffDecided "e" (ds ++ (ds' ++ [])) := ⟨d, List.mem_append_left _ hd, hon⟩
  refine ⟨row, _, _, _, hepisode, hdecided, ?_, (handoffs_once {} calmEnvironment reportingCoordinator rfl
    hepisode hdecided).2 ⟨?_, ?_⟩⟩
  · decide +kernel
  · have hnone : failedOnce.handoffEmitted = [] := by decide +kernel
    rw [hnone]
    exact List.not_mem_nil
  · decide +kernel

end Raef
