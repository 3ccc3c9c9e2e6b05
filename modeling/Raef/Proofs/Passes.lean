import Raef.Proofs.Total

/-!
# Rules for recovery passes

A pass reads the records once and then takes its candidates in turn.  Besides
the probe of a dispatched write and the record of its verdict, it only reads,
completes the transcript and hands off (`Neutral`).

* `recoverOne_safe`: one turn, from facts before it, after the probe, and after it.
* `recoverRun_safe`: the whole pass, from what holds between two turns.
-/

namespace Raef

open Text Txn Program

variable {τ : Type}

/-! ## What calls and passes record -/

theorem resultOf_status (c : ToolCall) (replay : Bool) (outcome : InvokeOutcome) :
    ∃ st, (c.resultOf .write replay outcome).executionStatus = some (ExecutionStatus.value st) ∧
      st ≠ .intentLogged := by
  cases outcome with
  | returned payload => exact ⟨.acked, rfl, by decide⟩
  | returnedOther => exact ⟨.failed, rfl, by decide⟩
  | raised error => exact ⟨.failed, rfl, by decide⟩
  | ambiguous error =>
    cases replay with
    | true => exact ⟨.verifiedNotFound, rfl, by decide⟩
    | false => exact ⟨.dispatched, rfl, by decide⟩

theorem resultOf_executionId (c : ToolCall) (op : OperationType) (replay : Bool) (outcome : InvokeOutcome) :
    (c.resultOf op replay outcome).executionId = c.executionId := by
  cases outcome with
  | ambiguous error => cases op <;> rfl
  | _ => rfl

theorem resultOf_runId (c : ToolCall) (op : OperationType) (replay : Bool) (outcome : InvokeOutcome) :
    (c.resultOf op replay outcome).runId = c.runId := by
  cases outcome with
  | ambiguous error => cases op <;> rfl
  | _ => rfl

/-- A call whose result is over clears the pending id. -/
theorem resultOf_clears (c : ToolCall) (op : OperationType) (replay : Bool) (outcome : InvokeOutcome) :
    ∃ st, (c.resultOf op replay outcome).executionStatus = some (ExecutionStatus.value st) ∧
      (st.terminal = true → (c.resultOf op replay outcome).clearPending = true) := by
  cases outcome with
  | returned payload => exact ⟨.acked, rfl, fun _ => rfl⟩
  | returnedOther => exact ⟨.failed, rfl, fun _ => rfl⟩
  | raised error => exact ⟨.failed, rfl, fun _ => rfl⟩
  | ambiguous error =>
    cases op with
    | read => exact ⟨.failed, rfl, fun _ => rfl⟩
    | write =>
      cases replay with
      | true => exact ⟨.verifiedNotFound, rfl, fun h => by cases h⟩
      | false => exact ⟨.dispatched, rfl, fun h => by cases h⟩

/-- A result names the tool and the type of its call. -/
theorem resultOf_given (c : ToolCall) (op : OperationType) (replay : Bool) (outcome : InvokeOutcome) :
    ∃ rs, (c.resultOf op replay outcome).resultStatus = ExternalResultStatus.value rs ∧
      (c.resultOf op replay outcome).toolName = some c.toolName ∧
      (c.resultOf op replay outcome).operationType = some op.value := by
  cases outcome with
  | returned payload => exact ⟨.ok, rfl, rfl, rfl⟩
  | returnedOther => exact ⟨.error, rfl, rfl, rfl⟩
  | raised error => exact ⟨.error, rfl, rfl, rfl⟩
  | ambiguous error =>
    cases op with
    | read => exact ⟨.error, rfl, rfl, rfl⟩
    | write => exact ⟨.timeout, rfl, rfl, rfl⟩

/-- The status a verdict records. -/
def verdictStatus : Bool → ExecutionStatus
  | true => .verifiedCommitted
  | false => .verifiedNotFound

section
variable (runId e : String) (v : WriteVerification) (b : Bool)

theorem verdictResult_executionId : (verdictResult runId e v b).executionId = e := by cases b <;> rfl

theorem verdictResult_runId : (verdictResult runId e v b).runId = runId := by cases b <;> rfl

theorem verdictResult_status :
    (verdictResult runId e v b).executionStatus = some (verdictStatus b).value := by cases b <;> rfl

end

/-! ## Passes -/

/-- The operations that touch neither tool records nor the target. -/
inductive Neutral : Op → Prop
  | loadContext (runId : String) : Neutral (.facade (.loadContext runId))
  | message (a : ContextMessage) : Neutral (.facade (.recordContextMessage a))
  | handoff (d : RecoveryDecision) : Neutral (.handoff d)

theorem emitHandoff_uses (rc : RecoveryCoordinator) (d : RecoveryDecision) :
    (emitHandoff rc d).Uses Neutral := by
  unfold emitHandoff
  split
  · exact ⟨.handoff d, fun _ => trivial⟩
  · trivial

theorem reconcileToolMessage_uses (runId : String) (record : ExternalResultRecord) :
    (reconcileToolMessage runId record).Uses Neutral := by
  unfold reconcileToolMessage
  cases record.responsePayload with
  | none => trivial
  | some responsePayload =>
    refine ⟨.loadContext runId, fun context => ?_⟩
    cases context with
    | none => trivial
    | some context =>
      show Uses Neutral (if _ then _ else _)
      split
      · trivial
      · exact ⟨.message _, fun _ => trivial⟩

theorem actOn_uses (rc : RecoveryCoordinator) (runId : String) (d : RecoveryDecision)
    (record : ExternalResultRecord) : (actOn rc runId d record).Uses Neutral := by
  unfold actOn
  cases d.action with
  | markCommitted => exact reconcileToolMessage_uses runId record
  | handoffRetryOrAbandon => exact emitHandoff_uses rc d
  | resumeWaiting => trivial
  | replay => trivial

/-! ## One turn -/

section
variable {cfg : LoggingServiceConfig} {env : Environment τ} {I : World τ → Prop}
  {R G : World τ → World τ → Prop}

/-- The rule of one turn: `F` holds before it, `V` after a probe with a verdict, `Q` after the turn. -/
theorem recoverOne_safe {rc : RecoveryCoordinator} {runId : String} {now : Datetime}
    {records : List ExternalResultRecord} {e : String} {F Q : World τ → Prop}
    {V : WriteVerification → Bool → World τ → Prop}
    (hF : ∀ w w', F w → R w w' → F w') (hQ : ∀ w w', Q w → R w w' → Q w')
    (hV : ∀ v b w w', V v b w → R w w' → V v b w') (hFQ : ∀ w, F w → Q w)
    (hneutral : ∀ w o r w', Neutral o → I w → Q w → sem cfg env w o r w' → I w' ∧ G w w' ∧ Q w')
    (hverify : ∀ record w r w', recordOf records e = some record → record.executionStatus = .dispatched →
      record.operationType = OperationType.write.value → I w → F w →
      sem cfg env w (.verify ⟨e, record.toolName, record.requestPayload⟩) r w' →
      I w' ∧ G w w' ∧ F w' ∧ ∀ v b, r = .ok (some v) → v.committed = some b → V v b w')
    (hverdict : ∀ record v b w r w', recordOf records e = some record → v.committed = some b → I w →
      V v b w → sem cfg env w (.facade (.recordToolResult (verdictResult runId e v b))) r w' →
      I w' ∧ G w w' ∧ Q w')
    {w : World τ} (hw : F w) :
    Safe (sem cfg env) I R G (fun _ => Q) (recoverOne rc runId now records e) w := by
  have tail : ∀ (d : RecoveryDecision) (record : ExternalResultRecord) (w : World τ), Q w →
      Safe (sem cfg env) I R G (fun _ => Q) (do actOn rc runId d record; return d) w := by
    intro d record w hw
    refine Safe.bind (P := fun _ => Q) ?_ (fun _ _ h => h) (fun _ _ h => h)
    exact Uses.keeping (fun w o r w' ho hI hq hs => hneutral w o r w' ho hI hq hs) hQ
      (actOn_uses rc runId d record) hw
  unfold recoverOne
  cases hrec : recordOf records e with
  | none =>
    refine Safe.bind (P := fun _ => Q) ?_ (fun _ _ h => h) (fun _ _ h => h)
    exact Uses.keeping (fun w o r w' ho hI hq hs => hneutral w o r w' ho hI hq hs) hQ
      (emitHandoff_uses rc _) (hFQ w hw)
  | some record =>
    dsimp only
    cases hdec : decideRecovery rc.strategy runId e record now with
    | error err => exact hFQ w hw
    | ok decision =>
      rw [lift_ok_bind]
      unfold settle
      split
      · next hneeds =>
        unfold needsVerification at hneeds
        simp only [Bool.and_eq_true, decide_eq_true_eq] at hneeds
        unfold verifyAmbiguousWrite
        refine Safe.bind (P := fun _ => Q) ?_ (fun settled w h => tail settled.1 settled.2 w h)
          (fun _ _ h => h)
        have hprobe := fun w1 r w2 hR hI hs =>
          hverify record w1 r w2 hrec hneeds.2 hneeds.1.2 hI (hF w w1 hw hR) hs
        refine Safe.call (fun w1 r w2 hR hI hs => ⟨(hprobe w1 r w2 hR hI hs).1, (hprobe w1 r w2 hR hI hs).2.1⟩)
          (fun w1 answer w2 hR hI hs _ => ?_)
          fun w1 err w2 hR hI hs _ => hFQ _ (hprobe w1 _ w2 hR hI hs).2.2.1
        obtain ⟨-, -, h3, h4⟩ := hprobe w1 _ w2 hR hI hs
        cases answer with
        | none => exact hFQ _ h3
        | some v =>
          dsimp only
          cases hc : v.committed with
          | none => exact hFQ _ h3
          | some b =>
            have hrecord := fun w3 r w4 hR hI hs =>
              hverdict record v b w3 r w4 hrec hc hI (hV _ _ _ w3 (h4 v b rfl hc) hR) hs
            exact Safe.call
              (fun w3 r w4 hR hI hs => ⟨(hrecord w3 r w4 hR hI hs).1, (hrecord w3 r w4 hR hI hs).2.1⟩)
              (fun w3 updated w4 hR hI hs _ => (hrecord w3 _ w4 hR hI hs).2.2)
              fun w3 err w4 hR hI hs _ => (hrecord w3 _ w4 hR hI hs).2.2
      · exact tail decision record w (hFQ w hw)

/-! ## The pass -/

theorem recoverEach_safe {rc : RecoveryCoordinator} {runId : String} {now : Datetime}
    {records : List ExternalResultRecord} {K : List String → World τ → Prop}
    (hdone : ∀ e es w, K (e :: es) w → K es w)
    (hone : ∀ e es w, K (e :: es) w →
      Safe (sem cfg env) I R G (fun _ => K es) (recoverOne rc runId now records e) w)
    (ids : List String) {w : World τ} (hw : K ids w) :
    Safe (sem cfg env) I R G (fun _ => K []) (recoverEach rc runId now records ids) w := by
  induction ids generalizing w with
  | nil => exact hw
  | cons e es ih =>
    have hnil : ∀ (l : List String) w, K l w → K [] w := by
      intro l
      induction l with
      | nil => exact fun _ h => h
      | cons e es ihl => exact fun w h => ihl w (hdone e es w h)
    refine Safe.bind (hone e es w hw) (fun d w1 h1 => ?_) (fun _ w1 h1 => hnil es w1 h1)
    exact Safe.bind (ih h1) (fun _ _ h => h) (fun _ _ h => h)

/-- The rule of a pass: `K records ids` holds with the `ids` still to do. -/
theorem recoverRun_safe {rc : RecoveryCoordinator} {runId : String} {now : Datetime}
    {K : List ExternalResultRecord → List String → World τ → Prop} {Q : World τ → Prop}
    (hread : ∀ w o r w', I w → (o = .loadContext runId ∨ o = .listExternalResults runId ∨
      o = .listPendingExecutions runId) → sem cfg env w (.facade o) r w' → I w' ∧ G w w')
    (hlist : ∀ w records, I w → w.store.listExternalResults runId = .ok records →
      ∀ w' pending, R w w' → I w' → w'.store.listPendingExecutions runId = .ok pending →
        K records (candidateIds records pending) w')
    (hdone : ∀ records e es w, K records (e :: es) w → K records es w)
    (hone : ∀ records e es w, K records (e :: es) w →
      Safe (sem cfg env) I R G (fun _ => K records es) (recoverOne rc runId now records e) w)
    (hQ : ∀ w, Q w) (w : World τ) :
    Safe (sem cfg env) I R G (fun _ => Q) (recoverRun rc runId now) w := by
  unfold recoverRun
  refine Safe.call (fun w1 r w2 _ hI hs => hread w1 _ r w2 hI (.inl rfl) hs)
    (fun w1 context w2 _ hI hs hI2 => ?_) fun _ _ _ _ _ _ _ => hQ _
  cases context with
  | none => exact hQ _
  | some context =>
    refine Safe.call (fun w1 r w2 _ hI hs => hread w1 _ r w2 hI (.inr (.inl rfl)) hs)
      (fun w3 records w4 _ hI hs hI2 => ?_) fun _ _ _ _ _ _ _ => hQ _
    obtain ⟨hlisted, rfl⟩ := sem_listExternalResults hs
    refine Safe.call (fun w1 r w2 _ hI hs => hread w1 _ r w2 hI (.inr (.inr rfl)) hs)
      (fun w5 pending w6 hR hI5 hs hI6 => ?_) fun _ _ _ _ _ _ _ => hQ _
    obtain ⟨hpending, rfl⟩ := sem_listPendingExecutions hs
    have hK := hlist _ records hI hlisted _ pending hR hI5 hpending
    exact (recoverEach_safe (hdone records) (hone records) _ hK).mono fun _ _ _ => hQ _

end

end Raef
