import Raef.Model.Agent
import Raef.Proofs.Held
import Raef.Proofs.Isolation
import Raef.Proofs.PlanFrame
import Raef.Proofs.PlanPointer

/-!
# An intent that the agent takes for done

A process lost between the intent of a write and its dispatch leaves a record that every tool call answers
`PENDING_RECOVERY` from, and that a pass decides to replay.  The agent's turn hands such a write off, and its
step marks the plan item as done.

    the step of an intent ends handed off, with its item done and its write not sent    (step_skips_intent)
-/

namespace Raef

open Text Txn Program

/-! ## The item -/

/-- An item that is advanced to done is done. -/
theorem advanced_done {cfg : LoggingServiceConfig} {amb : Ambient} {a : PlanItemAdvance} {s s' : Store}
    {r : PlannerState} (hdone : parseStatus a.newStatus = .ok .done) (h : advancePlanItem cfg amb a s = .ok (r, s')) :
    s'.HasDone a.runId a.planItemId := by
  obtain ⟨s1, s2, -, -, h1, h2, h3⟩ := advancePlanItem_ok h
  obtain ⟨st, st', out, hload, hst, hload1, hperm, -⟩ := updatePlan_load h1 fun st st' hn hst =>
    let ⟨_, _, hu⟩ := updateItemStatusState_ok hst
    ⟨hu.runId, hu.itemsNormal hn⟩
  obtain ⟨next, hnext, hu⟩ := updateItemStatusState_ok hst
  cases hdone.symm.trans hnext
  obtain ⟨hdec, hnormal⟩ := loadPlan_normal hload
  have hst' : st'.IsDone a.planItemId :=
    (isDone_status (hnormal.integrity hdec).nodup hu.items hu.found).2 (.inl ⟨rfl, rfl⟩)
  obtain ⟨item, hitem, hstatus⟩ := hst'
  refine ⟨out, ?_, item, hperm.mem_iff.2 hitem, hstatus⟩
  obtain ⟨_, -, -, rfl⟩ := syncContextWithPlanner_ok h2
  rw [h3.checkpointed.loadPlan]
  exact hload1

theorem exec_done {τ : Type} {cfg : LoggingServiceConfig} {env : Environment τ} {w w' : World τ} {a : PlanItemAdvance}
    {r : PlannerState} (hdone : parseStatus a.newStatus = .ok .done)
    (hs : sem cfg env w (.facade (.advancePlanItem a)) (.ok r) w') : w'.store.HasDone a.runId a.planItemId := by
  obtain ⟨amb, s, hx, rfl⟩ := sem_facade_ok.1 hs
  exact advanced_done hdone hx

/-! ## The turn -/

section
variable {τ : Type} {cfg : LoggingServiceConfig} {env : Environment τ} {mgr : TransactionManager}
  {rc : RecoveryCoordinator} {c : ToolCall} {sent : List Mark} {w w' : World τ}

/-- The statuses of an intent. -/
abbrev IntentOnly (st : ExecutionStatus) : Prop := st = .intentLogged

theorem holding_intent (e : String) : Holding cfg env IntentOnly (fun _ => True) e :=
  ⟨by decide, fun _ _ _ _ _ _ => trivial, fun h => by cases h⟩

/-- What a tool call answers from an intent. -/
theorem answered_intent {x : Except PyError TransactionResult} {result : TransactionResult}
    (h : (Call.executeTool mgr c).Holds IntentOnly c.executionId x) (hx : x = .ok result) :
    result.executionId = c.executionId ∧ result.disposition = .pendingRecovery := by
  obtain ⟨record, hid, hst, rfl⟩ := h rfl result hx
  refine ⟨hid, ?_⟩
  unfold handleExisting
  dsimp only
  rw [show record.executionStatus = .intentLogged from hst]

/-- The outcome of a turn, if it returns, is that the write is handed off. -/
abbrev HandsOff (x : Except PyError TurnEnd) : Prop := ∀ ended, x = .ok ended → ended = .handedOff

theorem heldSafe_resolve {ds : List RecoveryDecision} {runId : String} {now : Datetime}
    (hds : (Call.recoverRun rc runId now).Holds IntentOnly c.executionId (.ok ds)) (w : World τ) :
    HeldSafe cfg env IntentOnly (fun _ => True) c.executionId sent HandsOff
      (resolveRecoveredExecution mgr c c.executionId ds) w := by
  have hback : HandsOff (.ok .handedOff) := by
    rintro ended ⟨⟩
    rfl
  unfold resolveRecoveredExecution
  split
  · exact hback
  · next d hd =>
    have hid : d.executionId = c.executionId := by simpa using List.find?_some hd
    obtain ⟨-, hcommit⟩ := hds ds rfl d (List.mem_of_find?_eq_some hd) hid
    split
    · next hact =>
      obtain ⟨st, rfl, hcommitted⟩ := hcommit hact
      cases hcommitted
    · -- the replay finds the intent again
      refine Safe.bind (heldSafe_executeTool (holding_intent _) mgr c w) (fun result w1 hresult => ?_)
        fun _ _ _ ended hended => by cases hended
      rw [(answered_intent hresult rfl).2, if_neg (by decide)]
      exact hback
    · exact hback
    · exact hback

/-- An operation that writes no tool record leaves the intent. -/
theorem heldSafe_plain {o : FacadeOp} (ho : o.plain = true) {e : String} (w : World τ) :
    HeldSafe cfg env IntentOnly (fun _ => True) e sent (fun _ => True) (call (Op.facade o)) w :=
  fun _ _ hI _ _ hs => ⟨hI.read (holding_intent e) ho hs, trivial, by split <;> trivial⟩

/-- A turn whose record is an intent hands it off. -/
theorem heldSafe_toolTurn (rc : RecoveryCoordinator) (clock : Time) (w : World τ) :
    HeldSafe cfg env IntentOnly (fun _ => True) c.executionId sent HandsOff (toolTurn mgr rc clock c) w := by
  unfold toolTurn
  refine Safe.bind (heldSafe_executeTool (holding_intent _) mgr c w) (fun result w1 hresult => ?_)
    fun _ _ _ ended hended => by cases hended
  obtain ⟨hid, hpending⟩ := answered_intent hresult rfl
  rw [hpending, hid]
  dsimp only
  refine Safe.bind (heldSafe_plain rfl w1) (fun record w2 _ => ?_) fun _ _ _ ended hended => by cases hended
  cases passTime record clock with
  | error e => exact fun ended hended => by cases hended
  | ok now =>
    rw [lift_ok_bind]
    exact Safe.bind (heldSafe_recoverRun (holding_intent _) rc c.runId now w2) (fun ds w3 hds => heldSafe_resolve hds w3)
      fun _ _ _ ended hended => by cases hended

/-- **An intent is taken for done.**  Whatever its environment answers, a step of the agent that begins with the
record of its write an intent, and ends, ends with the write handed off: it has not been sent, its record is still
an intent, and its plan item is done. -/
theorem step_skips_intent (cfg : LoggingServiceConfig) (env : Environment τ) {row : ExternalResultRecord}
    (hrow : w.store.externalResults.get c.executionId = some row) (hst : row.executionStatus = .intentLogged)
    (mgr : TransactionManager) (rc : RecoveryCoordinator) (clock : Time) (turn : LlmTurn) {ended : TurnEnd}
    (hr : Runs (sem cfg env) w (agentStep mgr rc clock turn c) w' (.ret (.ok ended))) :
    ended = .handedOff ∧
    (∃ row', w'.store.externalResults.get c.executionId = some row' ∧ row'.executionStatus = .intentLogged) ∧
    w'.trace.filter (Mark.sends c.executionId) = w.trace.filter (Mark.sends c.executionId) ∧
    w'.store.HasDone c.runId c.planItemId := by
  have hsafe : Safe (sem cfg env)
      (Held IntentOnly (fun _ => True) c.executionId (w.trace.filter (Mark.sends c.executionId)))
      (fun _ _ => True) (fun _ _ => True)
      (fun x w' => ∀ ended, x = .ok ended → ended = .handedOff ∧ w'.store.HasDone c.runId c.planItemId)
      (agentStep mgr rc clock turn c) w := by
    unfold agentStep
    refine Safe.bind (heldSafe_plain rfl w) (fun _ w1 _ => ?_) fun _ _ _ ended hended => by cases hended
    refine Safe.bind (heldSafe_toolTurn rc clock w1) (fun ended w2 hended => ?_)
      fun _ _ _ ended hended => by cases hended
    refine Safe.call (fun w3 r w4 _ hI hs => ⟨hI.read (holding_intent _) rfl hs, trivial⟩)
      (fun w3 plan w4 _ _ hs _ => ?_) fun _ _ _ _ _ _ _ ended hended => by cases hended
    rintro ended' ⟨⟩
    have hstatus : parseStatus "done" = .ok .done := by decide +kernel
    have hdone := exec_done (a := ⟨c.runId, c.planItemId, "done", none⟩) hstatus hs
    exact ⟨hended ended rfl, hdone⟩
  obtain ⟨hheld, -, hends⟩ := hr.safe (fun _ => trivial) (fun _ _ _ _ _ => trivial) ⟨⟨row, hrow, hst⟩, rfl, trivial⟩
    (hsafe.alone fun _ => trivial)
  obtain ⟨hended, hdone⟩ := hends ended rfl
  exact ⟨hended, hheld.record, hheld.sends, hdone⟩

end

/-! ## A booking that was never sent -/

/-- What the model has said of the booking. -/
def bookingTurn : LlmTurn :=
  { runId := "trip", planItemId := "step_0", llmOutput := "book the hotel", assistantMessage := "Calling book" }

/-- The step made again, with the clock a second on. -/
def skippedStep : Prog TurnEnd × World Script :=
  Program.advance (scripted {} stillAmbient) 20 (agentStep {} plainCoordinator 0 bookingTurn bookingCall) abandonedWorld

theorem step_skips_intent_booking :
    skippedStep.2.trace.filter (Mark.sends bookingCall.executionId) = [] ∧
    skippedStep.2.store.HasDone "trip" "step_0" := by
  have hintent : (abandonedWorld.store.externalResults.get bookingCall.executionId).any
      (fun row => row.executionStatus = .intentLogged) = true := by decide +kernel
  obtain ⟨hsome, hst⟩ := (Option.any_eq_true_iff_get _ _).1 hintent
  have hends : skippedStep.1.result.any (fun x => x.toBool) = true := by decide +kernel
  obtain ⟨x, hx, hok⟩ := (Option.any_eq_true _ _).1 hends
  have hunsent : abandonedWorld.trace.filter (Mark.sends bookingCall.executionId) = [] := by decide +kernel
  have hruns := advance_runs (scripted_sem {} stillAmbient) 20 (agentStep {} plainCoordinator 0 bookingTurn bookingCall)
    abandonedWorld
  cases x with
  | error e => cases hok
  | ok ended =>
    have hret : skippedStep.1 = .ret (.ok ended) := ret_of_result hx
    rw [show (Program.advance _ _ _ _).1 = _ from hret] at hruns
    have h := step_skips_intent {} (Environment.any Script) (Option.some_get hsome).symm (of_decide_eq_true hst) {}
      plainCoordinator 0 bookingTurn hruns
    exact ⟨h.2.2.1.trans hunsent, h.2.2.2⟩

end Raef
