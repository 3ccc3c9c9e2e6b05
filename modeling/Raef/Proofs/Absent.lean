import Raef.Proofs.Service
import Raef.Proofs.Held

/-!
# Committed writes

A write that the mock target has recorded under its id, whose answer never came back: what
`MockTargetVerifier` says of it, whatever it is asked and whenever.

    a recorded id stays recorded                        (recorded_op)
    a probe of a recorded id finds a commit             (verifyWrite_recorded)
    → a committed write is never concluded absent       (committed_never_absent)
-/

namespace Raef

open Text Txn Program

/-- The service has recorded the id. -/
structure Service.Recorded (t : Service) (e : String) : Prop where
  wf : t.Wf
  entry : ∃ x ∈ t.history, x.RecordedAs e

/-- The write has been sent, and nothing has been concluded against it. -/
def ExecutionStatus.Sent (st : ExecutionStatus) : Prop := st ≠ .intentLogged ∧ st ≠ .verifiedNotFound

section
variable {cfg : LoggingServiceConfig} {read : JsonObject → Option (String × JsonObject)}
  {mode : IdempotencyMode} {own : String → Prop} {t t' : Service} {w w' : World Service} {e : String}

theorem Service.Recorded.serve (h : t.Recorded e) (amb : TargetAmbient) (call : TargetCall) :
    (t.serve amb call).Recorded e := by
  obtain ⟨x, hx, hrec⟩ := h.entry
  exact ⟨Service.wf_serve h.wf amb call, x, List.mem_append_left _ hx, hrec⟩

theorem Service.Recorded.others (h : t.Recorded e) (ht : Service.Others own t t') : t'.Recorded e := by
  obtain ⟨x, hx, hrec⟩ := h.entry
  obtain ⟨added, hadded, -⟩ := ht.history
  refine ⟨ht.wf h.wf, x, ?_, hrec⟩
  rw [hadded]
  exact List.mem_append_left _ hx

theorem Service.Recorded.invoked {call : Invocation} {outcome : InvokeOutcome} (h : t.Recorded e)
    (ht : Service.Invoked read mode own call t outcome t') : t'.Recorded e := by
  cases ht with
  | raised error => exact h
  | requestLost error => exact h
  | answered reads fresh accepts => exact h.serve _ _
  | answerLost error reads fresh accepts => exact h.serve _ _
  | refused reads fresh refuses => exact h.serve _ _

/-- Nothing that a process does takes a record out of the target. -/
theorem recorded_op {o : Op} {r : Except PyError o.Res} (h : w.target.Recorded e)
    (hs : sem cfg (Service.environment read mode own) w o r w') : w'.target.Recorded e := by
  cases o with
  | facade o => exact sem_facade (P := fun w' : World Service => w'.target.Recorded e) hs h fun _ _ _ _ => h
  | invoke call =>
    obtain ⟨outcome, t', ⟨t1, t2, hbefore, hinvoked, hafter⟩, -, rfl⟩ := sem_invoke.1 hs
    exact ((h.others hbefore).invoked hinvoked).others hafter
  | verify probe =>
    obtain ⟨answer, t', ⟨t1, hbefore, hafter, -⟩, -, rfl⟩ := sem_verify.1 hs
    exact (h.others hbefore).others hafter
  | handoff d =>
    rcases sem_handoff hs with rfl | ⟨keys, rfl⟩
    · exact h
    · exact h

/-- A probe of a recorded id finds a commit, whatever the request was. -/
theorem verifyWrite_recorded {probe : Probe} {v : VerificationDecision} (h : t.Recorded probe.executionId)
    (hv : t.data.verifyWrite probe = .ok v) : v.committed = some true := by
  have hkept := history_kept h.wf
  unfold TargetData.verifyWrite at hv
  by_cases hblank : probe.executionId = ""
  · rw [if_pos hblank] at hv
    cases hv
  · rw [if_neg hblank] at hv
    obtain ⟨record, hrecord⟩ := Option.isSome_iff_exists.1 ((hkept.log probe.executionId).2 h.entry)
    obtain ⟨fields, rfl⟩ := hkept.objects _ _ hrecord
    have hget : t.data.getActionByExecutionId probe.executionId = .ok (some (.obj fields)) := by
      unfold TargetData.getActionByExecutionId
      rw [if_neg hblank, hrecord]
    rw [hget] at hv
    cases hv
    rfl

/-- What a pass hears of a recorded id. -/
theorem probed_recorded {probe : Probe} {v : WriteVerification} (h : w.target.Recorded probe.executionId)
    (hs : sem cfg (Service.environment read mode own) w (.verify probe) (.ok (some v)) w') :
    v.committed = some true := by
  obtain ⟨answer, t', ⟨t1, hbefore, -, hanswer⟩, hok, -⟩ := sem_verify.1 hs
  cases hok
  rcases hanswer with hnone | ⟨decision, hdecision, hsome⟩
  · cases hnone
  · cases hsome
    exact verifyWrite_recorded (h.others hbefore) hdecision

/-- **A committed write is never concluded absent.**  Once the target has recorded a write that was sent, calls
in any interleaving, lost anywhere and with other clients in between, never mark it `VERIFIED_NOT_FOUND`, never
decide on a replay of it and never send it again; a probe may find no answer, but never a missing commit. -/
theorem committed_never_absent {ι : Type} [DecidableEq ι] (cfg : LoggingServiceConfig)
    (read : JsonObject → Option (String × JsonObject)) (mode : IdempotencyMode) (own : String → Prop)
    {calls : ι → Call} (hcalls : ∀ i, (calls i).Framework) {w w' : World Service} {e : String}
    (hrecorded : w.target.Recorded e) {row : ExternalResultRecord}
    (hrow : w.store.externalResults.get e = some row) (hst : row.executionStatus.Sent)
    {pool : Pool ι Op Op.Res PyError fun i => (calls i).Result}
    (hr : Reach (fun _ => sem cfg (Service.environment read mode own))
      (w, fun i => some (calls i).program) (w', pool)) :
    (∃ row', w'.store.externalResults.get e = some row' ∧ row'.executionStatus.Sent) ∧
    w'.trace.filter (Mark.sends e) = w.trace.filter (Mark.sends e) ∧
    ∀ i x, pool i = some (.ret x) → (calls i).Holds ExecutionStatus.Sent e x := by
  have hH : Holding cfg (Service.environment read mode own) ExecutionStatus.Sent (fun w => w.target.Recorded e) e := by
    refine ⟨fun h => h.2 rfl, fun w o r w' h hs => recorded_op h hs, fun _ => ⟨⟨by decide, by decide⟩, ?_⟩⟩
    rintro w probe v w' h rfl hs b hb
    rw [probed_recorded h hs] at hb
    cases hb
    rfl
  obtain ⟨hheld, hends⟩ := reach_held hH hcalls ⟨row, hrow, hst⟩ hrecorded hr
  exact ⟨hheld.record, hheld.sends, hends⟩

end

/-! ## An answer lost -/

/-- The seat is taken, and the process lost before it hears of it. -/
def lostSeatWorld : World Service := (serveTurns seatPool [(false, 1), (true, 5)] { target := {} }).1

/-- The write made again, and a pass. -/
def seatRetryPool : Bool → Call
  | false => .executeTool {} seatCall
  | true => .recoverRun {} "trip" 10000000

/-- Both, one operation at a time. -/
def seatRetried : World Service × Pool Bool Op Op.Res PyError fun i => (seatRetryPool i).Result :=
  serveTurns seatRetryPool [(true, 4), (false, 1), (true, 6), (false, 5)] lostSeatWorld

theorem lostSeatWorld_recorded : lostSeatWorld.target.Recorded seatCall.executionId := by
  have hserved : ServedBy readAction .idempotent (fun _ => False) seatPool lostSeatWorld :=
    reach_served (serveTurns_reach (fun h => h) seatPool _ _)
  have hlogged : (lostSeatWorld.target.data.actionLog.get seatCall.executionId).isSome = true := by
    decide +kernel
  exact ⟨hserved.wf, ((history_kept hserved.wf).log _).1 hlogged⟩

theorem committed_never_absent_seat :
    (∃ row, seatRetried.1.store.externalResults.get seatCall.executionId = some row ∧ row.executionStatus.Sent) ∧
    seatRetried.1.trace.filter (Mark.sends seatCall.executionId) =
      lostSeatWorld.trace.filter (Mark.sends seatCall.executionId) ∧
    ∀ i x, seatRetried.2 i = some (.ret x) →
      (seatRetryPool i).Holds ExecutionStatus.Sent seatCall.executionId x := by
  have hdispatched : (lostSeatWorld.store.externalResults.get seatCall.executionId).any
      (fun row => row.executionStatus = .dispatched) = true := by decide +kernel
  obtain ⟨hsome, hst⟩ := (Option.any_eq_true_iff_get _ _).1 hdispatched
  have hcalls : ∀ i, (seatRetryPool i).Framework := by
    intro i
    cases i <;> trivial
  have hsent : (Option.get _ hsome).executionStatus.Sent := by
    rw [of_decide_eq_true hst]
    exact ⟨by decide, by decide⟩
  exact committed_never_absent {} readAction .idempotent (fun _ => False) hcalls lostSeatWorld_recorded
    (Option.some_get hsome).symm hsent (serveTurns_reach (fun h => h) seatRetryPool _ _)

end Raef
