import Raef.Proofs.Final
import Raef.Proofs.Issued
import Raef.Proofs.Script
import Raef.Proofs.Windows

/-!
# Records that calls only read

A record with a status that a tool call answers from, whose probes, if a pass makes any, find it
committed.  Calls made from then on leave it among these statuses, in any interleaving, and never send
its id again (`reach_held`).

    an intent without a dispatch is never sent                (intent_never_sent)

A crash between the intent and the dispatch leaves such a record.  A pass decides `REPLAY` on it, and
the tool call that follows answers `PENDING_RECOVERY` again.
-/

namespace Raef

open Text Txn Program

variable {τ : Type}

/-- What the calls of a pool end with when the record of the id is held: a tool call answers from it, and a
pass decides on a replay only of an intent, and on a commit only of one. -/
def Call.Holds (S : ExecutionStatus → Prop) (e : String) : (c : Call) → Except PyError c.Result → Prop
  | .executeTool _ c, x => c.executionId = e → ∀ res, x = .ok res →
    ∃ record, record.executionId = e ∧ S record.executionStatus ∧ res = handleExisting record
  | .recoverRun _ _ _, x => ∀ ds : List RecoveryDecision, x = .ok ds → ∀ d ∈ ds, d.executionId = e →
    (d.action = .replay → S .intentLogged) ∧ (d.action = .markCommitted → ∃ st, S st ∧ st.committed = true)
  | .facade _, _ => True

/-- The record of the id has one of the statuses. -/
def Store.Held (s : Store) (S : ExecutionStatus → Prop) (e : String) : Prop :=
  ∃ row, s.externalResults.get e = some row ∧ S row.executionStatus

/-- The record is held, and the id has been sent as often as at the start. -/
structure Held (S : ExecutionStatus → Prop) (J : World τ → Prop) (e : String) (sent : List Mark) (w : World τ) :
    Prop where
  record : w.store.Held S e
  sends : w.trace.filter (Mark.sends e) = sent
  context : J w

/-- What is asked of the statuses and of the probes of the id. -/
structure Holding (cfg : LoggingServiceConfig) (env : Environment τ) (S : ExecutionStatus → Prop)
    (J : World τ → Prop) (e : String) : Prop where
  answered : ¬ S .verifiedNotFound
  kept : ∀ w o r w', J w → sem cfg env w o r w' → J w'
  probed : S .dispatched → S .verifiedCommitted ∧ ∀ (w : World τ) probe v w', J w → probe.executionId = e →
    sem cfg env w (.verify probe) (.ok (some v)) w' → ∀ b, v.committed = some b → b = true

section
variable {cfg : LoggingServiceConfig} {env : Environment τ} {S : ExecutionStatus → Prop} {J : World τ → Prop}
  {e : String} {sent : List Mark} {w w' : World τ}

/-- An operation that leaves the record of the id, or one of its statuses, and does not send it. -/
theorem Held.op (h : Held S J e sent w) (hH : Holding cfg env S J e) {o : Op} {r : Except PyError o.Res}
    (hs : sem cfg env w o r w') (hrec : w'.store.Held S e)
    (hno : ∀ call, o = .invoke call → call.identity ≠ e) : Held S J e sent w' := by
  refine ⟨hrec, ?_, hH.kept w o r w' h.context hs⟩
  rw [← h.sends]
  cases o with
  | facade o => exact sem_facade (P := fun w' => w'.trace.filter _ = w.trace.filter _) hs rfl fun _ _ _ _ => rfl
  | invoke call =>
    obtain ⟨outcome, target, -, -, rfl⟩ := sem_invoke.1 hs
    have hne : Mark.sends e (.sent call.identity outcome) = false := decide_eq_false (hno call rfl)
    rw [List.filter_append, List.filter_cons_of_neg (by rw [hne]; decide), List.filter_nil, List.append_nil]
  | verify probe =>
    obtain ⟨_, _, -, -, rfl⟩ := sem_verify.1 hs
    rw [List.filter_append, List.filter_cons_of_neg (by simp [Mark.sends]), List.filter_nil, List.append_nil]
  | handoff d =>
    rcases sem_handoff hs with rfl | ⟨keys, rfl⟩
    · rfl
    · rw [List.filter_append, List.filter_cons_of_neg (by simp [Mark.sends]), List.filter_nil, List.append_nil]

/-- A record of another id is written, or none. -/
theorem held_put {s s' : Store} {new : ExternalResultRecord} (h : s.Held S e)
    (hput : s'.externalResults = s.externalResults.put new) (hne : new.executionId ≠ e) : s'.Held S e := by
  obtain ⟨row, hrow, hst⟩ := h
  refine ⟨row, ?_, hst⟩
  rw [hput, Table.get_put_ne _ _ (Ne.symm hne)]
  exact hrow

theorem held_same {s s' : Store} (h : s.Held S e) (hrows : s'.externalResults = s.externalResults) : s'.Held S e := by
  obtain ⟨row, hrow, hst⟩ := h
  exact ⟨row, by rw [hrows]; exact hrow, hst⟩

theorem held_plain {o : FacadeOp} (ho : o.plain = true) {r : Except PyError o.Res} (h : w.store.Held S e)
    (hs : sem cfg env w (.facade o) r w') : w'.store.Held S e :=
  sem_facade (P := fun w' => w'.store.Held S e) hs h fun _ _ _ hx => held_same h (exec_framed ho hx).externalResults

/-- An operation that writes no tool record. -/
theorem Held.read (h : Held S J e sent w) (hH : Holding cfg env S J e) {o : FacadeOp} (ho : o.plain = true)
    {r : Except PyError o.Res} (hs : sem cfg env w (.facade o) r w') : Held S J e sent w' :=
  h.op hH hs (held_plain ho h.record hs) fun _ heq => by cases heq

theorem held_result {a : ToolResult} (hne : a.executionId ≠ e) {r : Except PyError ExternalResultRecord}
    (h : w.store.Held S e) (hs : sem cfg env w (.facade (.recordToolResult a)) r w') : w'.store.Held S e := by
  refine sem_facade (P := fun w' => w'.store.Held S e) hs h fun amb p s hx => ?_
  obtain ⟨es, new, hr, -⟩ := result_records (FacadeOp.exec_recordToolResult.1 hx)
  exact held_put h hr.externalResults (hr.executionId ▸ hne)

/-- A tool call for another id. -/
theorem held_other {mgr : TransactionManager} {c : ToolCall} (hc : c.executionId ≠ e) {o : Op}
    (ho : IssuedBy (.executeTool mgr c) o) {r : Except PyError o.Res} (h : w.store.Held S e)
    (hs : sem cfg env w o r w') : w'.store.Held S e ∧ ∀ call, o = .invoke call → call.identity ≠ e := by
  have hcall : (Call.executeTool mgr c).Framework := trivial
  constructor
  · rcases issued_rows hcall ho hs with hsame | ⟨new, hput, hwritten⟩
    · exact held_same h hsame
    · refine held_put h hput ?_
      cases hwritten with
      | intent mgr amb type => exact hc
      | dispatch mgr effect =>
        rw [effect.executionId, c.trimmed_executionId]
        exact hc
      | result mgr type replay outcome effect =>
        rw [effect.executionId, resultOf_executionId]
        exact hc
  · rintro call rfl
    cases ho with
    | send mgr type => exact hc

/-- Safe in a pool, with what is known of the result. -/
abbrev HeldSafe (cfg : LoggingServiceConfig) (env : Environment τ) (S : ExecutionStatus → Prop) (J : World τ → Prop)
    (e : String) (sent : List Mark) {α : Type} (Q : Except PyError α → Prop) (p : Prog α) (w : World τ) : Prop :=
  Safe (sem cfg env) (Held S J e sent) (fun _ _ => True) (fun _ _ => True) (fun x _ => Q x) p w

/-- A record found under the id is one of the statuses. -/
theorem Store.Held.lookup {s : Store} (h : s.Held S e) (he : Trimmed e) {found : Option ExternalResultRecord}
    (hget : s.getExternalResult e = .ok found) :
    ∃ record, found = some record ∧ record.executionId = e ∧ S record.executionStatus := by
  obtain ⟨row, hrow, hst⟩ := h
  have hlook := (getExternalResult_ok.1 hget).2
  rw [he, hrow] at hlook
  obtain ⟨-, rfl⟩ := hlook
  refine ⟨_, rfl, ?_, hst⟩
  show strip row.executionId = e
  rw [Table.key_of_get hrow, he]

theorem heldSafe_executeTool (hH : Holding cfg env S J e) (mgr : TransactionManager) (c : ToolCall) (w : World τ) :
    HeldSafe cfg env S J e sent (Call.Holds S e (.executeTool mgr c)) (executeTool mgr c) w := by
  by_cases hc : c.executionId = e
  · unfold executeTool
    cases normalizeOperationType c.operationType with
    | error err => exact fun _ res hres => by cases hres
    | ok op =>
      rw [lift_ok_bind]
      refine Safe.call (fun w1 r w2 _ hI hs => ⟨hI.read hH rfl hs, trivial⟩) (fun w1 existing w2 _ hI hs _ => ?_)
        fun _ _ _ _ _ _ _ _ res hres => by cases hres
      obtain ⟨hget, rfl⟩ := sem_getExternalResult hs
      rw [hc] at hget
      obtain ⟨record, rfl, hid, hst⟩ := hI.record.lookup (hc ▸ c.trimmed_executionId) hget
      have hne : record.executionStatus ≠ .verifiedNotFound := fun heq => hH.answered (heq ▸ hst)
      dsimp only
      rw [if_pos hne]
      rintro - res ⟨⟩
      exact ⟨record, hid, hst, rfl⟩
  · refine Safe.mono (Q := fun _ _ => True) (fun x _ _ heq => absurd heq hc) ?_
    refine Uses.keeping (F := fun _ => True) ?_ (fun _ _ _ _ => trivial) executeTool_issues trivial
    intro w o r w' ho hI _ hs
    obtain ⟨hrec, hno⟩ := held_other hc ho hI.record hs
    exact ⟨hI.op hH hs hrec hno, trivial, trivial⟩

/-! ## Passes -/

/-- What a pass may decide on the id. -/
def Decided (S : ExecutionStatus → Prop) (e : String) (d : RecoveryDecision) : Prop :=
  d.executionId = e →
    (d.action = .replay → S .intentLogged) ∧ (d.action = .markCommitted → ∃ st, S st ∧ st.committed = true)

theorem Held.neutral (h : Held S J e sent w) (hH : Holding cfg env S J e) {o : Op} (ho : Neutral o)
    {r : Except PyError o.Res} (hs : sem cfg env w o r w') : Held S J e sent w' := by
  refine h.op hH hs (held_same h.record (records_neutral ho hs)) fun call heq => ?_
  subst heq
  cases ho

theorem heldSafe_neutral (hH : Holding cfg env S J e) {α : Type} {p : Prog α} (hp : p.Uses Neutral) (w : World τ) :
    HeldSafe cfg env S J e sent (fun _ => True) p w := by
  refine Uses.keeping (F := fun _ => True) ?_ (fun _ _ _ _ => trivial) hp trivial
  intro w o r w' ho hI _ hs
  exact ⟨hI.neutral hH ho hs, trivial, trivial⟩

theorem heldSafe_settle (hH : Holding cfg env S J e) {rc : RecoveryCoordinator} {runId id : String}
    {record : ExternalResultRecord} {decision : RecoveryDecision}
    (hrecord : id = e → S record.executionStatus) (hdecision : Decided S e decision) (w : World τ) :
    HeldSafe cfg env S J e sent (fun x => ∀ p, x = .ok p → Decided S e p.1) (settle rc runId id record decision) w := by
  have hback : ∀ p, (.ok (decision, record) : Except PyError _) = .ok p → Decided S e p.1 := by
    rintro p ⟨⟩
    exact hdecision
  unfold settle
  split
  · next hneeds =>
    unfold needsVerification at hneeds
    simp only [Bool.and_eq_true, decide_eq_true_eq] at hneeds
    unfold verifyAmbiguousWrite
    refine Safe.call (fun w1 r w2 _ hI hs => ⟨hI.op hH hs ?_ (fun _ heq => by cases heq), trivial⟩)
      (fun w1 answer w2 _ hI hs _ => ?_) fun _ _ _ _ _ _ _ p hp => by cases hp
    · obtain ⟨_, _, -, -, rfl⟩ := sem_verify.1 hs
      exact hI.record
    cases answer with
    | none => exact hback
    | some v =>
      dsimp only
      cases hv : v.committed with
      | none => exact hback
      | some b =>
        have htrue : id = e → b = true ∧ S .verifiedCommitted := fun hid =>
          let ⟨hvc, hprobe⟩ := hH.probed (hneeds.2 ▸ hrecord hid)
          ⟨hprobe w1 _ v w2 hI.context hid hs b hv, hvc⟩
        refine Safe.call (fun w3 r w4 _ hI hs => ⟨hI.op hH hs ?_ (fun _ heq => by cases heq), trivial⟩)
          (fun _ _ _ _ _ _ _ p hp => ?_) fun _ _ _ _ _ _ _ p hp => by cases hp
        · have hkey := verdictResult_executionId runId id v b
          by_cases hid : id = e
          · refine sem_facade (P := fun w' => w'.store.Held S e) hs hI.record fun amb q s hx => ?_
            obtain ⟨es, new, hr, -⟩ := result_records (FacadeOp.exec_recordToolResult.1 hx)
            refine ⟨new, ?_, ?_⟩
            · show s.externalResults.get e = some new
              rw [hr.externalResults, ← hid, ← hkey, ← hr.executionId, Table.get_put_self]
            · rw [hr.executionStatus, hr.status_eq (verdictResult_status runId id v b), (htrue hid).1]
              exact (htrue hid).2
          · refine held_result ?_ hI.record hs
            rw [hkey]
            exact hid
        · cases hp
          intro hid
          cases b with
          | true => exact ⟨(fun hact => by cases hact), fun _ => ⟨_, (htrue hid).2, rfl⟩⟩
          | false => exact absurd (htrue hid).1 (by decide)
  · exact hback

theorem heldSafe_recoverOne (hH : Holding cfg env S J e) {rc : RecoveryCoordinator} {runId id : String} {now : Datetime}
    {records : List ExternalResultRecord}
    (hknown : ∀ record, recordOf records e = some record → S record.executionStatus) (w : World τ) :
    HeldSafe cfg env S J e sent (fun x => ∀ d, x = .ok d → Decided S e d) (recoverOne rc runId now records id) w := by
  unfold recoverOne
  cases hrec : recordOf records id with
  | none =>
    refine Safe.bind (heldSafe_neutral hH (emitHandoff_uses rc _) w) (fun _ _ _ d hd => ?_)
      fun _ _ _ d hd => by cases hd
    cases hd
    exact fun _ => ⟨(fun hact => by cases hact), fun hact => by cases hact⟩
  | some record =>
    dsimp only
    cases hdec : decideRecovery rc.strategy runId id record now with
    | error err => exact fun d hd => by cases hd
    | ok decision =>
      rw [lift_ok_bind]
      have hdecides := decideRecovery_ok hdec
      have hrecord : id = e → S record.executionStatus := fun heq => hknown record (heq ▸ hrec)
      have hdecision : Decided S e decision := by
        intro heq
        have hst := hrecord (hdecides.executionId.symm.trans heq)
        refine ⟨fun hact => ?_, fun hact => ⟨_, hst, hdecides.markCommitted_iff.1 hact⟩⟩
        rcases hdecides.of_replay hact with hintent | hmissing
        · exact hintent ▸ hst
        · exact absurd (hmissing ▸ hst) hH.answered
      refine Safe.bind (heldSafe_settle hH hrecord hdecision w) (fun settled w1 hsettled => ?_)
        fun _ _ _ d hd => by cases hd
      refine Safe.bind (heldSafe_neutral hH (actOn_uses rc runId settled.1 settled.2) w1) (fun _ _ _ d hd => ?_)
        fun _ _ _ d hd => by cases hd
      cases hd
      exact hsettled settled rfl

theorem heldSafe_recoverEach (hH : Holding cfg env S J e) {rc : RecoveryCoordinator} {runId : String} {now : Datetime}
    {records : List ExternalResultRecord}
    (hknown : ∀ record, recordOf records e = some record → S record.executionStatus) (ids : List String) (w : World τ) :
    HeldSafe cfg env S J e sent (fun x => ∀ ds, x = .ok ds → ∀ d ∈ ds, Decided S e d)
      (recoverEach rc runId now records ids) w := by
  induction ids generalizing w with
  | nil =>
    rintro ds ⟨⟩ d hd
    cases hd
  | cons id ids ih =>
    refine Safe.bind (heldSafe_recoverOne hH hknown w) (fun d w1 hd => ?_) fun _ _ _ ds hds => by cases hds
    refine Safe.bind (ih w1) (fun ds w2 hds => ?_) fun _ _ _ ds hds => by cases hds
    rintro all ⟨⟩ d' hd'
    rcases List.mem_cons.1 hd' with rfl | hd'
    · exact hd d' rfl
    · exact hds ds rfl d' hd'

theorem heldSafe_recoverRun (hH : Holding cfg env S J e) (rc : RecoveryCoordinator) (runId : String) (now : Datetime)
    (w : World τ) :
    HeldSafe cfg env S J e sent (Call.Holds S e (.recoverRun rc runId now)) (recoverRun rc runId now) w := by
  unfold recoverRun
  refine Safe.call (fun w1 r w2 _ hI hs => ⟨hI.read hH rfl hs, trivial⟩) (fun w1 context w2 _ hI hs hI2 => ?_)
    fun _ _ _ _ _ _ _ ds hds => by cases hds
  cases context with
  | none =>
    rintro ds ⟨⟩ d hd
    cases hd
  | some context =>
    refine Safe.call (fun w1 r w2 _ hI hs => ⟨hI.read hH rfl hs, trivial⟩) (fun w1 records w2 _ hI hs _ => ?_)
      fun _ _ _ _ _ _ _ ds hds => by cases hds
    obtain ⟨hlist, rfl⟩ := sem_listExternalResults hs
    have hknown : ∀ record, recordOf records e = some record → S record.executionStatus := by
      intro record hrec
      obtain ⟨hmem, rfl⟩ := recordOf_some hrec
      obtain ⟨-, row, hrow, -, hstripped⟩ := listed_row hlist hmem
      obtain ⟨row', hrow', hst⟩ := hI.record
      rw [hrow] at hrow'
      cases hrow'
      rw [hstripped]
      exact hst
    refine Safe.call (fun w1 r w2 _ hI hs => ⟨hI.read hH rfl hs, trivial⟩)
      (fun w3 pending w4 _ _ _ _ => heldSafe_recoverEach hH hknown _ w4) fun _ _ _ _ _ _ _ ds hds => by cases hds

theorem heldSafe_call (hH : Holding cfg env S J e) {c : Call} (hc : c.Framework) (w : World τ) :
    HeldSafe cfg env S J e sent (c.Holds S e) c.program w := by
  cases c with
  | executeTool mgr c => exact heldSafe_executeTool hH mgr c w
  | recoverRun rc runId now => exact heldSafe_recoverRun hH rc runId now w
  | facade o =>
    refine Safe.mono (Q := fun _ _ => True) (fun _ _ _ => trivial) ?_
    refine Uses.keeping (F := fun _ => True) ?_ (fun _ _ _ _ => trivial) (call_issues (.facade o)) trivial
    rintro w o' r w' ⟨⟩ hI _ hs
    exact ⟨hI.read hH hc hs, trivial, trivial⟩

/-- **Held.**  In every state of a pool of calls made after the record was among the statuses, it still is, its
id has not been sent again, and the calls that ended have answered from it. -/
theorem reach_held {ι : Type} [DecidableEq ι] (hH : Holding cfg env S J e) {calls : ι → Call}
    (hcalls : ∀ i, (calls i).Framework) (hrec : w.store.Held S e) (hJ : J w)
    {pool : Pool ι Op Op.Res PyError fun i => (calls i).Result}
    (hr : Reach (fun _ => sem cfg env) (w, fun i => some (calls i).program) (w', pool)) :
    Held S J e (w.trace.filter (Mark.sends e)) w' ∧ ∀ i x, pool i = some (.ret x) → (calls i).Holds S e x := by
  have hstart : ∀ i p, some (calls i).program = some p →
      HeldSafe cfg env S J e (w.trace.filter (Mark.sends e)) ((calls i).Holds S e) p w := by
    rintro i p ⟨⟩
    exact heldSafe_call hH (hcalls i) w
  obtain ⟨hheld, hsafe⟩ := reach_safe (I := Held S J e (w.trace.filter (Mark.sends e))) (R := fun _ _ _ => True)
    (G := fun _ _ _ => True) (Q := fun i x _ => (calls i).Holds S e x) (fun _ _ => trivial)
    (fun _ _ _ _ _ _ => trivial) (fun _ _ _ _ h _ => h) (fun _ _ _ _ _ _ => trivial)
    ⟨⟨hrec, rfl, hJ⟩, hstart⟩ hr
  exact ⟨hheld, fun i x hx => hsafe i _ hx⟩

end

/-! ## Intents -/

/-- **An intent without a dispatch is never sent.**  Once nobody executes an id whose record is an intent, no
calls in any interleaving send it: the record stays an intent, and tool calls for it answer
`PENDING_RECOVERY`. -/
theorem intent_never_sent {ι : Type} [DecidableEq ι] (cfg : LoggingServiceConfig) (env : Environment τ)
    {calls : ι → Call} (hcalls : ∀ i, (calls i).Framework) {w w' : World τ} {e : String} {row : ExternalResultRecord}
    (hrow : w.store.externalResults.get e = some row) (hst : row.executionStatus = .intentLogged)
    {pool : Pool ι Op Op.Res PyError fun i => (calls i).Result}
    (hr : Reach (fun _ => sem cfg env) (w, fun i => some (calls i).program) (w', pool)) :
    (∃ row', w'.store.externalResults.get e = some row' ∧ row'.executionStatus = .intentLogged) ∧
    w'.trace.filter (Mark.sends e) = w.trace.filter (Mark.sends e) ∧
    ∀ i x, pool i = some (.ret x) → (calls i).Holds (fun st => st = .intentLogged) e x := by
  have hH : Holding cfg env (fun st => st = .intentLogged) (fun _ => True) e :=
    ⟨by decide, fun _ _ _ _ _ _ => trivial, fun h => by cases h⟩
  obtain ⟨hheld, hends⟩ := reach_held hH hcalls ⟨row, hrow, hst⟩ trivial hr
  exact ⟨hheld.record, hheld.sends, hends⟩

/-- The booking, lost between its intent and its dispatch. -/
def abandonedWorld : World Script :=
  (playTurns bookingPool [(false, 1), (true, 2)] { target := { outcomes := [.returned []] } }).1

/-- The booking made again, and a pass. -/
def retryPool : Bool → Call
  | false => .executeTool {} bookingCall
  | true => .recoverRun {} "trip" 10000000

theorem intent_never_sent_retry :
    (∃ row, (playTurns retryPool [(true, 10), (false, 6)] abandonedWorld).1.store.externalResults.get
      bookingCall.executionId = some row ∧ row.executionStatus = .intentLogged) ∧
    (playTurns retryPool [(true, 10), (false, 6)] abandonedWorld).1.trace.filter (Mark.sends bookingCall.executionId) =
      abandonedWorld.trace.filter (Mark.sends bookingCall.executionId) ∧
    ∀ i x, (playTurns retryPool [(true, 10), (false, 6)] abandonedWorld).2 i = some (.ret x) →
      (retryPool i).Holds (fun st => st = .intentLogged) bookingCall.executionId x := by
  have hintent : (abandonedWorld.store.externalResults.get bookingCall.executionId).any
      (fun row => row.executionStatus = .intentLogged) = true := by decide +kernel
  obtain ⟨hsome, hst⟩ := (Option.any_eq_true_iff_get _ _).1 hintent
  have hcalls : ∀ i, (retryPool i).Framework := by
    intro i
    cases i <;> trivial
  exact intent_never_sent {} (Environment.any Script) hcalls (Option.some_get hsome).symm (of_decide_eq_true hst)
    (playTurns_reach retryPool _ _)

end Raef
