import Raef.Proofs.Absent

/-!
# What a verified record proves

`VERIFIED_COMMITTED` is written on the word of a probe, by a pass that may have read its record long
before.  Over the mock target that word stays true: what it has recorded it keeps, and what it held it
has held.

    a record holds the request of a call for its id         (keepsRequests_op)
    a probe that finds a commit has seen one, or the value  (verifyWrite_found)
    → a verified record is proved by the target             (verified_proved)
-/

namespace Raef

open Text Txn Program

/-! ## Statements -/

/-- The request of a call for the id. -/
def RequestOf {ι : Type} (calls : ι → Call) (e : String) (request : JsonObject) : Prop :=
  ∃ i mgr c, calls i = .executeTool mgr c ∧ c.executionId = e ∧ c.requestPayload = request

/-- The target held the value of the payload under its key, at some moment. -/
def Service.Showed (t : Service) (payload : JsonObject) : Prop :=
  ∃ es data, es <+: t.history ∧ TargetHistory es data ∧ (data.matchingValue payload).isSome

/-- The target has recorded the id, or has held what a call for it asked. -/
def Proved {ι : Type} (calls : ι → Call) (t : Service) (e : String) : Prop :=
  t.Recorded e ∨ ∃ request, RequestOf calls e request ∧ t.Showed (TargetData.payloadOf request)

/-- Any call but a tool call that the pool does not make. -/
def Call.Among {ι : Type} (calls : ι → Call) (c : Call) : Prop :=
  c.Framework ∧ ∀ mgr tool, c = .executeTool mgr tool → ∃ i, calls i = c

/-! ## Requests of records -/

/-- Every record under a stripped id holds the request of a call for it. -/
def KeepsRequests {ι τ : Type} (calls : ι → Call) (w : World τ) : Prop :=
  ∀ e row, Trimmed e → w.store.externalResults.get e = some row → RequestOf calls e row.requestPayload

/-- What a result keeps of the request. -/
theorem toolResult_record_request {a : ToolResult} {amb : Ambient} {rs : ExternalResultStatus} {es : ExecutionStatus}
    {cached : Option ExternalResultRecord} {record : ExternalResultRecord}
    (h : a.record amb rs es cached = .ok record) :
    a.requestPayload = some record.requestPayload ∨
      ∃ known, cached = some known ∧ record.requestPayload = known.requestPayload := by
  have hknown : ∀ p, cached.map ExternalResultRecord.requestPayload = some p →
      ∃ known, cached = some known ∧ p = known.requestPayload := by
    intro p hp
    obtain ⟨known, hcached, rfl⟩ := Option.map_eq_some_iff.1 hp
    exact ⟨known, hcached, rfl⟩
  unfold ToolResult.record at h
  dsimp only at h
  split at h
  · next toolName operationType request _ _ hrequest =>
    cases h
    dsimp only
    cases ha : a.requestPayload with
    | none =>
      rw [ha] at hrequest
      exact .inr (hknown request hrequest)
    | some p =>
      rw [ha] at hrequest
      dsimp only at hrequest
      split at hrequest
      · exact .inr (hknown request hrequest)
      · cases hrequest
        exact .inl rfl
  · cases h

section
variable {ι τ : Type} {cfg : LoggingServiceConfig} {env : Environment τ} {calls : ι → Call} {w w' : World τ}

theorem KeepsRequests.same (h : KeepsRequests calls w) (hrows : w'.store.externalResults = w.store.externalResults) :
    KeepsRequests calls w' := by
  intro e row htrim hrow
  rw [hrows] at hrow
  exact h e row htrim hrow

/-- The request of a result is one it brings, or the one there is. -/
theorem KeepsRequests.result {a : ToolResult} {amb : Ambient} {es : ExecutionStatus} {s' : Store}
    {new : ExternalResultRecord} (h : KeepsRequests calls w)
    (ha : ∀ p, a.requestPayload = some p → RequestOf calls a.executionId p)
    (hr : ResultEffect amb a w.store s' es new) (htrim : Trimmed new.executionId) :
    RequestOf calls new.executionId new.requestPayload := by
  rw [hr.executionId] at htrim ⊢
  obtain ⟨rs, cached, record, hget, hrecord, rfl⟩ := hr.written
  show RequestOf calls a.executionId record.requestPayload
  rcases toolResult_record_request hrecord with hgiven | ⟨known, rfl, hkept⟩
  · exact ha _ hgiven
  · obtain ⟨row, hrow, -, rfl⟩ := getExternalResult_some hget
    rw [htrim] at hrow
    rw [hkept]
    exact h _ row htrim hrow

theorem resultOf_requestPayload (c : ToolCall) (op : OperationType) (replay : Bool) (outcome : InvokeOutcome) :
    (c.resultOf op replay outcome).requestPayload = some c.requestPayload := by
  cases outcome with
  | ambiguous error => cases op <;> rfl
  | _ => rfl

theorem keepsRequests_op {call : Call} (hcall : call.Among calls) {o : Op} {r : Except PyError o.Res}
    (ho : IssuedBy call o) (h : KeepsRequests calls w) (hs : sem cfg env w o r w') : KeepsRequests calls w' := by
  rcases issued_rows hcall.1 ho hs with hsame | ⟨new, hput, hwritten⟩
  · exact h.same hsame
  have hnew : Trimmed new.executionId → RequestOf calls new.executionId new.requestPayload := by
    intro htrim
    cases hwritten with
    | @intent c op mgr amb type =>
      obtain ⟨i, hi⟩ := hcall.2 mgr c rfl
      exact ⟨i, mgr, c, hi, rfl, rfl⟩
    | @dispatch c amb row _ mgr effect =>
      rw [effect.executionId, effect.written]
      exact h _ row (trimmed_strip _) effect.found
    | @result c op _ _ _ mgr type replay outcome effect =>
      refine h.result (fun p hp => ?_) effect htrim
      rw [resultOf_requestPayload] at hp
      cases hp
      obtain ⟨i, hi⟩ := hcall.2 mgr c rfl
      exact ⟨i, mgr, c, hi, (resultOf_executionId c op replay outcome).symm, rfl⟩
    | verdict rc runId now e v committed effect =>
      refine h.result (fun p hp => ?_) effect htrim
      cases committed <;> cases hp
  intro e row htrim hrow
  rw [hput] at hrow
  rcases Table.of_get_put hrow with ⟨rfl, rfl⟩ | hrow
  · exact hnew htrim
  · exact h e row htrim hrow

end

/-! ## Probes -/

section
variable {t t' : Service} {own : String → Prop} {e : String} {payload : JsonObject}

/-- The target goes on. -/
def Service.Later (t t' : Service) : Prop := t.history <+: t'.history ∧ (t.Wf → t'.Wf)

theorem Service.Later.refl (t : Service) : t.Later t := ⟨List.prefix_refl _, id⟩

theorem Service.Later.trans {t'' : Service} (h : t.Later t') (h' : t'.Later t'') : t.Later t'' :=
  ⟨h.1.trans h'.1, fun hwf => h'.2 (h.2 hwf)⟩

theorem Service.later_serve (t : Service) (amb : TargetAmbient) (call : TargetCall) : t.Later (t.serve amb call) :=
  ⟨List.prefix_append _ _, fun hwf => Service.wf_serve hwf amb call⟩

theorem Service.Others.later (h : Service.Others own t t') : t.Later t' := by
  obtain ⟨added, hadded, -⟩ := h.history
  exact ⟨⟨added, hadded.symm⟩, h.wf⟩

theorem Service.Showed.later (h : t.Showed payload) (hl : t.Later t') : t'.Showed payload := by
  obtain ⟨es, data, hes, hdata, hmatch⟩ := h
  exact ⟨es, data, hes.trans hl.1, hdata, hmatch⟩

theorem Service.Recorded.later (h : t.Recorded e) (hl : t.Later t') : t'.Recorded e := by
  obtain ⟨x, hx, hrec⟩ := h.entry
  exact ⟨hl.2 h.wf, x, hl.1.subset hx, hrec⟩

theorem Proved.later {ι : Type} {calls : ι → Call} (h : Proved calls t e) (hl : t.Later t') : Proved calls t' e := by
  rcases h with h | ⟨request, hrequests, hshowed⟩
  · exact .inl (h.later hl)
  · exact .inr ⟨request, hrequests, hshowed.later hl⟩

/-- A probe finds a commit where one is recorded, or where the value is there. -/
theorem verifyWrite_found {probe : Probe} {v : VerificationDecision} (hwf : t.Wf)
    (hv : t.data.verifyWrite probe = .ok v) (hc : v.committed = some true) :
    t.Recorded probe.executionId ∨ t.Showed (TargetData.payloadOf probe.args) := by
  have hkept := history_kept hwf
  unfold TargetData.verifyWrite at hv
  by_cases hblank : probe.executionId = ""
  · rw [if_pos hblank] at hv
    cases hv
  rw [if_neg hblank] at hv
  split at hv
  · cases hv
    cases hc
  · next record hget =>
    exact .inl ⟨hwf, ((hkept.found_iff _).1 ⟨_, hget⟩).2⟩
  · dsimp only at hv
    cases hmatch : t.data.matchingValue (TargetData.payloadOf probe.args) with
    | none =>
      rw [hmatch] at hv
      cases hv
      cases hc
    | some observed => exact .inr ⟨t.history, t.data, List.prefix_refl _, hwf, by rw [hmatch]; rfl⟩

end

/-! ## Passes over the service -/

/-- Verified records are proved, and records hold the requests of their calls. -/
structure ProvedBy {ι : Type} (calls : ι → Call) (w : World Service) : Prop where
  wf : w.target.Wf
  requests : KeepsRequests calls w
  proved : ∀ e row, Trimmed e → w.store.externalResults.get e = some row →
    row.executionStatus = .verifiedCommitted → Proved calls w.target e

section
variable {ι : Type} {cfg : LoggingServiceConfig} {read : JsonObject → Option (String × JsonObject)}
  {mode : IdempotencyMode} {own : String → Prop} {calls : ι → Call} {w w' : World Service}

theorem Service.Invoked.later {call : Invocation} {outcome : InvokeOutcome} {t t' : Service}
    (h : Service.Invoked read mode own call t outcome t') : t.Later t' := by
  cases h with
  | raised error => exact .refl t
  | requestLost error => exact .refl t
  | answered reads fresh accepts => exact Service.later_serve _ _ _
  | answerLost error reads fresh accepts => exact Service.later_serve _ _ _
  | refused reads fresh refuses => exact Service.later_serve _ _ _

/-- Whatever a process does, the target goes on. -/
theorem later_op {o : Op} {r : Except PyError o.Res}
    (hs : sem cfg (Service.environment read mode own) w o r w') : w.target.Later w'.target := by
  cases o with
  | facade o =>
    exact sem_facade (P := fun w' : World Service => w.target.Later w'.target) hs (.refl _) fun _ _ _ _ => .refl _
  | invoke call =>
    obtain ⟨outcome, t', ⟨t1, t2, hbefore, hinvoked, hafter⟩, -, rfl⟩ := sem_invoke.1 hs
    exact (hbefore.later.trans hinvoked.later).trans hafter.later
  | verify probe =>
    obtain ⟨answer, t', ⟨t1, hbefore, hafter, -⟩, -, rfl⟩ := sem_verify.1 hs
    exact hbefore.later.trans hafter.later
  | handoff d =>
    rcases sem_handoff hs with rfl | ⟨keys, rfl⟩
    · exact .refl _
    · exact .refl _

/-- A probe answers for the target as it was. -/
theorem probed_found {probe : Probe} {v : WriteVerification} (hwf : w.target.Wf) (hc : v.committed = some true)
    (hs : sem cfg (Service.environment read mode own) w (.verify probe) (.ok (some v)) w') :
    w'.target.Recorded probe.executionId ∨ w'.target.Showed (TargetData.payloadOf probe.args) := by
  obtain ⟨answer, t', ⟨t1, hbefore, hafter, hanswer⟩, hok, rfl⟩ := sem_verify.1 hs
  cases hok
  rcases hanswer with hnone | ⟨decision, hdecision, hsome⟩
  · cases hnone
  · cases hsome
    rcases verifyWrite_found (hbefore.wf hwf) hdecision hc with hrec | hshowed
    · exact .inl (hrec.later hafter.later)
    · exact .inr (hshowed.later hafter.later)

/-- Safe in a pool, while the target goes on. -/
abbrev ProvedSafe (cfg : LoggingServiceConfig) (read : JsonObject → Option (String × JsonObject))
    (mode : IdempotencyMode) (own : String → Prop) (calls : ι → Call) {α : Type} (p : Prog α) (w : World Service) :
    Prop :=
  Safe (sem cfg (Service.environment read mode own)) (ProvedBy calls) (fun w w' => w.target.Later w'.target)
    (fun w w' => w.target.Later w'.target) (fun _ _ => True) p w

/-- An operation that leaves the records alone. -/
theorem ProvedBy.same (h : ProvedBy calls w) {o : Op} {r : Except PyError o.Res}
    (hs : sem cfg (Service.environment read mode own) w o r w')
    (hrows : w'.store.externalResults = w.store.externalResults) :
    ProvedBy calls w' ∧ w.target.Later w'.target := by
  have hlater := later_op hs
  refine ⟨⟨hlater.2 h.wf, h.requests.same hrows, fun e row htrim hrow hst => ?_⟩, hlater⟩
  rw [hrows] at hrow
  exact (h.proved e row htrim hrow hst).later hlater

theorem resultOf_unverified (c : ToolCall) (op : OperationType) (replay : Bool) (outcome : InvokeOutcome) :
    ∃ st, (c.resultOf op replay outcome).executionStatus = some (ExecutionStatus.value st) ∧
      st ≠ .verifiedCommitted := by
  cases outcome with
  | returned payload => exact ⟨.acked, rfl, by decide⟩
  | returnedOther => exact ⟨.failed, rfl, by decide⟩
  | raised error => exact ⟨.failed, rfl, by decide⟩
  | ambiguous error =>
    cases op with
    | read => exact ⟨.failed, rfl, by decide⟩
    | write =>
      cases replay with
      | true => exact ⟨.verifiedNotFound, rfl, by decide⟩
      | false => exact ⟨.dispatched, rfl, by decide⟩

/-- Every operation of a call keeps what is proved, but for a verdict that is not. -/
theorem provedBy_op {call : Call} (hcall : call.Among calls) {o : Op} {r : Except PyError o.Res}
    (ho : IssuedBy call o) (hverdict : ∀ runId e v, o = .facade (.recordToolResult (verdictResult runId e v true)) →
      Trimmed e → Proved calls w.target e) (h : ProvedBy calls w)
    (hs : sem cfg (Service.environment read mode own) w o r w') : ProvedBy calls w' := by
  rcases issued_rows hcall.1 ho hs with hsame | ⟨new, hput, hwritten⟩
  · exact (h.same hs hsame).1
  have hnew : new.executionStatus = .verifiedCommitted → Trimmed new.executionId →
      Proved calls w.target new.executionId := by
    intro hst htrim
    cases hwritten with
    | intent mgr amb type => cases hst
    | dispatch mgr effect =>
      rw [effect.executionStatus] at hst
      cases hst
    | @result c op _ _ _ mgr type replay outcome effect =>
      obtain ⟨st, hgiven, hne⟩ := resultOf_unverified c op replay outcome
      rw [effect.executionStatus, effect.status_eq hgiven] at hst
      exact absurd hst hne
    | verdict rc runId now e v committed effect =>
      rw [effect.executionStatus, effect.status_eq (verdictResult_status runId e v committed)] at hst
      rw [effect.executionId, verdictResult_executionId] at htrim ⊢
      cases committed with
      | true => exact hverdict runId e v rfl htrim
      | false => cases hst
  have hlater := later_op hs
  refine ⟨hlater.2 h.wf, keepsRequests_op hcall ho h.requests hs, fun e row htrim hrow hst => ?_⟩
  rw [hput] at hrow
  rcases Table.of_get_put hrow with ⟨rfl, rfl⟩ | hrow
  · exact (hnew hst htrim).later hlater
  · exact (h.proved e row htrim hrow hst).later hlater

/-- A pass records what its probe has shown. -/
theorem provedSafe_recoverRun (rc : RecoveryCoordinator) (runId : String) (now : Datetime) (w : World Service) :
    ProvedSafe cfg read mode own calls (recoverRun rc runId now) w := by
  refine recoverRun_safe (K := fun records _ _ => ∀ x ∈ records, RequestOf calls x.executionId x.requestPayload)
    ?_ ?_ (fun _ _ _ _ h => h) ?_ (fun _ => trivial) w
  · intro w o r w' hI ho hs
    have hplain : o.plain = true := by
      rcases ho with rfl | rfl | rfl <;> rfl
    exact hI.same hs (sem_facade (P := fun w' => w'.store.externalResults = w.store.externalResults) hs rfl
      fun _ _ _ hx => (exec_framed hplain hx).externalResults)
  · intro w records hI hlist w' pending _ _ _ x hx
    obtain ⟨htrim, row, hrow, -, hstripped⟩ := listed_row hlist hx
    have hrequest : x.requestPayload = row.requestPayload := by
      rw [hstripped]
      rfl
    rw [hrequest]
    exact hI.requests _ row htrim hrow
  · intro records e es w hK
    refine recoverOne_safe (F := fun _ => True)
      (Q := fun _ => ∀ x ∈ records, RequestOf calls x.executionId x.requestPayload)
      (V := fun _ b w => b = true → Proved calls w.target e) (fun _ _ _ _ => trivial) (fun _ _ _ _ => hK)
      (fun _ _ _ _ hV hR hb => (hV hb).later hR) (fun _ _ => hK) ?_ ?_ ?_ trivial
    · intro w o r w' ho hI _ hs
      obtain ⟨hI', hlater⟩ := hI.same hs (records_neutral ho hs)
      exact ⟨hI', hlater, hK⟩
    · intro record w r w' hrec _ _ hI _ hs
      have hrows : w'.store.externalResults = w.store.externalResults := by
        obtain ⟨_, _, -, -, rfl⟩ := sem_verify.1 hs
        rfl
      obtain ⟨hI', hlater⟩ := hI.same hs hrows
      refine ⟨hI', hlater, trivial, ?_⟩
      rintro v b rfl hc rfl
      obtain ⟨hmem, rfl⟩ := recordOf_some hrec
      rcases probed_found hI.wf hc hs with hrecorded | hshowed
      · exact .inl hrecorded
      · exact .inr ⟨_, hK record hmem, hshowed⟩
    · intro record v b w r w' hrec hc hI hV hs
      have hpass : (Call.recoverRun rc runId now).Among calls := ⟨trivial, fun _ _ heq => by cases heq⟩
      refine ⟨provedBy_op hpass (.verdict rc runId now e v b) (fun runId' e' v' heq _ => ?_) hI hs, later_op hs, hK⟩
      have hresult : verdictResult runId e v b = verdictResult runId' e' v' true := by
        injection heq with heq
        injection heq
      have hid : e = e' := by
        rw [← verdictResult_executionId runId e v b, hresult, verdictResult_executionId]
      cases b with
      | true => exact hid ▸ hV rfl
      | false => cases congrArg ToolResult.clearPending hresult

/-- The results of tool calls are no verdicts. -/
theorem issued_unverified {c : Call} (hc : c.Framework) (hno : ∀ rc runId now, c ≠ .recoverRun rc runId now) {o : Op}
    (ho : IssuedBy c o) (runId e : String) (v : WriteVerification) :
    o ≠ .facade (.recordToolResult (verdictResult runId e v true)) := by
  intro heq
  cases ho with
  | facade o =>
    cases heq
    cases hc
  | @result c op mgr type replay outcome =>
    have hresult : c.resultOf op replay outcome = verdictResult runId e v true := by
      injection heq with heq
      injection heq
    obtain ⟨rs, -, hname, -⟩ := resultOf_given c op replay outcome
    rw [hresult] at hname
    cases hname
  | verdict rc runId now e v committed => exact hno rc runId now rfl
  | _ => cases heq

theorem provedSafe_call {c : Call} (hc : c.Among calls) (w : World Service) :
    ProvedSafe cfg read mode own calls c.program w := by
  have huses (hno : ∀ rc runId now, c ≠ .recoverRun rc runId now) : ProvedSafe cfg read mode own calls c.program w := by
    refine Uses.keeping (F := fun _ => True) ?_ (fun _ _ _ _ => trivial) (call_issues c) trivial
    intro w o r w' ho hI _ hs
    refine ⟨provedBy_op hc ho (fun runId e v heq => ?_) hI hs, later_op hs, trivial⟩
    exact absurd heq (issued_unverified hc.1 hno ho runId e v)
  cases c with
  | executeTool mgr c => exact huses fun rc runId now heq => by cases heq
  | recoverRun rc runId now => exact provedSafe_recoverRun rc runId now w
  | facade o => exact huses fun rc runId now heq => by cases heq

theorem provedBy_start : ProvedBy calls { target := {} } :=
  ⟨.init, (fun _ _ _ hrow => by cases hrow), (fun _ _ _ hrow => by cases hrow)⟩

theorem reach_proved [DecidableEq ι] (hcalls : ∀ i, (calls i).Framework) (h : ProvedBy calls w)
    {pool : Pool ι Op Op.Res PyError fun i => (calls i).Result}
    (hr : Reach (fun _ => sem cfg (Service.environment read mode own))
      (w, fun i => some (calls i).program) (w', pool)) : ProvedBy calls w' := by
  have hstart : ∀ i p, some (calls i).program = some p → ProvedSafe cfg read mode own calls p w := by
    rintro i p ⟨⟩
    exact provedSafe_call ⟨hcalls i, fun _ _ _ => ⟨i, rfl⟩⟩ w
  exact (reach_safe (I := ProvedBy calls) (R := fun _ w w' => w.target.Later w'.target)
    (G := fun _ w w' => w.target.Later w'.target) (Q := fun _ _ _ => True) (fun _ _ => .refl _)
    (fun _ _ _ _ h h' => h.trans h') (fun _ _ _ _ _ _ => trivial) (fun _ _ _ _ _ h => h) ⟨h, hstart⟩ hr).1

end

/-- **Verified writes are proved.**  In every state of a pool of calls over the service, lost anywhere and with
other clients in between, a record that is `VERIFIED_COMMITTED` is that of an id the target has recorded, or
whose request, that of a call for the id, the target has held the value of. -/
theorem verified_proved {ι : Type} [DecidableEq ι] (cfg : LoggingServiceConfig)
    (read : JsonObject → Option (String × JsonObject)) (mode : IdempotencyMode) (own : String → Prop) {calls : ι → Call}
    (hcalls : ∀ i, (calls i).Framework) {w : World Service}
    {pool : Pool ι Op Op.Res PyError fun i => (calls i).Result}
    (hr : Reach (fun _ => sem cfg (Service.environment read mode own))
      ({ target := {} }, fun i => some (calls i).program) (w, pool))
    {e : String} (he : Trimmed e) {row : ExternalResultRecord} (hrow : w.store.externalResults.get e = some row)
    (hst : row.executionStatus = .verifiedCommitted) : Proved calls w.target e :=
  (reach_proved hcalls provedBy_start hr).proved e row he hrow hst

/-- The processes of a seat: one starts the run, one is lost before it hears of the seat, one makes a pass. -/
inductive SeatProcess where
  | start
  | seat
  | pass
deriving DecidableEq

def provedPool : SeatProcess → Call
  | .start => .facade (.startRun tripRun)
  | .seat => .executeTool {} seatCall
  | .pass => .recoverRun {} "trip" 10000000

def provedWorld : World Service := (serveTurns provedPool [(.start, 1), (.seat, 5), (.pass, 5)] { target := {} }).1

theorem verified_proved_seat : Proved provedPool provedWorld.target seatCall.executionId := by
  have hverified : (provedWorld.store.externalResults.get seatCall.executionId).any
      (fun row => row.executionStatus = .verifiedCommitted) = true := by decide +kernel
  obtain ⟨hsome, hst⟩ := (Option.any_eq_true_iff_get _ _).1 hverified
  have hcalls : ∀ i, (provedPool i).Framework := by
    intro i
    cases i <;> trivial
  have hr : Reach (fun _ => sem {} (Service.environment readAction .idempotent fun _ => False))
      ({ target := {} }, fun i => some (provedPool i).program)
      (provedWorld, (serveTurns provedPool [(.start, 1), (.seat, 5), (.pass, 5)] { target := {} }).2) :=
    serveTurns_reach (fun h => h) provedPool _ _
  exact verified_proved {} readAction .idempotent (fun _ => False) hcalls hr seatCall.trimmed_executionId
    (Option.some_get hsome).symm (of_decide_eq_true hst)

end Raef
