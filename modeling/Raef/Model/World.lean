import Raef.Model.Logging
import Raef.Model.Strategy
import Raef.Lib.Program
import Raef.Lib.Sha256

/-!
# The world a process runs in

A process of the framework alternates operations on the store, each one atomic,
with calls to code it does not own: the tool adapter, the commit verifier, the
handoff callback.  `World` is the store, the target and a trace of these calls;
`sem` says what each operation may answer.
-/

namespace Raef

/-! ## Operations of the facade -/

inductive FacadeOp where
  | startRun (a : StartRun)
  | recordContextMessage (a : ContextMessage)
  | recordLlmTurn (a : LlmTurn)
  | recordToolIntent (a : ToolIntent)
  | recordToolDispatch (runId executionId : String)
  | recordToolResult (a : ToolResult)
  | advancePlanItem (a : PlanItemAdvance)
  | setActivePlanItem (runId planItemId : String)
  | checkpoint (runId snapshotType : String) (includeExternalResults : Bool)
  | getExternalResult (executionId : String)
  | listExternalResults (runId : String)
  | listPendingExecutions (runId : String)
  | loadContext (runId : String)

namespace FacadeOp

abbrev Res : FacadeOp → Type
  | .startRun _ | .recordLlmTurn _ | .recordToolIntent _ => RunProjections
  | .recordContextMessage _ => AgentContextSnapshot
  | .recordToolDispatch _ _ | .recordToolResult _ => ExternalResultRecord
  | .advancePlanItem _ | .setActivePlanItem _ _ => PlannerState
  | .checkpoint _ _ _ => Option WalCheckpoint
  | .getExternalResult _ => Option ExternalResultRecord
  | .listExternalResults _ => List ExternalResultRecord
  | .listPendingExecutions _ => List String
  | .loadContext _ => Option AgentContextSnapshot

def exec (cfg : LoggingServiceConfig) (amb : Ambient) : (o : FacadeOp) → Tx o.Res
  | .startRun a => Raef.startRun cfg amb a
  | .recordContextMessage a => Raef.recordContextMessage cfg amb a
  | .recordLlmTurn a => Raef.recordLlmTurn cfg amb a
  | .recordToolIntent a => Raef.recordToolIntent cfg amb a
  | .recordToolDispatch runId executionId => Raef.recordToolDispatch cfg amb runId executionId
  | .recordToolResult a => Raef.recordToolResult cfg amb a
  | .advancePlanItem a => Raef.advancePlanItem cfg amb a
  | .setActivePlanItem runId planItemId => Raef.setActivePlanItem cfg amb runId planItemId
  | .checkpoint runId snapshotType includeExternalResults =>
    checkpointLocked amb runId snapshotType includeExternalResults
  | .getExternalResult executionId => Txn.fetch (·.getExternalResult executionId)
  | .listExternalResults runId => Txn.fetch (·.listExternalResults runId)
  | .listPendingExecutions runId => Txn.fetch (·.listPendingExecutions runId)
  | .loadContext runId => Txn.fetch (·.loadContext runId)

section
variable {cfg : LoggingServiceConfig} {amb : Ambient} {s s' : Store}

theorem exec_recordToolIntent {a : ToolIntent} {r : RunProjections} :
    (FacadeOp.recordToolIntent a).exec cfg amb s = .ok (r, s') ↔
      Raef.recordToolIntent cfg amb a s = .ok (r, s') := Iff.rfl

theorem exec_recordToolDispatch {runId e : String} {r : ExternalResultRecord} :
    (FacadeOp.recordToolDispatch runId e).exec cfg amb s = .ok (r, s') ↔
      Raef.recordToolDispatch cfg amb runId e s = .ok (r, s') := Iff.rfl

theorem exec_recordToolResult {a : ToolResult} {r : ExternalResultRecord} :
    (FacadeOp.recordToolResult a).exec cfg amb s = .ok (r, s') ↔
      Raef.recordToolResult cfg amb a s = .ok (r, s') := Iff.rfl

theorem exec_getExternalResult {e : String} {r : Option ExternalResultRecord} :
    (FacadeOp.getExternalResult e).exec cfg amb s = .ok (r, s') ↔
      s.getExternalResult e = .ok r ∧ s' = s := Txn.fetch_pair

theorem exec_listExternalResults {runId : String} {r : List ExternalResultRecord} :
    (FacadeOp.listExternalResults runId).exec cfg amb s = .ok (r, s') ↔
      s.listExternalResults runId = .ok r ∧ s' = s := Txn.fetch_pair

theorem exec_listPendingExecutions {runId : String} {r : List String} :
    (FacadeOp.listPendingExecutions runId).exec cfg amb s = .ok (r, s') ↔
      s.listPendingExecutions runId = .ok r ∧ s' = s := Txn.fetch_pair

theorem exec_loadContext {runId : String} {r : Option AgentContextSnapshot} :
    (FacadeOp.loadContext runId).exec cfg amb s = .ok (r, s') ↔
      s.loadContext runId = .ok r ∧ s' = s := Txn.fetch_pair

end

/-- The operations that do not write tool records. -/
def plain : FacadeOp → Bool
  | .recordToolIntent _ | .recordToolDispatch _ _ | .recordToolResult _ => false
  | _ => true

end FacadeOp

/-! ## Calls out of the framework -/

/-- One `adapter.invoke`; `identity` is the execution id the call is made for. -/
structure Invocation where
  identity : String
  toolName : String
  requestPayload : JsonObject
  executionId : Option String
  timeoutS : Option PyFloat

/-- How `adapter.invoke` ends: an `AmbiguousToolError` apart from any other exception. -/
inductive InvokeOutcome where
  | returned (payload : JsonObject)
  | returnedOther
  | ambiguous (error : String)
  | raised (error : String)

/-- The answer of a commit verifier; `committed = none` is inconclusive. -/
structure WriteVerification where
  committed : Option Bool
  reason : String
  record : Option JsonObject := none
  receipt : Option JsonObject := none

/-- One `verifier.verify_write`. -/
structure Probe where
  executionId : String
  toolName : String
  args : JsonObject

inductive Op where
  | facade (o : FacadeOp)
  | invoke (call : Invocation)
  | verify (probe : Probe)
  | handoff (decision : RecoveryDecision)

/-- `verify` answers `none` when the verifier raises. -/
abbrev Op.Res : Op → Type
  | .facade o => o.Res
  | .invoke _ => InvokeOutcome
  | .verify _ => Option WriteVerification
  | .handoff _ => Unit

abbrev Prog (α : Type) : Type := Program Op Op.Res PyError α

/-! ## Semantics -/

inductive Mark where
  | sent (executionId : String) (outcome : InvokeOutcome)
  | probed (executionId : String) (verdict : Option Bool)
  | handedOff (decision : RecoveryDecision)

/-- The adapter was called for the id. -/
def Mark.sends (executionId : String) : Mark → Bool
  | .sent e _ => e = executionId
  | _ => false

structure World (τ : Type) where
  store : Store := {}
  target : τ
  trace : List Mark := []
  handoffEmitted : List String := []

/-- What the code outside of the framework may do. -/
structure Environment (τ : Type) where
  invoke : Invocation → τ → InvokeOutcome → τ → Prop
  verify : Probe → τ → Option WriteVerification → τ → Prop
  onHandoff : RecoveryDecision → Except PyError Unit → Prop

/-- Anything may happen. -/
def Environment.any (τ : Type) : Environment τ where
  invoke _ _ _ _ := True
  verify _ _ _ _ := True
  onHandoff _ _ := True

variable {τ : Type}

/-- One operation: its answer and the world after it. -/
def sem (cfg : LoggingServiceConfig) (env : Environment τ) : Program.Sem (World τ) Op Op.Res PyError
  | w, .facade o, r, w' => ∃ amb,
    match o.exec cfg amb w.store with
    | .ok (a, s) => r = .ok a ∧ w' = { w with store := s }
    | .error e => r = .error e ∧ w' = w
  | w, .invoke call, r, w' => ∃ outcome target, env.invoke call w.target outcome target ∧
    r = .ok outcome ∧
      w' = { w with target := target, trace := w.trace ++ [.sent call.identity outcome] }
  | w, .verify probe, r, w' => ∃ answer target, env.verify probe w.target answer target ∧
    r = .ok answer ∧
      w' = { w with
        target := target
        trace := w.trace ++ [.probed probe.executionId (answer.bind WriteVerification.committed)] }
  | w, .handoff decision, r, w' =>
    if decision.handoffKey ∈ w.handoffEmitted then r = .ok () ∧ w' = w
    else env.onHandoff decision r ∧
      w' = { w with
        trace := w.trace ++ [.handedOff decision]
        handoffEmitted := w.handoffEmitted ++ [decision.handoffKey] }

/-- An operation that succeeds on the store. -/
theorem sem_facade_ok {cfg : LoggingServiceConfig} {env : Environment τ} {w w' : World τ} {o : FacadeOp}
    {a : o.Res} : sem cfg env w (.facade o) (.ok a) w' ↔
      ∃ amb s, o.exec cfg amb w.store = .ok (a, s) ∧ w' = { w with store := s } := by
  constructor
  · rintro ⟨amb, h⟩
    cases hx : o.exec cfg amb w.store with
    | error e => rw [hx] at h; simp at h
    | ok p =>
      obtain ⟨b, s⟩ := p
      rw [hx] at h
      obtain ⟨h1, h2⟩ := h
      cases h1
      exact ⟨amb, s, hx, h2⟩
  · rintro ⟨amb, s, hx, rfl⟩
    refine ⟨amb, ?_⟩
    rw [hx]
    exact ⟨rfl, rfl⟩

/-- An operation that raises leaves the world alone. -/
theorem sem_facade_error {cfg : LoggingServiceConfig} {env : Environment τ} {w w' : World τ}
    {o : FacadeOp} {e : PyError} : sem cfg env w (.facade o) (.error e) w' ↔
      (∃ amb, o.exec cfg amb w.store = .error e) ∧ w' = w := by
  constructor
  · rintro ⟨amb, h⟩
    cases hx : o.exec cfg amb w.store with
    | error e' =>
      rw [hx] at h
      obtain ⟨h1, h2⟩ := h
      cases h1
      exact ⟨⟨amb, hx⟩, h2⟩
    | ok p => rw [hx] at h; simp at h
  · rintro ⟨⟨amb, hx⟩, rfl⟩
    refine ⟨amb, ?_⟩
    rw [hx]
    exact ⟨rfl, rfl⟩

/-- What holds if the operation raises, and after each success, holds after it. -/
theorem sem_facade {cfg : LoggingServiceConfig} {env : Environment τ} {w w' : World τ} {o : FacadeOp}
    {r : Except PyError o.Res} {P : World τ → Prop} (hs : sem cfg env w (.facade o) r w') (h : P w)
    (hok : ∀ amb a s, o.exec cfg amb w.store = .ok (a, s) → P { w with store := s }) : P w' := by
  cases r with
  | error e =>
    rw [(sem_facade_error.1 hs).2]
    exact h
  | ok a =>
    obtain ⟨amb, s, hx, rfl⟩ := sem_facade_ok.1 hs
    exact hok amb a s hx

theorem sem_invoke {cfg : LoggingServiceConfig} {env : Environment τ} {w w' : World τ} {call : Invocation}
    {r : Except PyError InvokeOutcome} : sem cfg env w (.invoke call) r w' ↔
      ∃ outcome target, env.invoke call w.target outcome target ∧ r = .ok outcome ∧
        w' = { w with target := target, trace := w.trace ++ [.sent call.identity outcome] } :=
  Iff.rfl

theorem sem_verify {cfg : LoggingServiceConfig} {env : Environment τ} {w w' : World τ} {probe : Probe}
    {r : Except PyError (Option WriteVerification)} : sem cfg env w (.verify probe) r w' ↔
      ∃ answer target, env.verify probe w.target answer target ∧ r = .ok answer ∧
        w' = { w with
          target := target
          trace := w.trace ++ [.probed probe.executionId (answer.bind WriteVerification.committed)] } :=
  Iff.rfl

/-- A handoff only touches the trace and the keys already emitted. -/
theorem sem_handoff {cfg : LoggingServiceConfig} {env : Environment τ} {w w' : World τ}
    {d : RecoveryDecision} {r : Except PyError Unit} (h : sem cfg env w (.handoff d) r w') :
    w' = w ∨ ∃ keys, w' = { w with trace := w.trace ++ [.handedOff d], handoffEmitted := keys } := by
  have h : if d.handoffKey ∈ w.handoffEmitted then r = .ok () ∧ w' = w
    else env.onHandoff d r ∧ w' = { w with
      trace := w.trace ++ [.handedOff d], handoffEmitted := w.handoffEmitted ++ [d.handoffKey] } := h
  split at h
  · exact .inl h.2
  · exact .inr ⟨_, h.2⟩

/-! ## Reads -/

section
variable {cfg : LoggingServiceConfig} {env : Environment τ} {w w' : World τ}

theorem sem_getExternalResult {e : String} {r : Option ExternalResultRecord}
    (h : sem cfg env w (.facade (.getExternalResult e)) (.ok r) w') :
    w.store.getExternalResult e = .ok r ∧ w' = w := by
  obtain ⟨amb, s, hx, rfl⟩ := sem_facade_ok.1 h
  obtain ⟨hget, rfl⟩ := FacadeOp.exec_getExternalResult.1 hx
  exact ⟨hget, rfl⟩

theorem sem_listExternalResults {runId : String} {r : List ExternalResultRecord}
    (h : sem cfg env w (.facade (.listExternalResults runId)) (.ok r) w') :
    w.store.listExternalResults runId = .ok r ∧ w' = w := by
  obtain ⟨amb, s, hx, rfl⟩ := sem_facade_ok.1 h
  obtain ⟨hget, rfl⟩ := FacadeOp.exec_listExternalResults.1 hx
  exact ⟨hget, rfl⟩

theorem sem_listPendingExecutions {runId : String} {r : List String}
    (h : sem cfg env w (.facade (.listPendingExecutions runId)) (.ok r) w') :
    w.store.listPendingExecutions runId = .ok r ∧ w' = w := by
  obtain ⟨amb, s, hx, rfl⟩ := sem_facade_ok.1 h
  obtain ⟨hget, rfl⟩ := FacadeOp.exec_listPendingExecutions.1 hx
  exact ⟨hget, rfl⟩

theorem sem_loadContext {runId : String} {r : Option AgentContextSnapshot}
    (h : sem cfg env w (.facade (.loadContext runId)) (.ok r) w') :
    w.store.loadContext runId = .ok r ∧ w' = w := by
  obtain ⟨amb, s, hx, rfl⟩ := sem_facade_ok.1 h
  obtain ⟨hget, rfl⟩ := FacadeOp.exec_loadContext.1 hx
  exact ⟨hget, rfl⟩

end

end Raef
