import Raef.Model.TxnManager

/-!
# The observability hook

`_emit_after_commit`: a mutating operation that has committed calls `record_run` of the service's
observability, if it has one.  What `record_run` raises goes to the caller of the operation.
-/

namespace Raef

/-- The operations that end with `_emit_after_commit`. -/
def FacadeOp.emits : FacadeOp → Bool
  | .getExternalResult _ | .listExternalResults _ | .listPendingExecutions _ | .loadContext _ => false
  | _ => true

/-- `_emit_after_commit`; `recordRun` is how `record_run` ends, and `none` stands for no observability. -/
def FacadeOp.emitAfterCommit (o : FacadeOp) (recordRun : Option (Except PyError Unit)) : Except PyError Unit :=
  match recordRun with
  | some outcome => if o.emits then outcome else .ok ()
  | none => .ok ()

/-- An operation of a service: its answer, and the store it leaves. -/
def FacadeOp.observed (cfg : LoggingServiceConfig) (amb : Ambient) (recordRun : Option (Except PyError Unit))
    (o : FacadeOp) (s : Store) : Except PyError o.Res × Store :=
  match o.exec cfg amb s with
  | .error e => (.error e, s)
  | .ok (a, s') => match o.emitAfterCommit recordRun with
    | .ok () => (.ok a, s')
    | .error e => (.error e, s')

/-- `sem` of a service with observability; `mirror` says how `record_run` may end. -/
def semObserved {τ : Type} (cfg : LoggingServiceConfig) (env : Environment τ)
    (mirror : Except PyError Unit → Prop) : Program.Sem (World τ) Op Op.Res PyError
  | w, .facade o, r, w' => ∃ amb recordRun, mirror recordRun ∧
    r = (o.observed cfg amb (some recordRun) w.store).1 ∧
    w' = { w with store := (o.observed cfg amb (some recordRun) w.store).2 }
  | w, .invoke call, r, w' => sem cfg env w (.invoke call) r w'
  | w, .verify probe, r, w' => sem cfg env w (.verify probe) r w'
  | w, .handoff decision, r, w' => sem cfg env w (.handoff decision) r w'

end Raef
