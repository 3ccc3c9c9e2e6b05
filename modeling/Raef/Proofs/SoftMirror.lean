import Raef.Model.Mirror
import Raef.Proofs.Script

/-!
# How soft the mirror is

The store an operation leaves does not depend on the hook; its answer does, when the hook raises.

    same answer and store ↔ `record_run` returns, if it is called   (observed_iff)
    a hook that returns changes no step                             (semObserved_returning)
    a run that ends with a value is one without the mirror          (observed_value)
    operations and `execute_tool`                                   (mirror_soft)
-/

namespace Raef

open Program

/-! ## Operations -/

/-- `record_run` is called: the operation emits, and has committed. -/
def FacadeOp.callsMirror (cfg : LoggingServiceConfig) (amb : Ambient) (o : FacadeOp) (s : Store) : Prop :=
  o.emits = true ∧ Txn.Succeeds (o.exec cfg amb) s

section
variable {cfg : LoggingServiceConfig} {amb : Ambient} {o : FacadeOp} {s : Store} {recordRun : Except PyError Unit}

/-- The store is the same whatever the hook does. -/
theorem observed_store : (o.observed cfg amb (some recordRun) s).2 = (o.observed cfg amb none s).2 := by
  unfold FacadeOp.observed
  cases o.exec cfg amb s with
  | error e => rfl
  | ok p =>
    simp only [FacadeOp.emitAfterCommit]
    split <;> rfl

/-- A call of the hook that raises is what the operation raises. -/
theorem observed_raises {e : PyError} (h : o.callsMirror cfg amb s) :
    (o.observed cfg amb (some (.error e)) s).1 = .error e ∧ ∃ a, (o.observed cfg amb none s).1 = .ok a := by
  obtain ⟨hemits, a, s', hx⟩ := h
  unfold FacadeOp.observed
  rw [hx]
  simp only [FacadeOp.emitAfterCommit, hemits, if_true]
  exact ⟨trivial, a, rfl⟩

/-- **The mirror goes unnoticed exactly when `record_run` returns, if it is called.** -/
theorem observed_iff : o.observed cfg amb (some recordRun) s = o.observed cfg amb none s ↔
    (o.callsMirror cfg amb s → recordRun = .ok ()) := by
  constructor
  · intro h hcalls
    cases recordRun with
    | ok u => rfl
    | error e =>
      obtain ⟨he, a, ha⟩ := observed_raises (e := e) hcalls
      rw [h, ha] at he
      nomatch he
  · intro h
    refine Prod.ext ?_ observed_store
    unfold FacadeOp.observed
    cases hx : o.exec cfg amb s with
    | error e => rfl
    | ok p =>
      have hemit : o.emitAfterCommit (some recordRun) = .ok () := by
        show (if o.emits = true then recordRun else .ok ()) = .ok ()
        by_cases he : o.emits = true
        · rw [if_pos he, h ⟨he, p.1, p.2, hx⟩]
        · rw [if_neg he]
      simp only [hemit]
      rfl

end

/-! ## Runs -/

section
variable {τ α : Type} {cfg : LoggingServiceConfig} {env : Environment τ} {w w' : World τ}

/-- Without observability the semantics is `sem`. -/
theorem sem_unobserved {o : FacadeOp} {r : Except PyError o.Res} : sem cfg env w (.facade o) r w' ↔
    ∃ amb, r = (o.observed cfg amb none w.store).1 ∧ w' = { w with store := (o.observed cfg amb none w.store).2 } := by
  constructor
  · rintro ⟨amb, h⟩
    refine ⟨amb, ?_⟩
    unfold FacadeOp.observed
    cases hx : o.exec cfg amb w.store with
    | error e =>
      rw [hx] at h
      exact h
    | ok p =>
      rw [hx] at h
      exact h
  · rintro ⟨amb, h⟩
    refine ⟨amb, ?_⟩
    unfold FacadeOp.observed at h
    cases hx : o.exec cfg amb w.store with
    | error e =>
      rw [hx] at h
      exact h
    | ok p =>
      rw [hx] at h
      exact h

/-- **A hook that returns changes no step.** -/
theorem semObserved_returning : semObserved cfg env (fun recordRun => recordRun = .ok ()) = sem cfg env := by
  funext w o r w'
  refine propext ?_
  cases o with
  | facade o =>
    have hsame (amb : Ambient) : o.observed cfg amb (some (.ok ())) w.store = o.observed cfg amb none w.store :=
      observed_iff.2 fun _ => rfl
    rw [sem_unobserved]
    constructor
    · rintro ⟨amb, _, rfl, hr, hw⟩
      rw [hsame amb] at hr hw
      exact ⟨amb, hr, hw⟩
    · rintro ⟨amb, hr, hw⟩
      refine ⟨amb, .ok (), rfl, ?_⟩
      rw [hsame amb]
      exact ⟨hr, hw⟩
  | invoke call => exact Iff.rfl
  | verify probe => exact Iff.rfl
  | handoff d => exact Iff.rfl

/-- A step that answers with a value is one without the mirror. -/
theorem semObserved_value {mirror : Except PyError Unit → Prop} {o : Op} {a : o.Res}
    (h : semObserved cfg env mirror w o (.ok a) w') : sem cfg env w o (.ok a) w' := by
  cases o with
  | facade o =>
    obtain ⟨amb, recordRun, -, hr, hw⟩ := h
    refine sem_unobserved.2 ⟨amb, ?_, by rw [hw, observed_store]⟩
    by_cases hcalls : o.callsMirror cfg amb w.store
    · cases recordRun with
      | ok u => rw [hr, observed_iff.2 fun _ => rfl]
      | error e =>
        rw [(observed_raises hcalls).1] at hr
        nomatch hr
    · rw [hr, observed_iff.2 fun h => absurd h hcalls]
  | invoke call => exact h
  | verify probe => exact h
  | handoff d => exact h

/-- **A run that ends with a value has had no trouble with the mirror**, whatever the hook may do. -/
theorem observed_value {mirror : Except PyError Unit → Prop} {p : Prog α} {a : α}
    (h : Runs (semObserved cfg env mirror) w p w' (.ret (.ok a))) : Runs (sem cfg env) w p w' (.ret (.ok a)) := by
  induction p generalizing w with
  | ret x =>
    obtain ⟨rfl, heq⟩ := Runs.of_ret h
    rw [← heq]
    exact .here _ _
  | op o k ih =>
    obtain ⟨-, heq⟩ | ⟨r, w1, hs, hrest⟩ := Runs.of_op h
    · nomatch heq
    cases r with
    | ok r => exact .step (semObserved_value hs) (ih r hrest)
    | error e =>
      obtain ⟨-, heq⟩ := Runs.of_ret hrest
      nomatch heq

/-- **The mirror is soft as long as `record_run` returns**: each operation has the same answer and store as
without it, and each `execute_tool` the same runs. -/
theorem mirror_soft (cfg : LoggingServiceConfig) (env : Environment τ) (mgr : TransactionManager) :
    (∀ amb (o : FacadeOp) s recordRun, o.observed cfg amb (some recordRun) s = o.observed cfg amb none s ↔
      (o.callsMirror cfg amb s → recordRun = .ok ())) ∧
    (∀ c w w' x, Runs (semObserved cfg env fun recordRun => recordRun = .ok ()) w (executeTool mgr c) w' (.ret x) ↔
      Runs (sem cfg env) w (executeTool mgr c) w' (.ret x)) ∧
    ∀ mirror c w w' a, Runs (semObserved cfg env mirror) w (executeTool mgr c) w' (.ret (.ok a)) →
      Runs (sem cfg env) w (executeTool mgr c) w' (.ret (.ok a)) := by
  refine ⟨fun amb o s recordRun => observed_iff, fun c w w' x => ?_, fun mirror c w w' a => observed_value⟩
  rw [semObserved_returning]

end

/-- The run is started, its mirror cannot be written, and `start_run` raises. -/
theorem failed_mirror_raises :
    ((FacadeOp.startRun tripRun).observed {} stillAmbient (some (.error (.runtime "disk full"))) {}).1 =
      .error (.runtime "disk full") ∧
    ∃ a, ((FacadeOp.startRun tripRun).observed {} stillAmbient none {}).1 = .ok a :=
  observed_raises ⟨rfl, Txn.succeeds_of_toBool (by decide +kernel)⟩

end Raef
