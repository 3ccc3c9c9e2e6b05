import Mathlib

/-!
# Transactions: a state and an exception that undoes it

`Txn σ ε α` runs on a state and either gives a value with the new state or
raises; a raise carries no state, so the caller keeps the one it had (rollback).

* `bind_ok`, `lift_ok`, …: what a success of a composed transaction says of its parts.
* `Succeeds x s`: `x` does not raise in `s`; a bind succeeds when its second part
  does wherever the first leads (`Succeeds.bind`).
-/

namespace Raef

/-- A transaction over states `σ`, raising `ε`. -/
def Txn (σ ε α : Type) : Type := σ → Except ε (α × σ)

namespace Txn

variable {σ ε α β : Type}

instance : Monad (Txn σ ε) where
  pure a := fun s => .ok (a, s)
  bind x f := fun s =>
    match x s with
    | .ok (a, s') => f a s'
    | .error e => .error e

def raise (e : ε) : Txn σ ε α := fun _ => .error e

def read : Txn σ ε σ := fun s => .ok (s, s)

def write (s : σ) : Txn σ ε Unit := fun _ => .ok ((), s)

def lift (x : Except ε α) : Txn σ ε α := fun s =>
  match x with
  | .ok a => .ok (a, s)
  | .error e => .error e

/-- `if p: raise e` of a computation without state. -/
def raiseIf (p : Prop) [Decidable p] (e : ε) : Except ε Unit := if p then .error e else .ok ()

/-- A read that may raise. -/
def fetch (f : σ → Except ε α) : Txn σ ε α := do
  let s ← read
  lift (f s)

/-- `if not cond: raise e`. -/
def require (cond : Bool) (e : ε) : Txn σ ε Unit := if cond then pure () else raise e

/-! ## Successes -/

theorem except_bind_ok {x : Except ε α} {f : α → Except ε β} {r : β} :
    (x >>= f) = .ok r ↔ ∃ a, x = .ok a ∧ f a = .ok r := by
  cases x with
  | error e => simp [bind, Except.bind]
  | ok a => simp [bind, Except.bind]

theorem except_pure_ok {a r : α} : (pure a : Except ε α) = .ok r ↔ r = a := by
  show Except.ok a = Except.ok r ↔ _
  rw [Except.ok.injEq]
  exact eq_comm

/-- An evaluation that ends well has a value. -/
theorem except_ok_of_toBool {x : Except ε α} (h : x.toBool = true) : ∃ a, x = .ok a := by
  cases x with
  | error e => cases h
  | ok a => exact ⟨a, rfl⟩

theorem except_throw_ok {e : ε} {r : α} : (throw e : Except ε α) = .ok r ↔ False := by
  simp [throw, throwThe, MonadExceptOf.throw]

@[simp] theorem bind_ok {x : Txn σ ε α} {f : α → Txn σ ε β} {s : σ} {r : β × σ} :
    (x >>= f) s = .ok r ↔ ∃ a s', x s = .ok (a, s') ∧ f a s' = .ok r := by
  show (match x s with | .ok (a, s') => f a s' | .error e => .error e) = .ok r ↔ _
  cases h : x s with
  | error e => simp
  | ok p => obtain ⟨a, s'⟩ := p; simp

@[simp] theorem pure_ok {a : α} {s : σ} {r : α × σ} :
    (pure a : Txn σ ε α) s = .ok r ↔ r = (a, s) := by
  show Except.ok (a, s) = Except.ok r ↔ _
  rw [Except.ok.injEq]
  exact eq_comm

@[simp] theorem raise_ok {e : ε} {s : σ} {r : α × σ} : (raise e : Txn σ ε α) s = .ok r ↔ False := by
  simp [raise]

@[simp] theorem read_ok {s : σ} {r : σ × σ} : (read : Txn σ ε σ) s = .ok r ↔ r = (s, s) := by
  unfold read
  rw [Except.ok.injEq]
  exact eq_comm

@[simp] theorem write_ok {s s' : σ} {r : Unit × σ} :
    (write s' : Txn σ ε Unit) s = .ok r ↔ r = ((), s') := by
  unfold write
  rw [Except.ok.injEq]
  exact eq_comm

@[simp] theorem lift_ok {x : Except ε α} {s : σ} {r : α × σ} :
    (lift x : Txn σ ε α) s = .ok r ↔ x = .ok r.1 ∧ r.2 = s := by
  obtain ⟨b, t⟩ := r
  cases x with
  | error e => simp [lift]
  | ok a => simp [lift, eq_comm]

@[simp] theorem fetch_ok {f : σ → Except ε α} {s : σ} {r : α × σ} :
    (fetch f : Txn σ ε α) s = .ok r ↔ f s = .ok r.1 ∧ r.2 = s := by
  simp [fetch, and_comm]

/-- A read hands on the state it read. -/
theorem fetch_pair {f : σ → Except ε α} {s s' : σ} {a : α} :
    (fetch f : Txn σ ε α) s = .ok (a, s') ↔ f s = .ok a ∧ s' = s :=
  fetch_ok

theorem fetch_run {f : σ → Except ε α} {s : σ} {a : α} (h : f s = .ok a) :
    (fetch f : Txn σ ε α) s = .ok (a, s) :=
  fetch_ok.2 ⟨h, rfl⟩

@[simp] theorem require_ok {cond : Bool} {e : ε} {s : σ} {r : Unit × σ} :
    (require cond e : Txn σ ε Unit) s = .ok r ↔ cond = true ∧ r = ((), s) := by
  unfold require
  cases cond <;> simp

@[simp] theorem raiseIf_ok {p : Prop} [Decidable p] {e : ε} {u : Unit} : raiseIf p e = .ok u ↔ ¬ p := by
  unfold raiseIf
  by_cases h : p <;> simp [h]

/-- Running a bind whose first part succeeds. -/
theorem bind_run {x : Txn σ ε α} {f : α → Txn σ ε β} {s s' : σ} {a : α} (h : x s = .ok (a, s')) :
    (x >>= f) s = f a s' := by
  show (match x s with | .ok (a, s') => f a s' | .error e => .error e) = _
  rw [h]

/-- Running a bind whose first part raises. -/
theorem bind_raise {x : Txn σ ε α} {f : α → Txn σ ε β} {s : σ} {e : ε} (h : x s = .error e) :
    (x >>= f) s = .error e := by
  show (match x s with | .ok (a, s') => f a s' | .error e => .error e) = _
  rw [h]

/-! ## Totality -/

/-- `x` does not raise in `s`. -/
def Succeeds (x : Txn σ ε α) (s : σ) : Prop := ∃ a s', x s = .ok (a, s')

/-- A run that evaluates to a success. -/
theorem succeeds_of_toBool {x : Txn σ ε α} {s : σ} (h : (x s).toBool = true) : Succeeds x s := by
  obtain ⟨r, hr⟩ := except_ok_of_toBool h
  exact ⟨r.1, r.2, hr⟩

theorem succeeds_pure (a : α) (s : σ) : Succeeds (pure a : Txn σ ε α) s := ⟨a, s, rfl⟩

theorem succeeds_read (s : σ) : Succeeds (read : Txn σ ε σ) s := ⟨s, s, rfl⟩

theorem succeeds_write (s s' : σ) : Succeeds (write s' : Txn σ ε Unit) s := ⟨(), s', rfl⟩

theorem succeeds_lift {x : Except ε α} {a : α} (h : x = .ok a) (s : σ) :
    Succeeds (lift x : Txn σ ε α) s :=
  ⟨a, s, lift_ok.2 ⟨h, rfl⟩⟩

theorem succeeds_fetch {f : σ → Except ε α} {s : σ} {a : α} (h : f s = .ok a) :
    Succeeds (fetch f : Txn σ ε α) s :=
  ⟨a, s, fetch_run h⟩

theorem succeeds_require {cond : Bool} (h : cond = true) (e : ε) (s : σ) :
    Succeeds (require cond e : Txn σ ε Unit) s :=
  ⟨(), s, require_ok.2 ⟨h, rfl⟩⟩

/-- Sequencing: the second part succeeds wherever the first leads. -/
theorem Succeeds.bind {x : Txn σ ε α} {f : α → Txn σ ε β} {s : σ} (hx : Succeeds x s)
    (hf : ∀ a s', x s = .ok (a, s') → Succeeds (f a) s') : Succeeds (x >>= f) s := by
  obtain ⟨a, s', h⟩ := hx
  obtain ⟨b, s'', h'⟩ := hf a s' h
  exact ⟨b, s'', (bind_run h).trans h'⟩

end Txn

end Raef
