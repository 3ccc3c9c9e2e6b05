import Mathlib

/-!
# Programs over atomic operations

A `Program` is a process between whose operations anything may happen: it issues
an operation, waits for the answer, and goes on.  One text gives the three ways
to run it.

* `Runs`: alone, stopped at any point (a crash keeps a prefix).
* `Reach`: in a pool of processes, one operation at a time, any of them lost at any point.
* `Sure`: alone and to the end, whatever the answers; `Ends` says only where it ends, if it does.

`Safe` is the rule for pools: each process keeps the invariant and its guarantee
as long as the others stay inside its rely (`reach_safe`); `Alert` is the same where steps are
admitted by the configuration (`reach_alert`).  `Uses` is the case where the operations alone
decide (`Uses.safe`).  `Noted` is `Runs` with the notes of an observer.
-/

namespace Raef

/-- A process over operations `Op` with answers `Res`, raising `ε`, ending in `α`. -/
inductive Program (Op : Type) (Res : Op → Type) (ε α : Type) : Type
  | ret (x : Except ε α)
  | op (o : Op) (k : Res o → Program Op Res ε α)

namespace Program

variable {Op : Type} {Res : Op → Type} {ε α β : Type}

def bind : Program Op Res ε α → (α → Program Op Res ε β) → Program Op Res ε β
  | .ret (.ok a), f => f a
  | .ret (.error e), _ => .ret (.error e)
  | .op o k, f => .op o fun r => (k r).bind f

instance : Monad (Program Op Res ε) where
  pure a := .ret (.ok a)
  bind := bind

/-- Issue one operation. -/
def call (o : Op) : Program Op Res ε (Res o) := .op o fun r => .ret (.ok r)

def raise (e : ε) : Program Op Res ε α := .ret (.error e)

def lift (x : Except ε α) : Program Op Res ε α := .ret x

/-- The process after its operation answered; an operation that raises ends it. -/
def resume {o : Op} (k : Res o → Program Op Res ε α) : Except ε (Res o) → Program Op Res ε α
  | .ok r => k r
  | .error e => .ret (.error e)

@[simp] theorem call_bind (o : Op) (f : Res o → Program Op Res ε β) : (call o >>= f) = .op o f := rfl

@[simp] theorem pure_bind' (a : α) (f : α → Program Op Res ε β) :
    ((pure a : Program Op Res ε α) >>= f) = f a := rfl

@[simp] theorem raise_bind (e : ε) (f : α → Program Op Res ε β) :
    ((raise e : Program Op Res ε α) >>= f) = raise e := rfl

@[simp] theorem op_bind (o : Op) (k : Res o → Program Op Res ε α) (f : α → Program Op Res ε β) :
    (.op o k >>= f) = .op o fun r => k r >>= f := rfl

@[simp] theorem lift_ok_bind (a : α) (f : α → Program Op Res ε β) :
    ((lift (.ok a) : Program Op Res ε α) >>= f) = f a := rfl

@[simp] theorem lift_error_bind (e : ε) (f : α → Program Op Res ε β) :
    ((lift (.error e) : Program Op Res ε α) >>= f) = .ret (.error e) := rfl

/-! ## One process alone -/

/-- What an operation may answer in a state, and the state after it. -/
abbrev Sem (σ Op : Type) (Res : Op → Type) (ε : Type) : Type :=
  σ → (o : Op) → Except ε (Res o) → σ → Prop

variable {σ : Type}

/-- `p` run from `s` has come to `s'` with `p'` still to do. -/
inductive Runs (sem : Sem σ Op Res ε) :
    σ → Program Op Res ε α → σ → Program Op Res ε α → Prop
  | here (s : σ) (p : Program Op Res ε α) : Runs sem s p s p
  | step {s s1 s2 : σ} {o : Op} {k : Res o → Program Op Res ε α} {r : Except ε (Res o)}
      {p' : Program Op Res ε α} :
      sem s o r s1 → Runs sem s1 (resume k r) s2 p' → Runs sem s (.op o k) s2 p'

theorem Runs.of_ret {sem : Sem σ Op Res ε} {s s' : σ} {x : Except ε α} {p' : Program Op Res ε α}
    (h : Runs sem s (.ret x) s' p') : s' = s ∧ p' = .ret x := by
  cases h
  exact ⟨rfl, rfl⟩

/-- A program at an operation: not yet run, or run past it. -/
theorem Runs.of_op {sem : Sem σ Op Res ε} {s s' : σ} {o : Op} {k : Res o → Program Op Res ε α}
    {p' : Program Op Res ε α} (h : Runs sem s (.op o k) s' p') :
    (s' = s ∧ p' = .op o k) ∨ ∃ r s1, sem s o r s1 ∧ Runs sem s1 (resume k r) s' p' := by
  cases h with
  | here => exact .inl ⟨rfl, rfl⟩
  | step hs h => exact .inr ⟨_, _, hs, h⟩

/-- A sequence that ended with a value went through a value of its first part. -/
theorem Runs.of_bind {sem : Sem σ Op Res ε} {p : Program Op Res ε α} {f : α → Program Op Res ε β}
    {s s' : σ} {b : β} (h : Runs sem s (p >>= f) s' (.ret (.ok b))) :
    ∃ a s1, Runs sem s p s1 (.ret (.ok a)) ∧ Runs sem s1 (f a) s' (.ret (.ok b)) := by
  induction p generalizing s with
  | ret x =>
    cases x with
    | ok a => exact ⟨a, s, .here _ _, h⟩
    | error e =>
      obtain ⟨-, h⟩ := Runs.of_ret (x := .error e) h
      cases h
  | op o k ih =>
    rcases Runs.of_op (k := fun r => k r >>= f) h with ⟨-, h⟩ | ⟨r, s1, hs, h⟩
    · cases h
    · cases r with
      | error e =>
        obtain ⟨-, h⟩ := Runs.of_ret h
        cases h
      | ok r =>
        obtain ⟨a, s2, h1, h2⟩ := ih r h
        exact ⟨a, s2, .step hs h1, h2⟩

/-- `p` ends, whatever the answers, and in `Q` with its value and state. -/
def Sure (sem : Sem σ Op Res ε) (Q : Except ε α → σ → Prop) : Program Op Res ε α → σ → Prop
  | .ret x, s => Q x s
  | .op o k, s => (∃ r s', sem s o r s') ∧ ∀ r s', sem s o r s' →
      match r with
      | .ok a => Sure sem Q (k a) s'
      | .error e => Q (.error e) s'

theorem sure_resume {sem : Sem σ Op Res ε} {Q : Except ε α → σ → Prop} {o : Op}
    {k : Res o → Program Op Res ε α} {s : σ} (h : Sure sem Q (.op o k) s) {r : Except ε (Res o)}
    {s' : σ} (hs : sem s o r s') : Sure sem Q (resume k r) s' := by
  have := h.2 r s' hs
  cases r with
  | ok a => exact this
  | error e => exact this

theorem Sure.runs {sem : Sem σ Op Res ε} {Q : Except ε α → σ → Prop} {p p' : Program Op Res ε α}
    {s s' : σ} (h : Sure sem Q p s) (hr : Runs sem s p s' p') : Sure sem Q p' s' := by
  induction hr with
  | here s p => exact h
  | step hs _ ih => exact ih (sure_resume h hs)

/-- A sure program has a complete run. -/
theorem Sure.finishes {sem : Sem σ Op Res ε} {Q : Except ε α → σ → Prop} {p : Program Op Res ε α}
    {s : σ} (h : Sure sem Q p s) : ∃ s' x, Runs sem s p s' (.ret x) ∧ Q x s' := by
  induction p generalizing s with
  | ret x => exact ⟨s, x, .here _ _, h⟩
  | op o k ih =>
    obtain ⟨⟨r, s1, hs⟩, hall⟩ := h
    cases r with
    | error e => exact ⟨s1, .error e, .step hs (.here _ _), hall _ _ hs⟩
    | ok a =>
      obtain ⟨s2, x, hr, hq⟩ := ih a (hall _ _ hs)
      exact ⟨s2, x, .step hs hr, hq⟩

theorem Sure.mono {sem : Sem σ Op Res ε} {Q Q' : Except ε α → σ → Prop} (hQ : ∀ x s, Q x s → Q' x s)
    {p : Program Op Res ε α} {s : σ} (h : Sure sem Q p s) : Sure sem Q' p s := by
  induction p generalizing s with
  | ret x => exact hQ _ _ h
  | op o k ih =>
    refine ⟨h.1, fun r s' hs => ?_⟩
    have := h.2 r s' hs
    cases r with
    | ok a => exact ih a this
    | error e => exact hQ _ _ this

/-- Sequencing: the second part is sure after every value of the first, and `Q` takes its raises. -/
theorem Sure.bind {sem : Sem σ Op Res ε} {P : Except ε α → σ → Prop} {Q : Except ε β → σ → Prop}
    {p : Program Op Res ε α} {f : α → Program Op Res ε β} {s : σ} (h : Sure sem P p s)
    (hok : ∀ a s', P (.ok a) s' → Sure sem Q (f a) s') (herr : ∀ e s', P (.error e) s' → Q (.error e) s') :
    Sure sem Q (p >>= f) s := by
  induction p generalizing s with
  | ret x =>
    cases x with
    | ok a => exact hok a s h
    | error e => exact herr e s h
  | op o k ih =>
    refine ⟨h.1, fun r s' hs => ?_⟩
    have := h.2 r s' hs
    cases r with
    | ok a => exact ih a this
    | error e => exact herr e s' this

/-- Where `p` alone ends, it ends in `Q` with its value and state. -/
def Ends (sem : Sem σ Op Res ε) (Q : Except ε α → σ → Prop) : Program Op Res ε α → σ → Prop
  | .ret x, s => Q x s
  | .op o k, s => ∀ r s', sem s o r s' →
      match r with
      | .ok a => Ends sem Q (k a) s'
      | .error e => Q (.error e) s'

theorem Ends.runs {sem : Sem σ Op Res ε} {Q : Except ε α → σ → Prop} {p : Program Op Res ε α} {s s' : σ}
    {x : Except ε α} (h : Ends sem Q p s) (hr : Runs sem s p s' (.ret x)) : Q x s' := by
  induction p generalizing s with
  | ret y =>
    obtain ⟨rfl, hx⟩ := hr.of_ret
    cases hx
    exact h
  | op o k ih =>
    rcases hr.of_op with ⟨-, hx⟩ | ⟨r, s1, hs, hr⟩
    · cases hx
    · have hnext := h r s1 hs
      cases r with
      | ok a => exact ih a hnext hr
      | error e =>
        obtain ⟨rfl, hx⟩ := hr.of_ret
        cases hx
        exact hnext

theorem Ends.mono {sem : Sem σ Op Res ε} {Q Q' : Except ε α → σ → Prop} (hQ : ∀ x s, Q x s → Q' x s)
    {p : Program Op Res ε α} {s : σ} (h : Ends sem Q p s) : Ends sem Q' p s := by
  induction p generalizing s with
  | ret x => exact hQ _ _ h
  | op o k ih =>
    intro r s' hs
    have hnext := h r s' hs
    cases r with
    | ok a => exact ih a hnext
    | error e => exact hQ _ _ hnext

/-- Sequencing: the second part from every value of the first, and `Q` takes its raises. -/
theorem Ends.bind {sem : Sem σ Op Res ε} {P : Except ε α → σ → Prop} {Q : Except ε β → σ → Prop}
    {p : Program Op Res ε α} {f : α → Program Op Res ε β} {s : σ} (h : Ends sem P p s)
    (hok : ∀ a s', P (.ok a) s' → Ends sem Q (f a) s') (herr : ∀ e s', P (.error e) s' → Q (.error e) s') :
    Ends sem Q (p >>= f) s := by
  induction p generalizing s with
  | ret x =>
    cases x with
    | ok a => exact hok a s h
    | error e => exact herr e s h
  | op o k ih =>
    intro r s' hs
    have hnext := h r s' hs
    cases r with
    | ok a => exact ih a hnext
    | error e => exact herr e s' hnext

/-! ## Processes in a pool -/

section
variable {ι : Type} [DecidableEq ι] {γ : ι → Type}

/-- What each process still has to do; `none` is a process that died. -/
abbrev Pool (ι Op : Type) (Res : Op → Type) (ε : Type) (γ : ι → Type) : Type :=
  (i : ι) → Option (Program Op Res ε (γ i))

/-- One operation of one process, or the death of one. -/
inductive Step (sem : ι → Sem σ Op Res ε) :
    σ × Pool ι Op Res ε γ → σ × Pool ι Op Res ε γ → Prop
  | op {s s' : σ} {pool : Pool ι Op Res ε γ} {i : ι} {o : Op} {k : Res o → Program Op Res ε (γ i)}
      {r : Except ε (Res o)} :
      pool i = some (.op o k) → sem i s o r s' →
      Step sem (s, pool) (s', Function.update pool i (some (resume k r)))
  | crash {s : σ} {pool : Pool ι Op Res ε γ} (i : ι) :
      Step sem (s, pool) (s, Function.update pool i none)

abbrev Reach (sem : ι → Sem σ Op Res ε) :
    σ × Pool ι Op Res ε γ → σ × Pool ι Op Res ε γ → Prop :=
  Relation.ReflTransGen (Step sem)

/-- From `s`, whatever the others do inside `R`: every operation of `p` keeps
the invariant `I` and the guarantee `G`, and `p` ends in `Q`. -/
def Safe (sem : Sem σ Op Res ε) (I : σ → Prop) (R G : σ → σ → Prop) (Q : Except ε α → σ → Prop) :
    Program Op Res ε α → σ → Prop
  | .ret x, s => Q x s
  | .op o k, s => ∀ s1, R s s1 → I s1 → ∀ r s2, sem s1 o r s2 → I s2 ∧ G s1 s2 ∧
      match r with
      | .ok a => Safe sem I R G Q (k a) s2
      | .error e => Q (.error e) s2

theorem Safe.resume {sem : Sem σ Op Res ε} {I : σ → Prop} {R G : σ → σ → Prop}
    {Q : Except ε α → σ → Prop} {o : Op} {k : Res o → Program Op Res ε α} {s s1 s2 : σ}
    (h : Safe sem I R G Q (.op o k) s) (hR : R s s1) (hI : I s1) {r : Except ε (Res o)}
    (hs : sem s1 o r s2) : I s2 ∧ G s1 s2 ∧ Safe sem I R G Q (Program.resume k r) s2 := by
  obtain ⟨h1, h2, h3⟩ := h s1 hR hI r s2 hs
  cases r with
  | ok a => exact ⟨h1, h2, h3⟩
  | error e => exact ⟨h1, h2, h3⟩

/-- One operation and what follows it. -/
theorem Safe.call {sem : Sem σ Op Res ε} {I : σ → Prop} {R G : σ → σ → Prop}
    {Q : Except ε β → σ → Prop} {o : Op} {f : Res o → Program Op Res ε β} {s : σ}
    (hstep : ∀ s1 r s2, R s s1 → I s1 → sem s1 o r s2 → I s2 ∧ G s1 s2)
    (hok : ∀ s1 a s2, R s s1 → I s1 → sem s1 o (.ok a) s2 → I s2 → Safe sem I R G Q (f a) s2)
    (herr : ∀ s1 e s2, R s s1 → I s1 → sem s1 o (.error e) s2 → I s2 → Q (.error e) s2) :
    Safe sem I R G Q (Program.call o >>= f) s := by
  intro s1 hR hI r s2 hs
  obtain ⟨h1, h2⟩ := hstep s1 r s2 hR hI hs
  refine ⟨h1, h2, ?_⟩
  cases r with
  | ok a => exact hok s1 a s2 hR hI hs h1
  | error e => exact herr s1 e s2 hR hI hs h1

/-- What is safe stays safe while the others move. -/
theorem Safe.stable {sem : Sem σ Op Res ε} {I : σ → Prop} {R G : σ → σ → Prop}
    {Q : Except ε α → σ → Prop} (htrans : ∀ a b c, R a b → R b c → R a c)
    (hQ : ∀ x s s', Q x s → R s s' → Q x s') {p : Program Op Res ε α} {s s' : σ}
    (h : Safe sem I R G Q p s) (hR : R s s') : Safe sem I R G Q p s' := by
  cases p with
  | ret x => exact hQ x s s' h hR
  | op o k => exact fun s1 h1 => h s1 (htrans _ _ _ hR h1)

theorem Safe.mono {sem : Sem σ Op Res ε} {I : σ → Prop} {R G : σ → σ → Prop}
    {Q Q' : Except ε α → σ → Prop} (hQ : ∀ x s, Q x s → Q' x s) {p : Program Op Res ε α} {s : σ}
    (h : Safe sem I R G Q p s) : Safe sem I R G Q' p s := by
  induction p generalizing s with
  | ret x => exact hQ _ _ h
  | op o k ih =>
    intro s1 h1 hI r s2 hs
    obtain ⟨a1, a2, a3⟩ := h s1 h1 hI r s2 hs
    refine ⟨a1, a2, ?_⟩
    cases r with
    | ok a => exact ih a a3
    | error e => exact hQ _ _ a3

/-- What is safe in company is safe alone. -/
theorem Safe.alone {sem : Sem σ Op Res ε} {I : σ → Prop} {R G : σ → σ → Prop} {Q : Except ε α → σ → Prop}
    (hrefl : ∀ s, R s s) {p : Program Op Res ε α} {s : σ} (h : Safe sem I R G Q p s) : Safe sem I Eq G Q p s := by
  induction p generalizing s with
  | ret x => exact h
  | op o k ih =>
    rintro s1 rfl hI r s2 hs
    obtain ⟨h1, h2, h3⟩ := h s (hrefl s) hI r s2 hs
    refine ⟨h1, h2, ?_⟩
    cases r with
    | ok a => exact ih a h3
    | error e => exact h3

theorem Safe.bind {sem : Sem σ Op Res ε} {I : σ → Prop} {R G : σ → σ → Prop}
    {P : Except ε α → σ → Prop} {Q : Except ε β → σ → Prop} {p : Program Op Res ε α}
    {f : α → Program Op Res ε β} {s : σ} (h : Safe sem I R G P p s)
    (hok : ∀ a s', P (.ok a) s' → Safe sem I R G Q (f a) s')
    (herr : ∀ e s', P (.error e) s' → Q (.error e) s') : Safe sem I R G Q (p >>= f) s := by
  induction p generalizing s with
  | ret x =>
    cases x with
    | ok a => exact hok a s h
    | error e => exact herr e s h
  | op o k ih =>
    intro s1 h1 hI r s2 hs
    obtain ⟨a1, a2, a3⟩ := h s1 h1 hI r s2 hs
    refine ⟨a1, a2, ?_⟩
    cases r with
    | ok a => exact ih a a3
    | error e => exact herr e s2 a3

/-- **Pools.**  Processes that are safe one by one, each guaranteeing what the
others rely on, keep the invariant in every interleaving, and stay safe. -/
theorem reach_safe {sem : ι → Sem σ Op Res ε} {I : σ → Prop} {R G : ι → σ → σ → Prop}
    {Q : (i : ι) → Except ε (γ i) → σ → Prop} (hrefl : ∀ i s, R i s s)
    (htrans : ∀ i a b c, R i a b → R i b c → R i a c)
    (hQ : ∀ i x s s', Q i x s → R i s s' → Q i x s')
    (hG : ∀ i j s s', i ≠ j → G i s s' → R j s s') {c c' : σ × Pool ι Op Res ε γ}
    (h0 : I c.1 ∧ ∀ i p, c.2 i = some p → Safe (sem i) I (R i) (G i) (Q i) p c.1)
    (hr : Reach sem c c') :
    I c'.1 ∧ ∀ i p, c'.2 i = some p → Safe (sem i) I (R i) (G i) (Q i) p c'.1 := by
  induction hr with
  | refl => exact h0
  | tail _ hstep ih =>
    obtain ⟨hI, hsafe⟩ := ih
    cases hstep with
    | crash i =>
      refine ⟨hI, fun j p hj => ?_⟩
      by_cases hij : j = i
      · subst hij; simp at hj
      · exact hsafe j p (by simpa [Function.update_of_ne hij] using hj)
    | @op s s' pool i o k r hi hs =>
      obtain ⟨hI', hg, hsafe'⟩ := (hsafe i _ hi).resume (hrefl i _) hI hs
      refine ⟨hI', fun j p hj => ?_⟩
      by_cases hij : j = i
      · subst hij
        simp only [Function.update_self, Option.some.injEq] at hj
        subst hj
        exact hsafe'
      · refine (hsafe j p ?_).stable (htrans j) (hQ j) (hG i j _ _ (Ne.symm hij) hg)
        simpa [Function.update_of_ne hij] using hj

/-- A process alone is a pool of one: what is safe without interference holds at
every cut, and its steps add up to the guarantee. -/
theorem Runs.safe {sem : Sem σ Op Res ε} {I : σ → Prop} {G : σ → σ → Prop}
    {Q : Except ε α → σ → Prop} (hrefl : ∀ s, G s s) (htrans : ∀ a b c, G a b → G b c → G a c)
    {p p' : Program Op Res ε α} {s s' : σ} (hr : Runs sem s p s' p') (hI : I s)
    (h : Safe sem I Eq G Q p s) : I s' ∧ G s s' ∧ Safe sem I Eq G Q p' s' := by
  induction hr with
  | here s p => exact ⟨hI, hrefl s, h⟩
  | step hs _ ih =>
    obtain ⟨h1, hg, h2⟩ := h.resume rfl hI hs
    obtain ⟨h3, hg', h4⟩ := ih h1 h2
    exact ⟨h3, htrans _ _ _ hg hg', h4⟩

/-- What every operation keeps, a process keeps at every cut. -/
theorem Runs.keeps {sem : Sem σ Op Res ε} {I : σ → Prop} {p p' : Program Op Res ε α} {s s' : σ}
    (hr : Runs sem s p s' p') (hop : ∀ s o r s', I s → sem s o r s' → I s') (h : I s) : I s' := by
  induction hr with
  | here s p => exact h
  | step hs _ ih => exact ih (hop _ _ _ _ h hs)

/-! ## Pools with admitted steps -/

/-- One operation that is admitted in the configuration it starts from, or the death of a process. -/
inductive StepWhen (sem : ι → Sem σ Op Res ε) (admits : σ × Pool ι Op Res ε γ → ι → Op → Prop) :
    σ × Pool ι Op Res ε γ → σ × Pool ι Op Res ε γ → Prop
  | op {s s' : σ} {pool : Pool ι Op Res ε γ} {i : ι} {o : Op} {k : Res o → Program Op Res ε (γ i)}
      {r : Except ε (Res o)} :
      pool i = some (.op o k) → admits (s, pool) i o → sem i s o r s' →
      StepWhen sem admits (s, pool) (s', Function.update pool i (some (resume k r)))
  | crash {s : σ} {pool : Pool ι Op Res ε γ} (i : ι) :
      StepWhen sem admits (s, pool) (s, Function.update pool i none)

abbrev ReachWhen (sem : ι → Sem σ Op Res ε) (admits : σ × Pool ι Op Res ε γ → ι → Op → Prop) :
    σ × Pool ι Op Res ε γ → σ × Pool ι Op Res ε γ → Prop :=
  Relation.ReflTransGen (StepWhen sem admits)

/-- What is reached by admitted steps is reached. -/
theorem reach_of_admitted {sem : ι → Sem σ Op Res ε} {admits : σ × Pool ι Op Res ε γ → ι → Op → Prop}
    {c c' : σ × Pool ι Op Res ε γ} (h : ReachWhen sem admits c c') : Reach sem c c' := by
  refine Relation.ReflTransGen.mono (fun a b hstep => ?_) _ _ h
  cases hstep with
  | op hi _ hs => exact .op hi hs
  | crash i => exact .crash i

/-- `Safe`, where what the others may do in the meantime depends on the operation that waits, and
what a step guarantees on the operation it is. -/
def Alert (sem : Sem σ Op Res ε) (I : σ → Prop) (R G : Op → σ → σ → Prop) (Q : Except ε α → σ → Prop) :
    Program Op Res ε α → σ → Prop
  | .ret x, s => Q x s
  | .op o k, s => ∀ s1, R o s s1 → I s1 → ∀ r s2, sem s1 o r s2 → I s2 ∧ G o s1 s2 ∧
      match r with
      | .ok a => Alert sem I R G Q (k a) s2
      | .error e => Q (.error e) s2

theorem Alert.resume {sem : Sem σ Op Res ε} {I : σ → Prop} {R G : Op → σ → σ → Prop}
    {Q : Except ε α → σ → Prop} {o : Op} {k : Res o → Program Op Res ε α} {s s1 s2 : σ}
    (h : Alert sem I R G Q (.op o k) s) (hR : R o s s1) (hI : I s1) {r : Except ε (Res o)}
    (hs : sem s1 o r s2) : I s2 ∧ G o s1 s2 ∧ Alert sem I R G Q (Program.resume k r) s2 := by
  obtain ⟨h1, h2, h3⟩ := h s1 hR hI r s2 hs
  cases r with
  | ok a => exact ⟨h1, h2, h3⟩
  | error e => exact ⟨h1, h2, h3⟩

/-- **Pools with admitted steps.**  Where every admitted step of one process stays inside what the
operations waiting in the others rely on, all of them stay alert. -/
theorem reach_alert {sem : ι → Sem σ Op Res ε} {admits : σ × Pool ι Op Res ε γ → ι → Op → Prop}
    {I : σ → Prop} {R G : ι → Op → σ → σ → Prop} {Q : (i : ι) → Except ε (γ i) → σ → Prop}
    (hrefl : ∀ i o s, R i o s s) (htrans : ∀ i o a b c, R i o a b → R i o b c → R i o a c)
    (hQ : ∀ i j o x s s', i ≠ j → Q j x s → G i o s s' → Q j x s')
    (hG : ∀ i j o o' s s' (pool : Pool ι Op Res ε γ) k, i ≠ j → admits (s, pool) i o →
      pool j = some (.op o' k) → G i o s s' → R j o' s s')
    {c c' : σ × Pool ι Op Res ε γ}
    (h0 : I c.1 ∧ ∀ i p, c.2 i = some p → Alert (sem i) I (R i) (G i) (Q i) p c.1)
    (hr : ReachWhen sem admits c c') :
    I c'.1 ∧ ∀ i p, c'.2 i = some p → Alert (sem i) I (R i) (G i) (Q i) p c'.1 := by
  induction hr with
  | refl => exact h0
  | tail _ hstep ih =>
    obtain ⟨hI, halert⟩ := ih
    cases hstep with
    | crash i =>
      refine ⟨hI, fun j p hj => ?_⟩
      by_cases hij : j = i
      · subst hij
        simp at hj
      · exact halert j p (by simpa [Function.update_of_ne hij] using hj)
    | @op s s' pool i o k r hi hadmits hs =>
      obtain ⟨hI', hg, halert'⟩ := (halert i _ hi).resume (hrefl i o _) hI hs
      refine ⟨hI', fun j p hj => ?_⟩
      by_cases hij : j = i
      · subst hij
        simp only [Function.update_self, Option.some.injEq] at hj
        subst hj
        exact halert'
      · have hj' : pool j = some p := by simpa [Function.update_of_ne hij] using hj
        have hbefore := halert j p hj'
        cases p with
        | ret x => exact hQ i j o x s s' (Ne.symm hij) hbefore hg
        | op o' k' =>
          have hrely := hG i j o o' s s' pool k' (Ne.symm hij) hadmits hj' hg
          exact fun s1 hR => hbefore s1 (htrans j o' _ _ _ hrely hR)

/-! ## Runs with an observer -/

section
variable {ω : Type} {sem : Sem σ Op Res ε} {note : σ → (o : Op) → Except ε (Res o) → List ω}

/-- `Runs`, with what an observer notes of each operation. -/
inductive Noted (sem : Sem σ Op Res ε) (note : σ → (o : Op) → Except ε (Res o) → List ω) :
    σ → Program Op Res ε α → List ω → σ → Program Op Res ε α → Prop
  | here (s : σ) (p : Program Op Res ε α) : Noted sem note s p [] s p
  | step {s s1 s2 : σ} {o : Op} {k : Res o → Program Op Res ε α} {r : Except ε (Res o)} {notes : List ω}
      {p' : Program Op Res ε α} :
      sem s o r s1 → Noted sem note s1 (resume k r) notes s2 p' →
        Noted sem note s (.op o k) (note s o r ++ notes) s2 p'

theorem Noted.runs {s s' : σ} {p p' : Program Op Res ε α} {notes : List ω}
    (h : Noted sem note s p notes s' p') : Runs sem s p s' p' := by
  induction h with
  | here s p => exact .here s p
  | step hs _ ih => exact .step hs ih

theorem Noted.of_ret {s s' : σ} {x : Except ε α} {p' : Program Op Res ε α} {notes : List ω}
    (h : Noted sem note s (.ret x) notes s' p') : notes = [] ∧ s' = s ∧ p' = .ret x := by
  cases h
  exact ⟨rfl, rfl, rfl⟩

theorem Noted.of_op {s s' : σ} {o : Op} {k : Res o → Program Op Res ε α} {p' : Program Op Res ε α}
    {notes : List ω} (h : Noted sem note s (.op o k) notes s' p') :
    (notes = [] ∧ s' = s ∧ p' = .op o k) ∨ ∃ r s1 rest, sem s o r s1 ∧ notes = note s o r ++ rest ∧
      Noted sem note s1 (resume k r) rest s' p' := by
  cases h with
  | here => exact .inl ⟨rfl, rfl, rfl⟩
  | step hs h => exact .inr ⟨_, _, _, hs, rfl, h⟩

/-- A sequence that ended with a value went through a value of its first part. -/
theorem Noted.of_bind {p : Program Op Res ε α} {f : α → Program Op Res ε β} {s s' : σ} {b : β}
    {notes : List ω} (h : Noted sem note s (p >>= f) notes s' (.ret (.ok b))) :
    ∃ a s1 first rest, notes = first ++ rest ∧ Noted sem note s p first s1 (.ret (.ok a)) ∧
      Noted sem note s1 (f a) rest s' (.ret (.ok b)) := by
  induction p generalizing s notes with
  | ret x =>
    cases x with
    | ok a => exact ⟨a, s, [], notes, rfl, .here _ _, h⟩
    | error e =>
      obtain ⟨-, -, h⟩ := Noted.of_ret (x := .error e) h
      cases h
  | op o k ih =>
    rcases Noted.of_op (k := fun r => k r >>= f) h with ⟨-, -, hend⟩ | ⟨r, s1, rest, hs, rfl, hrest⟩
    · cases hend
    · cases r with
      | error e =>
        obtain ⟨-, -, hend⟩ := Noted.of_ret hrest
        cases hend
      | ok r =>
        obtain ⟨a, s2, first, rest, rfl, h1, h2⟩ := ih r hrest
        exact ⟨a, s2, _, rest, (List.append_assoc _ _ _).symm, .step hs h1, h2⟩

end

/-! ## Programs played against a function -/

/-- At most `n` operations, each answered by a function of the state. -/
def advance (answer : σ → (o : Op) → Except ε (Res o) × σ) :
    ℕ → Program Op Res ε α → σ → Program Op Res ε α × σ
  | 0, p, s => (p, s)
  | _ + 1, .ret x, s => (.ret x, s)
  | n + 1, .op o k, s => advance answer n (resume k (answer s o).1) (answer s o).2

/-- The notes taken meanwhile. -/
def notesOf {ω : Type} (answer : σ → (o : Op) → Except ε (Res o) × σ)
    (note : σ → (o : Op) → Except ε (Res o) → List ω) : ℕ → Program Op Res ε α → σ → List ω
  | 0, _, _ => []
  | _ + 1, .ret _, _ => []
  | n + 1, .op o k, s =>
    note s o (answer s o).1 ++ notesOf answer note n (resume k (answer s o).1) (answer s o).2

/-- The value of a process that has ended. -/
def result : Program Op Res ε α → Option (Except ε α)
  | .ret x => some x
  | .op _ _ => none

theorem ret_of_result {p : Program Op Res ε α} {x : Except ε α} (h : p.result = some x) : p = .ret x := by
  cases p with
  | ret y =>
    cases h
    rfl
  | op o k => cases h

theorem advance_runs {sem : Sem σ Op Res ε} {answer : σ → (o : Op) → Except ε (Res o) × σ}
    (h : ∀ s o, sem s o (answer s o).1 (answer s o).2) (n : ℕ) (p : Program Op Res ε α) (s : σ) :
    Runs sem s p (advance answer n p s).2 (advance answer n p s).1 := by
  induction n generalizing p s with
  | zero => exact .here s p
  | succ n ih =>
    cases p with
    | ret x => exact .here s _
    | op o k => exact .step (h s o) (ih _ _)

theorem advance_noted {ω : Type} {sem : Sem σ Op Res ε} {answer : σ → (o : Op) → Except ε (Res o) × σ}
    {note : σ → (o : Op) → Except ε (Res o) → List ω} (h : ∀ s o, sem s o (answer s o).1 (answer s o).2)
    (n : ℕ) (p : Program Op Res ε α) (s : σ) :
    Noted sem note s p (notesOf answer note n p s) (advance answer n p s).2 (advance answer n p s).1 := by
  induction n generalizing p s with
  | zero => exact .here s p
  | succ n ih =>
    cases p with
    | ret x => exact .here s _
    | op o k => exact .step (h s o) (ih _ _)

theorem advance_reach {sem : ι → Sem σ Op Res ε} {answer : σ → (o : Op) → Except ε (Res o) × σ} (i : ι)
    (h : ∀ s o, sem i s o (answer s o).1 (answer s o).2) (n : ℕ) {p : Program Op Res ε (γ i)} {s : σ}
    {pool : Pool ι Op Res ε γ} (hp : pool i = some p) :
    Reach sem (s, pool) ((advance answer n p s).2,
      Function.update pool i (some (advance answer n p s).1)) := by
  induction n generalizing p s pool with
  | zero =>
    rw [show (advance answer 0 p s).1 = p from rfl, ← hp, Function.update_eq_self]
    exact .refl
  | succ n ih =>
    cases p with
    | ret x =>
      rw [show (advance answer (n + 1) (.ret x) s).1 = .ret x from rfl, ← hp, Function.update_eq_self]
      exact .refl
    | op o k =>
      refine .head (.op hp (h s o)) ?_
      have hself : Function.update pool i (some (resume k (answer s o).1)) i =
          some (resume k (answer s o).1) := by simp
      have := ih (s := (answer s o).2) hself
      rwa [Function.update_idem] at this

/-- The processes of a pool take turns: who moves, and for how many operations. -/
def takeTurns (answer : σ → (o : Op) → Except ε (Res o) × σ) :
    List (ι × ℕ) → σ × Pool ι Op Res ε γ → σ × Pool ι Op Res ε γ
  | [], c => c
  | (i, n) :: turns, (s, pool) =>
    match pool i with
    | none => takeTurns answer turns (s, pool)
    | some p => takeTurns answer turns ((advance answer n p s).2,
        Function.update pool i (some (advance answer n p s).1))

theorem takeTurns_reach {sem : ι → Sem σ Op Res ε} {answer : σ → (o : Op) → Except ε (Res o) × σ}
    (h : ∀ i s o, sem i s o (answer s o).1 (answer s o).2) (turns : List (ι × ℕ))
    (c : σ × Pool ι Op Res ε γ) : Reach sem c (takeTurns answer turns c) := by
  induction turns generalizing c with
  | nil => exact .refl
  | cons turn turns ih =>
    obtain ⟨i, n⟩ := turn
    obtain ⟨s, pool⟩ := c
    unfold takeTurns
    cases hp : pool i with
    | none => exact ih _
    | some p => exact (advance_reach i (h i) n hp).trans (ih _)

/-! ## Programs limited to some operations -/

def Uses (allowed : Op → Prop) : Program Op Res ε α → Prop
  | .ret _ => True
  | .op o k => allowed o ∧ ∀ r, (k r).Uses allowed

theorem Uses.bind {allowed : Op → Prop} {p : Program Op Res ε α} {f : α → Program Op Res ε β}
    (h : p.Uses allowed) (hf : ∀ a, (f a).Uses allowed) : (p >>= f).Uses allowed := by
  induction p with
  | ret x =>
    cases x with
    | ok a => exact hf a
    | error e => trivial
  | op o k ih => exact ⟨h.1, fun r => ih r (h.2 r)⟩

theorem Uses.mono {allowed allowed' : Op → Prop} {p : Program Op Res ε α} (h : p.Uses allowed)
    (hsub : ∀ o, allowed o → allowed' o) : p.Uses allowed' := by
  induction p with
  | ret x => trivial
  | op o k ih => exact ⟨hsub o h.1, fun r => ih r (h.2 r)⟩

/-- What is noted of the allowed operations is noted of a program that uses no others. -/
theorem Uses.noted {ω : Type} {sem : Sem σ Op Res ε} {note : σ → (o : Op) → Except ε (Res o) → List ω}
    {allowed : Op → Prop} {P : ω → Prop} (hnote : ∀ s o r, allowed o → ∀ x ∈ note s o r, P x)
    {p p' : Program Op Res ε α} (h : p.Uses allowed) {s s' : σ} {notes : List ω}
    (hr : Noted sem note s p notes s' p') : ∀ x ∈ notes, P x := by
  induction hr with
  | here s p =>
    intro x hx
    cases hx
  | @step s s1 s2 o k r notes p' hs _ ih =>
    intro x hx
    rcases List.mem_append.1 hx with hx | hx
    · exact hnote _ _ _ h.1 x hx
    · refine ih ?_ x hx
      cases r with
      | ok a => exact h.2 a
      | error e => trivial

/-- Where every allowed operation keeps the invariant, the guarantee and the fact
`F`, so does a program that uses no others. -/
theorem Uses.keeping {sem : Sem σ Op Res ε} {I F : σ → Prop} {R G : σ → σ → Prop} {allowed : Op → Prop}
    (hop : ∀ s o r s', allowed o → I s → F s → sem s o r s' → I s' ∧ G s s' ∧ F s')
    (hstable : ∀ s s', F s → R s s' → F s') {p : Program Op Res ε α} (h : p.Uses allowed) {s : σ}
    (hF : F s) : Safe sem I R G (fun _ => F) p s := by
  induction p generalizing s with
  | ret x => exact hF
  | op o k ih =>
    intro s1 hR hI r s2 hs
    obtain ⟨h1, h2, h3⟩ := hop _ _ _ _ h.1 hI (hstable _ _ hF hR) hs
    refine ⟨h1, h2, ?_⟩
    cases r with
    | ok a => exact ih a (h.2 a) h3
    | error e => exact h3

/-- An invariant of all allowed operations is safe in any company. -/
theorem Uses.safe {sem : Sem σ Op Res ε} {I : σ → Prop} {allowed : Op → Prop}
    (hop : ∀ s o r s', allowed o → I s → sem s o r s' → I s') {p : Program Op Res ε α}
    (h : p.Uses allowed) (s : σ) :
    Safe sem I (fun _ _ => True) (fun _ _ => True) (fun _ _ => True) p s :=
  Uses.keeping (F := fun _ => True)
    (fun s o r s' ho hI _ hs => ⟨hop s o r s' ho hI hs, trivial, trivial⟩)
    (fun _ _ _ _ => trivial) h trivial

end

end Program

end Raef
