import Mathlib

/-!
# Reading a growing log page by page

The entries of a log carry increasing keys.  A reader asks for at most `limit` entries after the
last key it has seen, again and again, and stops at a page with fewer.  Between two pages the
log may grow at its end.

    what was read is a prefix of the log, the cursor its last key     (Pager.Along)
    a page keeps that, and so does growth                              (Along.turn, Along.grow)
    a short page ends the loop with the whole log                      (Along.complete)
    a log at rest is read to its end                                   (Along.finishes)
-/

namespace Raef

/-- A reader between two pages. -/
structure Pager (α : Type) where
  after : Option ℕ := none
  seen : List α := []
  finished : Bool := false

namespace Pager

variable {α : Type}

/-- The entries after a key. -/
def beyond (key : α → ℕ) (after : Option ℕ) (log : List α) : List α :=
  log.filter fun e => match after with
    | some n => decide (n < key e)
    | none => true

/-- The reader takes a page. -/
def take (key : α → ℕ) (limit : ℕ) (p : Pager α) (page : List α) : Pager α :=
  { after := match page.getLast? with
      | some e => some (key e)
      | none => p.after
    seen := p.seen ++ page
    finished := page.length < limit }

/-- One more page, when the loop is not over. -/
def turn (key : α → ℕ) (limit : ℕ) (log : List α) (p : Pager α) : Pager α :=
  if p.finished then p else p.take key limit ((beyond key p.after log).take limit)

/-- What was read is a prefix of the log, and the cursor is its last key. -/
structure Along (key : α → ℕ) (log : List α) (p : Pager α) : Prop where
  before : p.seen <+: log
  cursor : p.after = p.seen.getLast?.map key

variable {key : α → ℕ} {limit : ℕ} {log log' : List α} {p : Pager α}

theorem along_start (key : α → ℕ) (log : List α) : Along key log {} := ⟨List.nil_prefix, rfl⟩

theorem Along.grow (h : Along key log p) (hgrow : log <+: log') : Along key log' p :=
  ⟨h.before.trans hgrow, h.cursor⟩

/-- The entries after the cursor are those not read. -/
theorem Along.beyond_eq (h : Along key log p) (hord : log.Pairwise fun a b => key a < key b) {rest : List α}
    (hrest : log = p.seen ++ rest) : beyond key p.after log = rest := by
  subst hrest
  obtain ⟨hseen, -, hcross⟩ := List.pairwise_append.1 hord
  unfold beyond
  rw [h.cursor, List.filter_append]
  rcases List.eq_nil_or_concat p.seen with hnil | ⟨front, last, hlast⟩
  · rw [hnil]
    simp
  · rw [hlast, List.concat_eq_append] at hseen hcross ⊢
    rw [List.getLast?_append_of_ne_nil _ (by simp)]
    have hread : (front ++ [last]).filter (fun e => decide (key last < key e)) = [] := by
      refine List.filter_eq_nil_iff.2 fun e he => ?_
      have hle : key e ≤ key last := by
        rcases List.mem_append.1 he with he | he
        · exact le_of_lt ((List.pairwise_append.1 hseen).2.2 e he last List.mem_cons_self)
        · rw [List.mem_singleton.1 he]
      simpa using hle
    have hunread : rest.filter (fun e => decide (key last < key e)) = rest := by
      refine List.filter_eq_self.2 fun e he => ?_
      exact decide_eq_true (hcross last (by simp) e he)
    show (front ++ [last]).filter (fun e => decide (key last < key e)) ++
      rest.filter (fun e => decide (key last < key e)) = rest
    rw [hread, hunread, List.nil_append]

/-- A page of the log keeps the reader along it. -/
theorem Along.turn (h : Along key log p) (hord : log.Pairwise fun a b => key a < key b) (limit : ℕ) :
    Along key log (p.turn key limit log) := by
  unfold Pager.turn
  split
  · exact h
  · obtain ⟨rest, hrest⟩ := h.before
    rw [h.beyond_eq hord hrest.symm]
    refine ⟨?_, ?_⟩
    · show p.seen ++ rest.take limit <+: log
      rw [← hrest]
      exact (List.prefix_append_right_inj p.seen).2 (List.take_prefix limit rest)
    · unfold Pager.take
      dsimp only
      rw [List.getLast?_append]
      cases (rest.take limit).getLast? with
      | none => exact h.cursor
      | some e => rfl

/-- A page with fewer entries is the end of the log. -/
theorem Along.complete (h : Along key log p) (hord : log.Pairwise fun a b => key a < key b)
    (hopen : p.finished = false) (hend : (p.turn key limit log).finished = true) :
    (p.turn key limit log).seen = log := by
  obtain ⟨rest, hrest⟩ := h.before
  unfold Pager.turn at hend ⊢
  rw [if_neg (by simp [hopen]), h.beyond_eq hord hrest.symm] at hend ⊢
  have hshort : (rest.take limit).length < limit := of_decide_eq_true hend
  have hall : rest.take limit = rest := by
    rw [List.length_take] at hshort
    exact List.take_of_length_le (by omega)
  show p.seen ++ rest.take limit = log
  rw [hall, hrest]

/-- A page of full length brings the reader forward. -/
theorem Along.progress (h : Along key log p) (hord : log.Pairwise fun a b => key a < key b)
    (hopen : p.finished = false) (hnext : (p.turn key limit log).finished = false) :
    (p.turn key limit log).seen.length = p.seen.length + limit := by
  obtain ⟨rest, hrest⟩ := h.before
  unfold Pager.turn at hnext ⊢
  rw [if_neg (by simp [hopen]), h.beyond_eq hord hrest.symm] at hnext ⊢
  have hfull : ¬ (rest.take limit).length < limit := of_decide_eq_false hnext
  show (p.seen ++ rest.take limit).length = _
  rw [List.length_append]
  rw [List.length_take] at hfull ⊢
  omega

/-- **A log at rest is read to its end**, in at most one page more than it has entries. -/
theorem Along.finishes (h : Along key log p) (hord : log.Pairwise fun a b => key a < key b)
    (hlimit : 0 < limit) (hopen : p.finished = false) :
    ∃ n ≤ log.length + 1, ((Pager.turn key limit log)^[n] p).finished = true ∧
      ((Pager.turn key limit log)^[n] p).seen = log := by
  have hrun : ∀ m (p : Pager α), Along key log p → p.finished = false → log.length - p.seen.length ≤ m →
      ∃ n ≤ m + 1, ((Pager.turn key limit log)^[n] p).finished = true ∧
        ((Pager.turn key limit log)^[n] p).seen = log := by
    intro m
    induction m with
    | zero =>
      intro p hp hopen hm
      -- everything is read: the next page is empty
      cases hnext : (p.turn key limit log).finished with
      | true => exact ⟨1, le_refl 1, hnext, hp.complete hord hopen hnext⟩
      | false =>
        have hmore := hp.progress hord hopen hnext
        have hlen := (hp.turn hord limit).before.length_le
        omega
    | succ m ih =>
      intro p hp hopen hm
      cases hnext : (p.turn key limit log).finished with
      | true => exact ⟨1, by omega, hnext, hp.complete hord hopen hnext⟩
      | false =>
        have hmore := hp.progress hord hopen hnext
        obtain ⟨n, hn, hfin, hseen⟩ := ih _ (hp.turn hord limit) hnext (by omega)
        refine ⟨n + 1, by omega, ?_, ?_⟩
        · rw [Function.iterate_succ_apply]
          exact hfin
        · rw [Function.iterate_succ_apply]
          exact hseen
  obtain ⟨n, hn, hfin, hseen⟩ := hrun (log.length - p.seen.length) p h hopen (le_refl _)
  exact ⟨n, by omega, hfin, hseen⟩

end Pager

end Raef
