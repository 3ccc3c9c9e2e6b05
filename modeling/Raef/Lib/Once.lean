import Mathlib

/-!
# Acting once per key

A list of occasions, each with a key.  One acts only where its key was not seen before, and makes
its key seen whether or not the action succeeds.

    of the occasions with a key only the first acts, if its key was new   (Once.filter_called)
    exactly one action under a key is good ↔ the key was new, and no
      action under it is bad                                              (Once.length_good_eq_one_iff)
-/

namespace Raef

variable {κ α : Type} [DecidableEq κ]

/-- The keys seen after one more. -/
def seeKey (seen : List κ) (k : κ) : List κ := if k ∈ seen then seen else seen ++ [k]

def seeKeys (key : α → κ) (seen : List κ) (l : List α) : List κ := l.foldl (fun seen a => seeKey seen (key a)) seen

/-- What was called is what came first under its key. -/
def Once (key : α → κ) (called : α → Bool) : List κ → List α → Prop
  | _, [] => True
  | seen, a :: l => called a = decide (key a ∉ seen) ∧ Once key called (seeKey seen (key a)) l

section
variable {key : α → κ} {called : α → Bool} {seen : List κ} {l : List α}

theorem mem_seeKey {k k' : κ} : k' ∈ seeKey seen k ↔ k' ∈ seen ∨ k' = k := by
  unfold seeKey
  split
  · next h =>
    constructor
    · exact .inl
    · rintro (h' | rfl)
      · exact h'
      · exact h
  · simp

theorem seeKeys_append {l' : List α} : seeKeys key seen (l ++ l') = seeKeys key (seeKeys key seen l) l' :=
  List.foldl_append

theorem once_append {l' : List α} :
    Once key called seen (l ++ l') ↔ Once key called seen l ∧ Once key called (seeKeys key seen l) l' := by
  induction l generalizing seen with
  | nil =>
    show Once key called seen l' ↔ True ∧ Once key called seen l'
    rw [true_and]
  | cons a l ih =>
    show (_ ∧ Once key called _ (l ++ l')) ↔ (_ ∧ Once key called _ l) ∧ Once key called (seeKeys key _ l) l'
    rw [ih, and_assoc]

/-- Of the occasions with a key only the first acts, and only if the key was not seen before. -/
theorem Once.filter_called (h : Once key called seen l) (k : κ) :
    (l.filter fun a => called a && decide (key a = k)) =
      if k ∈ seen then [] else (l.find? fun a => decide (key a = k)).toList := by
  induction l generalizing seen with
  | nil => simp
  | cons a l ih =>
    obtain ⟨hcalled, hrest⟩ := h
    have htail := ih hrest
    by_cases hk : key a = k
    · subst hk
      rw [if_pos (mem_seeKey.2 (.inr rfl))] at htail
      rw [List.filter_cons, htail, List.find?_cons_of_pos (by simp), hcalled]
      by_cases hseen : key a ∈ seen
      · simp [hseen]
      · simp [hseen]
    · rw [List.filter_cons_of_neg (by simp [hk]), htail, List.find?_cons_of_neg (by simpa using hk)]
      by_cases hseen : k ∈ seen
      · rw [if_pos (mem_seeKey.2 (.inl hseen)), if_pos hseen]
      · rw [if_neg (fun hmem => (mem_seeKey.1 hmem).elim hseen fun he => hk he.symm), if_neg hseen]

/-- Of the actions under a key exactly one is good if and only if the key was new and every action
under it is good: the first occasion is the only one to act. -/
theorem Once.length_good_eq_one_iff (h : Once key called seen l) (good : α → Bool) {k : κ}
    (hk : ∃ a ∈ l, key a = k) :
    (l.filter fun a => good a && (called a && decide (key a = k))).length = 1 ↔
      k ∉ seen ∧ ∀ a ∈ l, key a = k → called a = true → good a = true := by
  have hacts := h.filter_called k
  rw [← List.filter_filter, hacts]
  by_cases hseen : k ∈ seen
  · simp [hseen]
  rw [if_neg hseen]
  cases hfind : l.find? (fun a => decide (key a = k)) with
  | none =>
    obtain ⟨a, ha, hkey⟩ := hk
    exact absurd hkey (by simpa using List.find?_eq_none.1 hfind a ha)
  | some first =>
    rw [if_neg hseen, hfind] at hacts
    -- what acts under the key is the first occasion
    have hfirst : ∀ a, (a ∈ l ∧ called a = true ∧ key a = k) ↔ a = first := by
      intro a
      have hmem : a ∈ (l.filter fun a => called a && decide (key a = k)) ↔ a = first := by
        rw [hacts]
        exact List.mem_singleton
      simpa using hmem
    show ([first].filter good).length = 1 ↔ _
    constructor
    · intro hone
      have hgood : good first = true := by
        by_contra hbad
        rw [List.filter_cons_of_neg hbad] at hone
        cases hone
      refine ⟨hseen, fun a ha hkey hcalled => ?_⟩
      rw [(hfirst a).1 ⟨ha, hcalled, hkey⟩]
      exact hgood
    · rintro ⟨-, hall⟩
      obtain ⟨hmem, hcalled, hkey⟩ := (hfirst first).2 rfl
      rw [List.filter_cons_of_pos (hall first hmem hkey hcalled)]
      rfl

end

end Raef
