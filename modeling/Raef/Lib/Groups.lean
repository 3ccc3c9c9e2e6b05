import Mathlib

/-!
# Grouping in order of appearance

A list filed under the keys of its entries, as a dictionary of lists built from front to back:
the groups stand in the order in which their keys first appear, each with its entries in order.

    nothing is lost: the groups together are the list       (flatMap_groupOn_perm)
    a group is what the list has under its key              (mem_groupOn)
    no key has two groups                                    (nodup_groupOn)

Children are filed under their parents by a relation that gives each at most one: filed under
all of some parents, they are the children that have one of these (`flatMap_filter_perm`).
-/

namespace Raef

variable {κ α : Type} [DecidableEq κ]

/-- Append to the group of the key. -/
def fileUnder (k : κ) (a : α) : List (κ × List α) → List (κ × List α)
  | [] => [(k, [a])]
  | g :: groups => if g.1 = k then (k, g.2 ++ [a]) :: groups else g :: fileUnder k a groups

def groupOn (key : α → κ) (l : List α) : List (κ × List α) :=
  l.foldl (fun groups a => fileUnder (key a) a groups) []

theorem mem_keys_fileUnder {k k' : κ} {a : α} {groups : List (κ × List α)} :
    k' ∈ (fileUnder k a groups).map Prod.fst ↔ k' = k ∨ k' ∈ groups.map Prod.fst := by
  induction groups with
  | nil => simp [fileUnder]
  | cons g groups ih =>
    unfold fileUnder
    split
    · next hk =>
      subst hk
      simp
    · rw [List.map_cons, List.mem_cons, ih, List.map_cons, List.mem_cons]
      tauto

theorem nodup_fileUnder {k : κ} {a : α} {groups : List (κ × List α)} (h : (groups.map Prod.fst).Nodup) :
    ((fileUnder k a groups).map Prod.fst).Nodup := by
  induction groups with
  | nil => simp [fileUnder]
  | cons g groups ih =>
    obtain ⟨hnotin, hrest⟩ := List.nodup_cons.1 h
    unfold fileUnder
    split
    · next hk =>
      subst hk
      exact h
    · next hk =>
      refine List.nodup_cons.2 ⟨fun hmem => ?_, ih hrest⟩
      rcases mem_keys_fileUnder.1 hmem with hkey | hmem
      · exact hk hkey
      · exact hnotin hmem

/-- The group of the key has one entry more, the others are as they were. -/
theorem mem_fileUnder {k : κ} {a : α} {groups : List (κ × List α)} (h : (groups.map Prod.fst).Nodup)
    {g : κ × List α} (hg : g ∈ fileUnder k a groups) :
    (g.1 ≠ k ∧ g ∈ groups) ∨ (g.1 = k ∧ ((k ∉ groups.map Prod.fst ∧ g.2 = [a]) ∨
      ∃ l, (k, l) ∈ groups ∧ g.2 = l ++ [a])) := by
  induction groups with
  | nil =>
    cases List.mem_singleton.1 hg
    exact .inr ⟨rfl, .inl ⟨List.not_mem_nil, rfl⟩⟩
  | cons x groups ih =>
    obtain ⟨hnotin, hrest⟩ := List.nodup_cons.1 h
    unfold fileUnder at hg
    split at hg
    · next hk =>
      subst hk
      rcases List.mem_cons.1 hg with rfl | hg
      · exact .inr ⟨rfl, .inr ⟨x.2, List.mem_cons_self, rfl⟩⟩
      · refine .inl ⟨fun hkey => hnotin (hkey ▸ List.mem_map_of_mem hg), List.mem_cons_of_mem _ hg⟩
    · next hk =>
      rcases List.mem_cons.1 hg with rfl | hg
      · exact .inl ⟨hk, List.mem_cons_self⟩
      · rcases ih hrest hg with ⟨hne, hmem⟩ | ⟨hkey, ⟨hnew, hsingle⟩ | ⟨l, hl, hlast⟩⟩
        · exact .inl ⟨hne, List.mem_cons_of_mem _ hmem⟩
        · refine .inr ⟨hkey, .inl ⟨fun hmem => ?_, hsingle⟩⟩
          rcases List.mem_cons.1 hmem with hx | hmem
          · exact hk hx.symm
          · exact hnew hmem
        · exact .inr ⟨hkey, .inr ⟨l, List.mem_cons_of_mem _ hl, hlast⟩⟩

theorem flatMap_fileUnder_perm (k : κ) (a : α) (groups : List (κ × List α)) :
    ((fileUnder k a groups).flatMap Prod.snd).Perm (groups.flatMap Prod.snd ++ [a]) := by
  induction groups with
  | nil => exact .refl _
  | cons g groups ih =>
    unfold fileUnder
    split
    · rw [List.flatMap_cons, List.flatMap_cons, List.append_assoc, List.append_assoc]
      exact (List.perm_append_singleton a _).symm.append_left g.2
    · rw [List.flatMap_cons, List.flatMap_cons, List.append_assoc]
      exact ih.append_left g.2

section
variable (key : α → κ) (l : List α)

theorem groupOn_concat (a : α) : groupOn key (l ++ [a]) = fileUnder (key a) a (groupOn key l) := by
  unfold groupOn
  rw [List.foldl_append]
  rfl

theorem nodup_groupOn : ((groupOn key l).map Prod.fst).Nodup := by
  induction l using List.reverseRecOn with
  | nil => exact List.nodup_nil
  | append_singleton l a ih =>
    rw [groupOn_concat]
    exact nodup_fileUnder ih

theorem keys_groupOn (k : κ) : k ∈ (groupOn key l).map Prod.fst ↔ ∃ a ∈ l, key a = k := by
  induction l using List.reverseRecOn with
  | nil => simp [groupOn]
  | append_singleton l a ih =>
    rw [groupOn_concat, mem_keys_fileUnder, ih]
    simp only [List.mem_append, List.mem_singleton]
    constructor
    · rintro (rfl | ⟨b, hb, hkey⟩)
      · exact ⟨a, .inr rfl, rfl⟩
      · exact ⟨b, .inl hb, hkey⟩
    · rintro ⟨b, hb | rfl, hkey⟩
      · exact .inr ⟨b, hb, hkey⟩
      · exact .inl hkey.symm

/-- A group is what the list has under its key, in order. -/
theorem mem_groupOn {g : κ × List α} (hg : g ∈ groupOn key l) : g.2 = l.filter fun a => key a = g.1 := by
  induction l using List.reverseRecOn generalizing g with
  | nil => cases hg
  | append_singleton l a ih =>
    rw [groupOn_concat] at hg
    rw [List.filter_append]
    rcases mem_fileUnder (nodup_groupOn key l) hg with ⟨hne, hmem⟩ | ⟨hkey, ⟨hnew, hsingle⟩ | ⟨l', hl', hlast⟩⟩
    · rw [ih hmem, List.filter_cons_of_neg (by simpa using Ne.symm hne), List.filter_nil, List.append_nil]
    · have hnone : l.filter (fun b => key b = g.1) = [] := by
        refine List.filter_eq_nil_iff.2 fun b hb => ?_
        intro hb'
        exact hnew ((keys_groupOn key l _).2 ⟨b, hb, (of_decide_eq_true hb').trans hkey⟩)
      rw [hsingle, hnone, List.filter_cons_of_pos (by simpa using hkey.symm)]
      rfl
    · have hbefore := ih hl'
      dsimp only at hbefore
      rw [hlast, hbefore, hkey, List.filter_cons_of_pos (by simp)]
      rfl

/-- **Grouping loses nothing.** -/
theorem flatMap_groupOn_perm : ((groupOn key l).flatMap Prod.snd).Perm l := by
  induction l using List.reverseRecOn with
  | nil => exact .refl _
  | append_singleton l a ih =>
    rw [groupOn_concat]
    exact (flatMap_fileUnder_perm _ a _).trans (ih.append_right [a])

end

/-! ## Children of parents -/

/-- Two parts of a list that have nothing in common. -/
theorem filter_or_perm {p q : α → Bool} {l : List α} (h : ∀ x ∈ l, p x = true → q x = false) :
    (l.filter p ++ l.filter q).Perm (l.filter fun x => p x || q x) := by
  induction l with
  | nil => exact .refl _
  | cons x l ih =>
    have hrest := ih fun y hy => h y (List.mem_cons_of_mem _ hy)
    have hx := h x List.mem_cons_self
    cases hp : p x with
    | true =>
      rw [List.filter_cons_of_pos hp, List.filter_cons_of_neg (by simp [hx hp]),
        List.filter_cons_of_pos (by simp [hp]), List.cons_append]
      exact hrest.cons x
    | false =>
      cases hq : q x with
      | true =>
        rw [List.filter_cons_of_neg (by simp [hp]), List.filter_cons_of_pos hq,
          List.filter_cons_of_pos (by simp [hq])]
        exact List.perm_middle.trans (hrest.cons x)
      | false =>
        rw [List.filter_cons_of_neg (by simp [hp]), List.filter_cons_of_neg (by simp [hq]),
          List.filter_cons_of_neg (by simp [hp, hq])]
        exact hrest

theorem flatMap_filter_perm {ι : Type} {under : α → ι → Bool}
    (hone : ∀ x i j, under x i = true → under x j = true → i = j) {ids : List ι} (hids : ids.Nodup)
    (l : List α) :
    (ids.flatMap fun i => l.filter fun x => under x i).Perm (l.filter fun x => ids.any (under x)) := by
  induction ids with
  | nil =>
    have hnone : l.filter (fun _ => false) = [] := List.filter_eq_nil_iff.2 fun _ _ => by simp
    exact .of_eq hnone.symm
  | cons i ids ih =>
    obtain ⟨hnotin, hids⟩ := List.nodup_cons.1 hids
    rw [List.flatMap_cons]
    refine ((ih hids).append_left _).trans ((filter_or_perm fun x _ hx => ?_).trans (.of_eq ?_))
    · cases hany : ids.any (under x) with
      | false => rfl
      | true =>
        obtain ⟨j, hj, hxj⟩ := List.any_eq_true.1 hany
        exact absurd (hone x i j hx hxj ▸ hj) hnotin
    · rfl

end Raef
