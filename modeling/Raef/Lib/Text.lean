import Mathlib

/-!
# Text as Python's `str` methods see it

`strip`, `lower` and `upper` of a `String`, with Python's set of white space
(Unicode, not only ASCII).  Two facts carry everything built on top:

    strip (strip s) = strip s                        (strip_strip)
    strip s = s ↔ no white space at either end       (strip_eq_self_iff)
-/

namespace Raef.Text

/-! ## White space and `strip` -/

/-- `str.isspace` of one character: categories `WS`, `B`, `S` and `Zs`. -/
def isSpace (c : Char) : Bool :=
  let n := c.toNat
  (9 ≤ n && n ≤ 13) || (28 ≤ n && n ≤ 32) || n == 0x85 || n == 0xA0 || n == 0x1680 ||
    (0x2000 ≤ n && n ≤ 0x200A) || n == 0x2028 || n == 0x2029 || n == 0x202F || n == 0x205F ||
    n == 0x3000

/-- `strip` on the characters: white space off the front, then off the back. -/
def stripChars (l : List Char) : List Char := (l.dropWhile isSpace).rdropWhile isSpace

def strip (s : String) : String := String.ofList (stripChars s.toList)

/-- No white space at either end. -/
def Trimmed (s : String) : Prop := strip s = s

instance (s : String) : Decidable (Trimmed s) := inferInstanceAs (Decidable (strip s = s))

/-- `not value.strip()`: nothing but white space. -/
def blank (s : String) : Bool := strip s == ""

theorem head_rdropWhile {p : Char → Bool} {l : List Char} (h : l.rdropWhile p ≠ []) :
    (l.rdropWhile p).head h = l.head (by rintro rfl; simp [List.rdropWhile] at h) := by
  obtain ⟨t, ht⟩ := List.rdropWhile_prefix p l
  have e : ∀ (a b : List Char) (ha : a ≠ []) (hb : b ≠ []), a ++ t = b → a.head ha = b.head hb := by
    rintro a _ ha hb rfl
    rw [List.head_append_of_ne_nil ha]
  exact e _ _ h _ ht

theorem stripChars_stripChars (l : List Char) : stripChars (stripChars l) = stripChars l := by
  have hfront : (stripChars l).dropWhile isSpace = stripChars l := by
    rw [List.dropWhile_eq_self_iff]
    intro hl
    have hne : stripChars l ≠ [] := List.length_pos_iff.1 hl
    have hd : l.dropWhile isSpace ≠ [] := by
      rintro h
      exact hne (by simp [stripChars, h, List.rdropWhile])
    have h0 := List.head_dropWhile_not isSpace (l := l) hd
    rw [← List.head_eq_getElem hne]
    unfold stripChars at hne ⊢
    rw [head_rdropWhile hne]
    simpa using h0
  have hunf : stripChars (stripChars l) = ((stripChars l).dropWhile isSpace).rdropWhile isSpace := rfl
  rw [hunf, hfront]
  exact List.rdropWhile_idempotent isSpace _

/-- Stripping is idempotent, so a stored text that was stripped once is a fixed point. -/
@[simp] theorem strip_strip (s : String) : strip (strip s) = strip s := by
  simp [strip, stripChars_stripChars]

theorem trimmed_strip (s : String) : Trimmed (strip s) := strip_strip s

theorem strip_eq_self_iff (s : String) :
    strip s = s ↔ (∀ c ∈ s.toList.head?, isSpace c = false) ∧ ∀ c ∈ s.toList.getLast?, isSpace c = false := by
  have key : ∀ l : List Char, stripChars l = l ↔
      (∀ c ∈ l.head?, isSpace c = false) ∧ ∀ c ∈ l.getLast?, isSpace c = false := by
    intro l
    constructor
    · intro h
      have hlen : (l.dropWhile isSpace).length = l.length := by
        refine Nat.le_antisymm (List.dropWhile_suffix isSpace).length_le ?_
        conv_lhs => rw [← h]
        exact (List.rdropWhile_prefix isSpace _).length_le
      have hd : l.dropWhile isSpace = l := (List.dropWhile_suffix isSpace).eq_of_length hlen
      have hr : l.rdropWhile isSpace = l := by
        unfold stripChars at h
        rwa [hd] at h
      rw [List.dropWhile_eq_self_iff] at hd
      rw [List.rdropWhile_eq_self_iff] at hr
      refine ⟨fun c hc => ?_, fun c hc => ?_⟩
      · obtain ⟨t, rfl⟩ := List.head?_eq_some_iff.1 hc
        have h0 := hd (by simp)
        simpa using h0
      · have hne : l ≠ [] := by rintro rfl; simp at hc
        rw [List.getLast?_eq_some_getLast hne] at hc
        simp only [Option.mem_def, Option.some.injEq] at hc
        simpa [hc] using hr hne
    · rintro ⟨h1, h2⟩
      have hd : l.dropWhile isSpace = l := by
        rw [List.dropWhile_eq_self_iff]
        intro hl
        simpa using h1 l[0] (by simp [List.head?_eq_getElem?, hl])
      unfold stripChars
      rw [hd, List.rdropWhile_eq_self_iff]
      intro hne
      simpa using h2 _ (by rw [List.getLast?_eq_some_getLast hne]; rfl)
  rw [← key]
  unfold strip
  constructor
  · intro h
    have := congrArg String.toList h
    simpa using this
  · intro h
    rw [h]
    simp

theorem trimmed_of_forall {s : String} (h : ∀ c ∈ s.toList, isSpace c = false) : Trimmed s :=
  (strip_eq_self_iff s).2 ⟨fun c hc => h c (List.mem_of_mem_head? hc),
    fun c hc => h c (List.mem_of_mem_getLast? hc)⟩

theorem not_blank_of_trimmed {s : String} (h : Trimmed s) (hne : s ≠ "") : blank s = false := by
  unfold Trimmed at h
  simp [blank, h, hne]

@[simp] theorem blank_strip (s : String) : blank (strip s) = blank s := by simp [blank]

/-! ## `lower` and `upper`

Only comparisons with ASCII keywords depend on these.  Outside ASCII, one
character lowers to an ASCII letter (the Kelvin sign) and two raise to one. -/

def lowerChar (c : Char) : Char :=
  if 'A' ≤ c ∧ c ≤ 'Z' then Char.ofNat (c.toNat + 32)
  else if c.toNat = 0x212A then 'k'
  else c

def upperChar (c : Char) : Char :=
  if 'a' ≤ c ∧ c ≤ 'z' then Char.ofNat (c.toNat - 32)
  else if c.toNat = 0x131 then 'I'
  else if c.toNat = 0x17F then 'S'
  else c

def lower (s : String) : String := String.ofList (s.toList.map lowerChar)

def upper (s : String) : String := String.ofList (s.toList.map upperChar)

example : strip "\t plan item \n" = "plan item" := by decide

end Raef.Text
