import Raef.Model.PlanText
import Raef.Proofs.PlanRows
import Raef.Proofs.PlanRuns

/-!
# What the parser of plan texts keeps

A line reads as its markers followed by its text, in one way (`Reads`).  Every line is filed once: a
header's own text under its keyword, an entry or a plain line under the section it stands in.  The goal
holds one text, so an entry of the goal section, and a line after the goal's text, are steps.

    the parser reads a line as it reads                                  (reads_iff)
    the texts of the lines are the texts that are filed, in order        (filed_texts)
    the accumulators of the parser are what is filed under each section  (parse_under)
    the schema, and the plan that is created from it                     (plan_text_kept)

The parser drops a text on the line of `steps:`, `constraints:` or `verification:`, and the goal when
another `goal:` follows; `Clear` leaves these out.
-/

namespace Raef

open Text Txn

/-! ## What a line reads as -/

def PlanSection.keyword : PlanSection → String
  | .goal => "goal"
  | .steps => "steps"
  | .constraints => "constraints"
  | .verification => "verification"

/-- The line is the keyword of the section, in any case, then a colon, then the rest. -/
def HeaderOf (keyword : PlanSection) (line : String) (rest : List Char) : Prop :=
  ∃ word, line.toList = word ++ ':' :: rest ∧ lower (String.ofList word) = keyword.keyword

/-- Digits, a point or a bracket, and white space. -/
def NumberMark (mark : List Char) : Prop :=
  ∃ digits point spaces, mark = digits ++ point :: spaces ∧ (digits ≠ [] ∧ ∀ c ∈ digits, isDecimal c = true) ∧
    (point = '.' ∨ point = ')') ∧ (spaces ≠ [] ∧ ∀ c ∈ spaces, isSpace c = true)

def BulletMark (mark : List Char) : Prop := mark = ['-', ' '] ∨ mark = ['*', ' ']

/-- What a line reads as: a header with its rest, an entry after a number, a bullet or both, which are as long
as they can be, or the line itself. -/
inductive Reads (line : String) : PlanLine → Prop
  | header {keyword : PlanSection} {rest : List Char} (begins : HeaderOf keyword line rest) :
      Reads line (.header keyword (strip (String.ofList rest)))
  | marked {number bullet text : List Char} (entry : line.toList = number ++ (bullet ++ text))
      (noHeader : ∀ keyword rest, ¬ HeaderOf keyword line rest) (numbered : number = [] ∨ NumberMark number)
      (bulleted : bullet = [] ∨ BulletMark bullet) (some : number ++ bullet ≠ [])
      (whole : bullet = [] → (∀ c ∈ text.head?, isSpace c = false) ∧
        ∀ mark rest, text = mark ++ rest → ¬ BulletMark mark) :
      Reads line (.marked (strip (String.ofList text)))
  | plain (noHeader : ∀ keyword rest, ¬ HeaderOf keyword line rest)
      (noMark : ∀ mark rest, line.toList = mark ++ rest → ¬ NumberMark mark ∧ ¬ BulletMark mark) :
      Reads line (.plain line)

/-! ## Where a line belongs -/

/-- The text of a line, without one keyword or its list markers. -/
def PlanLine.text : PlanLine → String
  | .header _ rest => rest
  | .marked itemText => itemText
  | .plain text => text

/-- Where the reader is: the section, and whether the goal has been found. -/
structure PlanPlace where
  inside : PlanSection := .steps
  goalFound : Bool := false

namespace PlanPlace

variable (q : PlanPlace)

/-- The section a line is filed under. -/
def files : PlanLine → PlanSection
  | .header keyword _ => keyword
  | .marked _ => if q.inside = .goal then .steps else q.inside
  | .plain _ => if q.inside = .goal ∧ q.goalFound then .steps else q.inside

def next (line : PlanLine) : PlanPlace where
  inside := match line with
    | .header keyword _ => keyword
    | .marked _ | .plain _ => q.inside
  goalFound := q.goalFound || (q.files line = .goal && line.text ≠ "")

/-- The line is no second goal, and no other header with a text of its own. -/
def ClearAt : PlanLine → Prop
  | .header .goal _ => q.goalFound = false
  | .header _ rest => rest = ""
  | .marked _ | .plain _ => True

end PlanPlace

/-- Every line with its section; a line without text is not filed. -/
def filedLines (q : PlanPlace) : List PlanLine → List (PlanSection × String)
  | [] => []
  | line :: lines =>
    if line.text = "" then filedLines (q.next line) lines
    else (q.files line, line.text) :: filedLines (q.next line) lines

def Clear (q : PlanPlace) : List PlanLine → Prop
  | [] => True
  | line :: lines => q.ClearAt line ∧ Clear (q.next line) lines

/-- The texts filed under a section, in order. -/
def filedUnder (keyword : PlanSection) (entries : List (PlanSection × String)) : List String :=
  (entries.filter fun e => e.1 = keyword).map Prod.snd

/-- What the parser has collected for a section. -/
def PlanParse.under (p : PlanParse) : PlanSection → List String
  | .goal => if p.goal = "" then [] else [p.goal]
  | .steps => p.steps
  | .constraints => p.constraints
  | .verification => p.verification

/-- The schema has what is filed, under each section, and the texts of the lines are what is filed. -/
structure PlanSchema.KeepsLines (schema : PlanSchema) (lines : List PlanLine) : Prop where
  texts : (filedLines {} lines).map Prod.snd = (lines.map PlanLine.text).filter fun text => text ≠ ""
  goal : (if schema.goal = "" then [] else [schema.goal]) = filedUnder .goal (filedLines {} lines)
  steps : schema.steps.map PlanStep.title = filedUnder .steps (filedLines {} lines)
  constraints : schema.constraints = filedUnder .constraints (filedLines {} lines)
  verification : schema.verification = filedUnder .verification (filedLines {} lines)

/-! ## Reading -/

section
variable {line : String} {l text rest : List Char} {keyword : PlanSection}

theorem lowerChar_colon {c : Char} : lowerChar c = ':' ↔ c = ':' := by
  constructor
  · intro h
    unfold lowerChar at h
    split at h
    · next hupper =>
      have hle : 65 ≤ c.toNat ∧ c.toNat ≤ 90 := ⟨UInt32.le_iff_toNat_le.1 hupper.1, UInt32.le_iff_toNat_le.1 hupper.2⟩
      have hnat := congrArg Char.toNat h
      rw [Char.toNat_ofNat, if_pos (by unfold Nat.isValidChar; omega)] at hnat
      have : (':' : Char).toNat = 58 := rfl
      omega
    · split at h
      · cases h
      · exact h
  · rintro rfl
    decide

/-- A keyword has no colon, in any case. -/
theorem HeaderOf.no_colon {word : List Char} (h : lower (String.ofList word) = keyword.keyword) :
    ∀ c ∈ word, c ≠ ':' := by
  rintro c hc rfl
  have hmem : ':' ∈ (lower (String.ofList word)).toList := by
    unfold lower
    rw [String.toList_ofList, String.toList_ofList]
    exact List.mem_map.2 ⟨':', hc, by decide⟩
  rw [h] at hmem
  cases keyword <;> exact absurd hmem (by decide)

theorem HeaderOf.afterColon (h : HeaderOf keyword line rest) :
    afterColon line.toList = strip (String.ofList rest) := by
  obtain ⟨word, hline, hword⟩ := h
  have hdrop : line.toList.dropWhile (· ≠ ':') = ':' :: rest := by
    rw [hline, List.dropWhile_append_of_pos fun c hc => by simpa using HeaderOf.no_colon hword c hc]
    simp
  unfold Raef.afterColon
  rw [hdrop]
  rfl

/-- The rest is what follows the first colon. -/
theorem HeaderOf.takeWhile (h : HeaderOf keyword line rest) :
    lower (String.ofList (line.toList.takeWhile (· ≠ ':'))) = keyword.keyword := by
  obtain ⟨word, hline, hword⟩ := h
  have htake : line.toList.takeWhile (· ≠ ':') = word := by
    rw [hline, List.takeWhile_append_of_pos fun c hc => by simpa using HeaderOf.no_colon hword c hc]
    simp
  rw [htake, hword]

theorem headerOf_iff : (∃ rest, HeaderOf keyword line rest) ↔
    (keyword.keyword.toList ++ [':']).isPrefixOf (lower line).toList = true := by
  have hlower : (lower line).toList = line.toList.map lowerChar := String.toList_ofList
  rw [List.isPrefixOf_iff_prefix, hlower]
  constructor
  · rintro ⟨rest, word, hline, hword⟩
    refine ⟨rest.map lowerChar, ?_⟩
    have hchars : keyword.keyword.toList = word.map lowerChar := by
      rw [← hword]
      unfold lower
      rw [String.toList_ofList, String.toList_ofList]
    rw [hline, hchars, List.append_assoc, List.map_append, List.map_cons, lowerChar_colon.2 rfl]
    rfl
  · rintro ⟨tail, htail⟩
    obtain ⟨front, rest, hline, hfront, -⟩ := List.map_eq_append_iff.1 htail.symm
    obtain ⟨word, last, rfl, hword, hlast⟩ := List.map_eq_append_iff.1 hfront
    obtain ⟨c, rfl, hc⟩ := List.map_eq_singleton_iff.1 hlast
    obtain rfl : c = ':' := lowerChar_colon.1 hc
    refine ⟨rest, word, by rw [hline]; simp, ?_⟩
    unfold lower
    rw [String.toList_ofList, hword, String.ofList_toList]

theorem headerSection_iff : headerSection line = some keyword ↔ ∃ rest, HeaderOf keyword line rest := by
  have hunique : ∀ {k k' : PlanSection}, (∃ rest, HeaderOf k line rest) → (∃ rest, HeaderOf k' line rest) → k = k' := by
    rintro k k' ⟨rest, h⟩ ⟨rest', h'⟩
    have hword := h.takeWhile.symm.trans h'.takeWhile
    cases k <;> cases k' <;> first | rfl | exact absurd hword (by decide)
  have hkeywords : ∀ e ∈ planKeywords, e.1.toList = e.2.keyword.toList ++ [':'] := by decide +kernel
  have hall : ∀ k : PlanSection, (k.keyword ++ ":", k) ∈ planKeywords := by
    intro k
    cases k <;> decide +kernel
  unfold headerSection
  rw [Option.map_eq_some_iff]
  constructor
  · rintro ⟨e, hfind, rfl⟩
    have hprefix := List.find?_some hfind
    rw [hkeywords e (List.mem_of_find?_eq_some hfind)] at hprefix
    exact headerOf_iff.2 hprefix
  · intro hheader
    have hprefix := headerOf_iff.1 hheader
    have hfound : (planKeywords.find? fun e => e.1.toList.isPrefixOf (lower line).toList).isSome := by
      refine List.find?_isSome.2 ⟨_, hall keyword, ?_⟩
      rw [hkeywords _ (hall keyword)]
      exact hprefix
    obtain ⟨e, hfind⟩ := Option.isSome_iff_exists.1 hfound
    have hprefix' := List.find?_some hfind
    rw [hkeywords e (List.mem_of_find?_eq_some hfind)] at hprefix'
    exact ⟨e, hfind, hunique (headerOf_iff.2 hprefix') hheader⟩

theorem head_not_space (l : List Char) : ∀ c ∈ (l.dropWhile isSpace).head?, isSpace c = false := by
  intro c hc
  have h := List.head?_dropWhile_not isSpace l
  rw [hc] at h
  simpa using h

/-- What is dropped is a number mark as long as it can be. -/
theorem dropNumber_ok (h : dropNumber l = some text) : ∃ number, l = number ++ text ∧ NumberMark number ∧
    ∀ c ∈ text.head?, isSpace c = false := by
  unfold dropNumber at h
  rw [List.span_eq_takeWhile_dropWhile] at h
  split at h
  · next d ds point space rest heq =>
    obtain ⟨hdigits, hrest⟩ := Prod.mk.inj heq
    split at h
    · next hmark =>
      cases h
      refine ⟨l.takeWhile isDecimal ++ point :: (space :: rest.takeWhile isSpace), ?_,
        ⟨_, point, space :: rest.takeWhile isSpace, rfl, ⟨?_, fun c hc => List.mem_takeWhile_imp hc⟩, hmark.1, ?_, ?_⟩,
        head_not_space rest⟩
      · conv_lhs => rw [← List.takeWhile_append_dropWhile (p := isDecimal) (l := l), hrest]
        simp
      · rw [hdigits]
        exact List.cons_ne_nil _ _
      · exact List.cons_ne_nil _ _
      · intro c hc
        rcases List.mem_cons.1 hc with rfl | hc
        · exact hmark.2
        · exact List.mem_takeWhile_imp hc
    · cases h
  · cases h

theorem dropNumber_mark {number : List Char} (h : NumberMark number) :
    dropNumber (number ++ text) = some (text.dropWhile isSpace) := by
  obtain ⟨digits, point, spaces, rfl, ⟨hdigits, hdecimal⟩, hpoint, hspaces, hspace⟩ := h
  have hstop : isDecimal point = false := by
    rcases hpoint with rfl | rfl <;> decide
  obtain ⟨space, spaces, rfl⟩ := List.exists_cons_of_ne_nil hspaces
  obtain ⟨d, ds, rfl⟩ := List.exists_cons_of_ne_nil hdigits
  have hline : d :: ds ++ point :: space :: spaces ++ text = d :: ds ++ point :: space :: (spaces ++ text) := by simp
  have htake : (d :: ds ++ point :: space :: (spaces ++ text)).takeWhile isDecimal = d :: ds := by
    rw [List.takeWhile_append_of_pos hdecimal]
    simp [hstop]
  have hdrop : (d :: ds ++ point :: space :: (spaces ++ text)).dropWhile isDecimal = point :: space :: (spaces ++ text) := by
    rw [List.dropWhile_append_of_pos hdecimal]
    simp [hstop]
  unfold dropNumber
  rw [hline, List.span_eq_takeWhile_dropWhile, htake, hdrop]
  dsimp only
  rw [if_pos ⟨hpoint, hspace space List.mem_cons_self⟩,
    List.dropWhile_append_of_pos fun c hc => hspace c (List.mem_cons_of_mem _ hc)]

theorem dropBullet_iff : dropBullet l = some text ↔ ∃ bullet, BulletMark bullet ∧ l = bullet ++ text := by
  constructor
  · intro h
    unfold dropBullet at h
    split at h
    · cases h
      exact ⟨_, .inl rfl, rfl⟩
    · cases h
      exact ⟨_, .inr rfl, rfl⟩
    · cases h
  · rintro ⟨bullet, rfl | rfl, rfl⟩ <;> rfl

/-- A bullet is no number, and not white space. -/
theorem dropNumber_bullet {bullet : List Char} (h : BulletMark bullet) : dropNumber (bullet ++ text) = none ∧
    (bullet ++ text).dropWhile isSpace = bullet ++ text := by
  rcases h with rfl | rfl <;> exact ⟨rfl, rfl⟩

/-- A line under a number or a bullet. -/
theorem planLine_marked {number bullet : List Char} (hheader : headerSection line = none)
    (hentry : line.toList = number ++ (bullet ++ text)) (hnumber : number = [] ∨ NumberMark number)
    (hbullet : bullet = [] ∨ BulletMark bullet) (hsome : number ++ bullet ≠ [])
    (hwhole : bullet = [] → (∀ c ∈ text.head?, isSpace c = false) ∧
      ∀ mark rest, text = mark ++ rest → ¬ BulletMark mark) :
    planLine line = .marked (strip (String.ofList text)) := by
  have hbare : bullet = [] → dropBullet text = none ∧ text.dropWhile isSpace = text := by
    intro hnil
    obtain ⟨hspace, hnone⟩ := hwhole hnil
    refine ⟨Option.eq_none_iff_forall_ne_some.2 fun rest hrest => ?_, ?_⟩
    · obtain ⟨mark, hmark, htext⟩ := dropBullet_iff.1 hrest
      exact hnone mark rest htext hmark
    · cases text with
      | nil => rfl
      | cons c text => exact List.dropWhile_cons_of_neg (by simp [hspace c rfl])
  unfold planLine
  rw [hheader]
  dsimp only
  rw [hentry]
  rcases hnumber with rfl | hnumber
  · have hmark : BulletMark bullet := hbullet.resolve_left fun hnil => hsome (by rw [hnil]; rfl)
    rw [List.nil_append, (dropNumber_bullet hmark).1, dropBullet_iff.2 ⟨bullet, hmark, rfl⟩, if_pos (.inr rfl)]
    dsimp only [Option.getD_none]
    rw [dropBullet_iff.2 ⟨bullet, hmark, rfl⟩]
    rfl
  · rw [dropNumber_mark hnumber, if_pos (.inl rfl)]
    rcases hbullet with rfl | hmark
    · obtain ⟨hnone, hspace⟩ := hbare rfl
      dsimp only [Option.getD_some, List.nil_append]
      rw [hspace, hnone]
      rfl
    · dsimp only [Option.getD_some]
      rw [(dropNumber_bullet hmark).2, dropBullet_iff.2 ⟨bullet, hmark, rfl⟩]
      rfl

/-- Every line reads as the parser reads it. -/
theorem reads_planLine (line : String) : Reads line (planLine line) := by
  cases hheader : headerSection line with
  | some keyword =>
    obtain ⟨rest, hrest⟩ := headerSection_iff.1 hheader
    unfold planLine
    rw [hheader]
    dsimp only
    rw [hrest.afterColon]
    exact .header hrest
  | none =>
    have hnone : ∀ keyword rest, ¬ HeaderOf keyword line rest := by
      intro keyword rest hrest
      rw [headerSection_iff.2 ⟨rest, hrest⟩] at hheader
      cases hheader
    cases hnumber : dropNumber line.toList with
    | some item =>
      obtain ⟨number, hline, hmark, hspace⟩ := dropNumber_ok hnumber
      have hne : number ≠ [] := by
        obtain ⟨digits, point, spaces, rfl, -⟩ := hmark
        simp
      cases hbullet : dropBullet item with
      | some text =>
        obtain ⟨bullet, hbmark, rfl⟩ := dropBullet_iff.1 hbullet
        have hwhole : bullet = [] → (∀ c ∈ text.head?, isSpace c = false) ∧
            ∀ mark rest, text = mark ++ rest → ¬ BulletMark mark := by
          rintro rfl
          rcases hbmark with h | h <;> cases h
        rw [planLine_marked hheader hline (.inr hmark) (.inr hbmark) (by simp [hne]) hwhole]
        exact .marked hline hnone (.inr hmark) (.inr hbmark) (by simp [hne]) hwhole
      | none =>
        have hline : line.toList = number ++ ([] ++ item) := hline
        have hwhole : ([] : List Char) = [] → (∀ c ∈ item.head?, isSpace c = false) ∧
            ∀ mark rest, item = mark ++ rest → ¬ BulletMark mark := by
          refine fun _ => ⟨hspace, fun mark rest hitem hbmark => ?_⟩
          rw [dropBullet_iff.2 ⟨mark, hbmark, hitem⟩] at hbullet
          cases hbullet
        rw [planLine_marked hheader hline (.inr hmark) (.inl rfl) (by simp [hne]) hwhole]
        exact .marked hline hnone (.inr hmark) (.inl rfl) (by simp [hne]) hwhole
    | none =>
      cases hbullet : dropBullet line.toList with
      | some text =>
        obtain ⟨bullet, hbmark, hline⟩ := dropBullet_iff.1 hbullet
        have hne : bullet ≠ [] := by rcases hbmark with rfl | rfl <;> exact List.cons_ne_nil _ _
        have hline : line.toList = [] ++ (bullet ++ text) := hline
        rw [planLine_marked hheader hline (.inl rfl) (.inr hbmark) hne fun hnil => absurd hnil hne]
        exact .marked hline hnone (.inl rfl) (.inr hbmark) hne fun hnil => absurd hnil hne
      | none =>
        have hplain : planLine line = .plain line := by
          unfold planLine
          rw [hheader]
          dsimp only
          rw [hnumber, hbullet, if_neg (by simp)]
        rw [hplain]
        refine .plain hnone fun mark rest hline => ⟨fun hmark => ?_, fun hmark => ?_⟩
        · rw [hline, dropNumber_mark hmark] at hnumber
          cases hnumber
        · rw [dropBullet_iff.2 ⟨mark, hmark, hline⟩] at hbullet
          cases hbullet

end

/-- **A line reads as the parser reads it**, and as nothing else. -/
theorem reads_iff {line : String} {reading : PlanLine} : Reads line reading ↔ planLine line = reading := by
  constructor
  · intro h
    have hnone : (∀ keyword rest, ¬ HeaderOf keyword line rest) → headerSection line = none := by
      intro hno
      refine Option.eq_none_iff_forall_ne_some.2 fun keyword hkeyword => ?_
      obtain ⟨rest, hrest⟩ := headerSection_iff.1 hkeyword
      exact hno keyword rest hrest
    cases h with
    | header begins =>
      unfold planLine
      rw [headerSection_iff.2 ⟨_, begins⟩]
      dsimp only
      rw [begins.afterColon]
    | marked entry noHeader numbered bulleted some whole =>
      exact planLine_marked (hnone noHeader) entry numbered bulleted some whole
    | plain noHeader noMark =>
      have hnumber : dropNumber line.toList = none := by
        refine Option.eq_none_iff_forall_ne_some.2 fun text htext => ?_
        obtain ⟨number, hline, hmark, -⟩ := dropNumber_ok htext
        exact (noMark number text hline).1 hmark
      have hbullet : dropBullet line.toList = none := by
        refine Option.eq_none_iff_forall_ne_some.2 fun text htext => ?_
        obtain ⟨bullet, hmark, hline⟩ := dropBullet_iff.1 htext
        exact (noMark bullet text hline).2 hmark
      unfold planLine
      rw [hnone noHeader]
      dsimp only
      rw [hnumber, hbullet, if_neg (by simp)]
  · rintro rfl
    exact reads_planLine line

/-! ## Filing -/

theorem filed_cons (q : PlanPlace) (line : PlanLine) (lines : List PlanLine) : filedLines q (line :: lines) =
    if line.text = "" then filedLines (q.next line) lines
    else (q.files line, line.text) :: filedLines (q.next line) lines := rfl

/-- Nothing is lost and nothing is filed twice. -/
theorem filed_texts (q : PlanPlace) (lines : List PlanLine) :
    (filedLines q lines).map Prod.snd = (lines.map PlanLine.text).filter fun text => text ≠ "" := by
  induction lines generalizing q with
  | nil => rfl
  | cons line lines ih =>
    rw [filed_cons, List.map_cons]
    split
    · next h =>
      rw [List.filter_cons_of_neg (by simpa using h)]
      exact ih _
    · next h =>
      rw [List.filter_cons_of_pos (by simpa using h), List.map_cons, ih]

/-- The parser is where the reader is. -/
structure PlanParse.At (p : PlanParse) (q : PlanPlace) : Prop where
  inside : p.currentSection = q.inside
  goalFound : q.goalFound = true ↔ p.goal ≠ ""

section
variable {p : PlanParse} {q : PlanPlace} {line : PlanLine} {lines : List PlanLine}

/-- A header is where its keyword says; only a goal has a text of its own. -/
theorem header_under {s : PlanSection} {rest : String} (hat : p.At q) (hclear : q.ClearAt (.header s rest))
    (keyword : PlanSection) : (p.line (.header s rest)).At (q.next (.header s rest)) ∧
      (p.line (.header s rest)).under keyword =
        p.under keyword ++ if rest ≠ "" ∧ s = keyword then [rest] else [] := by
  obtain ⟨hin, hfound⟩ := hat
  by_cases hs : s = .goal
  · subst hs
    have hnone : q.goalFound = false := hclear
    have hgoal : p.goal = "" := by
      by_contra hne
      rw [hfound.2 hne] at hnone
      cases hnone
    refine ⟨⟨rfl, ?_⟩, ?_⟩
    · show (q.goalFound || (decide (PlanSection.goal = .goal) && decide (rest ≠ ""))) = true ↔ rest ≠ ""
      simp [hnone]
    · cases keyword with
      | goal =>
        show (if rest = "" then [] else [rest]) = (if p.goal = "" then [] else [p.goal]) ++ _
        rw [if_pos hgoal]
        by_cases hrest : rest = "" <;> simp [hrest]
      | steps => simp [PlanParse.line, PlanParse.under]
      | constraints => simp [PlanParse.line, PlanParse.under]
      | verification => simp [PlanParse.line, PlanParse.under]
  · have hrest : rest = "" := by
      cases s with
      | goal => exact absurd rfl hs
      | steps => exact hclear
      | constraints => exact hclear
      | verification => exact hclear
    have hline : p.line (.header s rest) = { p with currentSection := s } := by
      cases s with
      | goal => exact absurd rfl hs
      | steps => rfl
      | constraints => rfl
      | verification => rfl
    rw [hline, if_neg (by simp [hrest]), List.append_nil]
    refine ⟨⟨rfl, ?_⟩, by cases keyword <;> rfl⟩
    show (q.goalFound || (decide (s = .goal) && decide (rest ≠ ""))) = true ↔ p.goal ≠ ""
    rw [hrest]
    simpa using hfound

/-- A step, a constraint or a verification is collected. -/
theorem add_under (text : String) {s : PlanSection} (hat : p.At q) (hs : s ≠ .goal) (keyword : PlanSection) :
    (p.add text s).At q ∧ (p.add text s).under keyword =
      p.under keyword ++ if s = keyword then [text] else [] := by
  obtain ⟨hin, hfound⟩ := hat
  have hkept : ∀ k, s ≠ k → (p.add text s).under k = p.under k ∧
      (p.add text s).currentSection = p.currentSection ∧ (p.add text s).goal = p.goal := by
    intro k hk
    cases s <;> cases k <;> first | exact ⟨rfl, rfl, rfl⟩ | exact absurd rfl hk | exact absurd rfl hs
  have hadded : (p.add text s).under s = p.under s ++ [text] := by
    cases s with
    | goal => exact absurd rfl hs
    | steps => rfl
    | constraints => rfl
    | verification => rfl
  obtain ⟨-, hsection, hgoal⟩ := hkept .goal hs
  refine ⟨⟨hsection.trans hin, hgoal ▸ hfound⟩, ?_⟩
  by_cases hk : s = keyword
  · rw [if_pos hk, ← hk, hadded]
  · rw [if_neg hk, List.append_nil, (hkept keyword hk).1]

/-- A line that is filed under no goal leaves the reader where it is. -/
theorem next_of_entry {text : String} (h : line = .marked text ∨ line = .plain text) (hs : q.files line ≠ .goal) :
    q.next line = q := by
  rcases h with rfl | rfl <;> simp [PlanPlace.next, hs]

theorem marked_under {itemText : String} (hat : p.At q) (keyword : PlanSection) :
    (p.line (.marked itemText)).At (q.next (.marked itemText)) ∧ (p.line (.marked itemText)).under keyword =
      p.under keyword ++ if itemText ≠ "" ∧ q.files (.marked itemText) = keyword then [itemText] else [] := by
  have hs : q.files (.marked itemText) ≠ .goal := by
    unfold PlanPlace.files
    dsimp only
    split
    · decide
    · next hne => exact hne
  rw [next_of_entry (.inl rfl) hs]
  by_cases htext : itemText = ""
  · rw [show p.line (.marked itemText) = p from if_pos htext, if_neg (by simp [htext]), List.append_nil]
    exact ⟨hat, rfl⟩
  · have hline : p.line (.marked itemText) = p.add itemText (q.files (.marked itemText)) := by
      unfold PlanParse.line PlanPlace.files
      dsimp only
      rw [if_neg htext, hat.inside]
      split
      · next hin => rw [hin]; rfl
      · rfl
    have hadded := add_under itemText hat hs keyword
    rw [hline]
    simpa [htext] using hadded

theorem plain_under {text : String} (hat : p.At q) (htext : text ≠ "") (keyword : PlanSection) :
    (p.line (.plain text)).At (q.next (.plain text)) ∧ (p.line (.plain text)).under keyword =
      p.under keyword ++ if text ≠ "" ∧ q.files (.plain text) = keyword then [text] else [] := by
  by_cases hgoal : q.inside = .goal ∧ q.goalFound = false
  · -- the goal's own text
    obtain ⟨hin, hnone⟩ := hgoal
    have hempty : p.goal = "" := by
      by_contra hne
      rw [hat.goalFound.2 hne] at hnone
      cases hnone
    have hfiles : q.files (.plain text) = .goal := by
      unfold PlanPlace.files
      dsimp only
      rw [if_neg (by simp [hnone]), hin]
    have hline : p.line (.plain text) = { p with goal := text } := if_pos ⟨hat.inside.trans hin, hempty⟩
    rw [hline, hfiles]
    refine ⟨⟨hat.inside, ?_⟩, ?_⟩
    · show (q.goalFound || (decide (q.files (.plain text) = .goal) && decide (text ≠ ""))) = true ↔ text ≠ ""
      simp [hnone, hfiles]
    · cases keyword with
      | goal => simp [PlanParse.under, hempty, htext]
      | steps => simp [PlanParse.under]
      | constraints => simp [PlanParse.under]
      | verification => simp [PlanParse.under]
  · have hs : q.files (.plain text) ≠ .goal := by
      unfold PlanPlace.files
      dsimp only
      split
      · decide
      · next hne => exact fun hin => hgoal ⟨hin, by simpa [hin] using hne⟩
    have hnot : ¬ (p.currentSection = .goal ∧ p.goal = "") := by
      rintro ⟨hin, hempty⟩
      refine hgoal ⟨hat.inside.symm.trans hin, ?_⟩
      cases hf : q.goalFound with
      | false => rfl
      | true => exact absurd hempty (hat.goalFound.1 hf)
    have hline : p.line (.plain text) = p.add text (q.files (.plain text)) := by
      unfold PlanParse.line
      dsimp only
      rw [if_neg hnot, hat.inside]
      unfold PlanPlace.files
      dsimp only
      split
      · next hin =>
        rw [hin.1]
        rfl
      · rfl
    rw [next_of_entry (.inr rfl) hs, hline]
    simpa [htext] using add_under text hat hs keyword

/-- One line is collected for the section it is filed under. -/
theorem line_under (hat : p.At q) (hclear : q.ClearAt line) (hplain : ∀ t, line = .plain t → t ≠ "")
    (keyword : PlanSection) : (p.line line).At (q.next line) ∧ (p.line line).under keyword =
      p.under keyword ++ if line.text ≠ "" ∧ q.files line = keyword then [line.text] else [] := by
  cases line with
  | header s rest => exact header_under hat hclear keyword
  | marked itemText => exact marked_under hat keyword
  | plain text => exact plain_under hat (hplain text rfl) keyword

/-- **The parser.**  Each accumulator is what is filed under its section. -/
theorem parse_under (hat : p.At q) (hclear : Clear q lines) (hplain : ∀ t, .plain t ∈ lines → t ≠ "")
    (keyword : PlanSection) :
    (lines.foldl PlanParse.line p).under keyword = p.under keyword ++ filedUnder keyword (filedLines q lines) := by
  induction lines generalizing p q with
  | nil => simp [filedUnder, filedLines]
  | cons line lines ih =>
    obtain ⟨hline, hrest⟩ := hclear
    obtain ⟨hat', hunder⟩ := line_under hat hline (fun t ht => hplain t (ht ▸ List.mem_cons_self)) keyword
    rw [List.foldl_cons, ih hat' hrest fun t ht => hplain t (List.mem_cons_of_mem _ ht), hunder, List.append_assoc]
    congr 1
    rw [filed_cons]
    unfold filedUnder
    by_cases htext : line.text = ""
    · rw [if_pos htext, if_neg (by simp [htext]), List.nil_append]
    · rw [if_neg htext]
      by_cases hkey : q.files line = keyword
      · rw [if_pos ⟨htext, hkey⟩, List.filter_cons_of_pos (by simpa using hkey)]
        rfl
      · rw [if_neg (by simp [hkey]), List.filter_cons_of_neg (by simpa using hkey), List.nil_append]

end

/-! ## The schema -/

/-- A text as it is kept: stripped, and not empty. -/
def Proper (text : String) : Prop := Trimmed text ∧ text ≠ ""

def stepName (index : ℕ) : String := strip s!"step_{index}"

/-- The step of a title at its place. -/
def textStep (index : ℕ) (title : String) : PlanStep :=
  { planItemId := stepName index, title := title, description := "", dependsOn := [], acceptanceCriteria := [],
    sequenceIndex := index }

theorem normalizeSteps_titles {titles : List String} (h : ∀ t ∈ titles, Proper t) (k : ℕ) :
    ((titles.map fun title => ({ title := some title } : RawPlanItem)).zipIdx k).mapM
        (fun e => normalizePlanStep e.2 e.1) = .ok ((titles.zipIdx k).map fun e => textStep e.2 e.1) := by
  induction titles generalizing k with
  | nil => rfl
  | cons title titles ih =>
    obtain ⟨htrim, hne⟩ := h title List.mem_cons_self
    have hstep : normalizePlanStep k { title := some title } = .ok (textStep k title) := by
      unfold normalizePlanStep
      have htitle : strip title = title := htrim
      dsimp only [Option.getD_some]
      rw [htitle, if_neg hne]
      rfl
    rw [List.map_cons, List.zipIdx_cons, List.mapM_cons, hstep,
      ih (fun t ht => h t (List.mem_cons_of_mem _ ht)) (k + 1), List.zipIdx_cons, List.map_cons]
    rfl

/-- The schema of a text: its steps are the titles, in order. -/
theorem normalize_parse {p : PlanParse} (hgoal : Trimmed p.goal) (hsteps : ∀ t ∈ p.steps, Proper t)
    (hconstraints : ∀ t ∈ p.constraints, Proper t) (hverification : ∀ t ∈ p.verification, Proper t) :
    normalizePlanSchema p.schema none = .ok
      { goal := p.goal, constraints := p.constraints, verification := p.verification, sourceFormat := "text",
        steps := p.steps.zipIdx.map fun e => textStep e.2 e.1 } := by
  have htext : strip "text" = "text" := by decide +kernel
  have hgoal' : strip p.goal = p.goal := hgoal
  unfold normalizePlanSchema PlanParse.schema
  simp only [except_bind_ok, except_pure_ok, Option.getD_some]
  rw [normalizeStrList_of_trimmed hconstraints, normalizeStrList_of_trimmed hverification, htext, hgoal']
  exact ⟨_, rfl, _, normalizeSteps_titles hsteps 0, rfl⟩

/-- The schema of a text without lines. -/
theorem normalize_blank : normalizePlanSchema { steps := some [{ title := some "Execute task" }] } none = .ok
    { goal := "", constraints := [], verification := [], sourceFormat := "normalized",
      steps := [textStep 0 "Execute task"] } := by
  decide +kernel

/-! ## The lines -/

theorem planLines_proper {text line : String} (h : line ∈ planLines text) : Proper line := by
  obtain ⟨raw, hraw, rfl⟩ := List.mem_map.1 h
  have hblank := (List.mem_filter.1 hraw).2
  exact ⟨trimmed_strip raw, by simpa [blank] using hblank⟩

theorem planLine_text_trimmed {line : String} (h : Trimmed line) : Trimmed (planLine line).text := by
  unfold planLine
  split
  · exact trimmed_strip _
  · dsimp only
    split
    · exact trimmed_strip _
    · exact h

theorem planLine_plain {line t : String} (h : planLine line = .plain t) : t = line := by
  unfold planLine at h
  split at h
  · cases h
  · dsimp only at h
    split at h
    · cases h
    · cases h
      rfl

/-- What is filed of a text is proper. -/
theorem filed_proper {text : String} {q : PlanPlace} {e : PlanSection × String}
    (h : e ∈ filedLines q ((planLines text).map planLine)) : Proper e.2 := by
  have hmem : e.2 ∈ (filedLines q ((planLines text).map planLine)).map Prod.snd := List.mem_map_of_mem h
  rw [filed_texts, List.mem_filter] at hmem
  obtain ⟨hmem, hne⟩ := hmem
  obtain ⟨l, hl, heq⟩ := List.mem_map.1 hmem
  obtain ⟨line, hline, rfl⟩ := List.mem_map.1 hl
  rw [← heq] at hne ⊢
  exact ⟨planLine_text_trimmed (planLines_proper hline).1, by simpa using hne⟩

/-! ## The plan -/

theorem isSpace_of_isDigit {c : Char} (h : c.isDigit = true) : isSpace c = false := by
  have hle : 48 ≤ c.toNat ∧ c.toNat ≤ 57 := by
    obtain ⟨h1, h2⟩ := Bool.and_eq_true_iff.1 h
    exact ⟨UInt32.le_iff_toNat_le.1 (of_decide_eq_true h1), UInt32.le_iff_toNat_le.1 (of_decide_eq_true h2)⟩
  unfold isSpace
  generalize c.toNat = n at hle
  obtain ⟨h1, h2⟩ := hle
  interval_cases n <;> decide

theorem stepName_eq (index : ℕ) : stepName index = "step_" ++ Nat.repr index := by
  have hname : s!"step_{index}" = "step_" ++ Nat.repr index := rfl
  unfold stepName
  rw [hname]
  refine trimmed_of_forall fun c hc => ?_
  rw [String.toList_append] at hc
  rcases List.mem_append.1 hc with hc | hc
  · have hall : ∀ d ∈ ['s', 't', 'e', 'p', '_'], isSpace d = false := by simp [isSpace]
    exact hall c hc
  · rw [Nat.toList_repr] at hc
    exact isSpace_of_isDigit (Nat.isDigit_of_mem_toDigits (by decide) (by decide) hc)

theorem stepName_injective {i j : ℕ} (h : stepName i = stepName j) : i = j := by
  rw [stepName_eq, stepName_eq] at h
  have hlist := congrArg String.toList h
  rw [String.toList_append, String.toList_append] at hlist
  exact Nat.repr_injective (String.toList_inj.1 (List.append_cancel_left hlist))

/-- The item of a title at its place. -/
def textItem (now : Time) (index : ℕ) (title : String) : PlannerItem :=
  { planItemId := stepName index, title := title, description := "", status := .pending, sequenceIndex := index,
    dependsOn := [], acceptanceCriteria := [], llmOutput := none, llmOutputHistory := [], toolCallRefs := [],
    notes := [], updatedAt := now }

/-- One item for each title, at its place. -/
def textItems (now : Time) (titles : List String) (k : ℕ) : List PlannerItem :=
  (titles.zipIdx k).map fun e => textItem now e.2 e.1

theorem plannerItems_titles (now : Time) {titles : List String} (h : ∀ t ∈ titles, Proper t) (k : ℕ)
    (seen : List String) (hseen : ∀ j, k ≤ j → stepName j ∉ seen) :
    plannerItemsOfRaw now k seen ((titles.zipIdx k).map fun e => (textStep e.2 e.1).toRaw) =
      .ok (textItems now titles k) := by
  induction titles generalizing k seen with
  | nil => rfl
  | cons title titles ih =>
    obtain ⟨htrim, hne⟩ := h title List.mem_cons_self
    have htitle : strip title = title := htrim
    have hid : itemIdAt k (textStep k title).toRaw = stepName k := by
      rw [itemIdAt_toRaw]
      split
      · rfl
      · exact strip_strip _
    have hitem : plannerItemOfRaw now k (textStep k title).toRaw seen = .ok (textItem now k title) := by
      unfold plannerItemOfRaw
      rw [hid]
      simp only [except_bind_ok, except_pure_ok, raiseIf_ok]
      have hpending : parseStatus "pending" = .ok .pending := by decide +kernel
      refine ⟨(), strip_stepName k, (), hseen k le_rfl, (), ?_, (), ?_, _, hpending, ?_⟩
      · show strip title ≠ ""
        rw [htitle]
        exact hne
      · show ¬ ((k : ℤ) < 0)
        omega
      · show textItem now k title = { textItem now k title with title := strip title }
        rw [htitle]
        rfl
    have hrest := ih (fun t ht => h t (List.mem_cons_of_mem _ ht)) (k + 1) (stepName k :: seen) fun j hj hmem => by
      rcases List.mem_cons.1 hmem with heq | hmem
      · have := stepName_injective heq
        omega
      · exact hseen j (by omega) hmem
    rw [List.zipIdx_cons, List.map_cons, plannerItemsOfRaw, hitem]
    refine except_bind_ok.2 ⟨_, rfl, except_bind_ok.2 ⟨_, hrest, ?_⟩⟩
    unfold textItems
    rw [List.zipIdx_cons, List.map_cons]
    rfl

/-- The items are in the order of the query. -/
theorem textItems_sorted (now : Time) (titles : List String) (k : ℕ) :
    (textItems now titles k).Pairwise fun a b => a.sequenceIndex ≤ b.sequenceIndex := by
  induction titles generalizing k with
  | nil => exact .nil
  | cons title titles ih =>
    unfold textItems
    rw [List.zipIdx_cons, List.map_cons]
    refine List.pairwise_cons.2 ⟨fun item hitem => ?_, ih (k + 1)⟩
    obtain ⟨e, he, rfl⟩ := List.mem_map.1 hitem
    have hle := List.le_snd_of_mem_zipIdx he
    show (k : ℤ) ≤ (e.2 : ℤ)
    omega

theorem textItems_titles (now : Time) (titles : List String) (k : ℕ) :
    (textItems now titles k).map PlannerItem.title = titles := by
  unfold textItems
  rw [List.map_map]
  exact List.zipIdx_map_fst k titles

theorem textItem_normal {now : Time} {index : ℕ} {title : String} (h : Proper title) :
    (textItem now index title).Normal ∧ (textItem now index title).Decodes := by
  obtain ⟨htrim, hne⟩ := h
  have htitle : strip title = title := htrim
  have hid : strip (stepName index) = stepName index := strip_strip _
  refine ⟨?_, ?_, ?_, not_blank_of_trimmed htrim hne⟩
  · unfold PlannerItem.Normal PlannerItem.stripped textItem
    simp only [hid, htitle]
    rfl
  · show 0 ≤ (index : ℤ)
    omega
  · exact not_blank_of_trimmed (trimmed_strip _) (strip_stepName index)

theorem textItems_mem {now : Time} {titles : List String} {item : PlannerItem}
    (h : item ∈ textItems now titles 0) : ∃ index title, item = textItem now index title ∧ title ∈ titles ∧
      index < titles.length := by
  obtain ⟨e, he, rfl⟩ := List.mem_map.1 h
  exact ⟨e.2, e.1, rfl, List.fst_mem_of_mem_zipIdx he, by simpa using List.snd_lt_of_mem_zipIdx he⟩

theorem textItems_nodup (now : Time) (titles : List String) :
    ((textItems now titles 0).map PlannerItem.planItemId).Nodup := by
  unfold textItems
  rw [List.map_map]
  have hids : (titles.zipIdx.map (PlannerItem.planItemId ∘ fun e => textItem now e.2 e.1)) =
      (titles.zipIdx.map Prod.snd).map stepName := by
    rw [List.map_map]
    rfl
  rw [hids, List.zipIdx_map_snd]
  exact (List.nodup_range').map fun _ _ h => stepName_injective h

/-- A plan of such items that stands at its first runnable one is whole. -/
theorem textItems_integrity {now : Time} {titles : List String} {st : PlannerState}
    (hitems : st.items = textItems now titles 0) (hversion : st.version = 1) (hfirst : st.AtFirst) :
    st.Integrity := by
  have hmem : ∀ item, nextRunnableItem st = some item → item ∈ textItems now titles 0 := by
    intro item hitem
    rw [← hitems]
    exact (nextRunnableItem_some hitem).1
  refine ⟨hversion ▸ le_rfl, ?_, fun id hid => ?_, fun c hc => ?_⟩
  · rw [hitems]
    exact textItems_nodup now titles
  · rw [hfirst.active] at hid
    obtain ⟨item, hitem, rfl⟩ := Option.map_eq_some_iff.1 hid
    rw [hitems]
    exact List.mem_map_of_mem (hmem item hitem)
  · rw [hfirst.cursor] at hc
    obtain ⟨item, hitem, rfl⟩ := Option.map_eq_some_iff.1 hc
    obtain ⟨index, title, rfl, -, hlt⟩ := textItems_mem (hmem item hitem)
    have hlen : st.items.length = titles.length := by
      rw [hitems, ← textItems_titles now titles 0, List.length_map, textItems_titles]
    show 0 ≤ (index : ℤ) ∧ (index : ℤ) < st.items.length
    omega

/-- **A plan from titles.**  One item for each, in order. -/
theorem createPlan_titles {schema : PlanSchema} {titles : List String} (hne : titles ≠ [])
    (htitles : ∀ t ∈ titles, Proper t) (hsteps : schema.steps = titles.zipIdx.map fun e => textStep e.2 e.1)
    (amb : Ambient) {runId : String} (hrun : blank runId = false) (text : String) (s : Store) :
    ∃ st s', createPlan amb runId text (schema.steps.map PlanStep.toRaw) (some schema.toRaw) s = .ok (st, s') ∧
      st.items.map PlannerItem.title = titles := by
  have hdec : schema.Decodes := by
    intro step hstep
    rw [hsteps] at hstep
    obtain ⟨e, he, rfl⟩ := List.mem_map.1 hstep
    obtain ⟨htrim, hne⟩ := htitles e.1 (List.fst_mem_of_mem_zipIdx he)
    exact not_blank_of_trimmed htrim hne
  obtain ⟨normalized, hnormalized⟩ := normalizePlanSchema_run none hdec
  obtain ⟨final, hfinal⟩ := normalizePlanSchema_run (some (textItems amb.now titles 0))
    (normalizePlanSchema_ok hnormalized).2
  have hraws : schema.steps.map PlanStep.toRaw = titles.zipIdx.map fun e => (textStep e.2 e.1).toRaw := by
    rw [hsteps, List.map_map]
    rfl
  have hitems := plannerItems_titles amb.now htitles 0 [] fun _ _ => List.not_mem_nil
  have hsorted : (textItems amb.now titles 0).insertionSort (fun a b => a.sequenceIndex ≤ b.sequenceIndex) =
      textItems amb.now titles 0 := (textItems_sorted amb.now titles 0).insertionSort_eq
  have hcreated : ∃ st, createPlanState amb.now runId text (schema.steps.map PlanStep.toRaw) (some schema.toRaw) =
      .ok st ∧ st.items = textItems amb.now titles 0 ∧ st.version = 1 ∧ st.planSchema = final := by
    refine ⟨_, except_bind_ok.2 ⟨(), ?_, except_bind_ok.2 ⟨normalized, ?_, except_bind_ok.2
      ⟨textItems amb.now titles 0, ?_, except_bind_ok.2 ⟨final, ?_, rfl⟩⟩⟩⟩, ?_⟩
    · rw [raiseIf_ok, hraws]
      simpa using hne
    · exact hnormalized
    · rw [hraws]
      exact hitems
    · rw [hsorted]
      exact hfinal
    · rw [hsorted]
      split
      · exact ⟨rfl, rfl, rfl⟩
      · exact ⟨rfl, rfl, rfl⟩
  obtain ⟨st, hst, hstItems, hversion, hschema⟩ := hcreated
  have hplan := createPlanState_ok hst
  have hintegrity := textItems_integrity hstItems hversion hplan.atFirst
  have hstripped : st.items.map PlannerItem.stripped = st.items := hplan.normal.map_stripped
  have hdecodes : PlannerState.Decodes { st with updatedAt := amb.now } := by
    refine ⟨fun item hitem => ?_, ?_, ?_, ?_⟩
    · have hitem : item ∈ st.items := hitem
      rw [hstItems] at hitem
      obtain ⟨index, title, rfl, htitle, -⟩ := textItems_mem hitem
      exact (textItem_normal (htitles title htitle)).2
    · show blank st.runId = false
      rw [hplan.runId]
      exact hrun
    · show st.planSchema.Decodes
      rw [hschema]
      exact (normalizePlanSchema_ok hfinal).2
    · show PlannerState.Integrity { st with updatedAt := amb.now, items := st.items.map PlannerItem.stripped }
      rw [hstripped]
      exact ⟨hintegrity.version, hintegrity.nodup, hintegrity.active, hintegrity.cursor⟩
  obtain ⟨out, hout⟩ := fromDict_plan_run hdecodes
  have houtItems : out.items = st.items := (fromDict_plan_ok hout).2.items.trans hstripped
  refine ⟨out, _, bind_ok.2 ⟨st, s, lift_ok.2 ⟨hst, rfl⟩, savePlan_ok.2 ⟨validateIntegrity_ok.2 ?_, hout, rfl⟩⟩, ?_⟩
  · exact ⟨hintegrity.version, hintegrity.nodup, hintegrity.active, hintegrity.cursor⟩
  · rw [houtItems, hstItems, textItems_titles]

/-! ## Texts -/

/-- The parser's accumulators, from a clear text. -/
theorem parse_text {text : String} (hclear : Clear {} ((planLines text).map planLine)) (keyword : PlanSection) :
    (((planLines text).map planLine).foldl PlanParse.line {}).under keyword =
      filedUnder keyword (filedLines {} ((planLines text).map planLine)) := by
  have hat : PlanParse.At {} {} := ⟨rfl, by simp⟩
  have hunder := parse_under hat hclear (fun t ht => ?_) keyword
  · rw [hunder]
    cases keyword <;> rfl
  · obtain ⟨line, hline, hplain⟩ := List.mem_map.1 ht
    rw [planLine_plain hplain]
    exact (planLines_proper hline).2

/-- The schema of a clear text. -/
theorem parse_schema {loads : String → Except PyError (Option RawPlanSchema)} {text : String}
    (hloads : loads text = .ok none)
    (hclear : Clear {} ((planLines text).map planLine)) :
    ∃ (schema : PlanSchema) (titles : List String), parsePlanSourceToSchema loads text = .ok schema ∧
      (∀ t ∈ titles, Proper t) ∧ (schema.steps = titles.zipIdx.map fun e => textStep e.2 e.1) ∧
      (planLines text = [] → titles = ["Execute task"]) ∧
      (planLines text ≠ [] → schema.KeepsLines ((planLines text).map planLine)) := by
  have hparse : parsePlanSourceToSchema loads text =
      if planLines text = [] then normalizePlanSchema { steps := some [{ title := some "Execute task" }] } none
      else normalizePlanSchema (((planLines text).map planLine).foldl PlanParse.line {}).schema none := by
    unfold parsePlanSourceToSchema
    rw [hloads]
    rfl
  rw [hparse]
  by_cases hlines : planLines text = []
  · rw [if_pos hlines]
    refine ⟨_, ["Execute task"], normalize_blank, fun t ht => ?_, rfl, fun _ => rfl, fun h => absurd hlines h⟩
    rw [List.mem_singleton.1 ht]
    exact ⟨by decide +kernel, by decide⟩
  · rw [if_neg hlines]
    set p := ((planLines text).map planLine).foldl PlanParse.line {} with hp
    have hunder := parse_text hclear
    have hproper : ∀ keyword, ∀ t ∈ p.under keyword, Proper t := by
      intro keyword t ht
      rw [hunder keyword] at ht
      obtain ⟨e, he, rfl⟩ := List.mem_map.1 ht
      exact filed_proper (List.mem_of_mem_filter he)
    have hgoal : Trimmed p.goal := by
      by_cases hempty : p.goal = ""
      · rw [hempty]
        decide
      · refine (hproper .goal p.goal ?_).1
        show p.goal ∈ if p.goal = "" then [] else [p.goal]
        rw [if_neg hempty]
        exact List.mem_singleton_self _
    refine ⟨_, p.steps, normalize_parse hgoal (hproper .steps) (hproper .constraints) (hproper .verification),
      hproper .steps, rfl, fun h => absurd h hlines, fun _ => ⟨filed_texts _ _, hunder .goal, ?_,
        hunder .constraints, hunder .verification⟩⟩
    show (p.steps.zipIdx.map fun e => textStep e.2 e.1).map PlanStep.title = _
    rw [List.map_map]
    exact (List.zipIdx_map_fst 0 p.steps).trans (hunder .steps)

/-- Its lines read in one way. -/
theorem readings_eq {lines : List String} {readings : List PlanLine} (h : List.Forall₂ Reads lines readings) :
    readings = lines.map planLine := by
  induction h with
  | nil => rfl
  | cons hline _ ih => rw [List.map_cons, reads_iff.1 hline, ih]

/-- **Plan texts.**  Where no header but the goal's has a text of its own and no second goal comes after the
first: the schema keeps the text of every line once, in order, under the section of the line, and the plan has
one item for each step. -/
theorem plan_text_kept (loads : String → Except PyError (Option RawPlanSchema)) (text : String)
    (hloads : loads text = .ok none) (readings : List PlanLine)
    (hreads : List.Forall₂ Reads (planLines text) readings) (hclear : Clear {} readings) :
    ∃ schema, parsePlanSourceToSchema loads text = .ok schema ∧
      (planLines text = [] → schema.steps.map PlanStep.title = ["Execute task"]) ∧
      (planLines text ≠ [] → schema.KeepsLines readings) ∧
      ∀ (amb : Ambient) (runId : String) (s : Store), blank runId = false →
        (schema.steps = [] →
          createPlanFromText loads amb runId text s = .error (.value "items cannot be empty")) ∧
        (schema.steps ≠ [] → ∃ st s', createPlanFromText loads amb runId text s = .ok (st, s') ∧
          st.items.map PlannerItem.title = schema.steps.map PlanStep.title) := by
  obtain rfl := readings_eq hreads
  obtain ⟨schema, titles, hparse, hproper, hsteps, hblank, hkeeps⟩ := parse_schema hloads hclear
  have htitles : schema.steps.map PlanStep.title = titles := by
    rw [hsteps, List.map_map]
    exact List.zipIdx_map_fst 0 titles
  have hcreate : ∀ (amb : Ambient) (runId : String) (s : Store), createPlanFromText loads amb runId text s =
      createPlan amb runId text (schema.steps.map PlanStep.toRaw) (some schema.toRaw) s := by
    intro amb runId s
    unfold createPlanFromText
    rw [hparse]
    exact bind_run (lift_ok.2 ⟨rfl, rfl⟩)
  refine ⟨schema, hparse, fun h => htitles.trans (hblank h), hkeeps, fun amb runId s hrun => ?_⟩
  rw [hcreate]
  constructor
  · intro hnone
    rw [hnone]
    rfl
  · intro hsome
    have hne : titles ≠ [] := by
      rintro rfl
      exact hsome hsteps
    obtain ⟨st, s', hrunPlan, hitems⟩ := createPlan_titles hne hproper hsteps amb hrun text s
    exact ⟨st, s', hrunPlan, hitems.trans htitles.symm⟩

/-! ## Texts that are not kept -/

/-- Goal, steps, constraints and verification of a text. -/
def parsedText (text : String) : Option (String × List String × List String × List String) :=
  (parsePlanSourceToSchema (fun _ => .ok none) text).toOption.map fun schema =>
    (schema.goal, schema.steps.map PlanStep.title, schema.constraints, schema.verification)

/-- A text on the line of `steps:` is lost, and so is a goal before another; an entry of the goal section is a
step; and a text without steps has no plan. -/
theorem plan_text_strays :
    parsedText "Steps: search\nbook" = some ("", ["book"], [], []) ∧
    parsedText "Goal: fly\nGoal: land" = some ("land", [], [], []) ∧
    parsedText "Goal:\n- fly\n- land" = some ("", ["fly", "land"], [], []) ∧
    (createPlanFromText (fun _ => .ok none) ⟨0, "a", by decide⟩ "trip" "Goal: fly" {}).toBool = false := by
  decide +kernel

/-- A text with every kind of line. -/
def bookingText : String :=
  "Goal: book a flight\n1. search\n2) - compare\nConstraints:\n* cheap\nnonstop\nVerification:\n- paid"

theorem bookingText_lines : (planLines bookingText).map planLine =
    [.header .goal "book a flight", .marked "search", .marked "compare", .header .constraints "", .marked "cheap",
      .plain "nonstop", .header .verification "", .marked "paid"] := by
  decide +kernel

theorem plan_text_kept_booking : ∃ schema readings, List.Forall₂ Reads (planLines bookingText) readings ∧
    parsePlanSourceToSchema (fun _ => .ok none) bookingText = .ok schema ∧ schema.KeepsLines readings := by
  have hreads : List.Forall₂ Reads (planLines bookingText) ((planLines bookingText).map planLine) :=
    List.forall₂_map_right_iff.2 (List.forall₂_same.2 fun line _ => reads_planLine line)
  have hclear : Clear {} ((planLines bookingText).map planLine) := by
    rw [bookingText_lines]
    exact ⟨rfl, trivial, trivial, rfl, trivial, trivial, rfl, trivial, trivial⟩
  obtain ⟨schema, hparse, -, hkeeps, -⟩ := plan_text_kept (fun _ => .ok none) bookingText rfl _ hreads hclear
  refine ⟨schema, _, hreads, hparse, hkeeps fun hnone => ?_⟩
  have hlines := bookingText_lines
  rw [hnone] at hlines
  cases hlines

end Raef
