import Raef.Model.Evaluation
import Raef.Proofs.Decode

/-!
# What an evaluation report lists

A report files the spans of a run from the side of the step attempts: a phase is listed under the
attempt it names as its parent, or apart when it names none.  A phase of a phase names a span that
is no attempt, and is counted without being listed.

    the listed records are those of the spans, each once, exactly when
      every phase that names a parent names an attempt             (records_perm_iff)
    then the sums agree with the totals                             (accounts_iff)
    over the calls of a recorder: no phase is started under one     (report_accounts)
-/

namespace Raef

open Text Txn Program

/-! ## Statements -/

/-- The stored spans of a run. -/
def EvaluationSpans.ofRun (s : EvaluationSpans) (k : String) : List EvaluationSpan :=
  s.all.filter fun span => span.runId = k

namespace EvaluationReport

variable (r : EvaluationReport)

def attempts : List AttemptReport := r.steps.flatMap StepReport.attempts

/-- The phases of the attempts, and those apart. -/
def phases : List SpanReportRecord := (r.attempts.flatMap AttemptReport.phases) ++ r.orphanPhases

/-- All that is listed. -/
def records : List SpanReportRecord := r.attempts.map AttemptReport.toSpanReportRecord ++ r.phases

end EvaluationReport

/-- The durations of the finished ones, added up. -/
def totalDuration (records : List SpanReportRecord) : ℚ :=
  ((records.filter fun p => p.finishedAt.isSome).map fun p => p.durationMs.getD 0).sum

/-- Every span of the run is listed once, where it belongs, and the totals are those of what is listed. -/
structure EvaluationReport.Accounts (r : EvaluationReport) (s : EvaluationSpans) (k : String) (mark : Bool) :
    Prop where
  once : r.records.Perm ((s.ofRun k).map (spanReportRecord mark))
  attempts : ∀ step ∈ r.steps, ∀ a ∈ step.attempts, ∃ span ∈ s.ofRun k,
    a.toSpanReportRecord = spanReportRecord mark span ∧ span.phase = stepTotal ∧
      span.stepIndex = step.stepIndex ∧ span.planItemId = step.planItemId
  phases : ∀ a ∈ r.attempts, ∀ p ∈ a.phases, ∃ span ∈ s.ofRun k,
    p = spanReportRecord mark span ∧ span.parentSpanId = some a.spanId
  orphans : ∀ p ∈ r.orphanPhases, ∃ span ∈ s.ofRun k, p = spanReportRecord mark span ∧ span.orphan = true
  count : r.records.length = r.spanCount
  stepDurations : totalDuration (r.attempts.map AttemptReport.toSpanReportRecord) = r.completedStepDurationMs
  phaseDurations : ∀ entry ∈ r.completedPhaseDurationMs,
    totalDuration (r.phases.filter fun p => p.phase = entry.1) = entry.2
  phaseNames : ∀ p ∈ r.phases, p.finishedAt.isSome →
    p.phase ∈ r.completedPhaseDurationMs.map Prod.fst

/-- Every phase of the run that names a parent names a step attempt of the run. -/
def EvaluationSpans.Parented (s : EvaluationSpans) (k : String) : Prop :=
  ∀ span ∈ s.ofRun k, span.phase ≠ stepTotal → span.orphan = false →
    ∃ parent ∈ s.ofRun k, parent.phase = stepTotal ∧ span.childOf parent.spanId = true

/-- A duration is stored when a span is finished. -/
def EvaluationSpans.Timed (s : EvaluationSpans) : Prop :=
  ∀ span ∈ s.all, span.finishedAt.isSome = span.durationMs.isSome

/-- The handle a call returned. -/
def RecorderCall.returned : (c : RecorderCall) → Except PyError c.Result → List EvaluationSpanHandle
  | .startStep _, .ok x => [x]
  | .startPhase _, .ok x => [x]
  | _, _ => []

/-- The phase a call started, with its parent. -/
def RecorderCall.child : (c : RecorderCall) → Except PyError c.Result →
    List (EvaluationSpanHandle × EvaluationSpanHandle)
  | .startPhase a, .ok x => [(x, a.parentStep)]
  | _, _ => []

/-- Calls of recorders one after the other: the spans, the handles they returned, and each phase that
was started with the handle it was started under. -/
inductive RecordedSpans : EvaluationSpans → List EvaluationSpanHandle →
    List (EvaluationSpanHandle × EvaluationSpanHandle) → Prop
  | empty : RecordedSpans ∅ [] []
  | call {s s' : EvaluationSpans} {hs : List EvaluationSpanHandle}
      {cs : List (EvaluationSpanHandle × EvaluationSpanHandle)} (h : RecordedSpans s hs cs) (c : RecorderCall)
      (hc : ∀ a, c = .startPhase a → a.parentStep ∈ hs) (x : Except PyError c.Result)
      (hr : Runs evaluationSem s c.program s' (.ret x)) : RecordedSpans s' (hs ++ c.returned x) (cs ++ c.child x)

/-! ## The table -/

section
variable {s : EvaluationSpans} {k : String} {span : EvaluationSpan}

theorem mem_all : span ∈ s.all ↔ s.get span.spanId = some span := by
  unfold EvaluationSpans.all
  rw [List.mem_map]
  constructor
  · rintro ⟨⟨id, row⟩, hmem, rfl⟩
    have hget := (Table.mem_entries_iff s id row).1 hmem
    rw [Table.key_of_get hget]
    exact hget
  · intro hget
    exact ⟨⟨span.spanId, span⟩, (Table.mem_entries_iff s _ _).2 hget, rfl⟩

theorem all_nodup (s : EvaluationSpans) : (s.all.map EvaluationSpan.spanId).Nodup := by
  have hkeys : s.all.map EvaluationSpan.spanId = s.rows.keys := by
    unfold EvaluationSpans.all AList.keys List.keys
    rw [List.map_map]
    refine List.map_congr_left fun e he => ?_
    have hkey := Table.key_of_get ((Table.mem_entries_iff s e.1 e.2).1 he)
    exact hkey
  rw [hkeys]
  exact s.rows.keys_nodup

theorem ofRun_nodup (s : EvaluationSpans) (k : String) : ((s.ofRun k).map EvaluationSpan.spanId).Nodup :=
  (all_nodup s).sublist (List.filter_sublist.map _)

theorem mem_ofRun : span ∈ s.ofRun k ↔ s.get span.spanId = some span ∧ span.runId = k := by
  unfold EvaluationSpans.ofRun
  rw [List.mem_filter, mem_all, decide_eq_true_eq]

/-! ## What is listed -/

theorem sortSpans_perm (spans : List EvaluationSpan) : (sortSpans spans).Perm spans :=
  List.perm_insertionSort _ _

end

section
variable {runId k : String} {mark : Bool} {spans : List EvaluationSpan}

/-- The step attempts among the spans. -/
abbrev stepSpans (spans : List EvaluationSpan) : List EvaluationSpan :=
  spans.filter fun span => span.phase = stepTotal

abbrev phaseSpans (spans : List EvaluationSpan) : List EvaluationSpan :=
  spans.filter fun span => span.phase ≠ stepTotal

/-- The phase is filed: under an attempt, or apart. -/
def filed (spans : List EvaluationSpan) (span : EvaluationSpan) : Bool :=
  ((stepSpans spans).map EvaluationSpan.spanId).any span.childOf || span.orphan

theorem attempts_perm : (evaluationReport runId mark spans).attempts.Perm
    ((stepSpans spans).map (attemptReport mark (phaseSpans spans))) := by
  unfold EvaluationReport.attempts evaluationReport
  dsimp only
  refine ((List.perm_insertionSort stepBefore _).flatMap_right _).trans ?_
  rw [List.flatMap_map]
  have hflat : ∀ groups : List ((Option ℤ × Option String) × List EvaluationSpan),
      (groups.flatMap fun g => g.2.map (attemptReport mark (phaseSpans spans))) =
        (groups.flatMap Prod.snd).map (attemptReport mark (phaseSpans spans)) := by
    intro groups
    rw [List.map_flatMap]
  rw [hflat]
  exact ((flatMap_groupOn_perm _ _).trans (sortSpans_perm _)).map _

theorem childOf_unique (span : EvaluationSpan) (i j : String) (hi : span.childOf i = true)
    (hj : span.childOf j = true) : i = j := by
  unfold EvaluationSpan.childOf at hi hj
  simp only [Bool.and_eq_true, decide_eq_true_eq] at hi hj
  exact Option.some.inj (hi.1.symm.trans hj.1)

/-- The phases that are listed are those that are filed. -/
theorem phases_perm (runId : String) (mark : Bool) (hn : (spans.map EvaluationSpan.spanId).Nodup) :
    (evaluationReport runId mark spans).phases.Perm
      (((phaseSpans spans).filter (filed spans)).map (spanReportRecord mark)) := by
  have hsteps : ((stepSpans spans).map EvaluationSpan.spanId).Nodup :=
    hn.sublist (List.filter_sublist.map _)
  have hunder : ((evaluationReport runId mark spans).attempts.flatMap AttemptReport.phases).Perm
      (((phaseSpans spans).filter fun span =>
        ((stepSpans spans).map EvaluationSpan.spanId).any span.childOf).map (spanReportRecord mark)) := by
    refine (attempts_perm.flatMap_right _).trans ?_
    rw [List.flatMap_map]
    have hsorted : ((stepSpans spans).flatMap fun step =>
        (attemptReport mark (phaseSpans spans) step).phases).Perm
        ((stepSpans spans).flatMap fun step => ((phaseSpans spans).filter fun span =>
          span.childOf step.spanId).map (spanReportRecord mark)) :=
      List.Perm.flatMap_left _ fun step _ => (sortSpans_perm _).map _
    refine hsorted.trans ?_
    have hids := flatMap_filter_perm childOf_unique hsteps (phaseSpans spans)
    rw [List.flatMap_map] at hids
    have hmap := hids.map (spanReportRecord mark)
    rw [List.map_flatMap] at hmap
    exact hmap
  have hapart : (evaluationReport runId mark spans).orphanPhases.Perm
      (((phaseSpans spans).filter EvaluationSpan.orphan).map (spanReportRecord mark)) :=
    (sortSpans_perm _).map _
  unfold EvaluationReport.phases
  refine (hunder.append hapart).trans ?_
  rw [← List.map_append]
  refine List.Perm.map _ (filter_or_perm fun span _ hchild => ?_)
  obtain ⟨i, -, hi⟩ := List.any_eq_true.1 hchild
  unfold EvaluationSpan.childOf at hi
  simp only [Bool.and_eq_true, decide_eq_true_eq] at hi
  unfold EvaluationSpan.orphan
  rw [hi.1]
  simpa using hi.2

/-- **What is listed.**  Every span once, exactly when every phase is filed. -/
theorem records_perm_iff (runId : String) (mark : Bool) (hn : (spans.map EvaluationSpan.spanId).Nodup) :
    (evaluationReport runId mark spans).records.Perm (spans.map (spanReportRecord mark)) ↔
      ∀ span ∈ phaseSpans spans, filed spans span = true := by
  have hattempts : ((evaluationReport runId mark spans).attempts.map AttemptReport.toSpanReportRecord).Perm
      ((stepSpans spans).map (spanReportRecord mark)) := by
    refine (attempts_perm.map _).trans (.of_eq ?_)
    rw [List.map_map]
    rfl
  have hlisted : (evaluationReport runId mark spans).records.Perm
      ((stepSpans spans ++ (phaseSpans spans).filter (filed spans)).map (spanReportRecord mark)) := by
    unfold EvaluationReport.records
    rw [List.map_append]
    exact hattempts.append (phases_perm runId mark hn)
  have hsplit : (stepSpans spans ++ phaseSpans spans).Perm spans := by
    have h := List.filter_append_perm (fun span : EvaluationSpan => decide (span.phase = stepTotal)) spans
    simpa [stepSpans, phaseSpans] using h
  constructor
  · intro h
    have hlen := (hlisted.symm.trans h).length_eq
    rw [List.length_map, List.length_map, List.length_append, ← hsplit.length_eq, List.length_append] at hlen
    exact List.length_filter_eq_length_iff.1 (by omega)
  · intro h
    rw [List.filter_eq_self.2 h] at hlisted
    exact hlisted.trans (hsplit.map _)

/-! ## Totals -/

theorem totalDuration_perm {l l' : List SpanReportRecord} (h : l.Perm l') : totalDuration l = totalDuration l' :=
  ((h.filter _).map _).sum_eq

theorem sum_filterMap {l : List EvaluationSpan} (ht : ∀ span ∈ l, span.finishedAt.isSome = span.durationMs.isSome) :
    totalDuration (l.map (spanReportRecord mark)) = (l.filterMap EvaluationSpan.durationMs).sum := by
  unfold totalDuration
  induction l with
  | nil => rfl
  | cons span l ih =>
    have hrest := ih fun x hx => ht x (List.mem_cons_of_mem _ hx)
    have hspan := ht span List.mem_cons_self
    rw [List.map_cons]
    cases hd : span.durationMs with
    | none =>
      rw [hd] at hspan
      rw [List.filterMap_cons_none hd, List.filter_cons_of_neg, hrest]
      show ¬ span.finishedAt.isSome = true
      rw [hspan]
      decide
    | some d =>
      rw [hd] at hspan
      rw [List.filterMap_cons_some hd, List.filter_cons_of_pos, List.map_cons, List.sum_cons, List.sum_cons, hrest]
      · show span.durationMs.getD 0 + _ = _
        rw [hd]
        rfl
      · show span.finishedAt.isSome = true
        rw [hspan]
        rfl

theorem phaseTotal_eq (ht : ∀ span ∈ spans, span.finishedAt.isSome = span.durationMs.isSome) (phase : String) :
    phaseTotal ((phaseSpans spans).filter fun span => span.durationMs.isSome) phase =
      totalDuration (((phaseSpans spans).map (spanReportRecord mark)).filter fun p => p.phase = phase) := by
  have hfilter : ((phaseSpans spans).map (spanReportRecord mark)).filter (fun p => decide (p.phase = phase)) =
      ((phaseSpans spans).filter fun span => span.phase = phase).map (spanReportRecord mark) := by
    rw [List.filter_map]
    rfl
  rw [hfilter, sum_filterMap fun span hmem => ht span (List.mem_of_mem_filter (List.mem_of_mem_filter hmem))]
  unfold phaseTotal
  rw [List.filter_comm, List.filterMap_filter]
  congr 1
  refine List.filterMap_congr fun span _ => ?_
  cases span.durationMs <;> rfl

/-- The totals are those of what is listed. -/
theorem accounts_of_filed (runId : String) (mark : Bool) (hn : (spans.map EvaluationSpan.spanId).Nodup)
    (ht : ∀ span ∈ spans, span.finishedAt.isSome = span.durationMs.isSome)
    (h : ∀ span ∈ phaseSpans spans, filed spans span = true) :
    totalDuration ((evaluationReport runId mark spans).attempts.map AttemptReport.toSpanReportRecord) =
        (evaluationReport runId mark spans).completedStepDurationMs ∧
      (∀ entry ∈ (evaluationReport runId mark spans).completedPhaseDurationMs,
        totalDuration ((evaluationReport runId mark spans).phases.filter fun p => p.phase = entry.1) = entry.2) ∧
      ∀ p ∈ (evaluationReport runId mark spans).phases, p.finishedAt.isSome →
        p.phase ∈ (evaluationReport runId mark spans).completedPhaseDurationMs.map Prod.fst := by
  have hphases : (evaluationReport runId mark spans).phases.Perm
      ((phaseSpans spans).map (spanReportRecord mark)) := by
    have hlisted := phases_perm runId mark hn
    rwa [List.filter_eq_self.2 h] at hlisted
  refine ⟨?_, ?_, ?_⟩
  · rw [totalDuration_perm (attempts_perm.map _), List.map_map]
    show totalDuration ((stepSpans spans).map (spanReportRecord mark)) = _
    unfold totalDuration
    rw [List.filter_map, List.map_map]
    rfl
  · intro entry hentry
    obtain ⟨phase, -, rfl⟩ := List.mem_map.1 hentry
    rw [totalDuration_perm (hphases.filter _)]
    exact (phaseTotal_eq ht phase).symm
  · intro p hp hfin
    obtain ⟨span, hspan, rfl⟩ := List.mem_map.1 (hphases.mem_iff.1 hp)
    have hdone : span.durationMs.isSome = true := (ht span (List.mem_of_mem_filter hspan)) ▸ hfin
    have hname : span.phase ∈ (((phaseSpans spans).filter fun span => span.durationMs.isSome).map
        EvaluationSpan.phase).dedup.insertionSort fun a b => a ≤ b := by
      rw [List.mem_insertionSort, List.mem_dedup]
      exact List.mem_map_of_mem (List.mem_filter.2 ⟨hspan, hdone⟩)
    refine List.mem_map.2 ⟨(span.phase, _), List.mem_map_of_mem hname, rfl⟩

/-- Where the attempts stand. -/
theorem attempt_placed {step : StepReport} (hstep : step ∈ (evaluationReport runId mark spans).steps)
    {a : AttemptReport} (ha : a ∈ step.attempts) : ∃ span ∈ stepSpans spans,
      a = attemptReport mark (phaseSpans spans) span ∧ span.stepIndex = step.stepIndex ∧
        span.planItemId = step.planItemId := by
  unfold evaluationReport at hstep
  dsimp only at hstep
  rw [List.mem_insertionSort] at hstep
  obtain ⟨g, hg, rfl⟩ := List.mem_map.1 hstep
  obtain ⟨span, hspan, rfl⟩ := List.mem_map.1 ha
  rw [mem_groupOn _ _ hg] at hspan
  obtain ⟨hmem, hkey⟩ := List.mem_filter.1 hspan
  have hkey : (span.stepIndex, span.planItemId) = g.1 := of_decide_eq_true hkey
  refine ⟨span, (sortSpans_perm _).mem_iff.1 hmem, rfl, ?_, ?_⟩
  · rw [← hkey]
  · rw [← hkey]

theorem phase_placed {a : AttemptReport} {span : EvaluationSpan}
    (ha : a = attemptReport mark (phaseSpans spans) span) {p : SpanReportRecord} (hp : p ∈ a.phases) :
    ∃ phase ∈ phaseSpans spans, p = spanReportRecord mark phase ∧ phase.parentSpanId = some a.spanId := by
  subst ha
  obtain ⟨phase, hphase, rfl⟩ := List.mem_map.1 hp
  obtain ⟨hmem, hchild⟩ := List.mem_filter.1 ((sortSpans_perm _).mem_iff.1 hphase)
  unfold EvaluationSpan.childOf at hchild
  simp only [Bool.and_eq_true, decide_eq_true_eq] at hchild
  exact ⟨phase, hmem, rfl, hchild.1⟩

end

/-! ## A stored run -/

section
variable {s : EvaluationSpans} {runId : String} {mark : Bool}

theorem buildReport_ok (hr : blank runId = false) (s : EvaluationSpans) (mark : Bool) :
    ∃ spans, s.buildEvaluationReport runId mark = .ok (evaluationReport runId mark spans) ∧
      spans.Perm (s.ofRun (strip runId)) := by
  refine ⟨(s.all.filter fun span => span.runId = strip runId).insertionSort fun a b =>
    a.startedAt < b.startedAt ∨ (a.startedAt = b.startedAt ∧ a.spanId ≤ b.spanId), ?_, List.perm_insertionSort _ _⟩
  unfold EvaluationSpans.buildEvaluationReport EvaluationSpans.listEvaluationSpans
  rw [requireNonEmptyStr_run _ hr]
  rfl

/-- Every phase is filed exactly when each that names a parent names an attempt. -/
theorem filed_iff {spans : List EvaluationSpan} {k : String} (h : spans.Perm (s.ofRun k)) :
    (∀ span ∈ phaseSpans spans, filed spans span = true) ↔ s.Parented k := by
  have hone : ∀ span, filed spans span = true ↔ span.orphan = true ∨
      ∃ parent ∈ s.ofRun k, parent.phase = stepTotal ∧ span.childOf parent.spanId = true := by
    intro span
    unfold filed
    rw [Bool.or_eq_true, List.any_map, List.any_eq_true]
    constructor
    · rintro (⟨parent, hparent, hchild⟩ | horphan)
      · obtain ⟨hmem, hphase⟩ := List.mem_filter.1 hparent
        exact .inr ⟨parent, h.mem_iff.1 hmem, of_decide_eq_true hphase, hchild⟩
      · exact .inl horphan
    · rintro (horphan | ⟨parent, hmem, hphase, hchild⟩)
      · exact .inr horphan
      · exact .inl ⟨parent, List.mem_filter.2 ⟨h.mem_iff.2 hmem, decide_eq_true hphase⟩, hchild⟩
  constructor
  · intro hfiled span hspan hphase horphan
    rcases (hone span).1 (hfiled span (List.mem_filter.2 ⟨h.mem_iff.2 hspan, decide_eq_true hphase⟩)) with hap | hp
    · rw [horphan] at hap
      cases hap
    · exact hp
  · intro hparented span hspan
    obtain ⟨hmem, hphase⟩ := List.mem_filter.1 hspan
    rw [hone]
    cases horphan : span.orphan with
    | true => exact .inl rfl
    | false => exact .inr (hparented span (h.mem_iff.1 hmem) (of_decide_eq_true hphase) horphan)

/-- **A stored run.**  Its report accounts for every span exactly when every phase that names a
parent names a step attempt of the run. -/
theorem accounts_iff (hr : blank runId = false) (ht : s.Timed) :
    ∃ r, s.buildEvaluationReport runId mark = .ok r ∧
      (r.Accounts s (strip runId) mark ↔ s.Parented (strip runId)) := by
  obtain ⟨spans, hbuild, hspans⟩ := buildReport_ok hr s mark
  have hn : (spans.map EvaluationSpan.spanId).Nodup := (hspans.map _).nodup_iff.2 (ofRun_nodup s _)
  refine ⟨_, hbuild, ?_⟩
  rw [← filed_iff hspans]
  constructor
  · intro h
    exact (records_perm_iff runId mark hn).1 (h.once.trans (hspans.map _).symm)
  · intro h
    have hall : ∀ span ∈ spans, span.finishedAt.isSome = span.durationMs.isSome := fun span hspan =>
      ht span (List.mem_of_mem_filter (hspans.mem_iff.1 hspan))
    have honce := (records_perm_iff runId mark hn).2 h
    obtain ⟨hsteps, hphases, hnames⟩ := accounts_of_filed runId mark hn hall h
    refine ⟨honce.trans (hspans.map _), ?_, ?_, ?_, ?_, hsteps, hphases, hnames⟩
    · intro step hstep a ha
      obtain ⟨span, hspan, rfl, hindex, hitem⟩ := attempt_placed hstep ha
      obtain ⟨hmem, hphase⟩ := List.mem_filter.1 hspan
      exact ⟨span, hspans.mem_iff.1 hmem, rfl, of_decide_eq_true hphase, hindex, hitem⟩
    · intro a ha p hp
      obtain ⟨step, hstep, ha⟩ := List.mem_flatMap.1 ha
      obtain ⟨span, -, hattempt, -⟩ := attempt_placed hstep ha
      obtain ⟨phase, hphase, hrecord, hparent⟩ := phase_placed hattempt hp
      exact ⟨phase, hspans.mem_iff.1 (List.mem_of_mem_filter hphase), hrecord, hparent⟩
    · intro p hp
      obtain ⟨phase, hphase, rfl⟩ := List.mem_map.1 hp
      obtain ⟨hmem, horphan⟩ := List.mem_filter.1 ((sortSpans_perm _).mem_iff.1 hphase)
      exact ⟨phase, hspans.mem_iff.1 (List.mem_of_mem_filter hmem), rfl, horphan⟩
    · have hlen := honce.length_eq
      rw [List.length_map] at hlen
      exact hlen

end

/-! ## What an operation stores -/

/-- A row is started under a fresh id, or one that is open is finished. -/
inductive Changed (s : EvaluationSpans) : EvaluationSpans → Prop
  | same : Changed s s
  | started (a : SpanStart) (amb : Ambient) (hfresh : s.get (a.row amb).spanId = none)
      (hn : 0 < a.attemptNo) : Changed s (s.put (a.row amb))
  | finished (f : SpanFinish) (amb : Ambient) (existing : EvaluationSpan)
      (hget : s.get existing.spanId = some existing) (hopen : existing.finishedAt = none)
      (hstatus : strip f.status ∈ ["succeeded", "failed", "interrupted"]) :
      Changed s (s.put (f.row amb existing))

section
variable {s s' : EvaluationSpans}

theorem startEvaluationSpan_ok {amb : Ambient} {a : SpanStart} {r : EvaluationSpan × EvaluationSpans} :
    startEvaluationSpan amb a s = .ok r ↔ blank a.runId = false ∧ blank a.phase = false ∧
      (∀ n ∈ a.stepIndex, 0 ≤ n) ∧ 0 < a.attemptNo ∧ s.get (a.row amb).spanId = none ∧
      r = (a.row amb, s.put (a.row amb)) := by
  unfold startEvaluationSpan
  simp only [bind_ok, lift_ok, read_ok, write_ok, require_ok, pure_ok, requireNonEmptyStr_ok, raiseIf_ok,
    Option.isNone_iff_eq_none]
  constructor
  · rintro ⟨_, _, ⟨⟨h1, -⟩, rfl⟩, _, _, ⟨⟨h2, -⟩, rfl⟩, _, _, ⟨h3, rfl⟩, _, _, ⟨h4, rfl⟩, _, _, h5, _, _, ⟨h6, h7⟩,
      _, _, h8, h9⟩
    cases h5
    cases h7
    cases h8
    refine ⟨h1, h2, fun n hn => not_lt.1 fun hneg => h3 ⟨n, hn, hneg⟩, not_le.1 h4, h6, h9⟩
  · rintro ⟨h1, h2, h3, h4, h5, rfl⟩
    refine ⟨_, s, ⟨⟨h1, rfl⟩, rfl⟩, _, s, ⟨⟨h2, rfl⟩, rfl⟩, (), s, ⟨?_, rfl⟩, (), s, ⟨not_le.2 h4, rfl⟩, s, s, rfl,
      (), s, ⟨h5, rfl⟩, (), _, rfl, rfl⟩
    rintro ⟨n, hn, hneg⟩
    exact absurd (h3 n hn) (not_le.2 hneg)

theorem finishEvaluationSpan_ok {amb : Ambient} {f : SpanFinish} {span : EvaluationSpan}
    (h : finishEvaluationSpan amb f s = .ok (span, s')) : ∃ existing, s.get (strip f.spanId) = some existing ∧
      ((existing.finishedAt.isSome = true ∧ s' = s) ∨
        (existing.finishedAt = none ∧ strip f.status ∈ ["succeeded", "failed", "interrupted"] ∧
          s' = s.put (f.row amb existing))) := by
  unfold finishEvaluationSpan at h
  simp only [bind_ok, lift_ok, read_ok, requireNonEmptyStr_ok, raiseIf_ok, not_not] at h
  obtain ⟨_, s1, ⟨⟨-, rfl⟩, hs1⟩, _, s2, ⟨⟨-, rfl⟩, hs2⟩, _, s3, ⟨hstatus, hs3⟩, _, _, hread, h⟩ := h
  cases hread
  have hsame : s3 = s := hs3.trans (hs2.trans hs1)
  rw [hsame] at h
  cases hget : s.get (strip f.spanId) with
  | none =>
    rw [hget] at h
    cases h
  | some existing =>
    rw [hget] at h
    dsimp only at h
    refine ⟨existing, rfl, ?_⟩
    cases hfin : existing.finishedAt with
    | some t =>
      rw [hfin] at h
      cases pure_ok.1 h
      exact .inl ⟨rfl, rfl⟩
    | none =>
      rw [hfin] at h
      obtain ⟨_, _, hw, hp⟩ := bind_ok.1 h
      cases write_ok.1 hw
      cases pure_ok.1 hp
      exact .inr ⟨rfl, hstatus, rfl⟩

theorem sem_start {a : SpanStart} {r : Except PyError EvaluationSpan}
    (h : evaluationSem s (.start a) r s') : (s' = s ∧ ∃ e, r = .error e) ∨
      ∃ amb, s.get (a.row amb).spanId = none ∧ 0 < a.attemptNo ∧ r = .ok (a.row amb) ∧ s' = s.put (a.row amb) := by
  obtain ⟨amb, h⟩ := h
  cases hx : startEvaluationSpan amb a s with
  | error e =>
    rw [hx] at h
    exact .inl ⟨h.2, e, h.1⟩
  | ok p =>
    obtain ⟨span, t⟩ := p
    rw [hx] at h
    obtain ⟨-, -, -, hn, hfresh, hrow⟩ := startEvaluationSpan_ok.1 hx
    cases hrow
    exact .inr ⟨amb, hfresh, hn, h.1, h.2⟩

theorem sem_finish {f : SpanFinish} {r : Except PyError EvaluationSpan}
    (h : evaluationSem s (.finish f) r s') : s' = s ∨ ∃ amb existing,
      s.get existing.spanId = some existing ∧ existing.finishedAt = none ∧
        strip f.status ∈ ["succeeded", "failed", "interrupted"] ∧ s' = s.put (f.row amb existing) := by
  obtain ⟨amb, h⟩ := h
  cases hx : finishEvaluationSpan amb f s with
  | error e =>
    rw [hx] at h
    exact .inl h.2
  | ok p =>
    obtain ⟨span, t⟩ := p
    rw [hx] at h
    obtain ⟨-, rfl⟩ := h
    obtain ⟨existing, hget, ⟨-, rfl⟩ | ⟨hopen, hstatus, rfl⟩⟩ := finishEvaluationSpan_ok hx
    · exact .inl rfl
    · have hkey := Table.key_of_get hget
      exact .inr ⟨amb, existing, by rw [hkey]; exact hget, hopen, hstatus, rfl⟩

/-- Every operation changes the table by a start or a finish, or not at all. -/
theorem sem_changed {o : EvaluationOp} {r : Except PyError o.Res} (h : evaluationSem s o r s') : Changed s s' := by
  cases o with
  | nextAttemptNo runId stepIndex planItemId =>
    obtain ⟨-, rfl⟩ := h
    exact .same
  | start a =>
    rcases sem_start h with ⟨rfl, -⟩ | ⟨amb, hfresh, hn, -, rfl⟩
    · exact .same
    · exact .started a amb hfresh hn
  | finish f =>
    rcases sem_finish h with rfl | ⟨amb, existing, hget, hopen, hstatus, rfl⟩
    · exact .same
    · exact .finished f amb existing hget hopen hstatus

end

/-! ## Calls -/

section
variable {s s' : EvaluationSpans} {hs : List EvaluationSpanHandle}
  {cs : List (EvaluationSpanHandle × EvaluationSpanHandle)}

/-- A step that was started stands in the table without a parent; one that was not left it alone. -/
theorem startStep_runs {a : StepStart} {x : Except PyError EvaluationSpanHandle}
    (h : Runs evaluationSem s (startStep a) s' (.ret x)) : (s' = s ∧ ∃ e, x = .error e) ∨
      ∃ b amb, b.parentSpanId = none ∧ b.phase = stepTotal ∧ s.get (SpanStart.row b amb).spanId = none ∧
        x = .ok (b.row amb).handle ∧ s' = s.put (b.row amb) := by
  rcases Runs.of_op h with ⟨-, hx⟩ | ⟨r, s1, ⟨hnext, rfl⟩, h⟩
  · cases hx
  cases r with
  | error e =>
    obtain ⟨rfl, hx⟩ := Runs.of_ret h
    cases hx
    exact .inl ⟨rfl, e, rfl⟩
  | ok n =>
    rcases Runs.of_op h with ⟨-, hx⟩ | ⟨r, s2, hstart, h⟩
    · cases hx
    rcases sem_start hstart with ⟨rfl, e, rfl⟩ | ⟨amb, hfresh, -, rfl, rfl⟩
    · obtain ⟨rfl, hx⟩ := Runs.of_ret h
      cases hx
      exact .inl ⟨rfl, e, rfl⟩
    · obtain ⟨rfl, hx⟩ := Runs.of_ret h
      cases hx
      exact .inr ⟨_, amb, rfl, rfl, hfresh, rfl, rfl⟩

theorem startPhase_runs {a : PhaseStart} {x : Except PyError EvaluationSpanHandle}
    (h : Runs evaluationSem s (startPhase a) s' (.ret x)) : (s' = s ∧ ∃ e, x = .error e) ∨
      ∃ amb, s.get (a.span.row amb).spanId = none ∧ x = .ok (a.span.row amb).handle ∧
        s' = s.put (a.span.row amb) := by
  rcases Runs.of_op h with ⟨-, hx⟩ | ⟨r, s1, hstart, h⟩
  · cases hx
  rcases sem_start hstart with ⟨rfl, e, rfl⟩ | ⟨amb, hfresh, -, rfl, rfl⟩
  · obtain ⟨rfl, hx⟩ := Runs.of_ret h
    cases hx
    exact .inl ⟨rfl, e, rfl⟩
  · obtain ⟨rfl, hx⟩ := Runs.of_ret h
    cases hx
    exact .inr ⟨amb, hfresh, rfl, rfl⟩

theorem finishSpan_runs {f : SpanFinish} {x : Except PyError EvaluationSpan}
    (h : Runs evaluationSem s (finishSpan f) s' (.ret x)) : s' = s ∨ ∃ amb existing,
      s.get existing.spanId = some existing ∧ s' = s.put (f.row amb existing) := by
  rcases Runs.of_op h with ⟨-, hx⟩ | ⟨r, s1, hfinish, h⟩
  · cases hx
  have hend : s' = s1 := by
    cases r with
    | error e => exact (Runs.of_ret h).1
    | ok span => exact (Runs.of_ret h).1
  rw [hend]
  rcases sem_finish hfinish with rfl | ⟨amb, existing, hget, -, -, rfl⟩
  · exact .inl rfl
  · exact .inr ⟨amb, existing, hget, rfl⟩

/-- Every row is an attempt without a parent, or a phase that was started under a returned handle. -/
structure Family (s : EvaluationSpans) (hs : List EvaluationSpanHandle)
    (cs : List (EvaluationSpanHandle × EvaluationSpanHandle)) : Prop where
  handles : ∀ x ∈ hs, ∃ row, s.get x.spanId = some row ∧ row.handle = x
  children : ∀ c ∈ cs, c.1 ∈ hs ∧ c.2 ∈ hs ∧ c.1.parentSpanId = some c.2.spanId ∧ c.1.runId = c.2.runId
  rows : ∀ row, s.get row.spanId = some row →
    (row.phase = stepTotal ∧ row.parentSpanId = none) ∨ ∃ p, (row.handle, p) ∈ cs
  named : ∀ row, s.get row.spanId = some row → row.spanId ≠ "" ∧ Trimmed row.runId
  timed : ∀ row, s.get row.spanId = some row → row.finishedAt.isSome = row.durationMs.isSome

theorem row_id_ne (a : SpanStart) (amb : Ambient) : (a.row amb).spanId ≠ "" := by
  intro h
  have hlen := congrArg String.length h
  have hid : (a.row amb).spanId = "eval_" ++ amb.uuid := rfl
  rw [hid, String.length_append] at hlen
  have hprefix : "eval_".length = 5 := by decide
  have hempty : "".length = 0 := by decide
  omega

/-- A row is started. -/
theorem Family.started (h : Family s hs cs) {a : SpanStart} {amb : Ambient}
    (hfresh : s.get (a.row amb).spanId = none) {new : List (EvaluationSpanHandle × EvaluationSpanHandle)}
    (hnew : (new = [] ∧ strip a.phase = stepTotal ∧ a.parentSpanId = none) ∨ ∃ p ∈ hs,
      new = [((a.row amb).handle, p)] ∧ a.parentSpanId = some p.spanId ∧ a.runId = p.runId) :
    Family (s.put (a.row amb)) (hs ++ [(a.row amb).handle]) (cs ++ new) := by
  have hold : ∀ id row, s.get id = some row → (s.put (a.row amb)).get id = some row := by
    intro id row hrow
    rw [Table.get_put_ne]
    · exact hrow
    · rintro rfl
      rw [hfresh] at hrow
      cases hrow
  have hself : (s.put (a.row amb)).get (a.row amb).spanId = some (a.row amb) := Table.get_put_self _ _
  have hcases : ∀ row, (s.put (a.row amb)).get row.spanId = some row →
      row = a.row amb ∨ s.get row.spanId = some row := by
    intro row hrow
    rw [Table.get_put] at hrow
    split at hrow
    · cases hrow
      exact .inl rfl
    · exact .inr hrow
  refine ⟨?_, ?_, ?_, ?_, ?_⟩
  · intro x hx
    rcases List.mem_append.1 hx with hx | hx
    · obtain ⟨row, hrow, hhandle⟩ := h.handles x hx
      exact ⟨row, hold _ _ hrow, hhandle⟩
    · rw [List.mem_singleton.1 hx]
      exact ⟨_, hself, rfl⟩
  · intro c hc
    rcases List.mem_append.1 hc with hc | hc
    · obtain ⟨h1, h2, h3⟩ := h.children c hc
      exact ⟨List.mem_append_left _ h1, List.mem_append_left _ h2, h3⟩
    · rcases hnew with ⟨rfl, -⟩ | ⟨p, hp, rfl, hparent, hrun⟩
      · cases hc
      · rw [List.mem_singleton.1 hc]
        refine ⟨List.mem_append_right _ (List.mem_singleton_self _), List.mem_append_left _ hp, hparent, ?_⟩
        obtain ⟨row, hrow, rfl⟩ := h.handles p hp
        have hkey : row.spanId = row.handle.spanId := rfl
        have htrim : Trimmed row.runId := (h.named row (hkey ▸ hrow)).2
        show strip a.runId = row.runId
        rw [hrun]
        exact htrim
  · intro row hrow
    rcases hcases row hrow with rfl | hrow
    · rcases hnew with ⟨-, hphase, hnone⟩ | ⟨p, -, rfl, -, -⟩
      · exact .inl ⟨hphase, hnone⟩
      · exact .inr ⟨p, List.mem_append_right _ (List.mem_singleton_self _)⟩
    · rcases h.rows row hrow with hstep | ⟨p, hp⟩
      · exact .inl hstep
      · exact .inr ⟨p, List.mem_append_left _ hp⟩
  · intro row hrow
    rcases hcases row hrow with rfl | hrow
    · exact ⟨row_id_ne a amb, trimmed_strip _⟩
    · exact h.named row hrow
  · intro row hrow
    rcases hcases row hrow with rfl | hrow
    · rfl
    · exact h.timed row hrow

/-- A row is finished: its handle stays. -/
theorem Family.finished (h : Family s hs cs) {f : SpanFinish} {amb : Ambient} {existing : EvaluationSpan}
    (hget : s.get existing.spanId = some existing) : Family (s.put (f.row amb existing)) hs cs := by
  have hcases : ∀ row, (s.put (f.row amb existing)).get row.spanId = some row →
      row = f.row amb existing ∨ s.get row.spanId = some row := by
    intro row hrow
    rw [Table.get_put] at hrow
    split at hrow
    · cases hrow
      exact .inl rfl
    · exact .inr hrow
  refine ⟨?_, h.children, ?_, ?_, ?_⟩
  · intro x hx
    obtain ⟨row, hrow, rfl⟩ := h.handles x hx
    rw [Table.get_put]
    split
    · next hid =>
      have hsame : existing = row := by
        have hid : row.handle.spanId = existing.spanId := hid
        rw [hid, hget] at hrow
        cases hrow
        rfl
      subst hsame
      exact ⟨_, rfl, rfl⟩
    · exact ⟨row, hrow, rfl⟩
  · intro row hrow
    rcases hcases row hrow with rfl | hrow
    · exact h.rows existing hget
    · exact h.rows row hrow
  · intro row hrow
    rcases hcases row hrow with rfl | hrow
    · exact h.named existing hget
    · exact h.named row hrow
  · intro row hrow
    rcases hcases row hrow with rfl | hrow
    · rfl
    · exact h.timed row hrow

theorem RecordedSpans.family (h : RecordedSpans s hs cs) : Family s hs cs := by
  induction h with
  | empty =>
    refine ⟨fun x hx => absurd hx List.not_mem_nil, fun c hc => absurd hc List.not_mem_nil, ?_, ?_, ?_⟩
    all_goals
      intro row hrow
      rw [Table.get_empty] at hrow
      cases hrow
  | call h c hc x hr ih =>
    cases c with
    | startStep a =>
      rcases startStep_runs hr with ⟨rfl, e, rfl⟩ | ⟨b, amb, hnone, hphase, hfresh, rfl, rfl⟩
      · simpa [RecorderCall.returned, RecorderCall.child] using ih
      · have hstep : strip b.phase = stepTotal := by
          rw [hphase]
          decide +kernel
        exact ih.started hfresh (.inl ⟨rfl, hstep, hnone⟩)
    | startPhase a =>
      rcases startPhase_runs hr with ⟨rfl, e, rfl⟩ | ⟨amb, hfresh, rfl, rfl⟩
      · simpa [RecorderCall.returned, RecorderCall.child] using ih
      · exact ih.started hfresh (.inr ⟨a.parentStep, hc a rfl, rfl, rfl, rfl⟩)
    | finishSpan f =>
      have hnothing : ∀ x, RecorderCall.returned (.finishSpan f) x = [] ∧
          RecorderCall.child (.finishSpan f) x = [] := by
        intro x
        cases x <;> exact ⟨rfl, rfl⟩
      rw [(hnothing x).1, (hnothing x).2, List.append_nil, List.append_nil]
      rcases finishSpan_runs hr with rfl | ⟨amb, existing, hget, rfl⟩
      · exact ih
      · exact ih.finished hget

/-- Every phase has an attempt above it exactly when none was started under a phase. -/
theorem Family.parented_iff (h : Family s hs cs) (k : String) : s.Parented k ↔
    ∀ c ∈ cs, c.1.runId = k → c.1.phase ≠ stepTotal → c.2.phase = stepTotal := by
  constructor
  · intro hparented c hc hrun hphase
    obtain ⟨h1, h2, hparent, -⟩ := h.children c hc
    obtain ⟨row, hrow, hchild⟩ := h.handles c.1 h1
    obtain ⟨above, habove, hhandle⟩ := h.handles c.2 h2
    rw [← hchild] at hrow hrun hphase hparent
    rw [← hhandle] at habove hparent ⊢
    have hparent : row.parentSpanId = some above.spanId := hparent
    have horphan : row.orphan = false := by
      unfold EvaluationSpan.orphan
      rw [hparent]
      simpa using (h.named above habove).1
    obtain ⟨parent, hmem, hstep, hunder⟩ := hparented row (mem_ofRun.2 ⟨hrow, hrun⟩) hphase horphan
    unfold EvaluationSpan.childOf at hunder
    simp only [Bool.and_eq_true, decide_eq_true_eq, hparent, Option.some.injEq] at hunder
    have hsame := (mem_ofRun.1 hmem).1
    have habove : s.get above.spanId = some above := habove
    rw [← hunder.1, habove] at hsame
    cases hsame
    exact hstep
  · intro hcs row hrow hphase horphan
    obtain ⟨hget, hrun⟩ := mem_ofRun.1 hrow
    rcases h.rows row hget with ⟨hstep, -⟩ | ⟨p, hp⟩
    · exact absurd hstep hphase
    · obtain ⟨-, h2, hparent, hsame⟩ := h.children _ hp
      obtain ⟨above, habove, rfl⟩ := h.handles p h2
      have habove : s.get above.spanId = some above := habove
      have hparent : row.parentSpanId = some above.spanId := hparent
      have hsame : row.runId = above.runId := hsame
      refine ⟨above, mem_ofRun.2 ⟨habove, hsame.symm.trans hrun⟩, hcs _ hp hrun hphase, ?_⟩
      unfold EvaluationSpan.childOf
      rw [hparent]
      simpa using (h.named above habove).1

end

/-- **Evaluation reports.**  After any calls of recorders, the report of a run lists every span of it
once, where it belongs, with totals to match, exactly when no phase of the run was started under a
handle that is itself a phase. -/
theorem report_accounts {s : EvaluationSpans} {hs : List EvaluationSpanHandle}
    {cs : List (EvaluationSpanHandle × EvaluationSpanHandle)} (h : RecordedSpans s hs cs) (runId : String)
    (hr : blank runId = false) (mark : Bool) : ∃ r, s.buildEvaluationReport runId mark = .ok r ∧
      (r.Accounts s (strip runId) mark ↔ ∀ c ∈ cs, c.1.runId = strip runId →
        c.1.phase ≠ stepTotal → c.2.phase = stepTotal) := by
  have hfamily := h.family
  have htimed : s.Timed := fun span hspan => hfamily.timed span (mem_all.1 hspan)
  obtain ⟨r, hbuild, hiff⟩ := accounts_iff hr htimed
  exact ⟨r, hbuild, hiff.trans (hfamily.parented_iff _)⟩

/-! ## A phase of a phase -/

/-- A surrounding with this `uuid4()`. -/
def uuidAmbient (uuid : String) (h : blank uuid = false := by decide +kernel) : Ambient := ⟨0, uuid, h⟩

/-- The attempt, a phase of it, and a phase of that phase. -/
def tripStep : SpanStart :=
  { runId := "trip", stepIndex := some 0, planItemId := some "step_0", attemptNo := 1, phase := stepTotal }

def tripPhase : PhaseStart := { phase := "tool_transaction", parentStep := (tripStep.row (uuidAmbient "a")).handle }

def nestedPhase : PhaseStart :=
  { phase := "retry", parentStep := (tripPhase.span.row (uuidAmbient "b")).handle }

def tripSpans : EvaluationSpans :=
  (Table.put ∅ (tripStep.row (uuidAmbient "a"))).put (tripPhase.span.row (uuidAmbient "b"))

def nestedSpans : EvaluationSpans := tripSpans.put (nestedPhase.span.row (uuidAmbient "c"))

theorem startEvaluationSpan_runs {s : EvaluationSpans} {a : SpanStart} {amb : Ambient}
    (h : (startEvaluationSpan amb a s).toBool = true) :
    evaluationSem s (.start a) (.ok (a.row amb)) (s.put (a.row amb)) := by
  refine ⟨amb, ?_⟩
  cases hx : startEvaluationSpan amb a s with
  | error e =>
    rw [hx] at h
    cases h
  | ok p =>
    obtain ⟨-, -, -, -, -, hp⟩ := startEvaluationSpan_ok.1 hx
    rw [hp]
    exact ⟨rfl, rfl⟩

theorem tripSpans_recorded : RecordedSpans tripSpans
    [(tripStep.row (uuidAmbient "a")).handle, (tripPhase.span.row (uuidAmbient "b")).handle]
    [((tripPhase.span.row (uuidAmbient "b")).handle, (tripStep.row (uuidAmbient "a")).handle)] := by
  have hstep : Runs evaluationSem ∅ (startStep { runId := "trip", stepIndex := 0, planItemId := some "step_0" })
      (Table.put ∅ (tripStep.row (uuidAmbient "a"))) (.ret (.ok (tripStep.row (uuidAmbient "a")).handle)) :=
    .step (r := .ok 1) ⟨rfl, rfl⟩ (.step (startEvaluationSpan_runs (by decide +kernel)) (.here _ _))
  have hphase : Runs evaluationSem (Table.put ∅ (tripStep.row (uuidAmbient "a"))) (startPhase tripPhase) tripSpans
      (.ret (.ok (tripPhase.span.row (uuidAmbient "b")).handle)) :=
    .step (startEvaluationSpan_runs (by decide +kernel)) (.here _ _)
  refine RecordedSpans.call (RecordedSpans.call .empty (.startStep _) (fun a ha => by cases ha) _ hstep)
    (.startPhase tripPhase) (fun a ha => ?_) _ hphase
  cases ha
  exact List.mem_singleton_self _

theorem nestedSpans_recorded : ∃ hs cs, RecordedSpans nestedSpans hs cs := by
  have hphase : Runs evaluationSem tripSpans (startPhase nestedPhase) nestedSpans
      (.ret (.ok (nestedPhase.span.row (uuidAmbient "c")).handle)) :=
    .step (startEvaluationSpan_runs (by decide +kernel)) (.here _ _)
  refine ⟨_, _, RecordedSpans.call tripSpans_recorded (.startPhase nestedPhase) (fun a ha => ?_) _ hphase⟩
  cases ha
  exact List.mem_cons_of_mem _ List.mem_cons_self

/-- Three spans are counted and two are listed. -/
theorem nested_phase_lost : ∃ hs cs, RecordedSpans nestedSpans hs cs ∧ ∃ r,
    nestedSpans.buildEvaluationReport "trip" true = .ok r ∧ r.spanCount = 3 ∧ r.records.length = 2 ∧
      ¬ r.Accounts nestedSpans "trip" true := by
  obtain ⟨hs, cs, hrec⟩ := nestedSpans_recorded
  have hcounts : (match nestedSpans.buildEvaluationReport "trip" true with
      | .ok r => decide (r.spanCount = 3) && decide (r.records.length = 2)
      | .error _ => false) = true := by decide +kernel
  cases hbuild : nestedSpans.buildEvaluationReport "trip" true with
  | error e =>
    rw [hbuild] at hcounts
    cases hcounts
  | ok r =>
    rw [hbuild] at hcounts
    obtain ⟨hcount, hlisted⟩ := Bool.and_eq_true_iff.1 hcounts
    have hcount := of_decide_eq_true hcount
    have hlisted := of_decide_eq_true hlisted
    refine ⟨hs, cs, hrec, r, rfl, hcount, hlisted, fun h => ?_⟩
    have := h.count
    omega

/-- The report of an attempt with one phase accounts for both. -/
theorem report_accounts_trip : ∃ r, tripSpans.buildEvaluationReport "trip" true = .ok r ∧
    r.Accounts tripSpans (strip "trip") true := by
  obtain ⟨r, hbuild, hiff⟩ := report_accounts tripSpans_recorded "trip" (by decide +kernel) true
  refine ⟨r, hbuild, hiff.2 fun c hc _ _ => ?_⟩
  rw [List.mem_singleton.1 hc]
  show strip stepTotal = stepTotal
  decide +kernel

end Raef
