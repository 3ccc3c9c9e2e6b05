import Raef.Proofs.Evaluation

/-!
# How step attempts are numbered

A recorder reads the next number of a step in one transaction and stores the attempt in another.
Two recorders that read before either stores get the same number.  Where no attempt is stored while
another recorder holds a number of the same step, the numbers of every step are `1..k`.

    the numbers, over any pool of recorders, threads and restarts     (reach_numbered)
    a finished span is never written again                            (reach_finished)
    the report has the attempts of a step in the order of their
      numbers, and shows the open ones as interrupted                 (report_lists)
    together                                                          (attempts_numbered)
-/

namespace Raef

open Text Txn Program

/-! ## Statements -/

/-- The step a start belongs to. -/
def SpanStart.key (a : SpanStart) : StepKey := ⟨strip a.runId, a.stepIndex, a.planItemId⟩

def EvaluationSpans.numbers (s : EvaluationSpans) (key : StepKey) : List ℤ :=
  (s.attempts key).map EvaluationSpan.attemptNo

/-- `1..k`, in order. -/
def oneTo (k : ℕ) : List ℤ := (List.range k).map fun n : ℕ => (n : ℤ) + 1

/-- The attempts of every step carry the numbers `1..k`, each once. -/
def EvaluationSpans.Numbered (s : EvaluationSpans) : Prop :=
  ∀ key, (s.numbers key).Perm (oneTo (s.attempts key).length)

abbrev RecorderPool {ι : Type} (calls : ι → RecorderCall) : Type :=
  Pool ι EvaluationOp EvaluationOp.Res PyError fun i => (calls i).Result

/-- No table, and every call still to be made. -/
def recorders {ι : Type} (calls : ι → RecorderCall) : EvaluationSpans × RecorderPool calls :=
  (∅, fun i => some (calls i).program)

/-- No attempt is stored while another call holds a number of the same step that it has not stored. -/
def Apart {ι : Type} {calls : ι → RecorderCall} (c : EvaluationSpans × RecorderPool calls) (i : ι)
    (o : EvaluationOp) : Prop :=
  ∀ a, o = .start a → strip a.phase = stepTotal → ∀ j, j ≠ i → ∀ b k,
    c.2 j = some (.op (.start b) k) → strip b.phase = stepTotal → b.key ≠ a.key

def StepReport.key (k : String) (step : StepReport) : StepKey := ⟨k, step.stepIndex, step.planItemId⟩

/-- Every step of the run stands in the report once, with its attempts in the order of their numbers. -/
structure EvaluationReport.Lists (r : EvaluationReport) (s : EvaluationSpans) (k : String) (mark : Bool) :
    Prop where
  steps : (r.steps.map (StepReport.key k)).Nodup
  present : ∀ key : StepKey, key.runId = k → s.attempts key ≠ [] → key ∈ r.steps.map (StepReport.key k)
  attempts : ∀ step ∈ r.steps, (step.attempts.map AttemptReport.toSpanReportRecord).Perm
    ((s.attempts (step.key k)).map (spanReportRecord mark))
  ordered : ∀ step ∈ r.steps, (step.attempts.map fun a => a.attemptNo).Pairwise (· ≤ ·)
  interrupted : ∀ step ∈ r.steps, ∀ a ∈ step.attempts, a.status = "interrupted" ↔
    (a.finishedAt = none ∧ mark = true) ∨ (a.finishedAt.isSome ∧ a.recordedStatus = "interrupted")

/-! ## The table -/

section
variable {s s' : EvaluationSpans} {row old : EvaluationSpan} (key : StepKey)

theorem all_put_fresh (h : s.get row.spanId = none) : EvaluationSpans.all (s.put row) = row :: s.all := by
  have hnotin : row.spanId ∉ s.rows := AList.lookup_eq_none.1 h
  unfold EvaluationSpans.all Table.put
  dsimp only
  rw [AList.entries_insert_of_notMem hnotin, List.map_cons]

/-- A row written over another takes its place. -/
theorem all_put_over (h : s.get row.spanId = some old) :
    ∃ rest, s.all.Perm (old :: rest) ∧ (EvaluationSpans.all (s.put row)).Perm (row :: rest) := by
  have hmem : row.spanId ∈ s.rows.entries.keys := AList.mem_keys.1 (AList.lookup_isSome.1 (by
    show (s.get row.spanId).isSome = true
    rw [h]
    rfl))
  obtain ⟨old', before, after, -, hentries, herase⟩ := List.exists_of_kerase hmem
  have hold : old' = old := by
    have hget := (Table.mem_entries_iff s row.spanId old').1 (hentries ▸ List.mem_append_right _ List.mem_cons_self)
    rw [h] at hget
    cases hget
    rfl
  subst hold
  refine ⟨(before ++ after).map fun e => e.2, ?_, ?_⟩
  · unfold EvaluationSpans.all
    rw [hentries]
    exact List.perm_middle.map _
  · unfold EvaluationSpans.all Table.put
    dsimp only
    rw [AList.entries_insert, herase, List.map_cons]

theorem numbers_length (s : EvaluationSpans) : (s.numbers key).length = (s.attempts key).length := List.length_map _

theorem numbers_put_fresh (h : s.get row.spanId = none) : EvaluationSpans.numbers (s.put row) key =
    if row.key = key ∧ row.phase = stepTotal then row.attemptNo :: s.numbers key else s.numbers key := by
  unfold EvaluationSpans.numbers EvaluationSpans.attempts
  rw [all_put_fresh h]
  split
  · next hrow =>
    rw [List.filter_cons_of_pos (by simpa using hrow), List.map_cons]
  · next hrow =>
    rw [List.filter_cons_of_neg (by simpa using hrow)]

/-- What keeps its handle keeps its number. -/
theorem numbers_put_over (h : s.get row.spanId = some old) (hhandle : row.handle = old.handle) :
    (EvaluationSpans.numbers (s.put row) key).Perm (s.numbers key) := by
  obtain ⟨rest, hbefore, hafter⟩ := all_put_over h
  obtain ⟨-, hrun, hindex, hitem, hno, hphase, -⟩ := EvaluationSpanHandle.mk.injEq .. ▸ hhandle
  have hkey : row.key = old.key := by
    unfold EvaluationSpan.key
    rw [hrun, hindex, hitem]
  have hnew := (hafter.filter fun span => decide (span.key = key ∧ span.phase = stepTotal)).map
    EvaluationSpan.attemptNo
  have hprev := (hbefore.filter fun span => decide (span.key = key ∧ span.phase = stepTotal)).map
    EvaluationSpan.attemptNo
  refine hnew.trans (.trans (.of_eq ?_) hprev.symm)
  rw [List.filter_cons, List.filter_cons, hkey, hphase]
  split
  · rw [List.map_cons, List.map_cons, hno]
  · rfl

/-! ## Numbers -/

theorem oneTo_succ (k : ℕ) : oneTo (k + 1) = oneTo k ++ [(k : ℤ) + 1] := by
  unfold oneTo
  rw [List.range_succ, List.map_append]
  rfl

theorem mem_oneTo {k : ℕ} {n : ℤ} : n ∈ oneTo k ↔ 1 ≤ n ∧ n ≤ k := by
  unfold oneTo
  rw [List.mem_map]
  constructor
  · rintro ⟨m, hm, rfl⟩
    have := List.mem_range.1 hm
    omega
  · rintro ⟨h1, h2⟩
    exact ⟨(n - 1).toNat, List.mem_range.2 (by omega), by omega⟩

theorem oneTo_sorted (k : ℕ) : (oneTo k).Pairwise (· ≤ ·) := by
  refine List.pairwise_map.2 (List.Pairwise.imp (fun hlt => ?_) List.pairwise_lt_range)
  omega

/-- The number a recorder reads is the next one. -/
theorem next_number {l : List ℤ} {k : ℕ} (h : l.Perm (oneTo k)) : l.max?.getD 0 + 1 = (k : ℤ) + 1 := by
  cases k with
  | zero =>
    have hnil : l = [] := h.eq_nil
    subst hnil
    rfl
  | succ k =>
    have hmax : l.max? = some ((k : ℤ) + 1) := by
      rw [List.max?_eq_some_iff]
      refine ⟨h.mem_iff.2 (mem_oneTo.2 ⟨by omega, by omega⟩), fun n hn => ?_⟩
      have := (mem_oneTo.1 (h.mem_iff.1 hn)).2
      omega
    rw [hmax]
    rfl

theorem nextEvaluationAttemptNo_ok {runId : String} {stepIndex : ℤ} {planItemId : Option String} {n : ℤ}
    (h : nextEvaluationAttemptNo s runId stepIndex planItemId = .ok n) :
    n = (s.numbers ⟨strip runId, some stepIndex, planItemId⟩).max?.getD 0 + 1 := by
  unfold nextEvaluationAttemptNo at h
  cases hrun : requireNonEmptyStr runId "run_id" with
  | error e =>
    rw [hrun] at h
    cases h
  | ok k =>
    obtain ⟨-, rfl⟩ := requireNonEmptyStr_ok.1 hrun
    rw [hrun] at h
    unfold raiseIf at h
    by_cases hneg : stepIndex < 0
    · simp [hneg] at h
      cases h
    · simp [hneg] at h
      cases h
      rfl

/-! ## Steps -/

/-- Only storing an attempt of a step changes its numbers. -/
theorem sem_numbers {o : EvaluationOp} {r : Except PyError o.Res} (h : evaluationSem s o r s')
    (hkey : ∀ a, o = .start a → strip a.phase = stepTotal → a.key ≠ key) :
    (s'.numbers key).Perm (s.numbers key) := by
  cases o with
  | nextAttemptNo runId stepIndex planItemId =>
    obtain ⟨-, rfl⟩ := h
    exact .refl _
  | start a =>
    rcases sem_start h with ⟨rfl, -⟩ | ⟨amb, hfresh, -, -, rfl⟩
    · exact .refl _
    · rw [numbers_put_fresh key hfresh, if_neg]
      rintro ⟨hsame, hphase⟩
      exact hkey a rfl hphase hsame
  | finish f =>
    rcases sem_finish h with rfl | ⟨amb, existing, hget, -, -, rfl⟩
    · exact .refl _
    · exact numbers_put_over key hget rfl

/-- An operation that stores no attempt keeps the numbers. -/
theorem Numbered.other (hn : s.Numbered) {o : EvaluationOp} {r : Except PyError o.Res}
    (h : evaluationSem s o r s') (ho : ∀ a, o = .start a → strip a.phase ≠ stepTotal) : s'.Numbered := by
  intro key
  have hsame := sem_numbers key h fun a ha hphase => absurd hphase (ho a ha)
  rw [← numbers_length, hsame.length_eq, numbers_length]
  exact hsame.trans (hn key)

/-- An attempt stored under the next number of its step. -/
theorem Numbered.store (hn : s.Numbered) {a : SpanStart} {r : Except PyError EvaluationSpan}
    (h : evaluationSem s (.start a) r s') (hphase : strip a.phase = stepTotal)
    (hno : a.attemptNo = (s.attempts a.key).length + 1) : s'.Numbered := by
  intro key
  by_cases hkey : a.key = key
  · subst hkey
    rcases sem_start h with ⟨rfl, -⟩ | ⟨amb, hfresh, -, -, rfl⟩
    · exact hn _
    · have hnew := numbers_put_fresh a.key hfresh
      rw [if_pos ⟨rfl, hphase⟩] at hnew
      rw [← numbers_length, hnew, List.length_cons, numbers_length, oneTo_succ]
      show (a.attemptNo :: _).Perm _
      rw [hno]
      exact (List.perm_append_singleton _ _).symm.trans ((hn _).append_right _)
  · have hsame := sem_numbers key h fun b hb _ => by
      cases hb
      exact hkey
    rw [← numbers_length, hsame.length_eq, numbers_length]
    exact hsame.trans (hn key)

end

/-! ## Pools -/

section
variable {ι : Type} [DecidableEq ι] {calls : ι → RecorderCall}

/-- What a waiting store relies on: the numbers of its step stay. -/
def numbersKept (o : EvaluationOp) (s s' : EvaluationSpans) : Prop :=
  ∀ a, o = .start a → strip a.phase = stepTotal → (s'.numbers a.key).Perm (s.numbers a.key)

/-- What an operation guarantees: the numbers of every step but its own stay. -/
def othersKept (o : EvaluationOp) (s s' : EvaluationSpans) : Prop :=
  ∀ key, (∀ a, o = .start a → strip a.phase = stepTotal → a.key ≠ key) →
    (s'.numbers key).Perm (s.numbers key)

abbrev Numbering {α : Type} (p : EvaluationProg α) (s : EvaluationSpans) : Prop :=
  Alert evaluationSem EvaluationSpans.Numbered numbersKept othersKept (fun _ _ => True) p s

/-- A store that waits with the next number of its step. -/
theorem numbering_storeStep {s : EvaluationSpans} {a : StepStart} {n : ℤ}
    (hno : ∃ k : ℕ, (s.numbers (a.span n).key).length = k ∧ n = (k : ℤ) + 1) : Numbering (storeStep a n) s := by
  intro s1 hkept hn r s2 hs
  obtain ⟨k, hlen, rfl⟩ := hno
  have hphase : strip (a.span ((k : ℤ) + 1)).phase = stepTotal := by
    show strip stepTotal = stepTotal
    decide +kernel
  have hsame := hkept _ rfl hphase
  refine ⟨Numbered.store hn hs hphase ?_, fun key hkey => sem_numbers key hs hkey, ?_⟩
  · rw [← numbers_length, hsame.length_eq, hlen]
    rfl
  · cases r <;> trivial

theorem numbering_startStep (a : StepStart) (s : EvaluationSpans) : Numbering (startStep a) s := by
  intro s1 _ hn r s2 hs
  have hno := hs
  obtain ⟨hnext, rfl⟩ := hs
  refine ⟨hn, fun _ _ => .refl _, ?_⟩
  cases r with
  | error e => trivial
  | ok n =>
    refine numbering_storeStep ⟨_, rfl, ?_⟩
    rw [nextEvaluationAttemptNo_ok hnext.symm, numbers_length]
    exact next_number (hn _)

/-- Every call of a recorder is alert, whatever the table. -/
theorem numbering_program {c : RecorderCall} (hphase : ∀ a, c = .startPhase a → strip a.phase ≠ stepTotal)
    (s : EvaluationSpans) : Numbering c.program s := by
  cases c with
  | startStep a => exact numbering_startStep a s
  | startPhase a =>
    intro s1 _ hn r s2 hs
    refine ⟨Numbered.other hn hs fun b hb => ?_, fun key hkey => sem_numbers key hs hkey, ?_⟩
    · cases hb
      exact hphase a rfl
    · cases r <;> trivial
  | finishSpan f =>
    intro s1 _ hn r s2 hs
    refine ⟨Numbered.other hn hs fun b hb => ?_, fun key hkey => sem_numbers key hs hkey, ?_⟩
    · cases hb
    · cases r <;> trivial

/-- **Numbers.**  Where attempts of a step are stored apart, every step has the numbers `1..k`. -/
theorem reach_numbered (hphase : ∀ i a, calls i = .startPhase a → strip a.phase ≠ stepTotal)
    {c : EvaluationSpans × RecorderPool calls}
    (h : ReachWhen (fun _ => evaluationSem) Apart (recorders calls) c) : c.1.Numbered := by
  refine (reach_alert (I := EvaluationSpans.Numbered) (R := fun _ => numbersKept) (G := fun _ => othersKept)
    (Q := fun _ _ _ => True) ?_ ?_ ?_ ?_ ⟨?_, ?_⟩ h).1
  · exact fun _ _ _ _ _ _ => .refl _
  · exact fun _ _ _ _ _ h1 h2 a ha hp => (h2 a ha hp).trans (h1 a ha hp)
  · exact fun _ _ _ _ _ _ _ _ _ => trivial
  · intro i j o o' s s' pool k hij hadmits hj hg b hb hp
    subst hb
    exact hg b.key fun a ha hpa => (hadmits a ha hpa j hij.symm b k hj hp).symm
  · intro key
    exact .refl _
  · intro i p hp
    cases hp
    exact numbering_program (hphase i) _

/-- What every change of the table keeps holds at every point of a pool. -/
theorem reach_keeps {I : EvaluationSpans → Prop} (hI : ∀ s s', I s → Changed s s' → I s')
    {c c' : EvaluationSpans × RecorderPool calls} (h : Reach (fun _ => evaluationSem) c c') (h0 : I c.1) :
    I c'.1 := by
  induction h with
  | refl => exact h0
  | tail _ hstep ih =>
    cases hstep with
    | crash i => exact ih
    | op hi hs => exact hI _ _ ih (sem_changed hs)

/-- A change leaves the finished spans. -/
theorem Changed.finished_kept {s s' : EvaluationSpans} (h : Changed s s') {id : String} {row : EvaluationSpan}
    (hget : s.get id = some row) (hfin : row.finishedAt.isSome) : s'.get id = some row := by
  cases h with
  | same => exact hget
  | started a amb hfresh _ =>
    rw [Table.get_put_ne]
    · exact hget
    · rintro rfl
      rw [hfresh] at hget
      cases hget
  | finished f amb existing hold hopen _ =>
    rw [Table.get_put_ne]
    · exact hget
    · rintro rfl
      have hold : s.get (f.row amb existing).spanId = some existing := hold
      rw [hold] at hget
      cases hget
      rw [hopen] at hfin
      cases hfin

/-- **Finished spans.**  None is ever written again. -/
theorem reach_finished {c c' : EvaluationSpans × RecorderPool calls} (h : Reach (fun _ => evaluationSem) c c')
    {id : String} {row : EvaluationSpan} (hget : c.1.get id = some row) (hfin : row.finishedAt.isSome) :
    c'.1.get id = some row :=
  reach_keeps (I := fun s => s.get id = some row) (fun _ _ hs hc => hc.finished_kept hs hfin) h hget

/-- What is open is running. -/
def EvaluationSpans.OpenRuns (s : EvaluationSpans) : Prop :=
  ∀ row, s.get row.spanId = some row → row.finishedAt = none → row.status = "running"

theorem Changed.openRuns {s s' : EvaluationSpans} (h : Changed s s') (ho : s.OpenRuns) : s'.OpenRuns := by
  have hput : ∀ new : EvaluationSpan, (new.finishedAt = none → new.status = "running") →
      EvaluationSpans.OpenRuns (s.put new) := by
    intro new hnew row hrow hopen
    rw [Table.get_put] at hrow
    split at hrow
    · cases hrow
      exact hnew hopen
    · exact ho row hrow hopen
  cases h with
  | same => exact ho
  | started a amb _ _ => exact hput _ fun _ => rfl
  | finished f amb existing _ _ _ => exact hput _ fun hopen => by cases hopen

theorem reach_openRuns {c : EvaluationSpans × RecorderPool calls}
    (h : Reach (fun _ => evaluationSem) (recorders calls) c) : c.1.OpenRuns := by
  refine reach_keeps (I := EvaluationSpans.OpenRuns) (fun _ _ ho hc => hc.openRuns ho) h fun row hrow _ => ?_
  cases hrow

end

/-! ## The report -/

section
variable {runId : String} {mark : Bool} {spans : List EvaluationSpan}

theorem interrupted_iff {span : EvaluationSpan} (h : span.finishedAt = none → span.status = "running") :
    (spanReportRecord mark span).status = "interrupted" ↔ (span.finishedAt = none ∧ mark = true) ∨
      (span.finishedAt.isSome ∧ span.status = "interrupted") := by
  unfold spanReportRecord
  dsimp only
  cases hfin : span.finishedAt with
  | none =>
    rw [h hfin]
    cases mark <;> decide +kernel
  | some t => simp

theorem sortSpans_ordered (spans : List EvaluationSpan) :
    (sortSpans spans).Pairwise fun a b => spanSortKey a ≤ spanSortKey b := by
  have : Std.Total fun a b : EvaluationSpan => spanSortKey a ≤ spanSortKey b := ⟨fun a b => le_total _ _⟩
  have : IsTrans EvaluationSpan fun a b => spanSortKey a ≤ spanSortKey b := ⟨fun _ _ _ => le_trans⟩
  exact List.pairwise_insertionSort _ _

/-- Of one step, the lower number comes first. -/
theorem sortKey_attemptNo {a b : EvaluationSpan} (hindex : a.stepIndex = b.stepIndex)
    (h : spanSortKey a ≤ spanSortKey b) : a.attemptNo ≤ b.attemptNo := by
  unfold spanSortKey at h
  rw [hindex, Prod.Lex.toLex_le_toLex] at h
  rcases h with h | ⟨-, h⟩
  · exact absurd h (lt_irrefl _)
  · rw [Prod.Lex.toLex_le_toLex] at h
    rcases h with h | ⟨h, -⟩
    · exact h.le
    · exact h.le

/-- The steps of a report are the groups of the attempts. -/
theorem step_grouped {step : StepReport} (hstep : step ∈ (evaluationReport runId mark spans).steps) :
    ∃ group, group = ((sortSpans (stepSpans spans)).filter fun span =>
        (span.stepIndex, span.planItemId) = (step.stepIndex, step.planItemId)) ∧
      step.attempts = group.map (attemptReport mark (phaseSpans spans)) := by
  unfold evaluationReport at hstep
  dsimp only at hstep
  rw [List.mem_insertionSort] at hstep
  obtain ⟨g, hg, rfl⟩ := List.mem_map.1 hstep
  exact ⟨g.2, mem_groupOn _ _ hg, rfl⟩

theorem stepKeys_perm (runId k : String) (mark : Bool) (spans : List EvaluationSpan) :
    ((evaluationReport runId mark spans).steps.map (StepReport.key k)).Perm
      (((groupOn (fun span => (span.stepIndex, span.planItemId)) (sortSpans (stepSpans spans))).map Prod.fst).map
        fun p => ⟨k, p.1, p.2⟩) := by
  refine ((List.perm_insertionSort stepBefore _).map _).trans (.of_eq ?_)
  rw [List.map_map, List.map_map]
  rfl

/-- **The order of the report.**  Over the spans of a run, whatever their numbers. -/
theorem report_lists {s : EvaluationSpans} (ho : s.OpenRuns) (hr : blank runId = false) (mark : Bool) :
    ∃ r, s.buildEvaluationReport runId mark = .ok r ∧ r.Lists s (strip runId) mark := by
  obtain ⟨spans, hbuild, hspans⟩ := buildReport_ok hr s mark
  refine ⟨_, hbuild, ?_⟩
  have hgroup : ∀ index item, ((sortSpans (stepSpans spans)).filter fun span =>
      decide ((span.stepIndex, span.planItemId) = (index, item))).Perm (s.attempts ⟨strip runId, index, item⟩) := by
    intro index item
    refine (((sortSpans_perm _).trans (hspans.filter _)).filter _).trans (.of_eq ?_)
    unfold EvaluationSpans.ofRun EvaluationSpans.attempts
    rw [List.filter_filter, List.filter_filter]
    refine List.filter_congr fun span _ => ?_
    rw [Bool.eq_iff_iff]
    simp only [Bool.and_eq_true, decide_eq_true_eq, Prod.mk.injEq, EvaluationSpan.key, StepKey.mk.injEq]
    tauto
  refine ⟨?_, ?_, ?_, ?_, ?_⟩
  · refine (stepKeys_perm runId _ mark spans).nodup_iff.2 (List.Nodup.map ?_ (nodup_groupOn _ _))
    intro p q hpq
    cases p
    cases q
    cases hpq
    rfl
  · rintro ⟨k, index, item⟩ rfl hne
    obtain ⟨span, hspan⟩ := List.exists_mem_of_ne_nil _ hne
    obtain ⟨hmem, hkey⟩ := List.mem_filter.1 ((hgroup index item).mem_iff.2 hspan)
    refine (stepKeys_perm runId _ mark spans).mem_iff.2 (List.mem_map.2 ⟨(index, item), ?_, rfl⟩)
    exact (keys_groupOn _ _ _).2 ⟨span, hmem, of_decide_eq_true hkey⟩
  · intro step hstep
    obtain ⟨group, rfl, hattempts⟩ := step_grouped hstep
    rw [hattempts, List.map_map]
    exact (hgroup _ _).map (spanReportRecord mark)
  · intro step hstep
    obtain ⟨group, hg, hattempts⟩ := step_grouped hstep
    rw [hattempts, List.map_map]
    refine List.pairwise_map.2 ?_
    have hsorted : group.Pairwise fun a b => spanSortKey a ≤ spanSortKey b :=
      hg ▸ (sortSpans_ordered _).filter _
    refine hsorted.imp_of_mem fun ha hb hle => sortKey_attemptNo ?_ hle
    rw [hg] at ha hb
    have ha := of_decide_eq_true (List.mem_filter.1 ha).2
    have hb := of_decide_eq_true (List.mem_filter.1 hb).2
    exact congrArg Prod.fst (ha.trans hb.symm)
  · intro step hstep a ha
    obtain ⟨span, hspan, rfl, -⟩ := attempt_placed hstep ha
    have hmem := mem_ofRun.1 (hspans.mem_iff.1 (List.mem_of_mem_filter hspan))
    exact interrupted_iff (ho span hmem.1)

end

/-- Ordered by their numbers, the attempts of a step of the report are numbered `1..k`. -/
theorem EvaluationReport.Lists.numbered {s : EvaluationSpans} {k : String} {mark : Bool} {r : EvaluationReport}
    (h : r.Lists s k mark) (hn : s.Numbered) {step : StepReport} (hstep : step ∈ r.steps) :
    (step.attempts.map fun a => a.attemptNo) = oneTo step.attempts.length := by
  have hrecords := h.attempts step hstep
  have hlen : step.attempts.length = (s.attempts (step.key k)).length := by
    have hlen := hrecords.length_eq
    rwa [List.length_map, List.length_map] at hlen
  have hnumbers : (step.attempts.map fun a => a.attemptNo).Perm (oneTo step.attempts.length) := by
    rw [hlen]
    refine .trans ?_ (hn (step.key k))
    have hmap := hrecords.map SpanReportRecord.attemptNo
    rw [List.map_map, List.map_map] at hmap
    exact hmap
  exact hnumbers.eq_of_pairwise (fun _ _ _ _ => le_antisymm) (h.ordered step hstep) (oneTo_sorted _)

/-- **Step attempts.**  Over any pool of recorders: where attempts of a step are stored apart, each step
has the numbers `1..k`, and so has the report; and however calls interleave, a finished span stays, and the
report lists every step in the order of its numbers with the open attempts as interrupted. -/
theorem attempts_numbered {ι : Type} [DecidableEq ι] (calls : ι → RecorderCall)
    (hphase : ∀ i a, calls i = .startPhase a → strip a.phase ≠ stepTotal)
    (c : EvaluationSpans × RecorderPool calls) (h : Reach (fun _ => evaluationSem) (recorders calls) c) :
    (ReachWhen (fun _ => evaluationSem) Apart (recorders calls) c → c.1.Numbered) ∧
      (∀ c', Reach (fun _ => evaluationSem) c c' → ∀ id row, c.1.get id = some row → row.finishedAt.isSome →
        c'.1.get id = some row) ∧
      ∀ runId mark, blank runId = false → ∃ r, c.1.buildEvaluationReport runId mark = .ok r ∧
        r.Lists c.1 (strip runId) mark ∧
        (ReachWhen (fun _ => evaluationSem) Apart (recorders calls) c → ∀ step ∈ r.steps,
          (step.attempts.map fun a => a.attemptNo) = oneTo step.attempts.length) := by
  refine ⟨reach_numbered hphase, fun c' hc id row hget hfin => reach_finished hc hget hfin,
    fun runId mark hr => ?_⟩
  obtain ⟨r, hbuild, hlists⟩ := report_lists (reach_openRuns h) hr mark
  exact ⟨r, hbuild, hlists, fun hapart step hstep => hlists.numbered (reach_numbered hphase hapart) hstep⟩

/-! ## Two recorders of one step -/

theorem letter_not_blank (n : ℕ) : blank (if n = 0 then "a" else "b") = false := by
  split <;> decide +kernel

/-- A surrounding whose `uuid4()` is a numeral. -/
def countAmbient (n : ℕ) : Ambient where
  now := 0
  uuid := if n = 0 then "a" else "b"
  uuid_text := letter_not_blank n

/-- What a transaction leaves: its value and the table it commits, or its error and the table it found. -/
def committed (s : EvaluationSpans) : Except PyError (EvaluationSpan × EvaluationSpans) →
    Except PyError EvaluationSpan × EvaluationSpans
  | .ok p => (.ok p.1, p.2)
  | .error e => (.error e, s)

/-- Every operation answered at one instant, with ids that count the rows. -/
def evaluationAnswer (s : EvaluationSpans) : (o : EvaluationOp) → Except PyError o.Res × EvaluationSpans
  | .nextAttemptNo runId stepIndex planItemId => (nextEvaluationAttemptNo s runId stepIndex planItemId, s)
  | .start a => committed s (startEvaluationSpan (countAmbient s.all.length) a s)
  | .finish f => committed s (finishEvaluationSpan (countAmbient s.all.length) f s)

theorem evaluationAnswer_sem (s : EvaluationSpans) (o : EvaluationOp) :
    evaluationSem s o (evaluationAnswer s o).1 (evaluationAnswer s o).2 := by
  cases o with
  | nextAttemptNo runId stepIndex planItemId => exact ⟨rfl, rfl⟩
  | start a =>
    refine ⟨countAmbient s.all.length, ?_⟩
    dsimp only [evaluationAnswer]
    cases startEvaluationSpan (countAmbient s.all.length) a s with
    | error e => exact ⟨rfl, rfl⟩
    | ok p => exact ⟨rfl, rfl⟩
  | finish f =>
    refine ⟨countAmbient s.all.length, ?_⟩
    dsimp only [evaluationAnswer]
    cases finishEvaluationSpan (countAmbient s.all.length) f s with
    | error e => exact ⟨rfl, rfl⟩
    | ok p => exact ⟨rfl, rfl⟩

def tripStart : StepStart := { runId := "trip", stepIndex := 0, planItemId := some "step_0" }

/-- Two calls for one step. -/
def twoRecorders : Bool → RecorderCall := fun _ => .startStep tripStart

def tripKey : StepKey := ⟨"trip", some 0, some "step_0"⟩

/-- Both read the number 1 before either stores its attempt. -/
theorem attempts_clash : ∃ c, Reach (fun _ => evaluationSem) (recorders twoRecorders) c ∧
    c.1.numbers tripKey = [1, 1] ∧ ¬ c.1.Numbered := by
  have hnumbers : (takeTurns evaluationAnswer [(false, 1), (true, 1), (false, 1), (true, 1)]
      (recorders twoRecorders)).1.numbers tripKey = [1, 1] := by decide +kernel
  refine ⟨_, takeTurns_reach (fun _ => evaluationAnswer_sem) _ _, hnumbers, fun hn => ?_⟩
  have hperm := hn tripKey
  rw [← numbers_length, hnumbers] at hperm
  exact absurd hperm (by decide +kernel)

/-- A call that runs while no other holds a number. -/
theorem startStep_serial {ι : Type} [DecidableEq ι] {a : StepStart} {s : EvaluationSpans}
    {pool : RecorderPool fun _ : ι => .startStep a} {i : ι} {n : ℤ} {amb : Ambient}
    (hi : pool i = some (startStep a)) (hothers : ∀ j, j ≠ i → ∀ b k, pool j ≠ some (.op (.start b) k))
    (hnext : nextEvaluationAttemptNo s a.runId a.stepIndex a.planItemId = .ok n)
    (hstart : (startEvaluationSpan amb (a.span n) s).toBool = true) :
    ReachWhen (fun _ => evaluationSem) Apart (s, pool) (s.put ((a.span n).row amb),
      Function.update pool i (some (.ret (.ok ((a.span n).row amb).handle)))) := by
  have hread : ReachWhen (fun _ => evaluationSem) Apart (s, pool)
      (s, Function.update pool i (some (storeStep a n))) :=
    .single (.op (r := .ok n) hi (fun b hb => by cases hb) ⟨hnext.symm, rfl⟩)
  refine hread.tail ?_
  have hstore : StepWhen (fun _ => evaluationSem) Apart (s, Function.update pool i (some (storeStep a n)))
      (s.put ((a.span n).row amb), Function.update (Function.update pool i (some (storeStep a n))) i
        (some (.ret (.ok ((a.span n).row amb).handle)))) := by
    refine .op (r := .ok _) (Function.update_self _ _ _) (fun b _ _ j hj b' k hk => ?_)
      (startEvaluationSpan_runs hstart)
    have hk : Function.update pool i (some (storeStep a n)) j = some (.op (.start b') k) := hk
    rw [Function.update_of_ne hj] at hk
    exact absurd hk (hothers j hj b' k)
  rwa [Function.update_idem] at hstore

/-- The first attempt, and both. -/
def firstAttempt : EvaluationSpan := (tripStart.span 1).row (countAmbient 0)

def bothAttempts : EvaluationSpans :=
  (Table.put ∅ firstAttempt).put ((tripStart.span 2).row (countAmbient 1))

/-- One call after the other gives the numbers 1 and 2, in the table and in the report. -/
theorem attempts_numbered_trip : bothAttempts.numbers tripKey = [2, 1] ∧ bothAttempts.Numbered ∧
    ∃ r, bothAttempts.buildEvaluationReport "trip" true = .ok r ∧ r.Lists bothAttempts (strip "trip") true ∧
      ∀ step ∈ r.steps, (step.attempts.map fun a => a.attemptNo) = oneTo step.attempts.length := by
  have hfirst : ReachWhen (fun _ => evaluationSem) Apart (recorders twoRecorders) (Table.put ∅ firstAttempt,
      Function.update (recorders twoRecorders).2 false (some (.ret (.ok firstAttempt.handle)))) :=
    startStep_serial rfl (fun j _ b k hk => by cases hk) rfl (by decide +kernel)
  have hboth : ∃ pool, ReachWhen (fun _ => evaluationSem) Apart (Table.put ∅ firstAttempt,
      Function.update (recorders twoRecorders).2 false (some (.ret (.ok firstAttempt.handle))))
      (bothAttempts, pool) := by
    refine ⟨_, startStep_serial (i := true) (n := 2) rfl (fun j hj b k hk => ?_) (by decide +kernel)
      (by decide +kernel)⟩
    cases j with
    | true => exact hj rfl
    | false => cases hk
  obtain ⟨pool, hboth⟩ := hboth
  have hserial := hfirst.trans hboth
  obtain ⟨hnumbered, -, hreport⟩ := attempts_numbered twoRecorders (fun _ _ h => by cases h) _
    (reach_of_admitted hserial)
  obtain ⟨r, hbuild, hlists, horder⟩ := hreport "trip" true (by decide +kernel)
  exact ⟨by decide +kernel, hnumbered hserial, r, hbuild, hlists, horder hserial⟩

end Raef
