import Raef.Lib.Groups
import Raef.Lib.Program
import Raef.Model.Store

/-!
# Evaluation spans

The `evaluation_spans` table, the recorder's calls as programs over its transactions, and
`build_evaluation_report`.  A duration is the double the source computes; the sums of the
report are exact.
-/

namespace Raef

open Text Txn Program

/-- The phase of a step attempt. -/
def stepTotal : String := "step_total"

structure EvaluationSpan where
  spanId : String
  runId : String
  stepIndex : Option ℤ
  planItemId : Option String
  attemptNo : ℤ
  phase : String
  parentSpanId : Option String
  status : String
  startedAt : Time
  finishedAt : Option Time := none
  durationMs : Option ℚ := none
  metadata : JsonObject
  errorMessage : Option String := none
  createdAt : Time
  updatedAt : Time

abbrev EvaluationSpans : Type := Table EvaluationSpan EvaluationSpan.spanId

/-- The rows of the table. -/
def EvaluationSpans.all (s : EvaluationSpans) : List EvaluationSpan := s.rows.entries.map fun e => e.2

/-- What a step attempt is numbered within. -/
structure StepKey where
  runId : String
  stepIndex : Option ℤ
  planItemId : Option String
deriving DecidableEq

def EvaluationSpan.key (span : EvaluationSpan) : StepKey := ⟨span.runId, span.stepIndex, span.planItemId⟩

/-- The stored step attempts of a key. -/
def EvaluationSpans.attempts (s : EvaluationSpans) (key : StepKey) : List EvaluationSpan :=
  s.all.filter fun span => span.key = key ∧ span.phase = stepTotal

/-! ## Transactions -/

def nextEvaluationAttemptNo (s : EvaluationSpans) (runId : String) (stepIndex : ℤ) (planItemId : Option String) :
    Except PyError ℤ := do
  let runId ← requireNonEmptyStr runId "run_id"
  raiseIf (stepIndex < 0) (.value "step_index must be a non-negative integer")
  let numbers := (s.attempts ⟨runId, some stepIndex, planItemId⟩).map EvaluationSpan.attemptNo
  return numbers.max?.getD 0 + 1

structure SpanStart where
  runId : String
  stepIndex : Option ℤ
  planItemId : Option String
  attemptNo : ℤ
  phase : String
  parentSpanId : Option String := none
  metadata : JsonObject := []

/-- The row a start inserts. -/
def SpanStart.row (a : SpanStart) (amb : Ambient) : EvaluationSpan :=
  { spanId := "eval_" ++ amb.uuid
    runId := strip a.runId
    stepIndex := a.stepIndex
    planItemId := a.planItemId
    attemptNo := a.attemptNo
    phase := strip a.phase
    parentSpanId := a.parentSpanId
    status := "running"
    startedAt := amb.now
    metadata := a.metadata
    createdAt := amb.now
    updatedAt := amb.now }

def startEvaluationSpan (amb : Ambient) (a : SpanStart) : Txn EvaluationSpans PyError EvaluationSpan := do
  let _ ← lift (requireNonEmptyStr a.runId "run_id")
  let _ ← lift (requireNonEmptyStr a.phase "phase")
  lift (raiseIf (∃ n ∈ a.stepIndex, n < 0) (.value "step_index must be a non-negative integer when provided"))
  lift (raiseIf (a.attemptNo ≤ 0) (.value "attempt_no must be a positive integer"))
  let s ← read
  require (s.get (a.row amb).spanId).isNone (.integrity "UNIQUE constraint failed: evaluation_spans.span_id")
  write (s.put (a.row amb))
  return a.row amb

/-- `max(0.0, (finished_at - started_at).total_seconds() * 1000.0)`. -/
def spanDuration (startedAt finishedAt : Time) : ℚ :=
  match PyFloat.roundDouble ((finishedAt - startedAt : ℤ) / 1000000) with
  | .fin seconds => match PyFloat.roundDouble (seconds * 1000) with
    | .fin ms => max 0 ms
    | _ => 0
  | _ => 0

structure SpanFinish where
  spanId : String
  status : String := "succeeded"
  errorMessage : Option String := none
  metadata : JsonObject := []

/-- The finished row; the metadata are those of the start, updated. -/
def SpanFinish.row (f : SpanFinish) (amb : Ambient) (existing : EvaluationSpan) : EvaluationSpan :=
  { existing with
    status := strip f.status
    finishedAt := some amb.now
    durationMs := some (spanDuration existing.startedAt amb.now)
    metadata := f.metadata.foldl (fun o e => o.set e.1 e.2) existing.metadata
    errorMessage := f.errorMessage
    updatedAt := amb.now }

/-- Finishing a span that is finished changes nothing. -/
def finishEvaluationSpan (amb : Ambient) (f : SpanFinish) : Txn EvaluationSpans PyError EvaluationSpan := do
  let spanId ← lift (requireNonEmptyStr f.spanId "span_id")
  let status ← lift (requireNonEmptyStr f.status "status")
  lift (raiseIf (status ∉ ["succeeded", "failed", "interrupted"])
    (.value "status must be succeeded, failed, or interrupted"))
  let s ← read
  match s.get spanId with
  | none => raise (.value s!"evaluation span not found: {spanId}")
  | some existing =>
    if existing.finishedAt.isSome then return existing
    else do
      write (s.put (f.row amb existing))
      return f.row amb existing

/-- `ORDER BY started_at ASC, span_id ASC`. -/
def EvaluationSpans.listEvaluationSpans (s : EvaluationSpans) (runId : String) :
    Except PyError (List EvaluationSpan) := do
  let runId ← requireNonEmptyStr runId "run_id"
  let rows := s.all.filter fun span => span.runId = runId
  return rows.insertionSort fun a b =>
    a.startedAt < b.startedAt ∨ (a.startedAt = b.startedAt ∧ a.spanId ≤ b.spanId)

/-! ## The recorder -/

inductive EvaluationOp where
  | nextAttemptNo (runId : String) (stepIndex : ℤ) (planItemId : Option String)
  | start (a : SpanStart)
  | finish (f : SpanFinish)

abbrev EvaluationOp.Res : EvaluationOp → Type
  | .nextAttemptNo _ _ _ => ℤ
  | .start _ | .finish _ => EvaluationSpan

abbrev EvaluationProg (α : Type) : Type := Program EvaluationOp EvaluationOp.Res PyError α

/-- Each operation is one transaction. -/
def evaluationSem : Program.Sem EvaluationSpans EvaluationOp EvaluationOp.Res PyError
  | s, .nextAttemptNo runId stepIndex planItemId, r, s' =>
    r = nextEvaluationAttemptNo s runId stepIndex planItemId ∧ s' = s
  | s, .start a, r, s' => ∃ amb,
    match startEvaluationSpan amb a s with
    | .ok (span, t) => r = .ok span ∧ s' = t
    | .error e => r = .error e ∧ s' = s
  | s, .finish f, r, s' => ∃ amb,
    match finishEvaluationSpan amb f s with
    | .ok (span, t) => r = .ok span ∧ s' = t
    | .error e => r = .error e ∧ s' = s

structure EvaluationSpanHandle where
  spanId : String
  runId : String
  stepIndex : Option ℤ
  planItemId : Option String
  attemptNo : ℤ
  phase : String
  parentSpanId : Option String := none

/-- `EvaluationSpanHandle.from_record`. -/
def EvaluationSpan.handle (span : EvaluationSpan) : EvaluationSpanHandle :=
  { spanId := span.spanId, runId := span.runId, stepIndex := span.stepIndex, planItemId := span.planItemId,
    attemptNo := span.attemptNo, phase := span.phase, parentSpanId := span.parentSpanId }

structure StepStart where
  runId : String
  stepIndex : ℤ
  planItemId : Option String
  metadata : JsonObject := []

/-- What `start_step` stores under the number it has read. -/
def StepStart.span (a : StepStart) (attemptNo : ℤ) : SpanStart :=
  { runId := a.runId
    stepIndex := some a.stepIndex
    planItemId := a.planItemId
    attemptNo := attemptNo
    phase := stepTotal
    metadata := a.metadata }

def storeStep (a : StepStart) (attemptNo : ℤ) : EvaluationProg EvaluationSpanHandle := do
  let record ← call (EvaluationOp.start (a.span attemptNo))
  return record.handle

/-- `EvaluationRecorder.start_step`: the number is read in one transaction and stored in another. -/
def startStep (a : StepStart) : EvaluationProg EvaluationSpanHandle := do
  let attemptNo ← call (EvaluationOp.nextAttemptNo a.runId a.stepIndex a.planItemId)
  storeStep a attemptNo

structure PhaseStart where
  phase : String
  parentStep : EvaluationSpanHandle
  metadata : JsonObject := []

/-- What `start_phase` stores. -/
def PhaseStart.span (a : PhaseStart) : SpanStart :=
  { runId := a.parentStep.runId
    stepIndex := a.parentStep.stepIndex
    planItemId := a.parentStep.planItemId
    attemptNo := a.parentStep.attemptNo
    phase := a.phase
    parentSpanId := some a.parentStep.spanId
    metadata := a.metadata }

/-- `EvaluationRecorder.start_phase`. -/
def startPhase (a : PhaseStart) : EvaluationProg EvaluationSpanHandle := do
  let record ← call (EvaluationOp.start a.span)
  return record.handle

/-- `EvaluationRecorder.finish_span`. -/
def finishSpan (f : SpanFinish) : EvaluationProg EvaluationSpan := call (EvaluationOp.finish f)

inductive RecorderCall where
  | startStep (a : StepStart)
  | startPhase (a : PhaseStart)
  | finishSpan (f : SpanFinish)

abbrev RecorderCall.Result : RecorderCall → Type
  | .startStep _ | .startPhase _ => EvaluationSpanHandle
  | .finishSpan _ => EvaluationSpan

def RecorderCall.program : (c : RecorderCall) → EvaluationProg c.Result
  | .startStep a => Raef.startStep a
  | .startPhase a => Raef.startPhase a
  | .finishSpan f => Raef.finishSpan f

/-! ## The report -/

structure SpanReportRecord where
  spanId : String
  attemptNo : ℤ
  phase : String
  status : String
  recordedStatus : String
  startedAt : Time
  finishedAt : Option Time
  durationMs : Option ℚ
  metadata : JsonObject
  errorMessage : Option String

/-- `_span_report_record`. -/
def spanReportRecord (markOpenAsInterrupted : Bool) (span : EvaluationSpan) : SpanReportRecord :=
  { spanId := span.spanId
    attemptNo := span.attemptNo
    phase := span.phase
    status := if span.finishedAt.isNone && span.status = "running" && markOpenAsInterrupted then "interrupted"
      else span.status
    recordedStatus := span.status
    startedAt := span.startedAt
    finishedAt := span.finishedAt
    durationMs := span.durationMs
    metadata := span.metadata
    errorMessage := span.errorMessage }

structure AttemptReport extends SpanReportRecord where
  phases : List SpanReportRecord

structure StepReport where
  stepIndex : Option ℤ
  planItemId : Option String
  attempts : List AttemptReport

structure EvaluationReport where
  runId : String
  spanCount : ℕ
  completedStepDurationMs : ℚ
  completedPhaseDurationMs : List (String × ℚ)
  steps : List StepReport
  orphanPhases : List SpanReportRecord

/-- `_span_sort_key`. -/
def spanSortKey (span : EvaluationSpan) : ℤ ×ₗ ℤ ×ₗ Time ×ₗ String :=
  toLex (span.stepIndex.getD (-1), toLex (span.attemptNo, toLex (span.startedAt, span.spanId)))

def sortSpans (spans : List EvaluationSpan) : List EvaluationSpan :=
  spans.insertionSort fun a b => spanSortKey a ≤ spanSortKey b

/-- A phase is filed under its parent, when it names one. -/
def EvaluationSpan.childOf (span : EvaluationSpan) (parent : String) : Bool :=
  span.parentSpanId = some parent && parent ≠ ""

def EvaluationSpan.orphan (span : EvaluationSpan) : Bool :=
  span.parentSpanId = none || span.parentSpanId = some ""

/-- An attempt with the phases filed under it. -/
def attemptReport (mark : Bool) (phases : List EvaluationSpan) (step : EvaluationSpan) : AttemptReport :=
  { spanReportRecord mark step with
    phases := (sortSpans (phases.filter fun span => span.childOf step.spanId)).map (spanReportRecord mark) }

/-- Steps by index, then plan item; a missing one sorts first. -/
def stepBefore (a b : StepReport) : Prop :=
  toLex (a.stepIndex.getD (-1), a.planItemId.getD "") ≤ toLex (b.stepIndex.getD (-1), b.planItemId.getD "")

instance : DecidableRel stepBefore := fun a b =>
  inferInstanceAs (Decidable (toLex (a.stepIndex.getD (-1), a.planItemId.getD "") ≤
    toLex (b.stepIndex.getD (-1), b.planItemId.getD "")))

/-- The total of a phase over the spans that have a duration. -/
def phaseTotal (phases : List EvaluationSpan) (phase : String) : ℚ :=
  ((phases.filter fun span => span.phase = phase).filterMap EvaluationSpan.durationMs).sum

/-- The report of the spans of a run. -/
def evaluationReport (runId : String) (mark : Bool) (spans : List EvaluationSpan) : EvaluationReport :=
  let stepSpans := spans.filter fun span => span.phase = stepTotal
  let phases := spans.filter fun span => span.phase ≠ stepTotal
  let stepsByKey := groupOn (fun span => (span.stepIndex, span.planItemId)) (sortSpans stepSpans)
  let steps := stepsByKey.map fun g : (Option ℤ × Option String) × List EvaluationSpan =>
    { stepIndex := g.1.1
      planItemId := g.1.2
      attempts := g.2.map (attemptReport mark phases) : StepReport }
  let completed := phases.filter fun span => span.durationMs.isSome
  { runId := runId
    spanCount := spans.length
    completedStepDurationMs :=
      ((stepSpans.filter fun span => span.finishedAt.isSome).map fun span => span.durationMs.getD 0).sum
    completedPhaseDurationMs :=
      ((completed.map EvaluationSpan.phase).dedup.insertionSort fun a b => a ≤ b).map fun phase =>
        (phase, phaseTotal completed phase)
    steps := steps.insertionSort stepBefore
    orphanPhases := (sortSpans (phases.filter EvaluationSpan.orphan)).map (spanReportRecord mark) }

def EvaluationSpans.buildEvaluationReport (s : EvaluationSpans) (runId : String) (markOpenAsInterrupted : Bool) :
    Except PyError EvaluationReport := do
  let spans ← s.listEvaluationSpans runId
  return evaluationReport runId markOpenAsInterrupted spans

end Raef
