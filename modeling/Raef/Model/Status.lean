import Raef.Lib.Clock
import Raef.Lib.Json
import Raef.Lib.Txn

/-!
# Shared models: statuses, operation types, validation helpers

`models.py`, `utils.py` and the transition table of `logging_service.py`.
-/

namespace Raef

open Text

/-! ## Validation helpers -/

/-- Text or raise: the stripped value of a field that may not be blank. -/
def requireNonEmptyStr (value field : String) : Except PyError String :=
  if blank value then .error (.value s!"{field} must be a non-empty string") else .ok (strip value)

/-- Every entry stripped, blank ones dropped. -/
def normalizeStrList (value : List String) : List String :=
  (value.map strip).filter fun text => text ≠ ""

theorem requireNonEmptyStr_ok {value field r : String} :
    requireNonEmptyStr value field = .ok r ↔ blank value = false ∧ r = strip value := by
  unfold requireNonEmptyStr
  cases blank value <;> simp [eq_comm]

theorem requireNonEmptyStr_run {value : String} (field : String) (h : blank value = false) :
    requireNonEmptyStr value field = .ok (strip value) :=
  requireNonEmptyStr_ok.2 ⟨h, rfl⟩

theorem mem_normalizeStrList {l : List String} {t : String} :
    t ∈ normalizeStrList l ↔ t ≠ "" ∧ ∃ a ∈ l, strip a = t := by
  unfold normalizeStrList
  rw [List.mem_filter, List.mem_map]
  simp only [decide_not, Bool.not_eq_true', decide_eq_false_iff_not]
  exact and_comm

/-- A list of stripped non-empty texts is a fixed point. -/
theorem normalizeStrList_of_trimmed {l : List String} (h : ∀ t ∈ l, Trimmed t ∧ t ≠ "") :
    normalizeStrList l = l := by
  unfold normalizeStrList
  induction l with
  | nil => rfl
  | cons t l ih =>
    obtain ⟨h1, h2⟩ := h t List.mem_cons_self
    unfold Trimmed at h1
    rw [List.map_cons, h1, List.filter_cons_of_pos (by simpa using h2),
      ih fun t' ht' => h t' (List.mem_cons_of_mem _ ht')]

theorem trimmed_normalizeStrList (l : List String) :
    ∀ t ∈ normalizeStrList l, Trimmed t ∧ t ≠ "" := by
  intro t ht
  rw [mem_normalizeStrList] at ht
  obtain ⟨hne, a, -, rfl⟩ := ht
  exact ⟨trimmed_strip a, hne⟩

/-! ## Operation types and execution statuses -/

inductive OperationType where
  | read
  | write
deriving DecidableEq, Repr

def OperationType.value : OperationType → String
  | .read => "READ"
  | .write => "WRITE"

@[irreducible] def normalizeOperationType (raw : String) : Except PyError OperationType :=
  let text := upper (strip raw)
  if text = "READ" then .ok .read
  else if text = "WRITE" then .ok .write
  else .error (.value s!"'{text}' is not a valid OperationType")

/-- Lifecycle of one execution id across logging, transactions and recovery. -/
inductive ExecutionStatus where
  | intentLogged
  | dispatched
  | acked
  | verifiedCommitted
  | verifiedNotFound
  | failed
deriving DecidableEq, Repr

namespace ExecutionStatus

def value : ExecutionStatus → String
  | .intentLogged => "intent_logged"
  | .dispatched => "dispatched"
  | .acked => "acked"
  | .verifiedCommitted => "verified_committed"
  | .verifiedNotFound => "verified_not_found"
  | .failed => "failed"

def all : List ExecutionStatus :=
  [.intentLogged, .dispatched, .acked, .verifiedCommitted, .verifiedNotFound, .failed]

/-- `ACKED` or `VERIFIED_COMMITTED`. -/
def committed : ExecutionStatus → Bool
  | .acked | .verifiedCommitted => true
  | _ => false

/-- The three statuses of `_TERMINAL_EXECUTION_STATUSES`. -/
def terminal : ExecutionStatus → Bool
  | .acked | .verifiedCommitted | .failed => true
  | _ => false

/-- `LoggingService._ALLOWED_EXECUTION_TRANSITIONS`. -/
def allowed : ExecutionStatus → List ExecutionStatus
  | .intentLogged => [.dispatched, .acked, .verifiedCommitted, .verifiedNotFound, .failed]
  | .dispatched => [.acked, .verifiedCommitted, .verifiedNotFound, .failed]
  | .acked => [.verifiedCommitted]
  | .verifiedCommitted => []
  | .verifiedNotFound => [.acked, .failed]
  | .failed => [.dispatched, .verifiedCommitted, .verifiedNotFound]

/-- Same status, or an edge of the table. -/
def Moves (current nxt : ExecutionStatus) : Prop := current = nxt ∨ nxt ∈ current.allowed

instance (a b : ExecutionStatus) : Decidable (Moves a b) := inferInstanceAs (Decidable (_ ∨ _))

/-- Committed statuses lead to committed ones only. -/
theorem Moves.committed {a b : ExecutionStatus} (h : Moves a b) (ha : a.committed = true) :
    b.committed = true := by
  cases a <;> cases b <;> simp_all [Moves, allowed, ExecutionStatus.committed]

end ExecutionStatus

def normalizeExecutionStatus (raw : String) : Except PyError ExecutionStatus :=
  let text := lower (strip raw)
  match ExecutionStatus.all.find? fun st => st.value = text with
  | some st => .ok st
  | none => .error (.value s!"'{text}' is not a valid ExecutionStatus")

@[simp] theorem normalizeExecutionStatus_value (st : ExecutionStatus) :
    normalizeExecutionStatus st.value = .ok st := by
  cases st <;> decide +kernel

def assertExecutionTransition (current nxt : ExecutionStatus) : Except PyError Unit :=
  if current = nxt then .ok ()
  else if nxt ∈ current.allowed then .ok ()
  else .error (.value s!"illegal execution status transition: {current.value} -> {nxt.value}")

theorem assertExecutionTransition_ok {a b : ExecutionStatus} {u : Unit} :
    assertExecutionTransition a b = .ok u ↔ ExecutionStatus.Moves a b := by
  unfold assertExecutionTransition ExecutionStatus.Moves
  by_cases h1 : a = b
  · simp [h1]
  · by_cases h2 : b ∈ a.allowed <;> simp [h1, h2]

/-! ## Outcome of the cached call -/

inductive ExternalResultStatus where
  | ok
  | error
  | timeout
  | unknown
deriving DecidableEq, Repr

namespace ExternalResultStatus

def value : ExternalResultStatus → String
  | .ok => "ok"
  | .error => "error"
  | .timeout => "timeout"
  | .unknown => "unknown"

def all : List ExternalResultStatus := [.ok, .error, .timeout, .unknown]

end ExternalResultStatus

def parseResultStatus (raw : String) : Except PyError ExternalResultStatus :=
  let normalized := lower (strip raw)
  match ExternalResultStatus.all.find? fun st => st.value = normalized with
  | some st => .ok st
  | none => .error (.value s!"'{normalized}' is not a valid ExternalResultStatus")

def resolveExecutionStatus (executionStatus : Option String) (resultStatus : ExternalResultStatus) :
    Except PyError ExecutionStatus :=
  match executionStatus with
  | some raw => normalizeExecutionStatus raw
  | none =>
    match resultStatus with
    | .ok => .ok .acked
    | .error => .ok .failed
    | _ => .ok .dispatched

@[simp] theorem resolveExecutionStatus_value (st : ExecutionStatus) (resultStatus : ExternalResultStatus) :
    resolveExecutionStatus (some st.value) resultStatus = .ok st :=
  normalizeExecutionStatus_value st

end Raef
