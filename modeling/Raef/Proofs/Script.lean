import Raef.Model.Recovery

/-!
# Scripted runs

An executable reading of `sem`: the adapter and the verifier answer from a
script, and the clock stands still.  What it computes is a run of the semantics
(`scripted_sem`), so a counterexample is a script and an evaluation.
-/

namespace Raef

open Program

/-- What the adapter and the verifier answer next. -/
structure Script where
  outcomes : List InvokeOutcome := []
  verdicts : List (Option WriteVerification) := []

def scripted (cfg : LoggingServiceConfig) (amb : Ambient) (w : World Script) :
    (o : Op) → Except PyError o.Res × World Script
  | .facade o => match o.exec cfg amb w.store with
    | .ok (a, s) => (.ok a, { w with store := s })
    | .error e => (.error e, w)
  | .invoke call =>
    let outcome := w.target.outcomes.headD (.ambiguous "no answer")
    (.ok outcome, { w with
      target := { w.target with outcomes := w.target.outcomes.tail }
      trace := w.trace ++ [.sent call.identity outcome] })
  | .verify probe =>
    let answer := w.target.verdicts.headD none
    (.ok answer, { w with
      target := { w.target with verdicts := w.target.verdicts.tail }
      trace := w.trace ++ [.probed probe.executionId (answer.bind WriteVerification.committed)] })
  | .handoff decision =>
    if decision.handoffKey ∈ w.handoffEmitted then (.ok (), w)
    else (.ok (), { w with
      trace := w.trace ++ [.handedOff decision]
      handoffEmitted := w.handoffEmitted ++ [decision.handoffKey] })

theorem scripted_sem (cfg : LoggingServiceConfig) (amb : Ambient) (w : World Script) (o : Op) :
    sem cfg (Environment.any Script) w o (scripted cfg amb w o).1 (scripted cfg amb w o).2 := by
  cases o with
  | facade o =>
    refine ⟨amb, ?_⟩
    unfold scripted
    dsimp only
    cases o.exec cfg amb w.store with
    | ok p => exact ⟨rfl, rfl⟩
    | error e => exact ⟨rfl, rfl⟩
  | invoke call => exact ⟨_, _, trivial, rfl, rfl⟩
  | verify probe => exact ⟨_, _, trivial, rfl, rfl⟩
  | handoff d =>
    show if _ then _ else _
    unfold scripted
    dsimp only
    split
    · exact ⟨rfl, rfl⟩
    · exact ⟨trivial, rfl⟩

/-- The surroundings of a scripted operation. -/
def stillAmbient : Ambient := ⟨0, "uuid", by decide +kernel⟩

/-- One call played from a world, `n` operations of it. -/
def play (n : ℕ) (c : Call) (w : World Script) : World Script :=
  (advance (scripted {} stillAmbient) n c.program w).2

/-- The value of the call, when these operations end it. -/
def played (n : ℕ) (c : Call) (w : World Script) : Option (Except PyError c.Result) :=
  (advance (scripted {} stillAmbient) n c.program w).1.result

theorem play_runs (n : ℕ) (c : Call) (w : World Script) :
    ∃ p', Runs (sem {} (Environment.any Script)) w c.program (play n c w) p' :=
  ⟨_, advance_runs (scripted_sem {} _) n c.program w⟩

/-- The calls of a pool played in turns. -/
def playTurns {ι : Type} [DecidableEq ι] (calls : ι → Call) (turns : List (ι × ℕ)) (w : World Script) :
    World Script × Pool ι Op Op.Res PyError fun i => (calls i).Result :=
  takeTurns (scripted {} stillAmbient) turns (w, fun i => some (calls i).program)

theorem playTurns_reach {ι : Type} [DecidableEq ι] (calls : ι → Call) (turns : List (ι × ℕ))
    (w : World Script) : Reach (fun _ => sem {} (Environment.any Script))
      (w, fun i => some (calls i).program) (playTurns calls turns w) :=
  takeTurns_reach (fun _ => scripted_sem {} _) turns _

/-! ## A run to play -/

/-- A run with one plan item, `step_0`. -/
def tripRun : StartRun := { runId := "trip", planItems := [{ title := some "Book the hotel" }] }

def bookingPayload : JsonObject := [("action_name", .str "set_value")]

/-- A write of the run. -/
def bookingCall : ToolCall :=
  { runId := "trip", planItemId := "step_0", toolName := "book", requestPayload := bookingPayload,
    operationType := "WRITE" }

theorem bookingCall_write : normalizeOperationType bookingCall.operationType = .ok .write := by
  decide +kernel

/-- Two processes: one starts a run, the other books. -/
def bookingPool : Bool → Call
  | false => .facade (.startRun tripRun)
  | true => .executeTool {} bookingCall

/-- Both in turn, with an adapter that answers. -/
def bookedWorld : World Script :=
  (playTurns bookingPool [(false, 1), (true, 6)] { target := { outcomes := [.returned []] } }).1

end Raef
