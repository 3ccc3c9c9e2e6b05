import Raef.Lib.Num

/-!
# Instants and durations

An instant is its number of microseconds since the epoch in UTC.  `timedelta`
and the addition raise outside the range of a Python `datetime`.
-/

namespace Raef

/-- An instant, in microseconds since the epoch (UTC). -/
abbrev Time := ℤ

namespace PyFloat

/-- `timedelta(seconds=x)` in microseconds. -/
def timedelta : PyFloat → Except PyError ℤ
  | .nan => .error (.value "cannot convert float NaN to integer")
  | .inf | .negInf => .error (.overflow "cannot convert float infinity to integer")
  | .negZero => .ok 0
  | .fin q =>
    let whole : ℤ := if 0 ≤ q then ⌊q⌋ else ⌈q⌉
    let fraction := match roundDouble ((q - whole) * 1000000) with
      | .fin f => roundHalfEven f
      | _ => 0
    let micros := whole * 1000000 + fraction
    let days := micros / 86400000000
    if 999999999 < |days| then .error (.overflow s!"days={days}; must have magnitude <= 999999999")
    else .ok micros

/-- `x <= 0`. -/
def nonPos : PyFloat → Bool
  | .fin q => decide (q ≤ 0)
  | .negZero | .negInf => true
  | _ => false

end PyFloat

/-- First and last instant of a `datetime`. -/
def minTime : Time := -62135596800000000
def maxTime : Time := 253402300799999999

/-- `started_at + timedelta(...)`. -/
def addTimedelta (t : Time) (micros : ℤ) : Except PyError Time :=
  if t + micros < minTime ∨ maxTime < t + micros then .error (.overflow "date value out of range")
  else .ok (t + micros)

/-- A `datetime` as a caller gives it: with a time zone, or naive. -/
inductive Datetime where
  | aware (t : Time)
  | naive (t : Time)
deriving DecidableEq, Repr

namespace Datetime

instance : Coe Time Datetime := ⟨.aware⟩

instance (n : ℕ) : OfNat Datetime n := ⟨.aware n⟩

def isAware : Datetime → Bool
  | .aware _ => true
  | .naive _ => false

/-- `x < y`, where `y` has a time zone. -/
def lt : Datetime → Time → Except PyError Bool
  | .aware t, y => .ok (decide (t < y))
  | .naive _, _ => .error (.type "can't compare offset-naive and offset-aware datetimes")

end Datetime

/-- `datetime.isoformat()` of an instant in UTC. -/
def isoformat (t : Time) : String :=
  let days := t / 86400000000
  let micros := t % 86400000000
  let z := days + 719468
  let era := z / 146097
  let doe := z % 146097
  let yoe := (doe - doe / 1460 + doe / 36524 - doe / 146096) / 365
  let doy := doe - (365 * yoe + yoe / 4 - yoe / 100)
  let mp := (5 * doy + 2) / 153
  let day := doy - (153 * mp + 2) / 5 + 1
  let month := if mp < 10 then mp + 3 else mp - 9
  let year := yoe + era * 400 + (if month ≤ 2 then 1 else 0)
  let secs := micros / 1000000
  let pad (width : ℕ) (n : ℤ) : String :=
    String.ofList (let d := Nat.toDigits 10 n.toNat; List.replicate (width - d.length) '0' ++ d)
  let fraction := if micros % 1000000 = 0 then "" else "." ++ pad 6 (micros % 1000000)
  pad 4 year ++ "-" ++ pad 2 month ++ "-" ++ pad 2 day ++ "T" ++ pad 2 (secs / 3600) ++ ":" ++
    pad 2 (secs / 60 % 60) ++ ":" ++ pad 2 (secs % 60) ++ fraction ++ "+00:00"

example : isoformat 1784160000250000 = "2026-07-16T00:00:00.250000+00:00" := by decide +kernel

end Raef
