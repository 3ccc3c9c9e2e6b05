import Raef.Model.World

/-!
# When a waiting window can be computed, and what is decided

The search for a timeout meets the values of a payload in one order: the keys of
an object, then those of its `meta`, `metadata`, `config` and `options`.
`readings` is that order; the search stops at the first positive value.

    parseCallTimeout = the search along the readings            (parseCallTimeout_search)
    the window is computed and compared ↔ WindowFits            (windowFits_iff)
    what a decision says, by the status of the record           (decideRecovery_ok)
-/

namespace Raef

open Text Txn

/-! ## What the search meets -/

/-- An object the search goes down into, so many levels below the payload, or a value it reads. -/
inductive Reading where
  | enter (depth : ℕ)
  | value (raw : Option Json) (millis : Bool)

/-- The seconds of a positive value. -/
def Reading.seconds : Reading → Option PyFloat
  | .enter _ => none
  | .value raw millis => match parsePositiveFloat raw with
    | .ok (some x) => some (if millis then x.divThousand else x)
    | _ => none

/-- The search gets past it: there is a frame for the object, and an int is in the range of a float. -/
def Reading.passable (frames : ℕ) : Reading → Bool
  | .enter depth => decide (depth < frames)
  | .value (some (.int n)) _ => (PyFloat.ofInt n).toBool
  | .value _ _ => true

/-- The values of one level. -/
def directReadings (payload : JsonObject) : List Reading :=
  (["call_timeout_seconds", "timeout_seconds", "timeout_s"].map fun key => .value (payload.get key) false) ++
    (["call_timeout_ms", "timeout_ms"].map fun key => .value (payload.get key) true) ++
      [.value (payload.get "timeout") false]

mutual

def readings : ℕ → Json → List Reading
  | depth, .obj fields =>
    let nested := nestedReadings (depth + 1) fields
    .enter depth :: (directReadings fields ++ nestedKeys.flatMap fun key => (nested.lookup key).getD [])
  | _, _ => []

def nestedReadings : ℕ → List (String × Json) → List (String × List Reading)
  | _, [] => []
  | depth, (key, v) :: fields => (key, readings depth v) :: nestedReadings depth fields

end

/-- Everything up to the first positive value can be read. -/
def ReadsThrough (frames : ℕ) : List Reading → Prop
  | [] => True
  | r :: rs => r.passable frames = true ∧ (r.seconds = none → ReadsThrough frames rs)

/-- The first positive timeout of a payload. -/
def timeoutOf (payload : JsonObject) : Option PyFloat := (readings 0 (.obj payload)).findSome? Reading.seconds

/-- The seconds a call with the payload is waited for. -/
def RuntimeRecoveryStrategy.seconds (strategy : RuntimeRecoveryStrategy) (payload : JsonObject) : PyFloat :=
  let resolved := (timeoutOf payload).getD strategy.defaultWaitSeconds
  if resolved.nonPos then strategy.defaultWaitSeconds else resolved

/-- The waiting window of the record can be computed and compared with `now`. -/
structure WindowFits (strategy : RuntimeRecoveryStrategy) (now : Datetime) (record : ExternalResultRecord) :
    Prop where
  reads : ReadsThrough strategy.limits.frames (readings 0 (.obj record.requestPayload))
  ends : ∃ micros, (strategy.seconds record.requestPayload).timedelta = .ok micros ∧
    minTime ≤ record.updatedAt + micros ∧ record.updatedAt + micros ≤ maxTime
  aware : ∃ t, now = .aware t

/-! ## The search along the readings -/

def search (frames : ℕ) : List Reading → Except PyError (Option PyFloat)
  | [] => .ok none
  | .enter depth :: rs =>
    if depth < frames then search frames rs else .error (.recursion "maximum recursion depth exceeded")
  | .value raw millis :: rs => do
    match ← parsePositiveFloat raw with
    | some x => return some (if millis then x.divThousand else x)
    | none => search frames rs

theorem search_append (frames : ℕ) (rs rs' : List Reading) :
    search frames (rs ++ rs') = (do
      match ← search frames rs with
      | some x => return some x
      | none => search frames rs') := by
  induction rs with
  | nil => rfl
  | cons r rs ih =>
    cases r with
    | enter depth =>
      rw [List.cons_append, search, search]
      split
      · exact ih
      · rfl
    | value raw millis =>
      rw [List.cons_append, search, search]
      cases parsePositiveFloat raw with
      | error e => rfl
      | ok found =>
        cases found with
        | some x => rfl
        | none => exact ih

/-- The values of one level are read in the order of `directReadings`. -/
theorem directTimeout_search (frames : ℕ) (payload : JsonObject) :
    directTimeout payload = search frames (directReadings payload) := by
  have hkeys : ∀ (millis : Bool) (keys : List String),
      search frames (keys.map fun key => .value (payload.get key) millis) = (do
        match ← firstPositive payload keys with
        | some x => return some (if millis then x.divThousand else x)
        | none => return none) := by
    intro millis keys
    induction keys with
    | nil => rfl
    | cons key keys ih =>
      rw [List.map_cons, search, firstPositive]
      cases parsePositiveFloat (payload.get key) with
      | error e => rfl
      | ok found =>
        cases found with
        | some x => rfl
        | none => exact ih
  unfold directTimeout directReadings
  rw [search_append, search_append, hkeys, hkeys]
  cases firstPositive payload ["call_timeout_seconds", "timeout_seconds", "timeout_s"] with
  | error e => rfl
  | ok found =>
    cases found with
    | some x => rfl
    | none =>
      cases firstPositive payload ["call_timeout_ms", "timeout_ms"] with
      | error e => rfl
      | ok found =>
        cases found with
        | some x => rfl
        | none =>
          show parsePositiveFloat (payload.get "timeout") = search frames [.value (payload.get "timeout") false]
          rw [search]
          cases parsePositiveFloat (payload.get "timeout") with
          | error e => rfl
          | ok found => cases found <;> rfl

/-- The nested objects, key by key. -/
theorem firstTimeout_search (frames : ℕ) (nested : List (String × List Reading)) (keys : List String) :
    firstTimeout (keys.map fun key => (nested.map fun e => (e.1, search frames e.2)).lookup key) =
      search frames (keys.flatMap fun key => (nested.lookup key).getD []) := by
  have hlookup : ∀ key, (nested.map fun e => (e.1, search frames e.2)).lookup key =
      (nested.lookup key).map (search frames) := by
    intro key
    induction nested with
    | nil => rfl
    | cons e nested ih =>
      rw [List.map_cons, List.lookup_cons, List.lookup_cons]
      cases key == e.1 with
      | true => rfl
      | false => exact ih
  induction keys with
  | nil => rfl
  | cons key keys ih =>
    rw [List.map_cons, List.flatMap_cons, search_append, hlookup]
    cases nested.lookup key with
    | none => exact ih
    | some rs =>
      show (do match ← search frames rs with | some x => return some x | none => firstTimeout _) = _
      rw [ih]
      rfl

mutual

theorem parseCallTimeout_search (frames depth : ℕ) (x : Json) :
    parseCallTimeout (frames - depth) x = search frames (readings depth x) := by
  match x with
  | .obj fields =>
    rw [readings, search]
    split
    · next h =>
      obtain ⟨n, hn⟩ : ∃ n, frames - depth = n + 1 := ⟨frames - depth - 1, by omega⟩
      have hdeeper : n = frames - (depth + 1) := by omega
      rw [hn, parseCallTimeout, search_append, directTimeout_search frames]
      cases search frames (directReadings fields) with
      | error e => rfl
      | ok found =>
        cases found with
        | some x => rfl
        | none =>
          show firstTimeout (nestedKeys.map fun key => (parseNested n fields).lookup key) = _
          rw [hdeeper, parseNested_search frames (depth + 1) fields]
          exact firstTimeout_search frames _ nestedKeys
    · next h =>
      rw [show frames - depth = 0 by omega, parseCallTimeout]
  | .null => cases frames - depth <;> rfl
  | .bool b => cases frames - depth <;> rfl
  | .int n => cases frames - depth <;> rfl
  | .float f => cases frames - depth <;> rfl
  | .str s => cases frames - depth <;> rfl
  | .arr xs => cases frames - depth <;> rfl

theorem parseNested_search (frames depth : ℕ) (fields : List (String × Json)) :
    parseNested (frames - depth) fields = (nestedReadings depth fields).map fun e => (e.1, search frames e.2) := by
  match fields with
  | [] =>
    rw [parseNested, nestedReadings]
    rfl
  | (key, v) :: fields =>
    rw [parseNested, nestedReadings, List.map_cons, parseCallTimeout_search frames depth v,
      parseNested_search frames depth fields]

end

/-! ## What the search finds -/

theorem parsePositiveFloat_ok (raw : Option Json) (millis : Bool) (frames : ℕ) :
    (parsePositiveFloat raw).toBool = (Reading.value raw millis).passable frames := by
  unfold Reading.passable
  cases raw with
  | none => rfl
  | some x =>
    cases x with
    | int n =>
      unfold parsePositiveFloat
      dsimp only
      cases PyFloat.ofInt n with
      | error e => rfl
      | ok x =>
        rfl
    | str s =>
      unfold parsePositiveFloat
      dsimp only
      split <;> rfl
    | _ => rfl

/-- The search returns exactly when it can read through, and then the first positive value. -/
theorem search_ok {frames : ℕ} {rs : List Reading} {r : Option PyFloat} :
    search frames rs = .ok r ↔ ReadsThrough frames rs ∧ r = rs.findSome? Reading.seconds := by
  induction rs with
  | nil =>
    rw [search, ReadsThrough, List.findSome?_nil, Except.ok.injEq, true_and]
    exact eq_comm
  | cons reading rs ih =>
    rw [ReadsThrough, List.findSome?_cons]
    cases reading with
    | enter depth =>
      rw [search]
      by_cases h : depth < frames
      · rw [if_pos h, ih]
        simp [Reading.passable, Reading.seconds, h]
      · rw [if_neg h]
        simp [Reading.passable, h]
    | value raw millis =>
      rw [search, ← parsePositiveFloat_ok raw millis frames]
      simp only [Reading.seconds]
      cases parsePositiveFloat raw with
      | error e =>
        constructor
        · intro h
          cases h
        · rintro ⟨⟨h, -⟩, -⟩
          cases h
      | ok found =>
        cases found with
        | some x =>
          show Except.ok _ = Except.ok r ↔ _
          rw [Except.ok.injEq]
          simp [Except.toBool, eq_comm]
        | none =>
          show search frames rs = .ok r ↔ _
          rw [ih]
          simp [Except.toBool]

theorem parseCallTimeout_ok {frames : ℕ} {payload : JsonObject} {r : Option PyFloat} :
    parseCallTimeout frames (.obj payload) = .ok r ↔
      ReadsThrough frames (readings 0 (.obj payload)) ∧ r = timeoutOf payload := by
  have h := parseCallTimeout_search frames 0 (.obj payload)
  rw [Nat.sub_zero] at h
  rw [h, search_ok]
  rfl

/-! ## Windows -/

section
variable {strategy : RuntimeRecoveryStrategy} {record : ExternalResultRecord} {now : Datetime}

theorem addTimedelta_ok {t micros deadline : ℤ} :
    addTimedelta t micros = .ok deadline ↔ minTime ≤ t + micros ∧ t + micros ≤ maxTime ∧ deadline = t + micros := by
  unfold addTimedelta
  split
  · next h =>
    constructor
    · intro h'
      cases h'
    · rintro ⟨h1, h2, -⟩
      exact (h.elim (not_lt.2 h1) (not_lt.2 h2)).elim
  · next h =>
    rw [not_or, not_lt, not_lt] at h
    rw [Except.ok.injEq]
    constructor
    · rintro rfl
      exact ⟨h.1, h.2, rfl⟩
    · rintro ⟨-, -, rfl⟩
      rfl

theorem waitDeadline_ok {p : PyFloat × Time} : strategy.waitDeadline record = .ok p ↔
    ReadsThrough strategy.limits.frames (readings 0 (.obj record.requestPayload)) ∧
      p.1 = strategy.seconds record.requestPayload ∧
        ∃ micros, p.1.timedelta = .ok micros ∧ minTime ≤ record.updatedAt + micros ∧
          record.updatedAt + micros ≤ maxTime ∧ p.2 = record.updatedAt + micros := by
  unfold RuntimeRecoveryStrategy.waitDeadline resolveWaitDeadline
  simp only [except_bind_ok, except_pure_ok, parseCallTimeout_ok, addTimedelta_ok]
  constructor
  · rintro ⟨_, ⟨hreads, rfl⟩, micros, hmicros, _, ⟨h1, h2, rfl⟩, rfl⟩
    exact ⟨hreads, rfl, micros, hmicros, h1, h2, rfl⟩
  · rintro ⟨hreads, hp, micros, hmicros, h1, h2, hend⟩
    rw [hp] at hmicros
    exact ⟨_, ⟨hreads, rfl⟩, micros, hmicros, _, ⟨h1, h2, rfl⟩, Prod.ext hp hend⟩

/-- The window fits exactly when it can be computed and `now` has a time zone. -/
theorem windowFits_iff : WindowFits strategy now record ↔
    (∃ p, strategy.waitDeadline record = .ok p) ∧ ∃ t, now = .aware t := by
  constructor
  · rintro ⟨hreads, ⟨micros, hmicros, h1, h2⟩, haware⟩
    exact ⟨⟨(_, _), waitDeadline_ok.2 ⟨hreads, rfl, micros, hmicros, h1, h2, rfl⟩⟩, haware⟩
  · rintro ⟨⟨p, hp⟩, haware⟩
    obtain ⟨hreads, hseconds, micros, hmicros, h1, h2, -⟩ := waitDeadline_ok.1 hp
    exact ⟨hreads, ⟨micros, hseconds ▸ hmicros, h1, h2⟩, haware⟩

instance : Decidable (WindowFits strategy now record) :=
  decidable_of_iff ((strategy.waitDeadline record).toBool = true ∧ now.isAware = true) <| by
    rw [windowFits_iff]
    refine and_congr ?_ ?_
    · cases strategy.waitDeadline record with
      | error e => simp [Except.toBool]
      | ok p => simp [Except.toBool]
    · cases now <;> simp [Datetime.isAware]

theorem aware_of_lt {t : Time} {b : Bool} (h : now.lt t = .ok b) : ∃ t, now = .aware t := by
  cases now with
  | aware t => exact ⟨t, rfl⟩
  | naive t => nomatch h

end

/-! ## Decisions -/

/-- What a pass decides on a record.  Only that of a dispatched call depends on its window. -/
inductive Decides (strategy : RuntimeRecoveryStrategy) (runId e : String) (record : ExternalResultRecord)
    (now : Datetime) : RecoveryDecision → Prop
  | replayed {reason : String}
      (hst : record.executionStatus = .intentLogged ∨ record.executionStatus = .verifiedNotFound) :
      Decides strategy runId e record now ⟨runId, e, .replay, reason, some record.executionStatus, none, none⟩
  | committed {reason : String} (hst : record.executionStatus.committed = true) :
      Decides strategy runId e record now ⟨runId, e, .markCommitted, reason, some record.executionStatus, none, none⟩
  | failed {reason : String} (hst : record.executionStatus = .failed) :
      Decides strategy runId e record now
        ⟨runId, e, .handoffRetryOrAbandon, reason, some record.executionStatus, none, none⟩
  | waiting {reason : String} {seconds : PyFloat} {deadline : Time} (hst : record.executionStatus = .dispatched)
      (hwindow : strategy.waitDeadline record = .ok (seconds, deadline)) (hnow : now.lt deadline = .ok true) :
      Decides strategy runId e record now
        ⟨runId, e, .resumeWaiting, reason, some record.executionStatus, some seconds, some deadline⟩
  | exceeded {reason : String} {seconds : PyFloat} {deadline : Time} (hst : record.executionStatus = .dispatched)
      (hwindow : strategy.waitDeadline record = .ok (seconds, deadline)) (hnow : now.lt deadline = .ok false) :
      Decides strategy runId e record now
        ⟨runId, e, .handoffRetryOrAbandon, reason, some record.executionStatus, some seconds, some deadline⟩

section
variable {strategy : RuntimeRecoveryStrategy} {runId e : String} {record : ExternalResultRecord} {now : Datetime}
  {d : RecoveryDecision}

theorem decideRecovery_ok (h : decideRecovery strategy runId e record now = .ok d) :
    Decides strategy runId e record now d := by
  unfold decideRecovery at h
  dsimp only at h
  split at h
  · next hst =>
    cases h
    exact .replayed (.inl hst)
  · next hst =>
    obtain ⟨⟨seconds, deadline⟩, hwindow, h⟩ := except_bind_ok.1 h
    obtain ⟨inside, hnow, h⟩ := except_bind_ok.1 h
    cases except_pure_ok.1 h
    cases inside with
    | true => exact .waiting hst hwindow hnow
    | false => exact .exceeded hst hwindow hnow
  · next hst =>
    cases h
    exact .replayed (.inr hst)
  · next hst =>
    cases h
    exact .committed (by rw [hst]; rfl)
  · next hst =>
    cases h
    exact .committed (by rw [hst]; rfl)
  · next hst =>
    cases h
    exact .failed hst

theorem Decides.executionId (h : Decides strategy runId e record now d) : d.executionId = e := by cases h <;> rfl

/-- A decision on a replay is one on an intent or on a missing commit. -/
theorem Decides.of_replay (h : Decides strategy runId e record now d) (hact : d.action = .replay) :
    record.executionStatus = .intentLogged ∨ record.executionStatus = .verifiedNotFound := by
  cases h with
  | replayed hst => exact hst
  | _ => nomatch hact

/-- A decision on a commit is one on a committed record, and no other is made on it. -/
theorem Decides.markCommitted_iff (h : Decides strategy runId e record now d) :
    d.action = .markCommitted ↔ record.executionStatus.committed = true := by
  cases h with
  | committed hst => exact ⟨fun _ => hst, fun _ => rfl⟩
  | replayed hst => rcases hst with hst | hst <;> simp [hst, ExecutionStatus.committed]
  | failed hst => simp [hst, ExecutionStatus.committed]
  | waiting hst => simp [hst, ExecutionStatus.committed]
  | exceeded hst => simp [hst, ExecutionStatus.committed]

/-- A decision on a dispatched record needs its window. -/
theorem Decides.fits (h : Decides strategy runId e record now d) (hst : record.executionStatus = .dispatched) :
    WindowFits strategy now record := by
  cases h with
  | waiting _ hwindow hnow => exact windowFits_iff.2 ⟨⟨_, hwindow⟩, aware_of_lt hnow⟩
  | exceeded _ hwindow hnow => exact windowFits_iff.2 ⟨⟨_, hwindow⟩, aware_of_lt hnow⟩
  | replayed hst' => rcases hst' with hst' | hst' <;> rw [hst] at hst' <;> nomatch hst'
  | committed hst' =>
    rw [hst] at hst'
    nomatch hst'
  | failed hst' =>
    rw [hst] at hst'
    nomatch hst'

end

end Raef
