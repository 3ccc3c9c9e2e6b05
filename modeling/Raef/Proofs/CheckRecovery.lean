import Raef.Model.CheckHelper

/-!
# A confirmed request is not retried

The default extractor tells a confirmed request from the others; the check retries all the same when
there is no payload to reuse, which can only happen to a response with `found` true.

    found ↔ the response confirms the request                        (extractor_found)
    confirmed by its state → there is a payload                      (extractor_state)
    retried ↔ not confirmed, unless found without a payload          (confirmed_not_retried)
-/

namespace Raef

open Text

/-! ## Statements -/

/-- The response confirms the earlier request. -/
def JsonObject.Confirms (response : JsonObject) : Prop :=
  response.get "found" = some (.bool true) ∨
    (∀ found, response.get "found" ≠ some (.bool found)) ∧
      ∃ state, response.get "state" = some (.str state) ∧ lower state = "committed"

/-- The check API returned a dictionary that confirms the earlier request. -/
def CheckOutcome.Confirms (outcome : CheckOutcome) : Prop :=
  ∃ response : JsonObject, outcome = .returned (.obj response) ∧ response.Confirms

/-- Not retried when the request is confirmed; else retried, with no previous result. -/
structure CheckRecoveryResult.Follows (r : CheckRecoveryResult) (outcome : CheckOutcome) : Prop where
  confirmed : outcome.Confirms → r.shouldRetry = false
  other : ¬ outcome.Confirms → r.shouldRetry = true ∧ r.foundPreviousResult = false

/-- A response with `found` true has a record that is not empty, or an object as its result. -/
def CheckOutcome.CarriesPayload (outcome : CheckOutcome) : Prop :=
  ∀ response : JsonObject, outcome = .returned (.obj response) → response.get "found" = some (.bool true) →
    (∃ field fields, response.get "record" = some (.obj (field :: fields))) ∨
      ∃ result, response.get "result" = some (.obj result)

/-! ## The extractor -/

section
variable {a b : Option JsonObject} {record : Option Json} {response : JsonObject}

theorem orPayload_isSome :
    (orPayload a b).isSome ↔ (∃ field fields, a = some (field :: fields)) ∨ b.isSome := by
  match a with
  | none => simp [orPayload]
  | some [] => simp [orPayload]
  | some (field :: fields) => simp [orPayload]

theorem orPayload_cons : (∃ field fields, orPayload a b = some (field :: fields)) ↔
    (∃ field fields, a = some (field :: fields)) ∨ ∃ field fields, b = some (field :: fields) := by
  match a with
  | none => simp [orPayload]
  | some [] => simp [orPayload]
  | some (field :: fields) => simp [orPayload]

theorem extractDictPayload_isSome : (extractDictPayload record).isSome ↔ ∃ o, record = some (.obj o) := by
  unfold extractDictPayload
  split <;> simp_all

/-- A record gives a payload that counts exactly when it is an object with a field. -/
theorem payload_of_record : (∃ field fields, extractPayloadFromRecord record = some (field :: fields)) ↔
    ∃ field fields, record = some (.obj (field :: fields)) := by
  unfold extractPayloadFromRecord
  split
  · next raw =>
    rw [orPayload_cons]
    constructor
    · intro h
      match raw with
      | [] =>
        -- nothing to find in an empty record
        obtain h | ⟨field, fields, h⟩ := h
        · simp [JsonObject.get, extractDictPayload, orPayload] at h
        · cases h
      | field :: fields => exact ⟨field, fields, rfl⟩
    · rintro ⟨field, fields, h⟩
      cases h
      exact .inr ⟨field, fields, rfl⟩
  · next h =>
    constructor
    · rintro ⟨field, fields, h⟩
      cases h
    · rintro ⟨field, fields, rfl⟩
      exact absurd rfl (h _)

theorem extractor_found : (defaultResponseExtractor response).1 = true ↔ response.Confirms := by
  unfold defaultResponseExtractor JsonObject.Confirms
  split
  · next found hf =>
    cases found <;> simp [hf]
  · next state hs hf =>
    by_cases h : lower state = "committed" <;> simp_all
  · next hs hf => simp_all

/-- A request confirmed by its state comes with a payload: the response itself, for want of another. -/
theorem extractor_state (h : response.Confirms) (hf : ∀ found, response.get "found" ≠ some (.bool found)) :
    (defaultResponseExtractor response).2.isSome := by
  obtain h | ⟨-, state, hs, hc⟩ := h
  · exact absurd h (hf true)
  · unfold defaultResponseExtractor
    split
    · next hf' => exact absurd hf' (hf _)
    · next h _ =>
      cases h.symm.trans hs
      rw [if_pos hc]
      exact orPayload_isSome.2 (.inr rfl)
    · next h => exact absurd hs (h state)

theorem extractor_of_found (h : response.get "found" = some (.bool true)) :
    (defaultResponseExtractor response).2.isSome ↔
      (∃ field fields, response.get "record" = some (.obj (field :: fields))) ∨
        ∃ result, response.get "result" = some (.obj result) := by
  have he : (defaultResponseExtractor response).2 = orPayload (extractPayloadFromRecord (response.get "record"))
      (extractDictPayload (response.get "result")) := by
    simp [defaultResponseExtractor, h]
  rw [he, orPayload_isSome, payload_of_record, extractDictPayload_isSome]

/-- **There is a payload to reuse in every confirmed response but one: found, with none in it.** -/
theorem extractor_confirmed (h : JsonObject.Confirms response) : (defaultResponseExtractor response).2.isSome ↔
    CheckOutcome.CarriesPayload (.returned (.obj response)) := by
  constructor
  · intro hp response' heq hf
    cases heq
    exact (extractor_of_found hf).1 hp
  · intro hc
    by_cases hf : response.get "found" = some (.bool true)
    · exact (extractor_of_found hf).2 (hc response rfl hf)
    · obtain h' | ⟨hn, h'⟩ := h
      · exact absurd h' hf
      · exact extractor_state (.inr ⟨hn, h'⟩) hn

end

/-! ## The check -/

section
variable {request : JsonObject} {check : Option JsonObject} {call : JsonObject → CheckOutcome} {field : String}

/-- What the check decides about a response, read off the pair the extractor gives. -/
theorem recover_of_response {response : JsonObject} (extract : JsonObject → Bool × Option JsonObject)
    (hf : field ≠ "") (hc : call (checkPayload request check field) = .returned (.obj response)) :
    ∃ r, recoverWithCheckApi request check call extract field = .ok r ∧
      (r.shouldRetry = false ↔ (extract response).1 = true ∧ (extract response).2.isSome) ∧
      (r.shouldRetry = true → r.foundPreviousResult = false) := by
  unfold recoverWithCheckApi
  rw [(Txn.raiseIf_ok (u := ())).2 hf]
  simp only [hc]
  refine ⟨_, rfl, ?_⟩
  split
  · next recovered he => simp [he]
  · next found recovered hn he =>
    rw [he]
    refine ⟨⟨(by nofun), ?_⟩, fun _ => rfl⟩
    rintro ⟨hfound, hp⟩
    obtain ⟨payload, hp⟩ := Option.isSome_iff_exists.1 hp
    exact absurd hp (hn payload hfound)

/-- A check call that raises, or returns no dictionary, leads to a retry. -/
theorem recover_of_other (extract : JsonObject → Bool × Option JsonObject) (hf : field ≠ "")
    (hc : ∀ response, call (checkPayload request check field) ≠ .returned (.obj response)) :
    ∃ r, recoverWithCheckApi request check call extract field = .ok r ∧ r.shouldRetry = true ∧
      r.foundPreviousResult = false := by
  unfold recoverWithCheckApi
  rw [(Txn.raiseIf_ok (u := ())).2 hf]
  refine ⟨_, rfl, ?_⟩
  split
  · exact ⟨rfl, rfl⟩
  · next response h => exact absurd h (hc response)
  · exact ⟨rfl, rfl⟩

end

/-- **A confirmed request is not retried, unless it is found with no payload to reuse.** -/
theorem confirmed_not_retried (request : JsonObject) (check : Option JsonObject)
    (call : JsonObject → CheckOutcome) (field : String) (hf : field ≠ "") :
    ∃ r, recoverWithCheckApi request check call defaultResponseExtractor field = .ok r ∧
      (r.Follows (call (checkPayload request check field)) ↔
        (call (checkPayload request check field)).CarriesPayload) := by
  by_cases hc : ∃ response, call (checkPayload request check field) = .returned (.obj response)
  · obtain ⟨response, hc⟩ := hc
    obtain ⟨r, hr, hd, hn⟩ := recover_of_response defaultResponseExtractor hf hc
    rw [extractor_found] at hd
    refine ⟨r, hr, ?_⟩
    rw [hc]
    have hself : CheckOutcome.Confirms (.returned (.obj response)) ↔ JsonObject.Confirms response :=
      ⟨fun ⟨_, heq, h⟩ => by cases heq; exact h, fun h => ⟨response, rfl, h⟩⟩
    constructor
    · intro hfollows response' heq hfound
      cases heq
      have hconf : JsonObject.Confirms response := .inl hfound
      have hp := (hd.1 (hfollows.confirmed (hself.2 hconf))).2
      exact (extractor_of_found hfound).1 hp
    · intro hcarries
      refine ⟨fun h => ?_, fun h => ?_⟩
      · have hconf := hself.1 h
        exact hd.2 ⟨hconf, (extractor_confirmed hconf).2 hcarries⟩
      · have hretry : r.shouldRetry = true := by
          by_contra hnot
          exact h (hself.2 (hd.1 (Bool.not_eq_true _ ▸ hnot)).1)
        exact ⟨hretry, hn hretry⟩
  · have hc : ∀ response, call (checkPayload request check field) ≠ .returned (.obj response) :=
      fun response h => hc ⟨response, h⟩
    obtain ⟨r, hr, hretry, hfound⟩ := recover_of_other defaultResponseExtractor hf hc
    refine ⟨r, hr, fun _ response h => absurd h (hc response), fun _ => ?_⟩
    exact ⟨fun ⟨response, h, _⟩ => absurd h (hc response), fun _ => ⟨hretry, hfound⟩⟩

/-- A check answered by the record of the committed call. -/
theorem confirmed_reused : ∃ r, recoverWithCheckApi [("execution_id", .str "e")] none
    (fun _ => .returned (.obj [("found", .bool true), ("record", .obj [("status", .str "committed")])]))
    defaultResponseExtractor "execution_id" = .ok r ∧ r.shouldRetry = false := by
  obtain ⟨r, hr, h⟩ := confirmed_not_retried [("execution_id", .str "e")] none
    (fun _ => .returned (.obj [("found", .bool true), ("record", .obj [("status", .str "committed")])]))
    "execution_id" (by decide)
  refine ⟨r, hr, (h.2 ?_).confirmed ⟨_, rfl, .inl rfl⟩⟩
  intro response heq _
  cases heq
  exact .inl ⟨_, _, rfl⟩

/-- Found, with no more to it: the confirmed request is to be retried. -/
theorem found_alone_retried : ∃ r, recoverWithCheckApi [("execution_id", .str "e")] none
    (fun _ => .returned (.obj [("found", .bool true)])) defaultResponseExtractor "execution_id" = .ok r ∧
    JsonObject.Confirms [("found", .bool true)] ∧ r.shouldRetry = true :=
  ⟨_, rfl, .inl rfl, rfl⟩

end Raef
