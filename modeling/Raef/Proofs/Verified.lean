import Raef.Model.Verifier

/-!
# What a verified commit is worth

The verifier finds a write committed by the record under its execution id, or by the value the
domain holds under its key.  A record is there for every apply call, and also under the action id of
a queryable or a counter call; a value says something of the requests that set it, and nothing of
the others.

    in the action log → applied, or a queryable or counter call       (logged_reach)
    unchanged ↔ set to its value, deleted though absent, or nothing added  (unchanged_iff)
    with the value there: unchanged ↔ it is set, or nothing is added  (unchanged_of_match)
    committed is right ↔ …                                            (verified_commits_real)
-/

namespace Raef

open Txn

/-! ## Statements -/

/-- The arguments a write was recorded with. -/
structure WriteArgs (args : JsonObject) (actionName : String) (payload : JsonObject) : Prop where
  actionName : args.get "action_name" = some (.str actionName)
  payload : args.get "payload" = some (.obj payload)

/-- Two dictionaries are `==`. -/
def JsonObject.SameEntries (a b : JsonObject) : Prop :=
  ∀ key, match a.get key, b.get key with
    | some x, some y => x.Same y
    | none, none => True
    | _, _ => False

namespace TargetData

/-- The request would succeed and leave the domain state as it is. -/
def Unchanged (data : TargetData) (actionName : String) (payload : JsonObject) : Prop :=
  ∀ receipt, ∃ state, applyToDomainState data.domainState actionName payload receipt = .ok state ∧
    JsonObject.SameEntries data.domainState state

/-- The action log has a record of a queryable or a counter call under the id. -/
def LogsQueryable (data : TargetData) (executionId : String) : Prop :=
  ∃ (record : JsonObject) (level : RemoteApiLevel),
    data.actionLog.get executionId = some (.obj record) ∧
    record.get "api_level" = some (.str level.value) ∧
    (level = .queryableDistinguishable ∨ level = .queryableCounter)

/-- The domain holds the value of the payload, which is not null, under its key. -/
def Holds (data : TargetData) (payload : JsonObject) : Prop :=
  ∃ key observed, payload.get "key" = some (.str key) ∧ key ≠ "" ∧ data.domainState.get key = some observed ∧
    observed.pyEq (payload.getD "value" .null) = true ∧ (payload.getD "value" .null).pyEq .null = false

/-- Adding the delta of the payload to the value under its key gives the same value. -/
def AddsNothing (data : TargetData) (payload : JsonObject) : Prop :=
  ∃ key current sum, payload.get "key" = some (.str key) ∧ data.domainState.get key = some current ∧
    current.isNumeric ∧ (payload.getD "delta" (.int 1)).isNumeric ∧
    current.pyAdd (payload.getD "delta" (.int 1)) = .ok sum ∧ current.Same sum

/-- The payload names a key, and the action sets it to the value it has, deletes it though it is absent, or adds
nothing to it. -/
def ChangesNothing (data : TargetData) (actionName : String) (payload : JsonObject) : Prop :=
  ∃ key, payload.get "key" = some (.str key) ∧ key ≠ "" ∧
    (actionName = "set_value" ∧
        (∃ observed, data.domainState.get key = some observed ∧ observed.Same (payload.getD "value" .null)) ∨
      actionName = "delete_value" ∧ data.domainState.get key = none ∨
      actionName = "increment_value" ∧ data.AddsNothing payload)

/-- What the verifier finds committed was applied, or would change nothing. -/
def VerifiesRightly (data : TargetData) (applied : List String) (executionId toolName : String)
    (args : JsonObject) (actionName : String) (payload : JsonObject) : Prop :=
  ∀ v, data.verifyWrite ⟨executionId, toolName, args⟩ = .ok v → v.committed = some true →
    executionId ∈ applied ∨ data.Unchanged actionName payload

end TargetData

/-! ## The records -/

/-- Every record is that of an apply call, or of a queryable or counter call. -/
structure TargetData.Logged (data : TargetData) (applied : List String) : Prop where
  log : ∀ e record, data.actionLog.get e = some record →
    (∃ r, record = .obj r) ∧ (e ∈ applied ∨ data.LogsQueryable e)
  idempotent : ∀ e record, data.idempotentRequests.get e = some record → e ∈ applied
  rifl : ∀ e record, data.riflRequests.get e = some record → e ∈ applied

section
variable {data data' : TargetData} {applied applied' : List String} {amb : TargetAmbient} {e : String}
  {actionName : String} {payload answer : JsonObject}

theorem TargetData.Logged.mono (h : data.Logged applied) (hsub : applied ⊆ applied') : data.Logged applied' where
  log e record hr := ⟨(h.log e record hr).1, (h.log e record hr).2.imp_left fun hm => hsub hm⟩
  idempotent e record hr := hsub (h.idempotent e record hr)
  rifl e record hr := hsub (h.rifl e record hr)

/-- One more record in the log, and in a request map if it is that of an apply call. -/
theorem TargetData.Logged.add (h : data.Logged applied) (hsub : applied ⊆ applied') {r : JsonObject}
    (hlog : data'.actionLog = data.actionLog.set e (.obj r))
    (hidem : ∀ e', e' ∉ applied' → data'.idempotentRequests.get e' = data.idempotentRequests.get e')
    (hrifl : ∀ e', e' ∉ applied' → data'.riflRequests.get e' = data.riflRequests.get e')
    (hnew : e ∈ applied' ∨ data'.LogsQueryable e) : data'.Logged applied' where
  log e' record hr := by
    rw [hlog] at hr
    by_cases heq : e' = e
    · subst heq
      rw [JsonObject.get_set_self] at hr
      exact ⟨⟨r, (Option.some.inj hr).symm⟩, hnew⟩
    · rw [JsonObject.get_set_ne heq] at hr
      obtain ⟨hobj, hm | ⟨r', level, hq, hl⟩⟩ := h.log e' record hr
      · exact ⟨hobj, .inl (hsub hm)⟩
      · refine ⟨hobj, .inr ⟨r', level, ?_, hl⟩⟩
        rw [hlog, JsonObject.get_set_ne heq]
        exact hq
  idempotent e' record hr := by
    by_contra hn
    rw [hidem e' hn] at hr
    exact hn (hsub (h.idempotent e' record hr))
  rifl e' record hr := by
    by_contra hn
    rw [hrifl e' hn] at hr
    exact hn (hsub (h.rifl e' record hr))

/-- An apply call adds one record, under its id, to the log and to the map of its API. -/
theorem KeyedApi.apply_ok {api : KeyedApi} (h : api.apply amb actionName payload e data = .ok (answer, data')) :
    data' = data ∨ ∃ record domainState stats, data' = { api.update ((api.requests data).set e (.obj record)) data with
      domainState := domainState
      actionLog := (api.update ((api.requests data).set e (.obj record)) data).actionLog.set e (.obj record)
      stats := stats } := by
  unfold KeyedApi.apply at h
  simp only [bind_ok, require_ok, read_ok] at h
  obtain ⟨_, _, ⟨-, h1⟩, _, _, ⟨-, h2⟩, d, _, h3, h⟩ := h
  cases h1; cases h2; cases h3
  generalize (api.requests data).get e = existing at h
  split at h
  · simp only [bind_ok, require_ok, pure_ok] at h
    obtain ⟨_, _, ⟨-, h4⟩, h⟩ := h
    cases h4; cases h
    exact .inl rfl
  · simp only [bind_ok, lift_ok, write_ok, pure_ok] at h
    obtain ⟨domainState, _, ⟨-, h4⟩, _, _, h5, h⟩ := h
    cases h4; cases h5; cases h
    exact .inr ⟨_, _, _, rfl⟩

theorem logged_idempotent (h : data.Logged applied)
    (ho : applyIdempotentAction amb actionName payload e data = .ok (answer, data')) :
    data'.Logged (e :: applied) := by
  have hsub : applied ⊆ e :: applied := List.subset_cons_self e applied
  obtain rfl | ⟨record, domainState, stats, rfl⟩ := KeyedApi.apply_ok ho
  · exact h.mono hsub
  · refine h.add hsub rfl (fun e' hn => ?_) (fun _ _ => rfl) (.inl List.mem_cons_self)
    exact JsonObject.get_set_ne (fun heq => hn (by rw [heq]; exact List.mem_cons_self)) _ _

theorem logged_rifl (h : data.Logged applied)
    (ho : applyRiflAction amb actionName payload e data = .ok (answer, data')) :
    data'.Logged (e :: applied) := by
  have hsub : applied ⊆ e :: applied := List.subset_cons_self e applied
  obtain rfl | ⟨record, domainState, stats, rfl⟩ := KeyedApi.apply_ok ho
  · exact h.mono hsub
  · refine h.add hsub rfl (fun _ _ => rfl) (fun e' hn => ?_) (.inl List.mem_cons_self)
    exact JsonObject.get_set_ne (fun heq => hn (by rw [heq]; exact List.mem_cons_self)) _ _

theorem logged_action {mode : IdempotencyMode} {executionId : Option String} (h : data.Logged applied)
    (ho : applyAction mode amb actionName payload executionId data = .ok (answer, data')) :
    data'.Logged (((TargetCall.action mode actionName payload executionId).executionId amb).toList ++ applied) := by
  unfold applyAction at ho
  simp only [bind_ok, require_ok] at ho
  obtain ⟨_, _, ⟨-, h1⟩, ho⟩ := ho
  cases h1
  cases mode with
  | idempotent =>
    -- the keyed call under the id given, or under a fresh one
    cases executionId with
    | none => exact logged_idempotent h ho
    | some e => exact logged_idempotent h ho
  | nonIdempotent =>
    simp only [bind_ok, read_ok, lift_ok, write_ok, pure_ok] at ho
    obtain ⟨d, _, h2, domainState, _, ⟨-, h3⟩, _, _, h4, ho⟩ := ho
    cases h2; cases h3; cases h4; cases ho
    cases executionId with
    | none => exact h.add (List.subset_cons_self _ _) rfl (fun _ _ => rfl) (fun _ _ => rfl) (.inl List.mem_cons_self)
    | some e => exact h.add (List.subset_cons_self _ _) rfl (fun _ _ => rfl) (fun _ _ => rfl) (.inl List.mem_cons_self)

theorem logged_queryable (h : data.Logged applied)
    (ho : applyQueryableDistinguishable amb actionName payload data = .ok (answer, data')) :
    data'.Logged applied := by
  unfold applyQueryableDistinguishable at ho
  simp only [bind_ok, require_ok, lift_ok, read_ok, write_ok, pure_ok] at ho
  obtain ⟨_, _, ⟨-, h1⟩, key, _, ⟨-, h2⟩, d, _, h3, history, _, ⟨-, h4⟩, _, _, h5, ho⟩ := ho
  cases h1; cases h2; cases h3; cases h4; cases h5; cases ho
  refine h.add (List.Subset.refl _) rfl (fun _ _ => rfl) (fun _ _ => rfl) (.inr ?_)
  exact ⟨_, .queryableDistinguishable, JsonObject.get_set_self _ _ _, rfl, .inl rfl⟩

theorem logged_counter {counterName : String} {delta : Json} (h : data.Logged applied)
    (ho : incrementCounter amb counterName delta data = .ok (answer, data')) : data'.Logged applied := by
  unfold incrementCounter at ho
  simp only [bind_ok, require_ok, lift_ok, read_ok, write_ok, pure_ok] at ho
  obtain ⟨_, _, ⟨-, h1⟩, _, _, ⟨-, h2⟩, d, _, h3, _, _, ⟨-, h4⟩, newValue, _, ⟨-, h5⟩, _, _, h6, ho⟩ := ho
  cases h1; cases h2; cases h3; cases h4; cases h5; cases h6; cases ho
  refine h.add (List.Subset.refl _) rfl (fun _ _ => rfl) (fun _ _ => rfl) (.inr ?_)
  exact ⟨_, .queryableCounter, JsonObject.get_set_self _ _ _, rfl, .inr rfl⟩

/-- **The records of a target that calls have led to.** -/
theorem logged_reach (h : TargetReach data applied) : data.Logged applied := by
  induction h with
  | init => exact ⟨(by nofun), (by nofun), (by nofun)⟩
  | @call data data' applied amb call answer _ ho ih =>
    cases call with
    | action mode actionName payload executionId => exact logged_action ih ho
    | idempotent actionName payload e => exact logged_idempotent ih ho
    | rifl actionName payload e => exact logged_rifl ih ho
    | queryableDistinguishable actionName payload => exact logged_queryable ih ho
    | incrementCounter counterName delta => exact logged_counter ih ho

end

/-! ## The value under the key -/

section
variable {data : TargetData} {actionName : String} {payload : JsonObject}

theorem matchingValue_isSome : (data.matchingValue payload).isSome ↔ data.Holds payload := by
  unfold TargetData.matchingValue TargetData.getValue
  constructor
  · intro h
    split at h
    · next key hkey =>
      by_cases he : key = ""
      · simp [he] at h
      · simp only [he, if_false, Option.isSome_ite, Bool.and_eq_true, Bool.not_eq_true'] at h
        obtain ⟨hsame, hnull⟩ := h
        cases hv : JsonObject.get data.domainState key with
        | none =>
          -- an absent key reads as null, which is equal to null only
          rw [JsonObject.getD, hv] at hsame
          have hexp := Json.eq_null_of_pyEq hsame
          rw [hexp] at hnull
          exact absurd hnull (by decide)
        | some observed =>
          rw [JsonObject.getD, hv] at hsame
          exact ⟨key, observed, hkey, he, hv, hsame, hnull⟩
    · nomatch h
  · rintro ⟨key, observed, hkey, he, hv, hsame, hnull⟩
    have hget : JsonObject.getD data.domainState key .null = observed := by
      rw [JsonObject.getD, hv]
      rfl
    simp [hkey, he, hget, hsame, hnull]

theorem JsonObject.SameEntries.refl (o : JsonObject) : JsonObject.SameEntries o o := by
  intro key
  cases o.get key with
  | none => trivial
  | some x => exact .inl rfl

theorem not_sameEntries {o o' : JsonObject} (key : String) (h : (o.get key).isSome ≠ (o'.get key).isSome) :
    ¬ JsonObject.SameEntries o o' := by
  intro hs
  have hk := hs key
  cases hx : o.get key <;> cases hy : o'.get key <;> rw [hx, hy] at hk h
  · exact h rfl
  · exact hk
  · exact hk
  · exact h rfl

/-- Setting a key leaves the dictionary the same when the key has that value. -/
theorem sameEntries_set {o : JsonObject} {key : String} {y : Json} :
    JsonObject.SameEntries o (o.set key y) ↔ ∃ x, o.get key = some x ∧ x.Same y := by
  constructor
  · intro h
    cases hx : o.get key with
    | none =>
      refine absurd h (not_sameEntries key ?_)
      rw [hx, JsonObject.get_set_self]
      nofun
    | some x =>
      have hk := h key
      rw [hx, JsonObject.get_set_self] at hk
      exact ⟨x, rfl, hk⟩
  · rintro ⟨x, hx, h⟩ key'
    by_cases hk : key' = key
    · subst hk
      rw [hx, JsonObject.get_set_self]
      exact h
    · rw [JsonObject.get_set_ne hk]
      exact JsonObject.SameEntries.refl o key'

/-- Deleting a key leaves the dictionary the same when there is none. -/
theorem sameEntries_erase {o : JsonObject} {key : String} :
    JsonObject.SameEntries o (o.erase key) ↔ o.get key = none := by
  constructor
  · intro h
    by_contra hx
    refine not_sameEntries key ?_ h
    rw [JsonObject.get_erase_self, Option.isSome_iff_ne_none.2 hx]
    nofun
  · intro h
    rw [JsonObject.erase_of_absent h]
    exact .refl o

theorem requireStr_ok {o : JsonObject} {field key : String} :
    o.requireStr field = .ok key ↔ o.get field = some (.str key) ∧ key ≠ "" := by
  unfold JsonObject.requireStr
  constructor
  · intro h
    split at h
    · next s hs =>
      split at h
      · nomatch h
      · next hne =>
        cases h
        exact ⟨hs, hne⟩
    · nomatch h
  · rintro ⟨h, hne⟩
    rw [h]
    exact if_neg hne

/-- Every other action leaves a trace in the list of applied actions. -/
theorem not_unchanged_other (h1 : actionName ≠ "set_value") (h2 : actionName ≠ "delete_value")
    (h3 : actionName ≠ "increment_value") : ¬ data.Unchanged actionName payload := by
  intro h
  obtain ⟨state, ho, hs⟩ := h .null
  unfold applyToDomainState at ho
  rw [if_neg h1, if_neg h2, if_neg h3] at ho
  split at ho
  · next history hh =>
    cases ho
    obtain ⟨x, hx, hsame⟩ := sameEntries_set.1 hs
    rw [JsonObject.getD, hx] at hh
    cases (show x = .arr history from hh)
    exact Json.not_same_append _ _ hsame
  · nomatch ho

theorem unchanged_set : data.Unchanged "set_value" payload ↔ ∃ key, payload.get "key" = some (.str key) ∧ key ≠ "" ∧
    ∃ observed, data.domainState.get key = some observed ∧ observed.Same (payload.getD "value" .null) := by
  unfold TargetData.Unchanged applyToDomainState
  simp only [if_true, except_bind_ok, except_pure_ok, requireStr_ok]
  constructor
  · intro h
    obtain ⟨_, ⟨key, ⟨hkey, hne⟩, rfl⟩, hs⟩ := h .null
    exact ⟨key, hkey, hne, sameEntries_set.1 hs⟩
  · rintro ⟨key, hkey, hne, hs⟩ _
    exact ⟨_, ⟨key, ⟨hkey, hne⟩, rfl⟩, sameEntries_set.2 hs⟩

theorem unchanged_delete : data.Unchanged "delete_value" payload ↔
    ∃ key, payload.get "key" = some (.str key) ∧ key ≠ "" ∧ data.domainState.get key = none := by
  unfold TargetData.Unchanged applyToDomainState
  simp only [show ("delete_value" : String) ≠ "set_value" by decide, if_false, if_true, except_bind_ok,
    except_pure_ok, requireStr_ok]
  constructor
  · intro h
    obtain ⟨_, ⟨key, ⟨hkey, hne⟩, rfl⟩, hs⟩ := h .null
    exact ⟨key, hkey, hne, sameEntries_erase.1 hs⟩
  · rintro ⟨key, hkey, hne, hs⟩ _
    exact ⟨_, ⟨key, ⟨hkey, hne⟩, rfl⟩, sameEntries_erase.2 hs⟩

/-- An absent key counts from 0, and is there afterwards. -/
theorem unchanged_increment : data.Unchanged "increment_value" payload ↔
    ∃ key, payload.get "key" = some (.str key) ∧ key ≠ "" ∧ data.AddsNothing payload := by
  unfold TargetData.Unchanged applyToDomainState
  simp only [show ("increment_value" : String) ≠ "set_value" by decide,
    show ("increment_value" : String) ≠ "delete_value" by decide, if_false, if_true, except_bind_ok, except_pure_ok,
    raiseIf_ok, not_not, requireStr_ok]
  constructor
  · intro h
    obtain ⟨_, ⟨key, ⟨hkey, hne⟩, _, hd, _, hn, sum, hsum, rfl⟩, hs⟩ := h .null
    obtain ⟨current, hget, hsame⟩ := sameEntries_set.1 hs
    have hcur : JsonObject.getD data.domainState key (.int 0) = current := by
      rw [JsonObject.getD, hget]
      rfl
    rw [hcur] at hn hsum
    exact ⟨key, hkey, hne, key, current, sum, hkey, hget, hn, hd, hsum, hsame⟩
  · rintro ⟨key, hkey, hne, key', current, sum, hkey', hget, hn, hd, hsum, hsame⟩ _
    cases hkey.symm.trans hkey'
    have hcur : JsonObject.getD data.domainState key (.int 0) = current := by
      rw [JsonObject.getD, hget]
      rfl
    rw [← hcur] at hn hsum
    exact ⟨_, ⟨key, ⟨hkey, hne⟩, (), hd, (), hn, sum, hsum, rfl⟩, sameEntries_set.2 ⟨current, hget, hsame⟩⟩

/-- **Which requests change nothing.** -/
theorem unchanged_iff : data.Unchanged actionName payload ↔ data.ChangesNothing actionName payload := by
  unfold TargetData.ChangesNothing
  by_cases h1 : actionName = "set_value"
  · subst h1
    simp [unchanged_set]
  by_cases h2 : actionName = "delete_value"
  · subst h2
    simp [unchanged_delete]
  by_cases h3 : actionName = "increment_value"
  · subst h3
    simp [unchanged_increment]
  · simp [h1, h2, h3, not_unchanged_other h1 h2 h3]

/-- **A request whose value is there already changes nothing when it sets it, or adds nothing to it.** -/
theorem unchanged_of_match (h : data.Holds payload) : data.Unchanged actionName payload ↔
    actionName = "set_value" ∨ actionName = "increment_value" ∧ data.AddsNothing payload := by
  obtain ⟨key, observed, hkey, hne, hget, hsame, -⟩ := h
  rw [unchanged_iff]
  constructor
  · rintro ⟨key', hkey', -, ⟨h1, -⟩ | ⟨-, hnone⟩ | hinc⟩
    · exact .inl h1
    · cases hkey.symm.trans hkey'
      rw [hget] at hnone
      nomatch hnone
    · exact .inr hinc
  · rintro (h1 | hinc)
    · exact ⟨key, hkey, hne, .inl ⟨h1, observed, hget, .inr hsame⟩⟩
    · exact ⟨key, hkey, hne, .inr (.inr hinc)⟩

end

/-! ## The verdict -/

section
variable {data : TargetData} {applied : List String} {executionId toolName actionName : String}
  {args payload : JsonObject}

theorem payloadOf_writeArgs (ha : WriteArgs args actionName payload) : TargetData.payloadOf args = payload := by
  unfold TargetData.payloadOf JsonObject.getD
  rw [ha.payload]
  rfl

/-- What the verifier finds committed has a record under its id, or its value under its key. -/
theorem committed_of_verify {v : VerificationDecision} (ha : WriteArgs args actionName payload)
    (hv : data.verifyWrite ⟨executionId, toolName, args⟩ = .ok v) (hc : v.committed = some true) :
    (∃ record, data.getActionByExecutionId executionId = .ok (some record)) ∨ data.Holds payload := by
  unfold TargetData.verifyWrite at hv
  split at hv
  · cases hv
  split at hv
  · cases hv
    cases hc
  · next record hr => exact .inl ⟨_, hr⟩
  · simp only [payloadOf_writeArgs ha] at hv
    split at hv
    · next observed hm =>
      refine .inr (matchingValue_isSome.1 ?_)
      rw [hm]
      rfl
    · cases hv
      cases hc

theorem action_logged {record : Json} (h : data.Logged applied)
    (hr : data.getActionByExecutionId executionId = .ok (some record)) :
    executionId ∈ applied ∨ data.LogsQueryable executionId := by
  unfold TargetData.getActionByExecutionId at hr
  split at hr
  · nomatch hr
  split at hr
  · next hlog => exact (h.log _ _ hlog).2
  split at hr
  · next hi => exact .inl (h.idempotent _ _ hi)
  · next hi => exact .inl (h.rifl _ _ (Except.ok.inj hr))

/-- The verifier finds a write committed for either of two signs. -/
theorem committed_of_sign (ha : WriteArgs args actionName payload) (he : executionId ≠ "")
    (hs : data.LogsQueryable executionId ∨ data.Holds payload) :
    ∃ v, data.verifyWrite ⟨executionId, toolName, args⟩ = .ok v ∧ v.committed = some true := by
  unfold TargetData.verifyWrite
  simp only [if_neg he]
  split
  · next e hr =>
    -- the lookup raises for the empty id only
    unfold TargetData.getActionByExecutionId at hr
    rw [if_neg he] at hr
    split at hr
    · cases hr
    split at hr <;> cases hr
  · exact ⟨_, rfl, rfl⟩
  · next hno hr =>
    have hh : data.Holds payload := by
      refine hs.resolve_left ?_
      rintro ⟨record, level, hlog, -⟩
      unfold TargetData.getActionByExecutionId at hr
      rw [if_neg he, hlog] at hr
      exact hno record (Except.ok.inj hr).symm
    have hm := matchingValue_isSome.2 hh
    obtain ⟨observed, hm⟩ := Option.isSome_iff_exists.1 hm
    rw [payloadOf_writeArgs ha, hm]
    exact ⟨_, rfl, rfl⟩

/-- **A verified commit is real, unless the id is the action id of a queryable or counter call, or the domain
holds the value of a request that does not set it.** -/
theorem verified_commits_real (h : TargetReach data applied) (ha : WriteArgs args actionName payload) :
    data.VerifiesRightly applied executionId toolName args actionName payload ↔
      executionId = "" ∨ executionId ∈ applied ∨
        (data.LogsQueryable executionId → data.ChangesNothing actionName payload) ∧
        (data.Holds payload → actionName = "set_value" ∨ actionName = "increment_value" ∧ data.AddsNothing payload) := by
  constructor
  · intro hright
    by_cases he : executionId = ""
    · exact .inl he
    by_cases hm : executionId ∈ applied
    · exact .inr (.inl hm)
    have hun (hs : data.LogsQueryable executionId ∨ data.Holds payload) : data.Unchanged actionName payload := by
      obtain ⟨v, hv, hc⟩ := committed_of_sign ha he hs
      exact (hright v hv hc).resolve_left hm
    exact .inr (.inr ⟨fun hq => unchanged_iff.1 (hun (.inl hq)), fun hh => (unchanged_of_match hh).1 (hun (.inr hh))⟩)
  · rintro (rfl | hm | ⟨hq, hh⟩) v hv hc
    · nomatch hv
    · exact .inl hm
    · obtain ⟨record, hr⟩ | hhold := committed_of_verify ha hv hc
      · exact (action_logged (logged_reach h) hr).imp_right fun hlog => unchanged_iff.2 (hq hlog)
      · exact .inr ((unchanged_of_match hhold).2 (hh hhold))

end

/-! ## Runs -/

/-- The surroundings of a call that takes no fresh id. -/
def plainAmbient : TargetAmbient := ⟨0, "u", "a"⟩

/-- A target that set the key `k` to 1 under the id `a`. -/
def targetAfterSet : TargetData :=
  match (TargetCall.idempotent "set_value" [("key", .str "k"), ("value", .int 1)] "a").run plainAmbient {} with
  | .ok (_, data) => data
  | .error _ => {}

theorem targetAfterSet_reach : TargetReach targetAfterSet ["a"] :=
  @TargetReach.call {} targetAfterSet [] plainAmbient
    (.idempotent "set_value" [("key", .str "k"), ("value", .int 1)] "a") _ .init rfl

/-- Setting the key again under another id is found committed, and changes nothing. -/
theorem verified_commits_real_set : targetAfterSet.VerifiesRightly ["a"] "b" "write"
    [("action_name", .str "set_value"), ("payload", .obj [("key", .str "k"), ("value", .int 1)])] "set_value"
    [("key", .str "k"), ("value", .int 1)] := by
  refine (verified_commits_real targetAfterSet_reach ⟨rfl, rfl⟩).2 (.inr (.inr ⟨?_, fun _ => .inl rfl⟩))
  rintro ⟨record, level, hlog, -⟩
  nomatch hlog

/-- Deleting the key, with its value in the payload, is found committed: the key is still there. -/
theorem deletion_found_committed : TargetReach targetAfterSet ["a"] ∧ ¬ targetAfterSet.VerifiesRightly ["a"] "b" "write"
    [("action_name", .str "delete_value"), ("payload", .obj [("key", .str "k"), ("value", .int 1)])] "delete_value"
    [("key", .str "k"), ("value", .int 1)] := by
  refine ⟨targetAfterSet_reach, fun h => ?_⟩
  obtain hm | hun := h _ rfl rfl
  · exact absurd hm (by decide)
  · obtain ⟨state, ho, hs⟩ := hun .null
    cases ho
    exact hs "k"

end Raef
