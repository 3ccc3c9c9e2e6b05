import Raef.Model.Payloads

/-!
# Offloading payloads

Whether a payload is kept in its row or as an artifact, and wherever the earlier upserts of its id
had put theirs, the lookup returns the payloads of the last upsert.  Artifacts are never overwritten,
so this rests on the digest prefix telling the payloads of one id and kind apart; and the lookup
strips the id it is given, the upsert does not.

    the artifact of an id holds a payload upserted under that id        (Tracks.artifact)
    a row holds the payloads of the last upsert, by column or reference (Tracks.row)
    the lookup returns them ↔ the id is not empty and has no padding    (payloads_transparent)
    the same as a store that keeps every record whole                   (store_offloaded)
-/

namespace Raef

open Text Txn

/-! ## Statements -/

def ExternalResult.payload (r : ExternalResult) : PayloadKind → Option JsonObject
  | .request => r.requestPayload
  | .response => r.responsePayload

/-- The upserts of one execution id, in order. -/
def upsertsOf (upserts : List Upsert) (executionId : String) : List Upsert :=
  upserts.filter fun u => u.result.executionId = executionId

/-- The digest prefix tells the payloads of this id and kind apart. -/
def NoCollision (upserts : List Upsert) (executionId : String) (kind : PayloadKind) : Prop :=
  ∀ u ∈ upsertsOf upserts executionId, ∀ v ∈ upsertsOf upserts executionId, ∀ p q,
    u.result.payload kind = some p → v.result.payload kind = some q →
    shaPrefix p = shaPrefix q → jsonColumn p = jsonColumn q

/-- The lookup returns the record of the id, with the payloads of its last upsert and the time of its first. -/
def ReadsBack (t : ResultTables) (executionId : String) (first last : Upsert) : Prop :=
  ∃ record, t.getExternalResult executionId = .ok (some record) ∧ record.executionId = executionId ∧
    (∀ kind, record.payload kind = (last.result.payload kind).map jsonColumn) ∧ record.createdAt = first.now

/-! ## Payload ids -/

theorem length_shaPrefix (p : JsonObject) : (shaPrefix p).toList.length = 16 := by
  unfold shaPrefix jsonSha256
  rw [String.toList_ofList, List.length_take, Sha256.length_hexdigest]
  rfl

/-- A payload id determines the execution id, the kind and the digest prefix. -/
theorem payloadId_inj {e e' : String} {kind kind' : PayloadKind} {p p' : JsonObject}
    (h : payloadId e kind p = payloadId e' kind' p') : e = e' ∧ kind = kind' ∧ shaPrefix p = shaPrefix p' := by
  have hparts (e : String) (kind : PayloadKind) (p : JsonObject) :
      (payloadId e kind p).toList = (e.toList ++ (':' :: (kind.value.toList ++ [':']))) ++ (shaPrefix p).toList := by
    simp [payloadId]
    rfl
  have hl := congrArg String.toList h
  rw [hparts, hparts] at hl
  obtain ⟨hfront, hsha⟩ := List.append_inj' hl (by rw [length_shaPrefix, length_shaPrefix])
  have hkind : kind = kind' := by
    -- the words of the two kinds differ in their last letter
    have hrev := congrArg List.reverse hfront
    cases kind <;> cases kind' <;> simp [PayloadKind.value] at hrev ⊢
  subst hkind
  have he := (List.append_inj' hfront rfl).1
  exact ⟨String.toList_inj.1 he, rfl, String.toList_inj.1 hsha⟩

/-! ## One payload -/

/-- The payload is in the column, or the reference names an artifact of its digest. -/
def ResultTables.Keeps (t : ResultTables) (e : String) (kind : PayloadKind) (column : Option JsonObject)
    (refId : Option String) : Option JsonObject → Prop
  | none => column = none ∧ refId = none
  | some p => column = some (jsonColumn p) ∧ refId = none ∨
      column = none ∧ refId = some (payloadId e kind p) ∧ (t.payloadArtifacts.get (payloadId e kind p)).isSome

/-- From `t` to `t'` only artifacts are added, each with a payload of this id and kind. -/
structure ArtifactsAdded (e : String) (kind : PayloadKind) (payload : Option JsonObject) (t t' : ResultTables) :
    Prop where
  contexts : t'.contexts = t.contexts
  results : t'.externalResults = t.externalResults
  kept : ∀ id a, t.payloadArtifacts.get id = some a → t'.payloadArtifacts.get id = some a
  added : ∀ id a, t'.payloadArtifacts.get id = some a → t.payloadArtifacts.get id = some a ∨
    ∃ p, payload = some p ∧ id = payloadId e kind p ∧ a.payloadJson = jsonColumn p

section
variable {t t' : ResultTables} {e : String} {kind : PayloadKind} {payload column : Option JsonObject}
  {refId : Option String} {inlineLimit : ℤ} {now : Time}

theorem ArtifactsAdded.refl (t : ResultTables) : ArtifactsAdded e kind payload t t :=
  ⟨rfl, rfl, fun _ _ h => h, fun _ _ h => .inl h⟩

theorem ResultTables.Keeps.mono (h : t.Keeps e kind column refId payload)
    (hkept : ∀ id a, t.payloadArtifacts.get id = some a → t'.payloadArtifacts.get id = some a) :
    t'.Keeps e kind column refId payload := by
  cases payload with
  | none => exact h
  | some p =>
    refine h.imp_right fun ⟨hc, hr, ha⟩ => ⟨hc, hr, ?_⟩
    obtain ⟨a, ha⟩ := Option.isSome_iff_exists.1 ha
    exact Option.isSome_iff_exists.2 ⟨a, hkept _ a ha⟩

theorem insertArtifact_added (t : ResultTables) (a : PayloadArtifact) {p : JsonObject}
    (hid : a.payloadId = payloadId e kind p) (hjson : a.payloadJson = jsonColumn p) :
    ArtifactsAdded e kind (some p) t (t.insertArtifact a) ∧
      ((t.insertArtifact a).payloadArtifacts.get (payloadId e kind p)).isSome := by
  unfold ResultTables.insertArtifact
  split
  · next old hold =>
    refine ⟨.refl _, ?_⟩
    rw [← hid, hold]
    rfl
  · next hnone =>
    refine ⟨⟨rfl, rfl, fun id b hb => ?_, fun id b hb => ?_⟩, ?_⟩
    · rw [Table.get_put_ne _ _ fun heq => ?_]
      · exact hb
      · subst heq
        rw [hnone] at hb
        nomatch hb
    · rw [Table.get_put] at hb
      split at hb
      · next heq =>
        cases hb
        exact .inr ⟨p, rfl, heq.trans hid, hjson⟩
      · exact .inl hb
    · rw [← hid, Table.get_put_self]
      rfl

/-- **What storing a payload leaves.** -/
theorem storePayload_ok {ref : Option PayloadRef}
    (h : storePayload inlineLimit now e kind payload t = .ok ((column, ref), t')) :
    ArtifactsAdded e kind payload t t' ∧ t'.Keeps e kind column (ref.map PayloadRef.payloadId) payload := by
  cases payload with
  | none =>
    cases pure_ok.1 h
    exact ⟨.refl _, rfl, rfl⟩
  | some p =>
    simp only [storePayload] at h
    by_cases hl : (jsonSizeBytes p : ℤ) ≤ inlineLimit
    · simp only [if_pos hl] at h
      cases pure_ok.1 h
      exact ⟨.refl _, .inl ⟨rfl, rfl⟩⟩
    · simp only [if_neg hl, bind_ok, read_ok, write_ok, pure_ok] at h
      obtain ⟨_, _, h1, _, _, h2, h⟩ := h
      cases h1; cases h2; cases h
      obtain ⟨hadded, hsome⟩ := insertArtifact_added t ⟨payloadId e kind p, jsonColumn p, jsonSizeBytes p,
        jsonSha256 p, now⟩ rfl rfl
      exact ⟨hadded, .inr ⟨rfl, rfl, hsome⟩⟩

theorem storePayload_succeeds (t : ResultTables) : Succeeds (storePayload inlineLimit now e kind payload) t := by
  cases payload with
  | none => exact succeeds_pure _ t
  | some p =>
    simp only [storePayload]
    by_cases hl : (jsonSizeBytes p : ℤ) ≤ inlineLimit
    · simp only [if_pos hl]
      exact succeeds_pure _ t
    · simp only [if_neg hl]
      exact ⟨_, _, rfl⟩

/-- A kept payload is loaded, if every artifact of its digest holds the same. -/
theorem loadPayload_kept (h : t.Keeps e kind column refId payload)
    (hart : ∀ p a, payload = some p → t.payloadArtifacts.get (payloadId e kind p) = some a →
      a.payloadJson = jsonColumn p) :
    ∃ ref, t.loadPayload column refId = .ok (payload.map jsonColumn, ref) := by
  cases payload with
  | none =>
    obtain ⟨rfl, rfl⟩ := h
    exact ⟨_, rfl⟩
  | some p =>
    obtain ⟨rfl, rfl⟩ | ⟨rfl, rfl, hsome⟩ := h
    · exact ⟨_, rfl⟩
    · obtain ⟨a, ha⟩ := Option.isSome_iff_exists.1 hsome
      unfold ResultTables.loadPayload
      simp only [ha, hart p a rfl ha]
      exact ⟨_, rfl⟩

end

/-! ## Upserts -/

/-- The row holds the payloads of the last upsert, and the time of the first. -/
structure ExternalResultRow.Current (row : ExternalResultRow) (t : ResultTables) (first last : Upsert) : Prop where
  createdAt : row.createdAt = first.now
  request : t.Keeps row.executionId .request row.requestPayloadJson row.requestPayloadRefId last.result.requestPayload
  response : t.Keeps row.executionId .response row.responsePayloadJson row.responsePayloadRefId
    last.result.responsePayload

/-- What the tables hold after these upserts. -/
structure ResultTables.Tracks (t : ResultTables) (upserts : List Upsert) : Prop where
  artifact : ∀ id a, t.payloadArtifacts.get id = some a → ∃ u ∈ upserts, ∃ kind p,
    u.result.payload kind = some p ∧ id = payloadId u.result.executionId kind p ∧ a.payloadJson = jsonColumn p
  absent : ∀ e, upsertsOf upserts e = [] → t.externalResults.get e = none
  row : ∀ e first last, (upsertsOf upserts e).head? = some first → (upsertsOf upserts e).getLast? = some last →
    ∃ row, t.externalResults.get e = some row ∧ row.Current t first last

section
variable {t t' : ResultTables} {upserts : List Upsert} {inlineLimit : ℤ} {now : Time} {result stored : ExternalResult}

/-- **What an upsert does to the two tables.** -/
theorem upsertResult_ok (h : upsertResult inlineLimit now result t = .ok (stored, t')) :
    ∃ t1 t2 row, ArtifactsAdded result.executionId .request result.requestPayload t t1 ∧
      ArtifactsAdded result.executionId .response result.responsePayload t1 t2 ∧
      t' = { t2 with externalResults := t2.externalResults.put row } ∧ row.executionId = result.executionId ∧
      row.createdAt = ((t.externalResults.get result.executionId).map ExternalResultRow.createdAt).getD now ∧
      t'.Keeps row.executionId .request row.requestPayloadJson row.requestPayloadRefId result.requestPayload ∧
      t'.Keeps row.executionId .response row.responsePayloadJson row.responsePayloadRefId result.responsePayload := by
  unfold upsertResult at h
  simp only [bind_ok, read_ok, require_ok, write_ok, pure_ok] at h
  obtain ⟨_, _, h0, ⟨requestJson, requestRef⟩, t1, h1, ⟨responseJson, responseRef⟩, t2, h2, _, _, h3, _, _, ⟨-, h4⟩,
    _, _, h5, h⟩ := h
  cases h0; cases h3; cases h4; cases h5; cases h
  obtain ⟨hadd1, hkeep1⟩ := storePayload_ok h1
  obtain ⟨hadd2, hkeep2⟩ := storePayload_ok h2
  refine ⟨t1, t2, _, hadd1, hadd2, rfl, rfl, ?_, hkeep1.mono hadd2.kept, hkeep2⟩
  cases t.externalResults.get result.executionId <;> rfl

/-- An upsert raises only where its run has no context. -/
theorem upsertResult_succeeds (hctx : t.contexts.contains result.runId = true) :
    Succeeds (upsertResult inlineLimit now result) t := by
  unfold upsertResult
  refine (succeeds_read t).bind fun _ _ h0 => ?_
  cases read_ok.1 h0
  refine (storePayload_succeeds t).bind fun ⟨requestJson, requestRef⟩ t1 h1 => ?_
  refine (storePayload_succeeds t1).bind fun ⟨responseJson, responseRef⟩ t2 h2 => ?_
  refine (succeeds_read t2).bind fun _ _ h3 => ?_
  cases read_ok.1 h3
  have hc : t2.contexts.contains result.runId = true := by
    rw [(storePayload_ok h2).1.contexts, (storePayload_ok h1).1.contexts]
    exact hctx
  refine (succeeds_require hc _ t2).bind fun _ t3 _ => ?_
  exact (succeeds_write t3 _).bind fun _ t4 _ => succeeds_pure _ t4

/-- The upserts of an id after one more. -/
theorem upsertsOf_concat (u : Upsert) (e : String) : upsertsOf (upserts ++ [u]) e =
    if u.result.executionId = e then upsertsOf upserts e ++ [u] else upsertsOf upserts e := by
  unfold upsertsOf
  rw [List.filter_append]
  by_cases h : u.result.executionId = e <;> simp [h]

theorem tracks_upsert (ht : t.Tracks upserts) (h : upsertResult inlineLimit now result t = .ok (stored, t')) :
    t'.Tracks (upserts ++ [⟨now, result⟩]) := by
  obtain ⟨t1, t2, row, hadd1, hadd2, rfl, hid, hcreated, hreq, hresp⟩ := upsertResult_ok h
  have hresults : t2.externalResults = t.externalResults := hadd2.results.trans hadd1.results
  have hkept (id : String) (a : PayloadArtifact) (ha : t.payloadArtifacts.get id = some a) :
      t2.payloadArtifacts.get id = some a := hadd2.kept id a (hadd1.kept id a ha)
  refine ⟨fun id a ha => ?_, fun e he => ?_, fun e first last hf hl => ?_⟩
  · -- an artifact is there already, or is that of one of the two payloads
    have hnew : (⟨now, result⟩ : Upsert) ∈ upserts ++ [⟨now, result⟩] := List.mem_append_right _ List.mem_cons_self
    obtain ha | ⟨p, hp, hida, hjson⟩ := hadd2.added id a ha
    · obtain ha | ⟨p, hp, hida, hjson⟩ := hadd1.added id a ha
      · obtain ⟨u, hu, hrest⟩ := ht.artifact id a ha
        exact ⟨u, List.mem_append_left _ hu, hrest⟩
      · exact ⟨_, hnew, .request, p, hp, hida, hjson⟩
    · exact ⟨_, hnew, .response, p, hp, hida, hjson⟩
  · rw [upsertsOf_concat] at he
    split at he
    · simp at he
    · next hne =>
      have hne' : e ≠ row.executionId := fun heq => hne (heq.trans hid).symm
      show (t2.externalResults.put row).get e = none
      rw [Table.get_put_ne _ _ hne', hresults]
      exact ht.absent e he
  · rw [upsertsOf_concat] at hf hl
    show ∃ r, (t2.externalResults.put row).get e = some r ∧ _
    split at hf
    · next heq =>
      rw [if_pos heq] at hl
      rw [← heq, ← hid, Table.get_put_self]
      rw [List.getLast?_append] at hl
      cases (show some (⟨now, result⟩ : Upsert) = some last from hl)
      refine ⟨row, rfl, hcreated.trans ?_, hreq, hresp⟩
      -- the time is that of the row there, the first upsert's
      cases hups : upsertsOf upserts e with
      | nil =>
        rw [hups] at hf
        cases (show some (⟨now, result⟩ : Upsert) = some first from hf)
        rw [heq, ht.absent e hups]
        rfl
      | cons u us =>
        rw [hups] at hf
        cases (show some u = some first from hf)
        obtain ⟨old, hold, hcur⟩ := ht.row e first ((first :: us).getLast (by simp)) (by rw [hups]; rfl)
          (by rw [hups]; exact List.getLast?_eq_some_getLast _)
        rw [heq, hold]
        exact hcur.createdAt
    · next hne =>
      rw [if_neg hne] at hl
      have hne' : e ≠ row.executionId := fun heq => hne (heq.trans hid).symm
      rw [Table.get_put_ne _ _ hne', hresults]
      obtain ⟨old, hold, hcur⟩ := ht.row e first last hf hl
      exact ⟨old, hold, hcur.createdAt, hcur.request.mono hkept, hcur.response.mono hkept⟩

/-- **The tables hold the last upsert of every id.** -/
theorem tracks_reach (h : ResultReach t upserts) : t.Tracks upserts := by
  induction h with
  | init =>
    refine ⟨fun id a ha => ?_, fun e _ => Table.get_empty e, fun e first last hf _ => ?_⟩
    · rw [Table.get_empty] at ha
      nomatch ha
    · nomatch hf
  | context runId _ ih =>
    refine ⟨ih.artifact, ih.absent, fun e first last hf hl => ?_⟩
    obtain ⟨row, hrow, hcur⟩ := ih.row e first last hf hl
    exact ⟨row, hrow, hcur.createdAt, hcur.request.mono fun _ _ h => h, hcur.response.mono fun _ _ h => h⟩
  | upsert _ succeeds ih => exact tracks_upsert ih succeeds

/-! ## The lookup -/

/-- Every artifact under the id of a payload holds it, where digest prefixes do not collide. -/
theorem artifact_of_payload (ht : t.Tracks upserts) {e : String} {kind : PayloadKind}
    (hno : NoCollision upserts e kind) {u : Upsert} (hu : u ∈ upsertsOf upserts e) {p : JsonObject}
    (hp : u.result.payload kind = some p) {a : PayloadArtifact}
    (ha : t.payloadArtifacts.get (payloadId e kind p) = some a) : a.payloadJson = jsonColumn p := by
  obtain ⟨v, hv, kind', q, hq, hid, hjson⟩ := ht.artifact _ a ha
  obtain ⟨he, rfl, hsha⟩ := payloadId_inj hid
  have hv' : v ∈ upsertsOf upserts e := List.mem_filter.2 ⟨hv, by simpa using he.symm⟩
  rw [hjson]
  exact (hno u hu v hv' p q hp hq hsha).symm

/-- What a lookup that returns a record says of the id. -/
theorem executionId_of_get {e : String} {record : ExternalResult} (h : t.getExternalResult e = .ok (some record)) :
    blank e = false ∧ record.executionId = strip e := by
  unfold ResultTables.getExternalResult at h
  simp only [except_bind_ok, requireNonEmptyStr_ok] at h
  obtain ⟨_, ⟨hb, rfl⟩, h⟩ := h
  refine ⟨hb, ?_⟩
  split at h
  · nomatch h
  · next row hrow =>
    simp only [except_bind_ok, except_pure_ok] at h
    obtain ⟨request, -, response, -, h⟩ := h
    cases h
    have hkey : row.executionId = strip e := Table.key_of_get hrow
    exact hkey

/-- The lookup of an id with a row returns the payloads of its last upsert. -/
theorem get_current (ht : t.Tracks upserts) {e : String} {first last : Upsert}
    (hf : (upsertsOf upserts e).head? = some first) (hl : (upsertsOf upserts e).getLast? = some last)
    (hno : ∀ kind, NoCollision upserts e kind) (hb : blank e = false) (htrim : Trimmed e) :
    ReadsBack t e first last := by
  obtain ⟨row, hrow, hcur⟩ := ht.row e first last hf hl
  have hkey : row.executionId = e := Table.key_of_get hrow
  have hlast : last ∈ upsertsOf upserts e := List.mem_of_getLast? hl
  have hload (kind : PayloadKind) {column : Option JsonObject} {refId : Option String}
      (hk : t.Keeps row.executionId kind column refId (last.result.payload kind)) :
      ∃ ref, t.loadPayload column refId = .ok ((last.result.payload kind).map jsonColumn, ref) := by
    rw [hkey] at hk
    exact loadPayload_kept hk fun p a hp ha => artifact_of_payload ht (hno kind) hlast hp ha
  obtain ⟨requestRef, hreq⟩ := hload .request hcur.request
  obtain ⟨responseRef, hresp⟩ := hload .response hcur.response
  refine ⟨row.record (last.result.requestPayload.map jsonColumn, requestRef)
    (last.result.responsePayload.map jsonColumn, responseRef), ?_, hkey, fun kind => ?_, hcur.createdAt⟩
  · unfold ResultTables.getExternalResult
    rw [requireNonEmptyStr_run _ hb, htrim]
    dsimp only [bind, Except.bind]
    rw [hrow]
    simp only [hreq, hresp]
    rfl
  · cases kind <;> rfl

/-- **An upserted id reads back exactly when it is not empty and has no white space around it.** -/
theorem payloads_transparent (h : ResultReach t upserts) {e : String} {first last : Upsert}
    (hf : (upsertsOf upserts e).head? = some first) (hl : (upsertsOf upserts e).getLast? = some last)
    (hno : ∀ kind, NoCollision upserts e kind) : ReadsBack t e first last ↔ e ≠ "" ∧ Trimmed e := by
  constructor
  · rintro ⟨record, hget, hid, -⟩
    obtain ⟨hb, hstrip⟩ := executionId_of_get hget
    refine ⟨fun he => ?_, hstrip.symm.trans hid⟩
    rw [he] at hb
    nomatch hb
  · rintro ⟨hne, htrim⟩
    exact get_current (tracks_reach h) hf hl hno (not_blank_of_trimmed htrim hne) htrim

end

/-! ## The records of the store

`Store` keeps each record with its payloads.  Upsert for upsert, that is what the tables give back. -/

/-- A record as these tables take it. -/
def ExternalResultRecord.result (r : ExternalResultRecord) : ExternalResult where
  executionId := r.executionId
  runId := r.runId
  planItemId := r.planItemId
  toolName := r.toolName
  operationType := r.operationType
  requestPayload := some r.requestPayload
  responsePayload := r.responsePayload
  resultStatus := r.resultStatus
  executionStatus := r.executionStatus
  errorMessage := r.errorMessage
  createdAt := r.createdAt
  updatedAt := r.updatedAt

/-- Upserts made on the tables and on the store. -/
inductive Lockstep : ResultTables → List Upsert → Store → Prop
  | init : Lockstep {} [] {}
  | context {t : ResultTables} {upserts : List Upsert} {s : Store} (snapshot : AgentContextSnapshot)
      (before : Lockstep t upserts s) :
      Lockstep { t with contexts := snapshot.runId :: t.contexts } upserts (s.putContext snapshot)
  | upsert {t t' : ResultTables} {upserts : List Upsert} {s : Store} {inlineLimit : ℤ} {amb : Ambient}
      {record : ExternalResultRecord} {stored : ExternalResult} (before : Lockstep t upserts s)
      (succeeds : upsertResult inlineLimit amb.now record.result t = .ok (stored, t')) :
      Lockstep t' (upserts ++ [⟨amb.now, record.result⟩]) (s.putResult (s.rowOf amb record))

section
variable {t : ResultTables} {upserts : List Upsert} {s : Store} {e : String}

theorem Lockstep.reach (h : Lockstep t upserts s) : ResultReach t upserts := by
  induction h with
  | init => exact .init
  | context snapshot _ ih => exact .context snapshot.runId ih
  | upsert _ succeeds ih => exact .upsert ih succeeds

theorem Lockstep.absent (h : Lockstep t upserts s) (he : upsertsOf upserts e = []) :
    s.externalResults.get e = none := by
  induction h with
  | init => exact Table.get_empty e
  | context _ _ ih => exact ih he
  | @upsert _ _ upserts s _ amb record _ _ _ ih =>
    rw [upsertsOf_concat] at he
    split at he
    · simp at he
    · next hne =>
      show (s.externalResults.put (s.rowOf amb record)).get e = none
      have hne' : e ≠ (s.rowOf amb record).executionId := fun heq => hne heq.symm
      rw [Table.get_put_ne _ _ hne']
      exact ih he

/-- The store holds the payloads of the last upsert, and the time of the first. -/
theorem Lockstep.row (h : Lockstep t upserts s) {first last : Upsert}
    (hf : (upsertsOf upserts e).head? = some first) (hl : (upsertsOf upserts e).getLast? = some last) :
    ∃ row, s.externalResults.get e = some row ∧ (∀ kind, row.result.payload kind = last.result.payload kind) ∧
      row.createdAt = first.now := by
  induction h generalizing first last with
  | init => nomatch hf
  | context _ _ ih => exact ih hf hl
  | @upsert t _ upserts s _ amb record _ hbefore _ ih =>
    rw [upsertsOf_concat] at hf hl
    show ∃ row, (s.externalResults.put (s.rowOf amb record)).get e = some row ∧ _
    split at hf
    · next heq =>
      rw [if_pos heq, List.getLast?_append] at hl
      cases (show some (⟨amb.now, record.result⟩ : Upsert) = some last from hl)
      have hkey : (s.rowOf amb record).executionId = e := heq
      rw [← hkey, Table.get_put_self]
      refine ⟨_, rfl, fun kind => ?_, ?_⟩
      · cases kind <;> rfl
      · show ((s.externalResults.get record.result.executionId).map ExternalResultRecord.createdAt).getD amb.now = _
        rw [heq]
        cases hups : upsertsOf upserts e with
        | nil =>
          rw [hups] at hf
          cases (show some (⟨amb.now, record.result⟩ : Upsert) = some first from hf)
          rw [hbefore.absent hups]
          rfl
        | cons u us =>
          rw [hups] at hf
          cases (show some u = some first from hf)
          obtain ⟨old, hold, -, hcreated⟩ := ih (by rw [hups]; rfl) (by rw [hups]; exact List.getLast?_eq_some_getLast (by simp))
          rw [hold]
          exact hcreated
    · next hne =>
      rw [if_neg hne] at hl
      have hne' : e ≠ (s.rowOf amb record).executionId := fun heq => hne heq.symm
      rw [Table.get_put_ne _ _ hne']
      exact ih hf hl

/-- **The record of the store is the one the tables give back, whatever the limits.** -/
theorem store_offloaded (h : Lockstep t upserts s) (hne : e ≠ "") (htrim : Trimmed e)
    (hno : ∀ kind, NoCollision upserts e kind) {row : ExternalResultRecord} (hrow : s.externalResults.get e = some row) :
    ∃ record, t.getExternalResult e = .ok (some record) ∧ record.createdAt = row.createdAt ∧
      ∀ kind, record.payload kind = (row.result.payload kind).map jsonColumn := by
  cases hups : upsertsOf upserts e with
  | nil =>
    rw [h.absent hups] at hrow
    nomatch hrow
  | cons first us =>
    have hf : (upsertsOf upserts e).head? = some first := by rw [hups]; rfl
    have hl : (upsertsOf upserts e).getLast? = some ((first :: us).getLast (by simp)) := by
      rw [hups]
      exact List.getLast?_eq_some_getLast (by simp)
    obtain ⟨record, hget, -, hpay, hcreated⟩ :=
      get_current (tracks_reach h.reach) hf hl hno (not_blank_of_trimmed htrim hne) htrim
    obtain ⟨row', hrow', hpay', hcreated'⟩ := h.row hf hl
    cases hrow.symm.trans hrow'
    exact ⟨record, hget, hcreated.trans hcreated'.symm, fun kind => by rw [hpay, hpay']⟩

end

/-! ## Runs -/

/-- A result of a run `r` without a response, its request as given. -/
def resultFor (executionId : String) (request : Option JsonObject) : ExternalResult where
  executionId := executionId
  runId := "r"
  planItemId := none
  toolName := "tool"
  operationType := "WRITE"
  requestPayload := request
  responsePayload := none
  resultStatus := .unknown
  executionStatus := .intentLogged
  errorMessage := none
  createdAt := 0
  updatedAt := 0

/-- The request of `e` is kept in its row, then, under a limit of four bytes, another one as an artifact. -/
def moveOut : ResultTx ExternalResult := do
  let _ ← upsertResult 16384 0 (resultFor "e" (some [("k", .int 1)]))
  upsertResult 4 1 (resultFor "e" (some [("k", .int 2)]))

/-- The record of `e` reads back with its second request, which is an artifact, and its first time. -/
theorem payloads_transparent_moved : ∃ t row, t.externalResults.get "e" = some row ∧
    row.requestPayloadJson = none ∧ row.requestPayloadRefId.isSome ∧
    ReadsBack t "e" ⟨0, resultFor "e" (some [("k", .int 1)])⟩ ⟨1, resultFor "e" (some [("k", .int 2)])⟩ := by
  have hmoved : ((moveOut { contexts := ["r"] }).toOption.any fun done => (done.2.externalResults.get "e").any
      fun row => row.requestPayloadJson.isNone && row.requestPayloadRefId.isSome) = true := by decide +kernel
  obtain ⟨⟨stored, t⟩, hrun⟩ := except_ok_of_toBool (x := moveOut { contexts := ["r"] }) (by decide +kernel)
  rw [hrun] at hmoved
  obtain ⟨_, hdone, hmoved⟩ := (Option.any_eq_true _ _).1 hmoved
  cases hdone
  obtain ⟨row, hrow, hmoved⟩ := (Option.any_eq_true _ _).1 hmoved
  obtain ⟨hcolumn, href⟩ := Bool.and_eq_true_iff.1 hmoved
  obtain ⟨_, t1, hfirst, hlast⟩ := bind_ok.1 hrun
  have hr : ResultReach { contexts := ["r"] } [] := .context "r" .init
  refine ⟨t, row, hrow, Option.isNone_iff_eq_none.1 hcolumn, href,
    (payloads_transparent ((hr.upsert hfirst).upsert hlast) rfl rfl fun kind u hu v hv p q hp hq hsha => ?_).2
      ⟨by decide, by decide⟩⟩
  -- the digest prefixes of the two requests differ
  have hdistinct : shaPrefix [("k", .int 1)] ≠ shaPrefix [("k", .int 2)] := by decide +kernel
  have hrequest : ∀ u ∈ [(⟨0, resultFor "e" (some [("k", .int 1)])⟩ : Upsert), ⟨1, resultFor "e" (some [("k", .int 2)])⟩],
      ∀ p, u.result.payload kind = some p → p = [("k", .int 1)] ∨ p = [("k", .int 2)] := by
    intro u hu p hp
    rcases List.mem_cons.1 hu with rfl | hu
    · cases kind with
      | request => exact .inl (Option.some.inj hp).symm
      | response => cases hp
    · rw [List.mem_singleton.1 hu] at hp
      cases kind with
      | request => exact .inr (Option.some.inj hp).symm
      | response => cases hp
  rcases hrequest u (List.mem_of_mem_filter hu) p hp with rfl | rfl <;>
    rcases hrequest v (List.mem_of_mem_filter hv) q hq with rfl | rfl
  · rfl
  · exact absurd hsha hdistinct
  · exact absurd hsha.symm hdistinct
  · rfl

/-- The result of an id with a space in front is not found again. -/
theorem padded_result_lost : ∃ t, ResultReach t [⟨0, resultFor " e" none⟩] ∧
    ¬ ReadsBack t " e" ⟨0, resultFor " e" none⟩ ⟨0, resultFor " e" none⟩ := by
  have hr : ResultReach { contexts := ["r"] } [] := .context "r" .init
  obtain ⟨stored, t, hrun⟩ : Succeeds (upsertResult 16384 0 (resultFor " e" none)) { contexts := ["r"] } :=
    upsertResult_succeeds rfl
  have h := hr.upsert hrun
  refine ⟨t, h, ?_⟩
  rintro ⟨record, hget, hid, -⟩
  have hstrip := (executionId_of_get hget).2
  rw [hid] at hstrip
  exact absurd hstrip (by decide)

end Raef
