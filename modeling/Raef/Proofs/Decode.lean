import Raef.Model.Store

/-!
# What the decoders accept, and what they make of it

Each `from_dict` accepts a condition on its fields and strips the texts among
them.  What it gives passes it again.

    m.fromDict = .ok m' ↔ m.Decodes ∧ m' = m.stripped      (messages, plan items)
    c.fromDict = .ok c' ↔ c.Decodes ∧ c' = c.decoded        (contexts)
    st.decode = .ok st' → st'.items are st's, stripped and sorted      (plans)
-/

namespace Raef

open Text Txn

/-- A map of a partial function that accepts `P` and gives `g`. -/
theorem mapM_ok {α β : Type} {f : α → Except PyError β} {P : α → Prop} {g : α → β}
    (hf : ∀ a b, f a = .ok b ↔ P a ∧ b = g a) {l : List α} {l' : List β} :
    l.mapM f = .ok l' ↔ (∀ a ∈ l, P a) ∧ l' = l.map g := by
  induction l generalizing l' with
  | nil =>
    rw [List.mapM_nil, except_pure_ok]
    simp
  | cons a l ih =>
    rw [List.mapM_cons]
    simp only [except_bind_ok, except_pure_ok, hf, ih]
    constructor
    · rintro ⟨_, ⟨h1, rfl⟩, _, ⟨h2, rfl⟩, rfl⟩
      refine ⟨?_, rfl⟩
      intro a' ha'
      rcases List.mem_cons.1 ha' with rfl | ha'
      · exact h1
      · exact h2 a' ha'
    · rintro ⟨h, rfl⟩
      exact ⟨_, ⟨h a List.mem_cons_self, rfl⟩, _, ⟨fun a' ha' => h a' (List.mem_cons_of_mem _ ha'), rfl⟩, rfl⟩

/-! ## Messages and contexts -/

structure AgentMessage.Decodes (m : AgentMessage) : Prop where
  role : blank m.role = false
  known : strip m.role ∈ ["system", "user", "assistant", "tool"]
  content : blank m.content = false

def AgentMessage.stripped (m : AgentMessage) : AgentMessage :=
  { m with role := strip m.role, content := strip m.content }

theorem fromDict_message_ok (m m' : AgentMessage) :
    m.fromDict = .ok m' ↔ m.Decodes ∧ m' = m.stripped := by
  unfold AgentMessage.fromDict
  simp only [except_bind_ok, except_pure_ok, requireNonEmptyStr_ok, raiseIf_ok, not_not]
  constructor
  · rintro ⟨_, ⟨h1, rfl⟩, _, h2, _, ⟨h3, rfl⟩, rfl⟩
    exact ⟨⟨h1, h2, h3⟩, rfl⟩
  · rintro ⟨⟨h1, h2, h3⟩, rfl⟩
    exact ⟨_, ⟨h1, rfl⟩, (), h2, _, ⟨h3, rfl⟩, rfl⟩

theorem AgentMessage.Decodes.stripped {m : AgentMessage} (h : m.Decodes) : m.stripped.Decodes := by
  refine ⟨?_, ?_, ?_⟩
  · exact (blank_strip _).trans h.role
  · show strip (strip m.role) ∈ _
    rw [strip_strip]
    exact h.known
  · exact (blank_strip _).trans h.content

structure AgentContextSnapshot.Decodes (c : AgentContextSnapshot) : Prop where
  turnIndex : 0 ≤ c.turnIndex
  stepIndex : 0 ≤ c.stepIndex
  plannerVersion : 0 ≤ c.plannerVersion
  lastCheckpointSeq : ∀ n ∈ c.lastCheckpointSeq, 0 ≤ n
  runId : blank c.runId = false
  messages : ∀ m ∈ c.messages, m.Decodes

/-- The pending list a decoder rebuilds. -/
def AgentContextSnapshot.pendingDecoded (c : AgentContextSnapshot) : List String :=
  match c.pendingExecutionId with
  | some e => addOnce e (normalizePendingIds c.pendingExecutionIds)
  | none => normalizePendingIds c.pendingExecutionIds

def AgentContextSnapshot.decoded (c : AgentContextSnapshot) : AgentContextSnapshot :=
  { c with
    runId := strip c.runId
    messages := c.messages.map AgentMessage.stripped
    pendingExecutionId :=
      if c.pendingDecoded = [] then c.pendingExecutionId else c.pendingDecoded.getLast?
    pendingExecutionIds := c.pendingDecoded }

theorem fromDict_context_ok {c c' : AgentContextSnapshot} :
    c.fromDict = .ok c' ↔ c.Decodes ∧ c' = c.decoded := by
  unfold AgentContextSnapshot.fromDict
  simp only [except_bind_ok, except_pure_ok, requireNonEmptyStr_ok, raiseIf_ok, not_lt, not_exists, not_and,
    mapM_ok fromDict_message_ok]
  constructor
  · rintro ⟨_, h1, _, h2, _, h3, _, h4, _, ⟨h5, rfl⟩, _, ⟨h6, rfl⟩, rfl⟩
    exact ⟨⟨h1, h2, h3, h4, h5, h6⟩, rfl⟩
  · rintro ⟨⟨h1, h2, h3, h4, h5, h6⟩, rfl⟩
    exact ⟨(), h1, (), h2, (), h3, (), h4, _, ⟨h5, rfl⟩, _, ⟨h6, rfl⟩, rfl⟩

theorem AgentContextSnapshot.Decodes.decoded {c : AgentContextSnapshot} (h : c.Decodes) :
    c.decoded.Decodes := by
  refine ⟨h.turnIndex, h.stepIndex, h.plannerVersion, h.lastCheckpointSeq, ?_, ?_⟩
  · exact (blank_strip _).trans h.runId
  · intro m hm
    obtain ⟨m', hm', rfl⟩ := List.mem_map.1 hm
    exact (h.messages m' hm').stripped

/-! ## Pending lists -/

/-- A pending list a decoder leaves alone: stripped texts, each once, and the last
of them, or none, as the pending id. -/
structure AgentContextSnapshot.PendingNormal (c : AgentContextSnapshot) : Prop where
  texts : ∀ e ∈ c.pendingExecutionIds, Trimmed e ∧ e ≠ ""
  nodup : c.pendingExecutionIds.Nodup
  last : c.pendingExecutionId = none ∨ c.pendingExecutionId = c.pendingExecutionIds.getLast?

theorem mem_addOnce {x y : String} {l : List String} : y ∈ addOnce x l ↔ y ∈ l ∨ y = x := by
  unfold addOnce
  split
  · next h =>
    constructor
    · exact .inl
    · rintro (h' | rfl)
      · exact h'
      · exact h
  · simp

theorem nodup_addOnce {x : String} {l : List String} (h : l.Nodup) : (addOnce x l).Nodup := by
  unfold addOnce
  split
  · exact h
  · next hx => exact List.nodup_append.2 ⟨h, List.nodup_singleton x, by grind⟩

theorem addOnce_of_mem {x : String} {l : List String} (h : x ∈ l) : addOnce x l = l := if_pos h

/-- Stripped texts, each once, are what the decoder makes of them. -/
theorem normalizePendingIds_of_normal {l : List String} (ht : ∀ e ∈ l, Trimmed e ∧ e ≠ "") (hn : l.Nodup) :
    normalizePendingIds l = l := by
  have fold : ∀ (l acc : List String), (∀ e ∈ l, Trimmed e ∧ e ≠ "") → (acc ++ l).Nodup →
      (l.map strip).foldl (fun acc text => if text = "" then acc else addOnce text acc) acc = acc ++ l := by
    intro l
    induction l with
    | nil => simp
    | cons e l ih =>
      intro acc ht hn
      obtain ⟨he, hne⟩ := ht e List.mem_cons_self
      unfold Trimmed at he
      have hnotin : e ∉ acc := by
        have := List.nodup_append.1 hn
        intro h
        exact this.2.2 e h e List.mem_cons_self rfl
      rw [List.map_cons, List.foldl_cons, he, if_neg hne, addOnce, if_neg hnotin,
        ih _ (fun e' he' => ht e' (List.mem_cons_of_mem _ he')) (by simpa using hn)]
      simp
  exact (fold l [] ht (by simpa using hn)).trans (List.nil_append l)

section
variable {c : AgentContextSnapshot} (h : c.PendingNormal)

include h

theorem AgentContextSnapshot.PendingNormal.decoded_ids :
    c.decoded.pendingExecutionIds = c.pendingExecutionIds := by
  show c.pendingDecoded = _
  unfold AgentContextSnapshot.pendingDecoded
  rw [normalizePendingIds_of_normal h.texts h.nodup]
  cases hp : c.pendingExecutionId with
  | none => rfl
  | some e =>
    refine addOnce_of_mem ?_
    rcases h.last with hl | hl
    · rw [hp] at hl
      cases hl
    · exact List.mem_of_getLast? (hl.symm.trans hp)

theorem AgentContextSnapshot.PendingNormal.decoded : c.decoded.PendingNormal := by
  have hids := h.decoded_ids
  have hids' : c.pendingDecoded = c.pendingExecutionIds := hids
  refine ⟨hids ▸ h.texts, hids ▸ h.nodup, ?_⟩
  have hid : c.decoded.pendingExecutionId =
      if c.pendingDecoded = [] then c.pendingExecutionId else c.pendingDecoded.getLast? := rfl
  rw [hid, hids, hids']
  split
  · exact h.last
  · exact .inr rfl

end

/-! ## Plan items -/

structure PlannerItem.Decodes (item : PlannerItem) : Prop where
  sequenceIndex : 0 ≤ item.sequenceIndex
  planItemId : blank item.planItemId = false
  title : blank item.title = false

def PlannerItem.stripped (item : PlannerItem) : PlannerItem :=
  { item with
    planItemId := strip item.planItemId
    title := strip item.title
    dependsOn := normalizeStrList item.dependsOn
    acceptanceCriteria := normalizeStrList item.acceptanceCriteria
    llmOutputHistory := normalizeStrList item.llmOutputHistory
    toolCallRefs := normalizeStrList item.toolCallRefs
    notes := normalizeStrList item.notes }

theorem fromDict_item_ok (item item' : PlannerItem) :
    item.fromDict = .ok item' ↔ item.Decodes ∧ item' = item.stripped := by
  unfold PlannerItem.fromDict
  simp only [except_bind_ok, except_pure_ok, requireNonEmptyStr_ok, raiseIf_ok, not_lt]
  constructor
  · rintro ⟨_, h1, _, ⟨h2, rfl⟩, _, ⟨h3, rfl⟩, rfl⟩
    exact ⟨⟨h1, h2, h3⟩, rfl⟩
  · rintro ⟨⟨h1, h2, h3⟩, rfl⟩
    exact ⟨(), h1, _, ⟨h2, rfl⟩, _, ⟨h3, rfl⟩, rfl⟩

theorem normalizeStrList_idem (l : List String) :
    normalizeStrList (normalizeStrList l) = normalizeStrList l :=
  normalizeStrList_of_trimmed (trimmed_normalizeStrList l)

@[simp] theorem PlannerItem.stripped_stripped (item : PlannerItem) :
    item.stripped.stripped = item.stripped := by
  simp [PlannerItem.stripped, normalizeStrList_idem]

theorem PlannerItem.Decodes.stripped {item : PlannerItem} (h : item.Decodes) : item.stripped.Decodes :=
  ⟨h.sequenceIndex, (blank_strip _).trans h.planItemId, (blank_strip _).trans h.title⟩

/-! ## Plan schemas -/

/-- Every step has a title. -/
def PlanSchema.Decodes (schema : PlanSchema) : Prop := ∀ step ∈ schema.steps, blank step.title = false

theorem normalizePlanStep_ok {index : ℕ} {raw : RawPlanItem} {step : PlanStep} :
    normalizePlanStep index raw = .ok step → blank (raw.title.getD "") = false ∧ blank step.title = false := by
  unfold normalizePlanStep
  dsimp only
  split
  · intro h
    cases h
  · next hne =>
    intro h
    cases h
    have hb : blank (raw.title.getD "") = false := by simpa [blank] using hne
    exact ⟨hb, (blank_strip _).trans hb⟩

theorem normalizePlanStep_run (index : ℕ) {raw : RawPlanItem} (h : blank (raw.title.getD "") = false) :
    ∃ step, normalizePlanStep index raw = .ok step := by
  unfold normalizePlanStep
  dsimp only
  rw [if_neg (by simpa [blank] using h)]
  exact ⟨_, rfl⟩

/-- A map that succeeds gives only what its function gives, one for each. -/
theorem mem_mapM {α β : Type} {f : α → Except PyError β} {l : List α} {l' : List β}
    (h : l.mapM f = .ok l') :
    (∀ b ∈ l', ∃ a ∈ l, f a = .ok b) ∧ ∀ a ∈ l, ∃ b ∈ l', f a = .ok b := by
  induction l generalizing l' with
  | nil =>
    rw [List.mapM_nil, except_pure_ok] at h
    subst h
    simp
  | cons a l ih =>
    rw [List.mapM_cons] at h
    simp only [except_bind_ok, except_pure_ok] at h
    obtain ⟨b, h1, bs, h2, rfl⟩ := h
    obtain ⟨h3, h4⟩ := ih h2
    refine ⟨?_, ?_⟩
    · intro b' hb'
      rcases List.mem_cons.1 hb' with rfl | hb'
      · exact ⟨a, List.mem_cons_self, h1⟩
      · obtain ⟨a', ha', h5⟩ := h3 b' hb'
        exact ⟨a', List.mem_cons_of_mem _ ha', h5⟩
    · intro a' ha'
      rcases List.mem_cons.1 ha' with rfl | ha'
      · exact ⟨b, List.mem_cons_self, h1⟩
      · obtain ⟨b', hb', h5⟩ := h4 a' ha'
        exact ⟨b', List.mem_cons_of_mem _ hb', h5⟩

theorem mapM_run {α β : Type} {f : α → Except PyError β} {l : List α} (h : ∀ a ∈ l, ∃ b, f a = .ok b) :
    ∃ l', l.mapM f = .ok l' := by
  induction l with
  | nil => exact ⟨[], rfl⟩
  | cons a l ih =>
    obtain ⟨b, hb⟩ := h a List.mem_cons_self
    obtain ⟨bs, hbs⟩ := ih fun a' ha' => h a' (List.mem_cons_of_mem _ ha')
    refine ⟨b :: bs, ?_⟩
    rw [List.mapM_cons]
    simp only [except_bind_ok, except_pure_ok]
    exact ⟨b, hb, bs, hbs, rfl⟩

theorem normalizePlanSchema_ok {schema out : PlanSchema} {items : Option (List PlannerItem)}
    (h : normalizePlanSchema schema.toRaw items = .ok out) : schema.Decodes ∧ out.Decodes := by
  unfold normalizePlanSchema at h
  simp only [PlanSchema.toRaw, except_bind_ok, except_pure_ok] at h
  obtain ⟨_, h1, steps, h2, rfl⟩ := h
  cases h1
  obtain ⟨h3, h4⟩ := mem_mapM h2
  refine ⟨?_, ?_⟩
  · intro step hstep
    obtain ⟨i, hi⟩ := List.mem_iff_getElem?.1 (List.mem_map_of_mem (f := PlanStep.toRaw) hstep)
    obtain ⟨out, -, h5⟩ := h4 ⟨step.toRaw, i⟩ (List.mem_zipIdx_iff_getElem?.2 hi)
    exact (normalizePlanStep_ok h5).1
  · intro step hstep
    obtain ⟨⟨raw, i⟩, -, h5⟩ := h3 step hstep
    exact (normalizePlanStep_ok h5).2

theorem normalizePlanSchema_run {schema : PlanSchema} (items : Option (List PlannerItem))
    (h : schema.Decodes) : ∃ out, normalizePlanSchema schema.toRaw items = .ok out := by
  have hsteps : ∀ e ∈ (schema.steps.map PlanStep.toRaw).zipIdx, ∃ step, normalizePlanStep e.2 e.1 = .ok step := by
    rintro ⟨raw, i⟩ he
    have hmem := (List.mem_zipIdx_iff_getElem?.1 he)
    obtain ⟨step, hstep, rfl⟩ := List.mem_map.1 (List.mem_of_getElem? hmem)
    exact normalizePlanStep_run i (h step hstep)
  obtain ⟨steps, hmap⟩ := mapM_run hsteps
  unfold normalizePlanSchema
  simp only [PlanSchema.toRaw, except_bind_ok, except_pure_ok]
  exact ⟨_, _, rfl, steps, hmap, rfl⟩

/-! ## Plans -/

/-- What `validateIntegrity` checks. -/
structure PlannerState.Integrity (st : PlannerState) : Prop where
  version : 1 ≤ st.version
  nodup : (st.items.map PlannerItem.planItemId).Nodup
  active : ∀ a ∈ st.activeItemId, a ∈ st.items.map PlannerItem.planItemId
  cursor : ∀ c ∈ st.cursorIndex, 0 ≤ c ∧ c < st.items.length

theorem validateIntegrity_ok {st : PlannerState} {u : Unit} :
    st.validateIntegrity = .ok u ↔ st.Integrity := by
  unfold PlannerState.validateIntegrity
  dsimp only
  constructor
  · intro h
    split at h
    · cases h
    split at h
    · cases h
    split at h
    · cases h
    split at h
    · cases h
    next h1 h2 h3 h4 =>
    refine ⟨not_lt.1 h1, not_not.1 h2, fun a ha => ?_, fun c hc => ?_⟩
    · exact not_not.1 fun hn => h3 ⟨a, ha, hn⟩
    · refine ⟨not_lt.1 fun hn => h4 ⟨c, hc, .inl hn⟩, not_le.1 fun hn => h4 ⟨c, hc, .inr hn⟩⟩
  · intro h
    rw [if_neg (not_lt.2 h.version), if_neg (not_not.2 h.nodup), if_neg, if_neg]
    · rintro ⟨c, hc, hn⟩
      have := h.cursor c hc
      omega
    · rintro ⟨a, ha, hn⟩
      exact hn (h.active a ha)

theorem PlannerState.Integrity.perm {st : PlannerState} (h : st.Integrity) {items : List PlannerItem}
    (hp : (items.map PlannerItem.planItemId).Perm (st.items.map PlannerItem.planItemId)) :
    PlannerState.Integrity { st with items := items } := by
  have hlen : items.length = st.items.length := by simpa using hp.length_eq
  refine ⟨h.version, hp.nodup_iff.2 h.nodup, fun a ha => hp.mem_iff.2 (h.active a ha), fun c hc => ?_⟩
  show 0 ≤ c ∧ c < (items.length : ℤ)
  rw [hlen]
  exact h.cursor c hc

structure PlannerState.Decodes (st : PlannerState) : Prop where
  items : ∀ item ∈ st.items, item.Decodes
  runId : blank st.runId = false
  schema : st.planSchema.Decodes
  integrity : PlannerState.Integrity { st with items := st.items.map PlannerItem.stripped }

/-- What a decoded plan shares with the row: all but the schema and the white space. -/
structure PlannerState.DecodesTo (st st' : PlannerState) : Prop where
  runId : st'.runId = strip st.runId
  version : st'.version = st.version
  planSourceText : st'.planSourceText = st.planSourceText
  items : st'.items = st.items.map PlannerItem.stripped
  schema : st'.planSchema.Decodes
  activeItemId : st'.activeItemId = st.activeItemId
  cursorIndex : st'.cursorIndex = st.cursorIndex
  updatedAt : st'.updatedAt = st.updatedAt

theorem fromDict_plan_ok {st st' : PlannerState} (h : st.fromDict = .ok st') :
    st.Decodes ∧ st.DecodesTo st' := by
  unfold PlannerState.fromDict at h
  simp only [except_bind_ok, except_pure_ok, requireNonEmptyStr_ok, mapM_ok fromDict_item_ok,
    validateIntegrity_ok] at h
  obtain ⟨_, ⟨h1, rfl⟩, _, ⟨h2, rfl⟩, schema, h3, _, h4, rfl⟩ := h
  obtain ⟨h5, h6⟩ := normalizePlanSchema_ok h3
  exact ⟨⟨h1, h2, h5, ⟨h4.version, h4.nodup, h4.active, h4.cursor⟩⟩, rfl, rfl, rfl, rfl, h6, rfl, rfl, rfl⟩

theorem fromDict_plan_run {st : PlannerState} (h : st.Decodes) : ∃ st', st.fromDict = .ok st' := by
  obtain ⟨schema, hs⟩ := normalizePlanSchema_run (some (st.items.map PlannerItem.stripped)) h.schema
  unfold PlannerState.fromDict
  simp only [except_bind_ok, except_pure_ok, requireNonEmptyStr_ok, mapM_ok fromDict_item_ok,
    validateIntegrity_ok]
  exact ⟨_, _, ⟨h.items, rfl⟩, _, ⟨h.runId, rfl⟩, schema, hs, (),
    ⟨h.integrity.version, h.integrity.nodup, h.integrity.active, h.integrity.cursor⟩, rfl⟩

/-- The items of a row in the order of the query. -/
def PlannerState.queried (st : PlannerState) : PlannerState :=
  { st with items := st.items.insertionSort fun a b =>
      a.sequenceIndex < b.sequenceIndex ∨
        (a.sequenceIndex = b.sequenceIndex ∧ a.planItemId ≤ b.planItemId) }

theorem PlannerState.queried_perm (st : PlannerState) : st.queried.items.Perm st.items :=
  List.perm_insertionSort _ _

theorem PlannerState.Decodes.queried {st : PlannerState} (h : st.Decodes) : st.queried.Decodes := by
  refine ⟨fun item hi => h.items item (st.queried_perm.mem_iff.1 hi), h.runId, h.schema, ?_⟩
  exact h.integrity.perm ((st.queried_perm.map _).map _)

theorem decode_plan_run {st : PlannerState} (h : st.Decodes) : ∃ st', st.decode = .ok st' :=
  fromDict_plan_run h.queried

/-- A loaded plan: the row's items in the order of the query, stripped. -/
theorem decode_plan_ok {st st' : PlannerState} (h : st.decode = .ok st') :
    st.queried.Decodes ∧ st.queried.DecodesTo st' :=
  fromDict_plan_ok h

/-- What was decoded decodes. -/
theorem PlannerState.Decodes.of_decoded {st st' : PlannerState} (h : st.Decodes) (h' : st.DecodesTo st') :
    st'.Decodes := by
  have hmap : st'.items.map PlannerItem.stripped = st.items.map PlannerItem.stripped := by
    rw [h'.items, List.map_map]
    exact List.map_congr_left fun it _ => it.stripped_stripped
  have hi := h.integrity
  refine ⟨?_, ?_, h'.schema, h'.version ▸ hi.version, ?_, ?_, ?_⟩
  · intro item hitem
    rw [h'.items] at hitem
    obtain ⟨it, hit, rfl⟩ := List.mem_map.1 hitem
    exact (h.items it hit).stripped
  · rw [h'.runId]
    exact (blank_strip _).trans h.runId
  · exact hmap ▸ hi.nodup
  · intro a ha
    exact hmap ▸ hi.active a (h'.activeItemId ▸ ha)
  · intro c hc
    exact hmap ▸ hi.cursor c (h'.cursorIndex ▸ hc)

end Raef
