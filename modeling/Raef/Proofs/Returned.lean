import Raef.Proofs.InSync
import Raef.Proofs.Total
import Raef.Proofs.Window

/-!
# What an operation returns and what it stored

The projections an operation returns are taken between its writes.  The synchronisation with the
plan and the automatic checkpoint come after the context was taken; resuming a run and repeating an
intent write nothing and return what they load.

    the stored context never runs ahead of the plan                      (trails_reachable)
    a synchronised context is not the one taken before it                (synced_version)
    returned = loaded ↔ nothing was written after it was taken           (returned_stored)
-/

namespace Raef

open Text Txn

/-! ## Statements -/

/-- A message without its time. -/
def AgentMessage.untimed (m : AgentMessage) : AgentMessage := { m with createdAt := 0 }

def AgentContextSnapshot.untimed (c : AgentContextSnapshot) : AgentContextSnapshot :=
  { c with messages := c.messages.map AgentMessage.untimed, updatedAt := 0 }

def PlannerState.untimed (st : PlannerState) : PlannerState :=
  { st with items := st.items.map fun it => { it with updatedAt := 0 }, updatedAt := 0 }

/-- `load_context` gives the context, apart from times. -/
def Store.LoadsContext (s : Store) (runId : String) (c : AgentContextSnapshot) : Prop :=
  ∃ loaded, s.loadContext runId = .ok (some loaded) ∧ loaded.untimed = c.untimed

def Store.LoadsPlan (s : Store) (runId : String) (st : PlannerState) : Prop :=
  ∃ loaded, s.loadPlan runId = .ok (some loaded) ∧ loaded.untimed = st.untimed

def Store.LoadsBoth (s : Store) (runId : String) (r : RunProjections) : Prop :=
  s.LoadsPlan runId r.plannerState ∧ s.LoadsContext runId r.context

/-- What the operation returned is what the store after it holds. -/
def FacadeOp.ReturnsStored : (o : FacadeOp) → o.Res → Store → Prop
  | .startRun a, r, s => s.LoadsBoth a.runId r
  | .recordContextMessage a, c, s => s.LoadsContext a.runId c
  | .recordLlmTurn a, r, s => s.LoadsBoth a.runId r
  | .recordToolIntent a, r, s => s.LoadsBoth a.runId r
  | _, _, _ => True

/-- The event with this number makes the automatic checkpoint due. -/
def LoggingServiceConfig.dueAt (cfg : LoggingServiceConfig) (seq : ℕ) : Prop :=
  0 < cfg.checkpointEveryNEvents ∧ (seq : ℤ) % cfg.checkpointEveryNEvents = 0

/-- Nothing is written after the projections were taken: the run is resumed, the intent is known, or
a message is recorded and its event makes no checkpoint due. -/
def FacadeOp.TakesLast (o : FacadeOp) (cfg : LoggingServiceConfig) (s : Store) : Prop :=
  match o with
  | .startRun a => a.forceReset = false ∧ (∃ st, s.loadPlan a.runId = .ok (some st)) ∧
      ∃ c, s.loadContext a.runId = .ok (some c)
  | .recordContextMessage _ => ¬ cfg.dueAt (s.walEvents.length + 1)
  | .recordLlmTurn _ => False
  | .recordToolIntent a => s.intentKnown cfg a.runId a.executionId = .ok true
  | _ => True

/-- One operation of the facade, of a service with any configuration. -/
def AnyStep (s s' : Store) : Prop := ∃ cfg, FacadeStep cfg (fun _ _ => True) s s'

/-! ## The context trails the plan -/

/-- Plans have versions from 1; a stripped run has plan and context or neither, and its context is
not ahead of the plan; no context points behind the log. -/
structure Store.Trails (s : Store) : Prop where
  positive : ∀ k st, s.plannerStates.get k = some st → 1 ≤ st.version
  together : ∀ k, Trimmed k → (s.plannerStates.get k).isSome = (s.agentContexts.get k).isSome
  behind : ∀ k st c, Trimmed k → s.plannerStates.get k = some st → s.agentContexts.get k = some c →
    c.plannerVersion ≤ st.version
  pointed : ∀ k c, s.agentContexts.get k = some c → ∀ n ∈ c.lastCheckpointSeq, n ≤ (s.walEvents.length : ℤ)

/-- The stored plan of the run is at least at the version that is owed. -/
def Store.Covers (s : Store) (runId : String) (owed : Option PlannerState) : Prop :=
  ∀ st ∈ owed, ∀ row, s.plannerStates.get (strip runId) = some row → st.version ≤ row.version

section
variable {cfg : LoggingServiceConfig} {amb : Ambient} {o : FacadeOp} {runId : String}
  {s s' : Store} {owed : Option PlannerState}

theorem trails_empty : ({} : Store).Trails :=
  ⟨(fun _ _ h => nomatch h), fun _ _ => rfl, (fun _ _ _ _ h => nomatch h), (fun _ _ h => nomatch h)⟩

/-- The log may grow, the rows stay. -/
theorem Store.Trails.of_eq (h : s.Trails) (hp : s'.plannerStates = s.plannerStates)
    (hc : s'.agentContexts = s.agentContexts) (hlog : s.walEvents.length ≤ s'.walEvents.length) : s'.Trails := by
  refine ⟨by rw [hp]; exact h.positive, by rw [hp, hc]; exact h.together, by rw [hp, hc]; exact h.behind, ?_⟩
  intro k c hget n hn
  rw [hc] at hget
  exact (h.pointed k c hget n hn).trans (by exact_mod_cast hlog)

theorem Store.Trails.addEvent (h : s.Trails) (e : WalEvent) : (s.addEvent e).Trails :=
  h.of_eq rfl rfl (by rw [Store.addEvent_walEvents, List.length_append]; exact Nat.le_add_right _ _)

/-- Writing the context of a run that has one, with a version its plan has reached. -/
theorem Store.Trails.putContext {c d : AgentContextSnapshot} (h : s.Trails)
    (hload : s.loadContext runId = .ok (some c)) (hrun : d.runId = c.runId)
    (hv : ∀ row, s.plannerStates.get (strip runId) = some row → d.plannerVersion ≤ row.version)
    (hn : ∀ n ∈ d.lastCheckpointSeq, n ≤ (s.walEvents.length : ℤ)) : (s.putContext d).Trails := by
  have hkey : d.runId = strip runId := hrun.trans (loadContext_runId hload)
  obtain ⟨-, old, hold, -, -⟩ := loadContext_ok.1 hload
  have hget : ∀ k, (s.putContext d).agentContexts.get k = if k = strip runId then some d else s.agentContexts.get k :=
    fun k => hkey ▸ Table.get_put s.agentContexts d k
  refine ⟨h.positive, fun k hk => ?_, fun k st x hk hst hx => ?_, fun k x hx n hmem => ?_⟩
  · rw [hget]
    split
    · next heq =>
      subst heq
      have := h.together _ hk
      rw [hold] at this
      exact this
    · exact h.together k hk
  · rw [hget] at hx
    split at hx
    · next heq =>
      cases hx
      subst heq
      exact hv st hst
    · exact h.behind k st x hk hst hx
  · rw [hget] at hx
    split at hx
    · cases hx
      exact hn n hmem
    · exact h.pointed k x hx n hmem

/-- A loaded context is not ahead of the loaded plan. -/
theorem Store.Trails.loaded_le {st : PlannerState} {c : AgentContextSnapshot} (h : s.Trails)
    (hplan : s.loadPlan runId = .ok (some st)) (hctx : s.loadContext runId = .ok (some c)) :
    c.plannerVersion ≤ st.version := by
  obtain ⟨-, row, hrow, hdec⟩ := loadPlan_ok.1 hplan
  obtain ⟨-, old, hold, -, rfl⟩ := loadContext_ok.1 hctx
  have hv : st.version = row.version := (decode_plan_ok hdec).2.version
  rw [hv]
  exact h.behind _ row old (trimmed_strip runId) hrow hold

/-- The row a loaded context comes from. -/
theorem Store.Trails.loaded_pointed {c : AgentContextSnapshot} (h : s.Trails)
    (hctx : s.loadContext runId = .ok (some c)) : ∀ n ∈ c.lastCheckpointSeq, n ≤ (s.walEvents.length : ℤ) := by
  obtain ⟨-, old, hold, -, rfl⟩ := loadContext_ok.1 hctx
  exact h.pointed _ old hold

theorem Store.Trails.loaded_behind {c : AgentContextSnapshot} (h : s.Trails)
    (hctx : s.loadContext runId = .ok (some c)) :
    ∀ row, s.plannerStates.get (strip runId) = some row → c.plannerVersion ≤ row.version := by
  obtain ⟨-, old, hold, -, rfl⟩ := loadContext_ok.1 hctx
  exact fun row hrow => h.behind _ row old (trimmed_strip runId) hrow hold

/-- Writing a loaded context with another content. -/
theorem Store.Trails.keepContext {c d : AgentContextSnapshot} (h : s.Trails)
    (hload : s.loadContext runId = .ok (some c)) (hrun : d.runId = c.runId)
    (hv : d.plannerVersion = c.plannerVersion) (hn : d.lastCheckpointSeq = c.lastCheckpointSeq) :
    (s.putContext d).Trails := by
  refine h.putContext hload hrun ?_ ?_
  · rw [hv]
    exact h.loaded_behind hload
  · rw [hn]
    exact h.loaded_pointed hload

/-- The plan of a run with a plan moves on by one version. -/
theorem Store.Trails.putPlan (amb : Ambient) {st st' : PlannerState} (h : s.Trails)
    (hload : s.loadPlan runId = .ok (some st)) (hrun : st'.runId = st.runId) (hv : st'.version = st.version) :
    (s.putPlan (st'.bumped amb)).Trails ∧
      (s.putPlan (st'.bumped amb)).plannerStates.get (strip runId) = some (st'.bumped amb) := by
  obtain ⟨-, row, hrow, hdec⟩ := loadPlan_ok.1 hload
  have hversion : st.version = row.version := (decode_plan_ok hdec).2.version
  have hkey : (st'.bumped amb).runId = strip runId := hrun.trans (loadPlan_runId hload)
  have hbumped : (st'.bumped amb).version = row.version + 1 := by
    show st'.version + 1 = _
    rw [hv, hversion]
  have hget : ∀ k, (s.putPlan (st'.bumped amb)).plannerStates.get k =
      if k = strip runId then some (st'.bumped amb) else s.plannerStates.get k :=
    fun k => hkey ▸ Table.get_put s.plannerStates (st'.bumped amb) k
  refine ⟨⟨fun k x hx => ?_, fun k hk => ?_, fun k x c hk hx hc => ?_, h.pointed⟩, ?_⟩
  · rw [hget] at hx
    split at hx
    · cases hx
      have := h.positive _ row hrow
      omega
    · exact h.positive k x hx
  · rw [hget]
    split
    · next heq =>
      subst heq
      have := h.together _ hk
      rw [hrow] at this
      exact this
    · exact h.together k hk
  · rw [hget] at hx
    split at hx
    · next heq =>
      cases hx
      subst heq
      have := h.behind _ row c hk hrow hc
      omega
    · exact h.behind k x c hk hx hc
  · rw [hget, if_pos rfl]

/-! ## The parts keep it -/

theorem createPlanState_version {a : StartRun} {st : PlannerState}
    (h : createPlanState amb.now a.runId a.planSourceText a.planItems a.planSchema = .ok st) : st.version = 1 := by
  unfold createPlanState at h
  simp only [except_bind_ok, raiseIf_ok, except_pure_ok] at h
  obtain ⟨_, -, _, -, items, -, _, -, rfl⟩ := h
  split <;> rfl

/-- A new run, under any spelling of its id. -/
theorem Store.Trails.started (amb : Ambient) {a : StartRun} {st : PlannerState} {c : AgentContextSnapshot}
    (h : s.Trails) (hst : st.runId = a.runId) (hversion : st.version = 1) (hrun : c.runId = a.runId)
    (hc : c.plannerVersion = 0) (hn : c.lastCheckpointSeq = none) :
    ((s.planStarted amb a st).putContext c).Trails := by
  have hplans : ∀ k, ((s.planStarted amb a st).putContext c).plannerStates.get k =
      if k = a.runId then some (st.saved amb) else s.plannerStates.get k := by
    intro k
    have := Table.get_put s.plannerStates (st.saved amb) k
    rwa [show (st.saved amb).runId = a.runId from hst] at this
  have hcontexts : ∀ k, ((s.planStarted amb a st).putContext c).agentContexts.get k =
      if k = a.runId then some c else s.agentContexts.get k := by
    intro k
    have := Table.get_put s.agentContexts c k
    rwa [hrun] at this
  have hlog : s.walEvents.length ≤ ((s.planStarted amb a st).putContext c).walEvents.length := by
    show _ ≤ (((s.walEvents ++ [_]) ++ [_]) ++ [_]).length
    simp only [List.length_append]
    omega
  refine ⟨fun k x hx => ?_, fun k hk => ?_, fun k x d hk hx hd => ?_, fun k d hd n hmem => ?_⟩
  · rw [hplans] at hx
    split at hx
    · cases hx
      exact hversion.ge
    · exact h.positive k x hx
  · rw [hplans, hcontexts]
    split
    · rfl
    · exact h.together k hk
  · rw [hplans] at hx
    rw [hcontexts] at hd
    split at hx
    · next heq =>
      rw [if_pos heq] at hd
      cases hx
      cases hd
      show c.plannerVersion ≤ st.version
      omega
    · next hne =>
      rw [if_neg hne] at hd
      exact h.behind k x d hk hx hd
  · rw [hcontexts] at hd
    split at hd
    · cases hd
      rw [hn] at hmem
      cases hmem
    · exact (h.pointed k d hd n hmem).trans (by exact_mod_cast hlog)

/-- A plan that is loaded and changed, with events around it. -/
theorem Store.Trails.edited {st st' out : PlannerState} {e : WalEvent} (h : s.Trails)
    (hload : s.loadPlan runId = .ok (some st)) (hrun : st'.runId = st.runId) (hv : st'.version = st.version)
    (hout : (st'.bumped amb).fromDict = .ok out) :
    ((s.addEvent e).putPlan (st'.bumped amb)).Trails ∧
      ((s.addEvent e).putPlan (st'.bumped amb)).Covers runId (some out) := by
  have hload' : (s.addEvent e).loadPlan runId = .ok (some st) := hload
  obtain ⟨htrails, hget⟩ := (h.addEvent e).putPlan amb hload' hrun hv
  refine ⟨htrails, fun owed howed row hrow => ?_⟩
  cases howed
  rw [hget] at hrow
  cases hrow
  exact (fromDict_plan_ok hout).2.version.le

theorem IntentSaved.trails {a : ToolIntent} (h : IntentSaved amb a s s') (hs : s.Trails) : s'.Trails := by
  cases h with
  | present => exact hs
  | written => exact hs.of_eq rfl rfl le_rfl

theorem PendingCleared.trails {a : ToolResult} {es : ExecutionStatus} (h : PendingCleared amb a es s s')
    (hs : s.Trails) : s'.Trails := by
  cases h with
  | off => exact hs
  | absent => exact hs
  | dropped c ids hcl hc hin hids hsave =>
    have hs' := hs.addEvent (s.newEvent amb a.runId (.contextPendingExecutionSet
      (c.pendingExecutionIds.filter fun value => value ≠ a.executionId).getLast?
      (c.pendingExecutionIds.filter fun value => value ≠ a.executionId)) "context" a.runId)
    exact Store.Trails.keepContext hs' hc rfl rfl rfl

theorem Act.trails (h : Act cfg amb o runId s owed s') (hs : s.Trails) : s'.Trails ∧ s'.Covers runId owed := by
  have hnone : ∀ {s1 : Store}, s1.Covers runId none := fun st hst => by cases hst
  cases h with
  | idle => exact ⟨hs, hnone⟩
  | created a st out messages hst hout hmsgs hdec hcase =>
    have htrails := hs.started amb (c := freshContext amb a.runId messages a.initialMemory)
      (createPlanState_ok hst).runId (createPlanState_version hst) rfl rfl rfl
    refine ⟨htrails, fun owed howed row hrow => ?_⟩
    cases howed
    have hversion : out.version = st.version := (fromDict_plan_ok hout).2.version
    have hone := createPlanState_version hst
    rw [hversion, hone]
    exact htrails.positive _ row hrow
  | replanned a st out c hst hout hplan hctx =>
    obtain ⟨-, crow, hcrow, -⟩ := loadContext_ok.1 hctx
    have htogether := hs.together _ (trimmed_strip a.runId)
    rw [hcrow, (loadPlan_none.1 hplan).2] at htogether
    cases htogether
  | edited st st' out hedit hload hst hout =>
    obtain ⟨p, f, hu⟩ := hedit.update hst
    exact hs.edited hload hu.runId hu.version hout
  | intended a st st' out c hknown hload hst hout hctx hblank hsaved =>
    have hu := (attachToolCallRefState_ok hst).1
    obtain ⟨hs1, hcovers⟩ := hs.edited (e := s.newEvent amb a.runId (.toolIntentRecorded a.planItemId a.toolName
      a.operationType a.requestPayload .intentLogged) "tool_intent" a.executionId) hload hu.runId hu.version hout
    have hs2 := hs1.addEvent (((s.addEvent (s.newEvent amb a.runId (.toolIntentRecorded a.planItemId a.toolName
      a.operationType a.requestPayload .intentLogged) "tool_intent" a.executionId)).putPlan
      (st'.bumped amb)).newEvent amb a.runId (.contextPendingExecutionSet
        (addOnce a.executionId c.pendingExecutionIds).getLast? (addOnce a.executionId c.pendingExecutionIds))
        "context" a.runId)
    have hs3 := hs2.keepContext (d := c.awaiting amb a.executionId) hctx rfl rfl rfl
    refine ⟨hsaved.trails hs3, fun owed howed row hrow => hcovers owed howed row ?_⟩
    rwa [hsaved.plannerStates] at hrow
  | dispatched runId e row => exact ⟨(hs.addEvent _).of_eq rfl rfl le_rfl, hnone⟩
  | resulted a rs es cached record hparent hrs hes hget hcheck hrecord hcleared =>
    exact ⟨hcleared.trails ((hs.addEvent _).of_eq rfl rfl le_rfl), hnone⟩

theorem Spoken.trails (h : Spoken amb o s s') (hs : s.Trails)
    (hcovers : s.Covers runId owed) : s'.Trails ∧ s'.Covers runId owed := by
  cases h with
  | silent => exact ⟨hs, hcovers⟩
  | said m c hm hload hdec =>
    have hs' := hs.addEvent (s.newEvent amb m.runId
      (.contextMessageAppended m.role m.content (m.metadata.getD []) m.name m.toolCallId) "context" m.runId)
    exact ⟨hs'.keepContext (d := c.told amb m) hload rfl rfl rfl, hcovers⟩

theorem Settled.trails (h : Settled amb runId s owed s') (hs : s.Trails) (hcovers : s.Covers runId owed) :
    s'.Trails := by
  cases h with
  | same => exact hs
  | synced st c hload =>
    have hs' := hs.addEvent (s.newEvent amb runId (.contextSynchronized st.version st.cursorIndex) "context" runId)
    have hpointed := hs'.loaded_pointed hload
    exact hs'.putContext (d := c.synced amb st) hload rfl (fun row hrow => hcovers st rfl row hrow) hpointed

theorem Checkpointed.trails (h : Checkpointed amb runId s s') (hs : s.Trails) (hnum : s.Numbered) : s'.Trails := by
  cases h with
  | none => exact hs
  | bare cp =>
    have hs' : (s.addCheckpoint cp).Trails := hs.of_eq rfl rfl le_rfl
    exact hs'.addEvent _
  | withContext cp c hrun hseq hc hsave =>
    have hs' : (s.addCheckpoint cp).Trails := hs.of_eq rfl rfl le_rfl
    obtain ⟨e, he, heq⟩ := List.mem_map.1 (List.max?_eq_some_iff.1 (latestWalSeq_ok.1 hseq).2.symm).1
    have hle : cp.seqId ≤ s.walEvents.length := heq ▸ hnum.events e (List.mem_of_mem_filter he)
    have hbehind := hs'.loaded_behind hc
    refine (hs'.putContext (d := { c with
      lastCheckpointSeq := some (cp.seqId : ℤ), updatedAt := amb.now }) hc rfl hbehind ?_).addEvent _
    intro n hn
    cases hn
    show (cp.seqId : ℤ) ≤ (s.walEvents.length : ℤ)
    exact_mod_cast hle

theorem Parts.trails (h : Parts cfg amb o runId s s') (hrun : o.run = some runId) (hs : s.Trails)
    (hnum : s.Numbered) : s'.Trails ∧ s'.Numbered := by
  obtain ⟨owed, s1, s2, s3, hact, hspoken, hsettled, hcp⟩ := h
  obtain ⟨hs1, hcovers1⟩ := hact.trails hs
  obtain ⟨hs2, hcovers2⟩ := hspoken.trails hs1 hcovers1
  have hs3 := hsettled.trails hs2 hcovers2
  obtain ⟨n, hgrown, -⟩ := hact.grown
  have hnum3 := ((hgrown.trans (hspoken.grown hrun)).trans hsettled.grown).numbered hnum
  exact ⟨hcp.checkpointed.trails hs3 hnum3, (hcp.checkpointed.windowed hnum3).numbered⟩

end

/-- In every reachable store the contexts trail. -/
theorem trails_reachable {s : Store} (h : Relation.ReflTransGen AnyStep {} s) : s.Trails ∧ s.Numbered := by
  induction h with
  | refl =>
    exact ⟨trails_empty, ⟨fun e he => absurd he List.not_mem_nil, fun c hc => absurd hc List.not_mem_nil⟩⟩
  | tail _ hstep ih =>
    obtain ⟨cfg, amb, o, r, -, hx⟩ := hstep
    rcases exec_parts hx with ⟨rfl, -⟩ | ⟨runId, hrun, hparts⟩
    · exact ih
    · exact hparts.trails hrun ih.1 ih.2

/-! ## The last writer -/

section
variable {cfg : LoggingServiceConfig} {amb : Ambient} {runId : String} {s s' s1 : Store}

/-- A checkpoint leaves the version of the context. -/
theorem Checkpointed.loadedVersion {c c' : AgentContextSnapshot} (h : Checkpointed amb runId s s')
    (hload : s.loadContext runId = .ok (some c)) (hload' : s'.loadContext runId = .ok (some c')) :
    c'.plannerVersion = c.plannerVersion := by
  cases h with
  | none =>
    cases hload.symm.trans hload'
    rfl
  | bare cp =>
    cases hload.symm.trans hload'
    rfl
  | withContext cp d hrun hseq hd hsave =>
    obtain ⟨saved, hsave⟩ := hsave
    have hread : ((s.addCheckpoint cp).putContext { d with
        lastCheckpointSeq := some (cp.seqId : ℤ), updatedAt := amb.now }).loadContext runId = .ok (some saved) :=
      loadContext_saved hd rfl hsave
    cases hread.symm.trans hload'
    cases hload.symm.trans hd
    rw [(fromDict_context_ok.1 hsave).2]
    rfl

/-- After the synchronisation the context has the version of the plan. -/
theorem synced_version {st : PlannerState} {u : Unit} {c : AgentContextSnapshot}
    (hsync : syncContextWithPlanner amb runId st s = .ok (u, s1)) (hcp : Closed cfg amb runId s1 s')
    (hload : s'.loadContext runId = .ok (some c)) : c.plannerVersion = st.version := by
  obtain ⟨d, hd, ⟨saved, hsave⟩, rfl⟩ := syncContextWithPlanner_ok hsync
  have hread : ((s.addEvent (s.newEvent amb runId (.contextSynchronized st.version st.cursorIndex) "context"
      runId)).putContext (d.synced amb st)).loadContext runId = .ok (some saved) := loadContext_saved hd rfl hsave
  rw [hcp.checkpointed.loadedVersion hread hload, (fromDict_context_ok.1 hsave).2]
  rfl

/-- A context that was taken at an older version is not what is stored. -/
theorem not_loadsContext {st : PlannerState} {u : Unit} {c : AgentContextSnapshot}
    (hsync : syncContextWithPlanner amb runId st s = .ok (u, s1)) (hcp : Closed cfg amb runId s1 s')
    (hold : c.plannerVersion < st.version) : ¬ s'.LoadsContext runId c := by
  rintro ⟨loaded, hload, hsame⟩
  have hversion : loaded.plannerVersion = c.plannerVersion :=
    show loaded.untimed.plannerVersion = c.untimed.plannerVersion from congrArg _ hsame
  have := synced_version hsync hcp hload
  omega

/-- A checkpoint leaves its number in the context. -/
theorem checkpointLocked_points {snapshotType : String} {inc : Bool} {r : Option WalCheckpoint}
    {c c' : AgentContextSnapshot} {n : ℕ} (h : checkpointLocked amb runId snapshotType inc s = .ok (r, s'))
    (hload : s.loadContext runId = .ok (some c)) (hlatest : s.latestWalSeq runId = .ok (some n))
    (hload' : s'.loadContext runId = .ok (some c')) : c'.lastCheckpointSeq = some (n : ℤ) := by
  unfold checkpointLocked at h
  rw [bind_ok] at h
  obtain ⟨latest, s0, h1, h⟩ := h
  obtain ⟨h1, rfl⟩ := fetch_pair.1 h1
  rw [hlatest] at h1
  cases h1
  simp only [bind_ok, fetch_ok, appendEvent_ok, pure_ok] at h
  obtain ⟨plan, _, ⟨-, rfl⟩, ctx, _, ⟨hctx, rfl⟩, ext, _, ⟨-, rfl⟩, cp, s3, hcp, _, s4, hnote, _, _, ⟨-, -, h3⟩,
    h4⟩ := h
  obtain ⟨-, hseq, rfl⟩ := writeWalCheckpoint_ok hcp
  cases h3
  cases h4
  rw [hload] at hctx
  cases hctx
  simp only [noteCheckpoint, bind_ok, pure_ok] at hnote
  obtain ⟨noted, s5, h5, h6⟩ := hnote
  cases h6
  obtain ⟨d, d', hd, hd', hsave, rfl⟩ := updateContext_saved h5
  rw [loadContext_addCheckpoint, hload] at hd
  cases hd
  cases hd'
  have hread : (Store.putContext _ { c with
      lastCheckpointSeq := some (n : ℤ), updatedAt := amb.now }).loadContext runId = .ok (some noted) :=
    loadContext_saved hload rfl hsave
  cases hread.symm.trans hload'
  rw [(fromDict_context_ok.1 hsave).2]
  rfl

/-- The automatic checkpoint by the number of the last event. -/
theorem maybeAutoCheckpoint_cases {r : Option WalCheckpoint} {n : ℕ}
    (h : maybeAutoCheckpoint cfg amb runId s = .ok (r, s')) (hlatest : s.latestWalSeq runId = .ok (some n))
    (hn : 0 < n) :
    (¬ cfg.dueAt n ∧ s' = s) ∨ (cfg.dueAt n ∧ checkpointLocked amb runId "agent_context" false s = .ok (r, s')) := by
  unfold maybeAutoCheckpoint at h
  unfold LoggingServiceConfig.dueAt
  split at h
  · next hoff =>
    cases pure_ok.1 h
    exact .inl ⟨fun hdue => by omega, rfl⟩
  · next hon =>
    obtain ⟨latest, s0, h1, h⟩ := bind_ok.1 h
    obtain ⟨h1, rfl⟩ := fetch_pair.1 h1
    rw [hlatest] at h1
    cases h1
    dsimp only at h
    split at h
    · next hskip =>
      cases pure_ok.1 h
      refine .inl ⟨fun hdue => ?_, rfl⟩
      rcases hskip with hzero | hnot
      · omega
      · exact hnot hdue.2
    · next hdue =>
      rw [not_or, not_not] at hdue
      exact .inr ⟨⟨by omega, hdue.2⟩, h⟩

/-! ## The operations -/

/-- A fresh context is at version 0, the plan at 1. -/
theorem startFresh_returned {a : StartRun} {r : RunProjections} (hs : s.Trails)
    (hcase : a.forceReset = true ∨ s.loadPlan a.runId = .ok none ∨ s.loadContext a.runId = .ok none)
    (h : startFresh cfg amb a s = .ok (r, s')) : ¬ s'.LoadsContext a.runId r.context := by
  obtain ⟨st, s1, s2, s3, -, hst, -, hout, rfl, rfl, hinit, s4, hsync, hcp⟩ := startFresh_ok h
  have hversion : r.plannerState.version = st.version := (fromDict_plan_ok hout).2.version
  have hone := createPlanState_version hst
  refine not_loadsContext hsync hcp ?_
  rcases initContext_ok hinit with ⟨hload, hforce, -⟩ | ⟨messages, -, -, hfresh, -⟩
  · -- a context without a plan
    have hload : s.loadContext a.runId = .ok (some r.context) := hload
    have hplan : s.loadPlan a.runId = .ok none := by
      rcases hcase with hreset | hplan | hctx
      · rw [hforce] at hreset
        cases hreset
      · exact hplan
      · cases hctx.symm.trans hload
    obtain ⟨-, row, hrow, -⟩ := loadContext_ok.1 hload
    have htogether := hs.together _ (trimmed_strip a.runId)
    rw [hrow, (loadPlan_none.1 hplan).2] at htogether
    cases htogether
  · rw [hversion, hone, (fromDict_context_ok.1 hfresh).2]
    exact Int.one_pos

/-- The context an update returns: loaded, changed, and what a load gives next. -/
theorem updateContext_taken {f : AgentContextSnapshot → Except PyError AgentContextSnapshot}
    {c : AgentContextSnapshot} (hf : ∀ d d', f d = .ok d' → d'.runId = d.runId ∧
      d'.plannerVersion = d.plannerVersion ∧ d'.lastCheckpointSeq = d.lastCheckpointSeq)
    (h : updateContext amb runId f s = .ok (c, s')) :
    ∃ d, s.loadContext runId = .ok (some d) ∧ c.plannerVersion = d.plannerVersion ∧
      c.lastCheckpointSeq = d.lastCheckpointSeq ∧ s'.loadContext runId = .ok (some c) ∧
      s'.walEvents = s.walEvents ∧ s'.walCheckpoints = s.walCheckpoints := by
  obtain ⟨d, d', hload, hd, hsave, rfl⟩ := updateContext_saved h
  obtain ⟨hrun, hversion, hpointer⟩ := hf d d' hd
  have hread : (s.putContext { d' with updatedAt := amb.now }).loadContext runId = .ok (some c) :=
    loadContext_saved hload hrun hsave
  refine ⟨d, hload, ?_, ?_, hread, rfl, rfl⟩
  · rw [(fromDict_context_ok.1 hsave).2]
    exact hversion
  · rw [(fromDict_context_ok.1 hsave).2]
    exact hpointer

theorem appendMessageState_keeps {m : AgentMessage} (d d' : AgentContextSnapshot)
    (h : appendMessageState m d = .ok d') : d'.runId = d.runId ∧
      d'.plannerVersion = d.plannerVersion ∧ d'.lastCheckpointSeq = d.lastCheckpointSeq := by
  simp only [appendMessageState, except_bind_ok, except_pure_ok] at h
  obtain ⟨_, -, rfl⟩ := h
  exact ⟨rfl, rfl, rfl⟩

theorem addPendingExecutionState_keeps {e : String} (d d' : AgentContextSnapshot)
    (h : addPendingExecutionState e d = .ok d') : d'.runId = d.runId ∧
      d'.plannerVersion = d.plannerVersion ∧ d'.lastCheckpointSeq = d.lastCheckpointSeq := by
  simp only [addPendingExecutionState, except_bind_ok, requireNonEmptyStr_ok, except_pure_ok] at h
  obtain ⟨_, -, rfl⟩ := h
  exact ⟨rfl, rfl, rfl⟩

/-- A context that is taken after its plan moved on, and before it follows, is behind. -/
theorem taken_behind {g : PlannerState → Except PyError PlannerState} {p : String}
    {f : PlannerItem → PlannerItem} {out : PlannerState} {c : AgentContextSnapshot} (hs : s.Trails)
    (hg : ∀ st st', g st = .ok st' → PlanUpdate p f st st')
    (hplan : updatePlan amb runId g s = .ok (out, s1)) (hctx : s.loadContext runId = .ok (some c)) :
    c.plannerVersion < out.version := by
  obtain ⟨st, st', hload, hst, -, hout, -⟩ := updatePlan_saved hplan
  have hversion : out.version = st'.version + 1 := (fromDict_plan_ok hout).2.version
  have hsame := (hg st st' hst).version
  have hle := hs.loaded_le hload hctx
  omega

theorem recordLlmTurn_returned {a : LlmTurn} {r : RunProjections} (hs : s.Trails)
    (h : recordLlmTurn cfg amb a s = .ok (r, s')) : ¬ s'.LoadsContext a.runId r.context := by
  obtain ⟨s1, s2, s3, -, -, hplan, happend, hsync, hcp⟩ := recordLlmTurn_ok h
  obtain ⟨d, hload, hversion, -⟩ := updateContext_taken appendMessageState_keeps happend
  have hctx : s.loadContext a.runId = .ok (some d) := by
    obtain ⟨st, st', -, -, -, -, rfl⟩ := updatePlan_saved hplan
    exact hload
  have hbehind := taken_behind (hs.addEvent _) (fun st st' hst => (attachLlmOutputState_ok hst).1) hplan hctx
  exact not_loadsContext hsync hcp (hversion ▸ hbehind)

theorem recordNewIntent_returned {a : ToolIntent} {r : RunProjections} (hs : s.Trails)
    (h : recordNewIntent cfg amb a s = .ok (r, s')) : ¬ s'.LoadsContext a.runId r.context := by
  obtain ⟨ctx, s1, s2, s3, s4, s5, -, -, -, hplan, rfl, hadd, hsaved, hsync, hcp⟩ := recordNewIntent_ok h
  obtain ⟨d, hload, hversion, -⟩ := updateContext_taken addPendingExecutionState_keeps hadd
  have hctx : s.loadContext a.runId = .ok (some d) := by
    obtain ⟨st, st', -, -, -, -, rfl⟩ := updatePlan_saved hplan
    exact hload
  have hbehind := taken_behind (hs.addEvent _) (fun st st' hst => (attachToolCallRefState_ok hst).1) hplan hctx
  exact not_loadsContext hsync hcp (hversion ▸ hbehind)

/-- A message is returned as it is stored, unless its checkpoint is due. -/
theorem recordContextMessage_returned {a : ContextMessage} {r : AgentContextSnapshot} (hs : s.Trails)
    (hnum : s.Numbered) (h : recordContextMessage cfg amb a s = .ok (r, s')) :
    s'.LoadsContext a.runId r ↔ ¬ cfg.dueAt (s.walEvents.length + 1) := by
  unfold recordContextMessage at h
  simp only [bind_ok, lift_ok, appendEvent_ok, pure_ok] at h
  obtain ⟨_, s, ⟨-, rfl⟩, _, _, ⟨hb, -, h1⟩, c, s1, happend, cp, s2, hauto, h4⟩ := h
  cases h1
  cases h4
  obtain ⟨d, hload, -, hpointer, hread, hlog, hcps⟩ := updateContext_taken appendMessageState_keeps happend
  have hevent : Grown (strip a.runId) s 1 (s.addEvent (s.newEvent amb a.runId
      (.contextMessageAppended a.role a.content (a.metadata.getD []) a.name a.toolCallId) "context" a.runId)) :=
    Grown.refl.newEvent amb _
  have hgrown := hevent.rows hlog hcps
  have hlength := hgrown.length
  have hlatest : s1.latestWalSeq a.runId = .ok (some (s.walEvents.length + 1)) := by
    have := hgrown.latest hnum Nat.one_pos
    rw [hlength] at this
    exact latestWalSeq_ok.2 ⟨hb, this.symm⟩
  rcases maybeAutoCheckpoint_cases hauto hlatest (Nat.succ_pos _) with ⟨hquiet, rfl⟩ | ⟨hdue, hcp⟩
  · exact iff_of_true ⟨r, hread, rfl⟩ hquiet
  · refine iff_of_false ?_ (not_not.2 hdue)
    rintro ⟨loaded, hloaded, hsame⟩
    have hpoints := checkpointLocked_points hcp hread hlatest hloaded
    have hkept : loaded.lastCheckpointSeq = r.lastCheckpointSeq :=
      show loaded.untimed.lastCheckpointSeq = r.untimed.lastCheckpointSeq from congrArg _ hsame
    have hold := hs.loaded_pointed hload (s.walEvents.length + 1 : ℕ) (by
      rw [Option.mem_def, ← hpointer, ← hkept, hpoints])
    omega

end

theorem loadProjections_ok {s : Store} {runId : String} {r : RunProjections} (h : s.loadProjections runId = .ok r) :
    s.loadPlan runId = .ok (some r.plannerState) ∧ s.loadContext runId = .ok (some r.context) := by
  unfold Store.loadProjections at h
  obtain ⟨plan, hplan, h⟩ := except_bind_ok.1 h
  obtain ⟨ctx, hctx, h⟩ := except_bind_ok.1 h
  cases plan with
  | none => cases h
  | some st =>
    cases ctx with
    | none => cases h
    | some c =>
      cases h
      exact ⟨hplan, hctx⟩

/-- **Operations that return what they stored.**  In every reachable store, what a successful
`start_run`, `record_context_message`, `record_llm_turn` or `record_tool_intent` returns is, apart
from times, what the next load gives, if and only if nothing is written after it was taken: the run
is resumed, the intent is known, or the event of the message makes no checkpoint due. -/
theorem returned_stored (s : Store) (hreach : Relation.ReflTransGen AnyStep {} s) (cfg : LoggingServiceConfig)
    (amb : Ambient) (o : FacadeOp) (r : o.Res) (s' : Store) (h : o.exec cfg amb s = .ok (r, s')) :
    o.ReturnsStored r s' ↔ o.TakesLast cfg s := by
  obtain ⟨hs, hnum⟩ := trails_reachable hreach
  cases o with
  | startRun a =>
    obtain ⟨plan, ctx, hplan, hctx, hcase⟩ := startRun_ok h
    rcases hcase with ⟨rfl, rfl, hforce, rfl⟩ | ⟨hcase, hfresh⟩
    · exact iff_of_true ⟨⟨_, hplan, rfl⟩, _, hctx, rfl⟩ ⟨hforce, ⟨_, hplan⟩, _, hctx⟩
    · have hstale : ¬ s'.LoadsContext a.runId r.context := by
        refine startFresh_returned hs (hcase.imp_right ?_) hfresh
        rintro (rfl | rfl)
        · exact .inl hplan
        · exact .inr hctx
      refine iff_of_false (fun hboth => hstale hboth.2) ?_
      rintro ⟨hforce, ⟨st, hst⟩, c, hc⟩
      rcases hcase with hreset | rfl | rfl
      · rw [hforce] at hreset
        cases hreset
      · cases hplan.symm.trans hst
      · cases hctx.symm.trans hc
  | recordContextMessage a => exact recordContextMessage_returned hs hnum h
  | recordLlmTurn a => exact iff_of_false (fun hboth => recordLlmTurn_returned hs h hboth.2) id
  | recordToolIntent a =>
    rcases recordToolIntent_ok (FacadeOp.exec_recordToolIntent.1 h) with ⟨hknown, hload, rfl⟩ | ⟨hnew, hfresh⟩
    · obtain ⟨hplan, hctx⟩ := loadProjections_ok hload
      exact iff_of_true ⟨⟨_, hplan, rfl⟩, _, hctx, rfl⟩ hknown
    · refine iff_of_false (fun hboth => recordNewIntent_returned hs hfresh hboth.2) fun hknown => ?_
      cases hnew.symm.trans hknown
  | recordToolDispatch runId e => exact Iff.rfl
  | recordToolResult a => exact Iff.rfl
  | advancePlanItem a => exact Iff.rfl
  | setActivePlanItem runId planItemId => exact Iff.rfl
  | checkpoint runId snapshotType inc => exact Iff.rfl
  | getExternalResult e => exact Iff.rfl
  | listExternalResults runId => exact Iff.rfl
  | listPendingExecutions runId => exact Iff.rfl
  | loadContext runId => exact Iff.rfl

/-! ## A new run, and a message at its checkpoint -/

/-- Version and checkpoint of the stored context are those of the context. -/
def Store.countersAgree (s : Store) (runId : String) (c : AgentContextSnapshot) : Bool :=
  match s.loadContext runId with
  | .ok (some loaded) => loaded.plannerVersion = c.plannerVersion && loaded.lastCheckpointSeq = c.lastCheckpointSeq
  | _ => false

theorem Store.LoadsContext.countersAgree {s : Store} {runId : String} {c : AgentContextSnapshot}
    (h : s.LoadsContext runId c) : s.countersAgree runId c = true := by
  obtain ⟨loaded, hload, hsame⟩ := h
  have hversion : loaded.plannerVersion = c.plannerVersion :=
    show loaded.untimed.plannerVersion = c.untimed.plannerVersion from congrArg _ hsame
  have hpointer : loaded.lastCheckpointSeq = c.lastCheckpointSeq :=
    show loaded.untimed.lastCheckpointSeq = c.untimed.lastCheckpointSeq from congrArg _ hsame
  unfold Store.countersAgree
  rw [hload]
  simp [hversion, hpointer]

def helloMessage : ContextMessage := { runId := "trip", role := "user", content := "hello" }

/-- The returned context of the operation, when the counters of the stored one differ. -/
def staleStart (a : StartRun) (s : Store) : Bool :=
  match (FacadeOp.startRun a).exec {} stillAmbient s with
  | .ok (r, s') => !s'.countersAgree a.runId r.context
  | .error _ => false

def staleMessage (cfg : LoggingServiceConfig) (a : ContextMessage) (s : Store) : Bool :=
  match (FacadeOp.recordContextMessage a).exec cfg stillAmbient s with
  | .ok (c, s') => !s'.countersAgree a.runId c
  | .error _ => false

/-- A new run returns the version 0 and stores 1; with a checkpoint at each event a message returns the
pointer of the checkpoint before. -/
theorem returned_stale :
    (∃ r s', (FacadeOp.startRun tripRun).exec {} stillAmbient {} = .ok (r, s') ∧
      ¬ (FacadeOp.startRun tripRun).ReturnsStored r s') ∧
    ∃ s c s', execAll [.startRun tripRun] {} = .ok s ∧
      (FacadeOp.recordContextMessage helloMessage).exec { checkpointEveryNEvents := 1 } stillAmbient s = .ok (c, s') ∧
      ¬ (FacadeOp.recordContextMessage helloMessage).ReturnsStored c s' := by
  constructor
  · have hstale : staleStart tripRun {} = true := by decide +kernel
    unfold staleStart at hstale
    split at hstale
    · next r s' hx =>
      refine ⟨r, s', hx, fun hboth => ?_⟩
      rw [hboth.2.countersAgree] at hstale
      cases hstale
    · cases hstale
  · obtain ⟨s, hs⟩ : ∃ s, execAll [.startRun tripRun] {} = .ok s := except_ok_of_toBool (by decide +kernel)
    have hstale : ((execAll [.startRun tripRun] {}).toOption.any
        (staleMessage { checkpointEveryNEvents := 1 } helloMessage)) = true := by decide +kernel
    rw [hs] at hstale
    have hstale : staleMessage { checkpointEveryNEvents := 1 } helloMessage s = true := hstale
    unfold staleMessage at hstale
    split at hstale
    · next c s' hx =>
      refine ⟨s, c, s', hs, hx, fun hload => ?_⟩
      have hload : s'.LoadsContext helloMessage.runId c := hload
      rw [hload.countersAgree] at hstale
      cases hstale
    · cases hstale

/-- A message of the trip without checkpoints. -/
theorem returned_stored_hello : ∃ s c s', Relation.ReflTransGen AnyStep {} s ∧
    (FacadeOp.recordContextMessage helloMessage).exec {} stillAmbient s = .ok (c, s') ∧
    (FacadeOp.recordContextMessage helloMessage).ReturnsStored c s' := by
  obtain ⟨s, hs⟩ : ∃ s, execAll [.startRun tripRun] {} = .ok s := except_ok_of_toBool (by decide +kernel)
  have hsteps : Relation.ReflTransGen (FacadeStep {} fun _ _ => True) {} s :=
    execAll_reach (fun _ _ _ => trivial) hs
  have hreach : Relation.ReflTransGen AnyStep {} s :=
    Relation.ReflTransGen.mono (fun _ _ hstep => ⟨{}, hstep⟩) _ _ hsteps
  have hok : ((execAll [.startRun tripRun] {}).toOption.any fun s =>
      ((FacadeOp.recordContextMessage helloMessage).exec {} stillAmbient s).toBool) = true := by decide +kernel
  rw [hs] at hok
  have hok : ((FacadeOp.recordContextMessage helloMessage).exec {} stillAmbient s).toBool = true := hok
  cases hx : (FacadeOp.recordContextMessage helloMessage).exec {} stillAmbient s with
  | error err =>
    rw [hx] at hok
    cases hok
  | ok p =>
    obtain ⟨c, s'⟩ := p
    refine ⟨s, c, s', hreach, hx, ?_⟩
    refine (returned_stored s hreach {} stillAmbient (.recordContextMessage helloMessage) c s' hx).2 fun hdue => ?_
    exact absurd hdue.1 (by decide)

end Raef
