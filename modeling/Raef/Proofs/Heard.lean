import Raef.Proofs.Changes

/-!
# The transcript as it is loaded

A load strips the messages of a context.  Whatever an operation saves, it loaded before: the
messages that are loaded afterwards are the ones that were, and the one the operation appends.

    a result leaves the loaded messages of every run         (result_heard)
    a message is appended to those of its run                (message_heard)
-/

namespace Raef

open Text Txn

/-- The messages a load of the run gives. -/
def Store.heard (s : Store) (k : String) : List AgentMessage :=
  match s.agentContexts.get k with
  | some c => c.decoded.messages
  | none => []

/-- A tool message for the execution. -/
def AgentMessage.answers (e : String) (m : AgentMessage) : Prop := m.role = "tool" ∧ m.toolCallId = some e

/-- The transcript has a tool message for the execution. -/
def Store.Answered (s : Store) (k e : String) : Prop := ∃ m ∈ s.heard k, m.answers e

section
variable {cfg : LoggingServiceConfig} {amb : Ambient} {runId k : String} {s s' : Store}

theorem loadContext_heard {c : AgentContextSnapshot} (h : s.loadContext runId = .ok (some c)) :
    c.messages = s.heard (strip runId) := by
  obtain ⟨-, row, hrow, -, rfl⟩ := loadContext_ok.1 h
  unfold Store.heard
  rw [hrow]

theorem stripped_stripped (m : AgentMessage) : m.stripped.stripped = m.stripped := by
  unfold AgentMessage.stripped
  simp only [strip_strip]

theorem heard_stripped {m : AgentMessage} (h : m ∈ s.heard k) : m.stripped = m := by
  unfold Store.heard at h
  split at h
  · obtain ⟨x, -, rfl⟩ := List.mem_map.1 h
    exact stripped_stripped x
  · cases h

/-- A loaded context is saved with more messages. -/
theorem heard_put {c d : AgentContextSnapshot} {l : List AgentMessage}
    (hload : s.loadContext runId = .ok (some c)) (hrun : d.runId = c.runId) (hm : d.messages = c.messages ++ l)
    (hc : s'.agentContexts = s.agentContexts.put d) :
    s'.heard k = s.heard k ++ if k = strip runId then l.map AgentMessage.stripped else [] := by
  have hkey : d.runId = strip runId := hrun.trans (loadContext_runId hload)
  by_cases hk : k = strip runId
  · rw [if_pos hk]
    subst hk
    have hget : s'.agentContexts.get (strip runId) = some d := by
      rw [hc, ← hkey]
      exact Table.get_put_self _ d
    have hmessages := loadContext_heard hload
    have hsame : (s.heard (strip runId)).map AgentMessage.stripped = s.heard (strip runId) := by
      conv_rhs => rw [← List.map_id (s.heard (strip runId))]
      exact List.map_congr_left fun m hm => heard_stripped hm
    have hnew : s'.heard (strip runId) = d.messages.map AgentMessage.stripped := by
      unfold Store.heard
      rw [hget]
      rfl
    rw [hnew, hm, List.map_append, hmessages, hsame]
  · rw [if_neg hk, List.append_nil]
    unfold Store.heard
    rw [hc, Table.get_put, if_neg]
    intro hk'
    exact hk (hk'.trans hkey)

/-- A loaded context is saved with the messages it has. -/
theorem heard_kept {c d : AgentContextSnapshot} (hload : s.loadContext runId = .ok (some c))
    (hrun : d.runId = c.runId) (hm : d.messages = c.messages) (hc : s'.agentContexts = s.agentContexts.put d) :
    s'.heard k = s.heard k := by
  rw [heard_put (l := []) hload hrun (by rw [hm, List.append_nil]) hc]
  split <;> exact List.append_nil _

theorem Checkpointed.heard (h : Checkpointed amb runId s s') : s'.heard k = s.heard k := by
  cases h with
  | none => rfl
  | bare cp => rfl
  | withContext cp c hrun hseq hc hsave =>
    exact heard_kept (d := { c with lastCheckpointSeq := some (cp.seqId : ℤ), updatedAt := amb.now })
      hc rfl rfl rfl

theorem PendingCleared.heard {a : ToolResult} {es : ExecutionStatus} (h : PendingCleared amb a es s s') :
    s'.heard k = s.heard k := by
  cases h with
  | off => rfl
  | absent => rfl
  | dropped c ids hcl hc hin hids hsave =>
    exact heard_kept (d := { c with
      pendingExecutionIds := ids, pendingExecutionId := ids.getLast?, updatedAt := amb.now }) hc rfl rfl rfl

/-- A result leaves every transcript. -/
theorem result_heard {a : ToolResult} {r : ExternalResultRecord}
    (h : recordToolResult cfg amb a s = .ok (r, s')) : s'.heard k = s.heard k := by
  obtain ⟨rs, es, cached, record, new, s1, -, -, -, -, -, -, -, -, -, -, rfl, -, -, hcleared, hclosed⟩ :=
    recordToolResult_ok h
  rw [hclosed.checkpointed.heard, hcleared.heard]
  rfl

/-- A message is appended to the transcript of its run. -/
theorem message_heard {m : ContextMessage} {r : AgentContextSnapshot}
    (h : recordContextMessage cfg amb m s = .ok (r, s')) :
    s'.heard k = s.heard k ++ if k = strip m.runId then [(m.stored amb).stripped] else [] := by
  obtain ⟨s1, happend, -, hclosed⟩ := recordContextMessage_ok h
  have hspoken : Spoken amb (.recordContextMessage m) s s1 := appendMessage_spoken rfl happend
  rw [hclosed.checkpointed.heard]
  cases hspoken with
  | silent hnone => cases hnone
  | said m' c hm hload hdec =>
    cases hm
    exact heard_put (l := [m.stored amb]) (d := c.told amb m) hload rfl rfl rfl

end

end Raef
