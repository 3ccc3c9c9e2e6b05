import Raef.Model.Bundle
import Raef.Proofs.Window
import Raef.Proofs.Total
import Raef.Proofs.Idempotent

/-!
# Is the recovery bundle complete?

On a store that operations have led to, the bundle of a run is always returned.  It has the latest
checkpoint, and the first thousand events after it: all of them, as long as there are no more.

    numbers increase along the log                                  (sequenced_reachable)
    the latest checkpoint of a run is the greatest                  (latest_greatest)
    complete ↔ the replay window is within the limit                (bundle_complete)
    there are runs of any length                                    (long_run)
-/

namespace Raef

open Text Txn

/-! ## Statements -/

/-- The greatest checkpoint of the run, all events after it in order, and the number of the last. -/
structure RecoveryBundle.Complete (b : RecoveryBundle) (s : Store) (runId : String) : Prop where
  checkpoint : match b.checkpoint with
    | some c => c ∈ s.walCheckpoints ∧ c.runId = strip runId ∧
      ∀ c' ∈ s.walCheckpoints, c'.runId = strip runId → c'.seqId ≤ c.seqId
    | none => ∀ c ∈ s.walCheckpoints, c.runId ≠ strip runId
  events : ∀ e, e ∈ b.eventsAfterCheckpoint ↔
    e ∈ s.walEvents ∧ e.runId = strip runId ∧ ∀ c, b.checkpoint = some c → c.seqId < e.seqId
  ordered : b.eventsAfterCheckpoint.Pairwise fun e e' => e.seqId < e'.seqId
  latest : ∀ e, b.eventsAfterCheckpoint.getLast? = some e → b.latestSeq = some e.seqId

/-! ## The log in sequence -/

/-- The numbers are positive, and increase along the log. -/
structure Store.Sequenced (s : Store) : Prop where
  numbered : s.Numbered
  positive : ∀ e ∈ s.walEvents, 0 < e.seqId
  ordered : s.walEvents.Pairwise fun e e' => e.seqId < e'.seqId

section
variable {cfg : LoggingServiceConfig} {amb : Ambient} {runId k : String} {s s' : Store} {n : ℕ}

theorem Store.Sequenced.addEvent (hs : s.Sequenced) {e : WalEvent} (hseq : e.seqId = s.walEvents.length + 1) :
    (s.addEvent e).Sequenced := by
  refine ⟨hs.numbered.addEvent hseq, fun x hx => ?_, ?_⟩
  · rw [Store.addEvent_walEvents] at hx
    rcases List.mem_append.1 hx with hx | hx
    · exact hs.positive x hx
    · rw [List.mem_singleton.1 hx, hseq]
      omega
  · rw [Store.addEvent_walEvents, List.pairwise_append]
    refine ⟨hs.ordered, List.pairwise_singleton _ _, fun x hx y hy => ?_⟩
    have hle := hs.numbered.events x hx
    rw [List.mem_singleton.1 hy, hseq]
    omega

theorem Store.Sequenced.congr (hs : s.Sequenced) (hn : s'.Numbered) (hlog : s'.walEvents = s.walEvents) :
    s'.Sequenced :=
  ⟨hn, by rw [hlog]; exact hs.positive, by rw [hlog]; exact hs.ordered⟩

theorem Grown.sequenced (h : Grown k s n s') (hs : s.Sequenced) : s'.Sequenced := by
  induction h with
  | refl => exact hs
  | event _ e _ hseq ih => exact ih.addEvent hseq
  | rows hg hlog hcp ih => exact ih.congr (hg.rows hlog hcp |>.numbered hs.numbered) hlog

theorem Grown.prefix (h : Grown k s n s') : s.walEvents <+: s'.walEvents := by
  induction h with
  | refl => exact List.prefix_refl _
  | event _ e _ _ ih => exact ih.trans (List.prefix_append _ _)
  | rows _ hlog _ ih => rw [hlog]; exact ih

theorem Checkpointed.prefix (h : Checkpointed amb runId s s') : s.walEvents <+: s'.walEvents := by
  cases h with
  | none => exact List.prefix_refl _
  | bare cp => exact List.prefix_append _ _
  | withContext cp => exact List.prefix_append _ _

theorem Checkpointed.sequenced (h : Checkpointed amb runId s s') (hs : s.Sequenced) : s'.Sequenced := by
  cases h with
  | none => exact hs
  | bare cp hrun hseq =>
    have hrow : (s.addCheckpoint cp).Sequenced := hs.congr (hs.numbered.addCheckpoint hseq) rfl
    exact hrow.addEvent rfl
  | withContext cp c hrun hseq hc hsave =>
    have hadd := hs.numbered.addCheckpoint hseq
    have hrow : ((s.addCheckpoint cp).putContext
        { c with lastCheckpointSeq := some (cp.seqId : ℤ), updatedAt := amb.now }).Sequenced :=
      hs.congr ⟨hadd.events, hadd.checkpoints⟩ rfl
    exact hrow.addEvent rfl

/-- An operation leaves a log in sequence, and what it adds stands at the end. -/
theorem exec_sequenced {o : FacadeOp} {r : o.Res} (hx : o.exec cfg amb s = .ok (r, s')) (hs : s.Sequenced) :
    s'.Sequenced ∧ s.walEvents <+: s'.walEvents := by
  rcases exec_parts hx with ⟨rfl, -⟩ | ⟨runId, hrun, hparts⟩
  · exact ⟨hs, List.prefix_refl _⟩
  · obtain ⟨s3, hgrown, hclosed⟩ := hparts.grown hrun
    exact ⟨hclosed.checkpointed.sequenced (hgrown.sequenced hs),
      hgrown.prefix.trans hclosed.checkpointed.prefix⟩

/-- **The log of a store that operations have led to is in sequence.** -/
theorem sequenced_reachable {allowed : Store → FacadeOp → Prop}
    (h : Relation.ReflTransGen (FacadeStep cfg allowed) {} s) : s.Sequenced := by
  induction h with
  | refl =>
    exact ⟨⟨fun e he => absurd he List.not_mem_nil, fun c hc => absurd hc List.not_mem_nil⟩,
      fun e he => absurd he List.not_mem_nil, List.Pairwise.nil⟩
  | tail _ hstep ih =>
    obtain ⟨amb, o, r, -, hx⟩ := hstep
    exact (exec_sequenced hx ih).1

end

/-! ## Latest and last -/

section
variable {s : Store} {runId : String}

/-- The events of a run after its latest checkpoint. -/
def Store.tail (s : Store) (k : String) : List WalEvent :=
  (s.eventsOf k).filter fun e => decide (s.lastCheckpoint k < e.seqId)

/-- **The latest checkpoint is the greatest**, and there is none only in a run without any. -/
theorem latest_greatest (hr : blank runId = false) : ∃ latest, s.readLatestWalCheckpoint runId none = .ok latest ∧
    (latest.map WalCheckpoint.seqId).getD 0 = s.lastCheckpoint (strip runId) ∧
    match latest with
      | some c => c ∈ s.walCheckpoints ∧ c.runId = strip runId ∧
        ∀ c' ∈ s.walCheckpoints, c'.runId = strip runId → c'.seqId ≤ c.seqId
      | none => ∀ c ∈ s.walCheckpoints, c.runId ≠ strip runId := by
  set rows := s.walCheckpoints.filter fun c => c.runId = strip runId with hrows
  have hmem (c : WalCheckpoint) : c ∈ rows.insertionSort WalCheckpoint.Before ↔
      c ∈ s.walCheckpoints ∧ c.runId = strip runId := by
    rw [List.mem_insertionSort, hrows, List.mem_filter, decide_eq_true_eq]
  have hread : s.readLatestWalCheckpoint runId none = .ok (rows.insertionSort WalCheckpoint.Before).head? := by
    have hplain : (s.walCheckpoints.filter fun c => decide (c.runId = strip runId) && true) = rows := by
      simp only [Bool.and_true, hrows]
    unfold Store.readLatestWalCheckpoint
    rw [requireNonEmptyStr_run _ hr, ← hplain]
    rfl
  refine ⟨_, hread, ?_, ?_⟩
  · have hgreatest := head_greatest rows
    unfold Store.lastCheckpoint
    rw [← hrows, ← hgreatest]
    cases (rows.insertionSort WalCheckpoint.Before).head? <;> rfl
  · have hsorted := List.pairwise_insertionSort WalCheckpoint.Before rows
    cases hl : rows.insertionSort WalCheckpoint.Before with
    | nil =>
      intro c hc hrun
      have := (hmem c).2 ⟨hc, hrun⟩
      rw [hl] at this
      nomatch this
    | cons first rest =>
      rw [hl] at hsorted
      have hfirst := (hmem first).1 (by rw [hl]; exact List.mem_cons_self)
      refine ⟨hfirst.1, hfirst.2, fun c hc hrun => ?_⟩
      have hin := (hmem c).2 ⟨hc, hrun⟩
      rw [hl] at hin
      rcases List.mem_cons.1 hin with rfl | hin
      · exact le_rfl
      · rcases List.rel_of_pairwise_cons hsorted hin with h | h
        · exact h.le
        · exact h.1.ge

/-- The events read after the latest checkpoint, up to a limit. -/
theorem readWalEvents_tail (hs : s.Sequenced) (hr : blank runId = false) {latest : Option WalCheckpoint}
    (hlast : (latest.map WalCheckpoint.seqId).getD 0 = s.lastCheckpoint (strip runId)) (limit : ℕ) :
    s.readWalEvents runId (latest.map WalCheckpoint.seqId) limit = .ok ((s.tail (strip runId)).take limit) := by
  unfold Store.readWalEvents Store.tail Store.eventsOf
  rw [requireNonEmptyStr_run _ hr, List.filter_filter, ← hlast]
  show Except.ok _ = Except.ok _
  congr 2
  refine List.filter_congr fun e he => ?_
  have hpos := hs.positive e he
  cases latest with
  | none => simp [hpos]
  | some c => simp [Bool.and_comm]

/-- The last event of the tail is the last of the run. -/
theorem latest_of_tail (hs : s.Sequenced) (hr : blank runId = false) {e : WalEvent}
    (he : (s.tail (strip runId)).getLast? = some e) : s.latestWalSeq runId = .ok (some e.seqId) := by
  obtain ⟨before, hbefore⟩ := List.getLast?_eq_some_iff.1 he
  have hordered : (s.tail (strip runId)).Pairwise fun e e' => e.seqId < e'.seqId :=
    (hs.ordered.filter _).filter _
  have hmem : e ∈ s.eventsOf (strip runId) ∧ s.lastCheckpoint (strip runId) < e.seqId := by
    have hin : e ∈ s.tail (strip runId) := List.mem_of_getLast? he
    simpa [Store.tail] using hin
  refine latestWalSeq_ok.2 ⟨hr, (List.max?_eq_some_iff.2 ⟨List.mem_map_of_mem hmem.1, fun n hn => ?_⟩).symm⟩
  obtain ⟨x, hx, rfl⟩ := List.mem_map.1 hn
  by_cases hafter : s.lastCheckpoint (strip runId) < x.seqId
  · have hin : x ∈ before ++ [e] := by
      rw [← hbefore]
      exact List.mem_filter.2 ⟨hx, decide_eq_true hafter⟩
    rw [hbefore, List.pairwise_append] at hordered
    rcases List.mem_append.1 hin with hin | hin
    · exact (hordered.2.2 x hin e List.mem_cons_self).le
    · rw [List.mem_singleton.1 hin]
  · omega

/-! ## The bundle -/

/-- What the bundle of a run is, on a store in sequence whose rows decode. -/
theorem getRecoveryBundle_run (hsound : s.Sound) (hs : s.Sequenced) (hr : blank runId = false) : ∃ b latest,
    s.getRecoveryBundle runId = .ok b ∧ s.readLatestWalCheckpoint runId none = .ok latest ∧ b.checkpoint = latest ∧
      b.eventsAfterCheckpoint = (s.tail (strip runId)).take Store.eventLimit ∧ s.latestWalSeq runId = .ok b.latestSeq := by
  obtain ⟨latest, hread, hlast, -⟩ := latest_greatest (s := s) hr
  have hevents := readWalEvents_tail hs hr hlast Store.eventLimit
  obtain ⟨plan, hplan⟩ := loadPlan_run hsound hr
  obtain ⟨context, hcontext⟩ : ∃ context, s.loadContext runId = .ok context := ⟨_, loadContext_run hsound hr⟩
  obtain ⟨seq, hseq⟩ : ∃ seq, s.latestWalSeq runId = .ok seq := ⟨_, latestWalSeq_ok.2 ⟨hr, rfl⟩⟩
  obtain ⟨records, hrecords⟩ : ∃ records, s.bundleResults runId context = .ok records := by
    cases context with
    | none => exact ⟨[], rfl⟩
    | some c => exact listExternalResults_run hsound hcontext
  refine ⟨⟨runId, seq, latest, (s.tail (strip runId)).take Store.eventLimit, plan, context, records⟩, latest, ?_, hread,
    rfl, rfl, hseq⟩
  unfold Store.getRecoveryBundle Store.rebuildState
  simp only [except_bind_ok, except_pure_ok]
  exact ⟨_, hread, (), raiseIf_ok.2 (by decide), (), raiseIf_ok.2 (by decide), _, hevents, _, hplan, _, hcontext, _, hrecords, _, hseq, rfl⟩

/-- A list of more than `n` different members has one outside its first `n`. -/
theorem exists_not_mem_take {α : Type} {l : List α} {n : ℕ} (hl : l.Nodup) (hn : n < l.length) :
    ∃ x ∈ l, x ∉ l.take n := by
  refine ⟨l[n], List.getElem_mem hn, fun hmem => ?_⟩
  obtain ⟨i, hi, heq⟩ := List.mem_iff_getElem.1 hmem
  rw [List.length_take] at hi
  rw [List.getElem_take] at heq
  have := (List.Nodup.getElem_inj_iff hl).1 heq
  omega

/-- The events after the latest checkpoint, as the bundle should have them. -/
theorem mem_tail (hs : s.Sequenced) {latest : Option WalCheckpoint}
    (hlast : (latest.map WalCheckpoint.seqId).getD 0 = s.lastCheckpoint (strip runId)) {e : WalEvent} :
    e ∈ s.tail (strip runId) ↔ e ∈ s.walEvents ∧ e.runId = strip runId ∧ ∀ c, latest = some c → c.seqId < e.seqId := by
  unfold Store.tail Store.eventsOf
  rw [List.mem_filter, List.mem_filter, decide_eq_true_eq, decide_eq_true_eq, and_assoc, ← hlast]
  refine and_congr_right fun he => and_congr_right fun _ => ?_
  cases latest with
  | none => simpa using hs.positive e he
  | some c => simp

/-- **The bundle is complete exactly when the window is within the limit.** -/
theorem complete_iff (hsound : s.Sound) (hs : s.Sequenced) (hr : blank runId = false) : ∃ b,
    s.getRecoveryBundle runId = .ok b ∧ (b.Complete s runId ↔ s.window (strip runId) ≤ Store.eventLimit) := by
  obtain ⟨b, latest, hb, hread, rfl, hevents, hseq⟩ := getRecoveryBundle_run hsound hs hr
  obtain ⟨latest, hread', hlast, hgreatest⟩ := latest_greatest (s := s) hr
  cases hread.symm.trans hread'
  have hordered : (s.tail (strip runId)).Pairwise fun e e' => e.seqId < e'.seqId := (hs.ordered.filter _).filter _
  refine ⟨b, hb, fun hc => ?_, fun hle => ?_⟩
  · by_contra hgt
    have hlong : Store.eventLimit < (s.tail (strip runId)).length := not_le.1 hgt
    have hnodup : (s.tail (strip runId)).Nodup := hordered.imp fun h heq => by rw [heq] at h; omega
    obtain ⟨e, he, hnot⟩ := exists_not_mem_take hnodup hlong
    rw [← hevents] at hnot
    exact hnot ((hc.events e).2 ((mem_tail hs hlast).1 he))
  · have hall : b.eventsAfterCheckpoint = s.tail (strip runId) := by
      rw [hevents]
      exact List.take_of_length_le hle
    refine ⟨hgreatest, fun e => ?_, ?_, fun e he => ?_⟩
    · rw [hall]
      exact mem_tail hs hlast
    · rw [hall]
      exact hordered
    · rw [hall] at he
      exact Except.ok.inj (hseq.symm.trans (latest_of_tail hs hr he))

end

/-- **The recovery bundle of a run is complete exactly when no more events than the limit follow its latest
checkpoint.** -/
theorem bundle_complete (cfg : LoggingServiceConfig) (s : Store)
    (h : Relation.ReflTransGen (FacadeStep cfg fun _ _ => True) {} s) (runId : String) (hr : blank runId = false) :
    ∃ b, s.getRecoveryBundle runId = .ok b ∧
      (b.Complete s runId ↔ ∃ window, s.replayWindow runId = .ok window ∧ window ≤ 1000) := by
  obtain ⟨b, hb, hiff⟩ := complete_iff (sound_of_reach h) (sequenced_reachable h) hr
  refine ⟨b, hb, hiff.trans ⟨fun hle => ⟨_, replayWindow_eq hr, hle⟩, ?_⟩⟩
  rintro ⟨window, hwindow, hle⟩
  cases (replayWindow_eq hr).symm.trans hwindow
  exact hle

/-! ## Runs of any length -/

def goOn : ContextMessage := { runId := "trip", role := "user", content := "go on" }

/-- Without automatic checkpoints, a message is one more event. -/
theorem message_step {s : Store} (h : s.Opened "trip") : ∃ s', FacadeStep {} (fun _ _ => True) s s' ∧
    Grown "trip" s 1 s' ∧ s'.Opened "trip" := by
  obtain ⟨r, s', hx⟩ : Succeeds (recordContextMessage {} stillAmbient goOn) s :=
    recordContextMessage_run h.loads h.loadPlan (by decide +kernel) (by decide) (by decide +kernel) rfl
  have hexec : (FacadeOp.recordContextMessage goOn).exec {} stillAmbient s = .ok (r, s') := hx
  refine ⟨s', ⟨stillAmbient, .recordContextMessage goOn, r, trivial, hexec⟩, ?_, h.kept (exec_kept hexec)⟩
  unfold recordContextMessage at hx
  simp only [bind_ok, lift_ok, appendEvent_ok, pure_ok] at hx
  obtain ⟨_, s, ⟨-, rfl⟩, _, _, ⟨-, -, h1⟩, c, s1, h2, _, s2, h3, h4⟩ := hx
  cases h1; cases h4
  have hoff : s' = s1 := by
    unfold maybeAutoCheckpoint at h3
    rw [if_pos (by decide)] at h3
    cases pure_ok.1 h3
    rfl
  unfold appendMessage at h2
  obtain ⟨c0, c1, -, -, hsave⟩ := updateContext_ok.1 h2
  have hput : s1 = _ := (saveContext_ok.1 hsave).2
  rw [hoff, hput]
  have hkey : strip goOn.runId = "trip" := trimmed_trip
  rw [← hkey]
  exact (Grown.refl.newEvent stillAmbient _).putContext _

/-- **Runs get as long as one likes**: the window of a run has no bound of its own. -/
theorem long_run (n : ℕ) : ∃ s, Relation.ReflTransGen (FacadeStep {} fun _ _ => True) {} s ∧ s.Opened "trip" ∧
    n ≤ s.window "trip" := by
  induction n with
  | zero =>
    obtain ⟨s, hs⟩ : ∃ s, execAll [.startRun tripRun] {} = .ok s := except_ok_of_toBool (by decide +kernel)
    have hreach : Relation.ReflTransGen (FacadeStep {} fun _ _ => True) {} s := execAll_reach (fun _ _ _ => trivial) hs
    have hcontext : ((execAll [.startRun tripRun] {}).toOption.any fun s =>
        (s.agentContexts.get (strip "trip")).isSome) = true := by decide +kernel
    rw [hs] at hcontext
    exact ⟨s, hreach, ⟨sound_of_reach hreach, by decide +kernel, hcontext⟩, Nat.zero_le _⟩
  | succ n ih =>
    obtain ⟨s, hreach, hopen, hn⟩ := ih
    obtain ⟨s', hstep, hgrown, hopen'⟩ := message_step hopen
    refine ⟨s', hreach.tail hstep, hopen', ?_⟩
    rw [hgrown.window (sequenced_reachable hreach).numbered, if_pos rfl]
    omega

/-- A run of more than a thousand events, never checkpointed: its bundle leaves out the last ones. -/
theorem long_run_truncated : ∃ s, Relation.ReflTransGen (FacadeStep {} fun _ _ => True) {} s ∧
    ∃ b, s.getRecoveryBundle "trip" = .ok b ∧ ¬ b.Complete s "trip" := by
  obtain ⟨s, hreach, hopen, hlong⟩ := long_run 1001
  obtain ⟨b, hb, hiff⟩ := complete_iff (sound_of_reach hreach) (sequenced_reachable hreach) hopen.notBlank
  refine ⟨s, hreach, b, hb, fun hc => ?_⟩
  have hle := hiff.1 hc
  rw [show strip "trip" = "trip" from trimmed_trip] at hle
  unfold Store.eventLimit at hle
  omega

/-- A run with a checkpoint, and a message after it. -/
def checkpointedTrip : List FacadeOp :=
  [.startRun tripRun, .checkpoint "trip" "manual" true, .recordContextMessage goOn]

/-- Whether the bundle of the trip has a checkpoint, how many events it has, and the window of the trip. -/
def tripBundle (os : List FacadeOp) : Option (Bool × ℕ × ℕ) :=
  match execAll os {} with
  | .error _ => none
  | .ok s => match s.getRecoveryBundle "trip", s.replayWindow "trip" with
    | .ok b, .ok window => some (b.checkpoint.isSome, b.eventsAfterCheckpoint.length, window)
    | _, _ => none

/-- The bundle of the run is complete: it has the checkpoint and the two events after it. -/
theorem started_run_complete : ∃ s b, execAll checkpointedTrip {} = .ok s ∧ s.getRecoveryBundle "trip" = .ok b ∧
    b.checkpoint.isSome ∧ b.eventsAfterCheckpoint.length = 2 ∧ b.Complete s "trip" := by
  obtain ⟨s, hs⟩ : ∃ s, execAll checkpointedTrip {} = .ok s := except_ok_of_toBool (by decide +kernel)
  have hrun : tripBundle checkpointedTrip = some (true, 2, 2) := by decide +kernel
  obtain ⟨b, hb, hiff⟩ := bundle_complete {} s (execAll_reach (fun _ _ _ => trivial) hs) "trip" (by decide +kernel)
  unfold tripBundle at hrun
  rw [hs] at hrun
  dsimp only at hrun
  rw [hb] at hrun
  cases hw : s.replayWindow "trip" with
  | error e =>
    rw [hw] at hrun
    nomatch hrun
  | ok window =>
    rw [hw] at hrun
    simp only [Option.some.injEq, Prod.mk.injEq] at hrun
    obtain ⟨hcp, hlen, htwo⟩ := hrun
    exact ⟨s, b, hs, hb, hcp, hlen, hiff.2 ⟨window, hw, by omega⟩⟩

end Raef
