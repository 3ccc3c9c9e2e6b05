import Raef.Lib.Paging
import Raef.Proofs.Bundle

/-!
# Pages of the log

The loop that calls `read_events` with the last number it has seen, until a page comes back
short, beside operations that commit between its pages.  The numbers of a run have gaps, since all
runs share them; they increase along the log, and that is all a pager needs.  A limit that SQLite does
not store as an integer is refused, whatever the log holds.

    an operation appends to the log of each run             (eventsOf_appended)
    a page that is answered is the pager's next turn         (readPage_ok)
    it is answered up to the greatest integer of SQLite      (readPage_turn)
    pages are the run's events in order, none lost           (paging_exact)
-/

namespace Raef

open Text Txn

/-! ## Statements -/

/-- One page of the loop. -/
def Store.readPage (s : Store) (runId : String) (limit : ℤ) (p : Pager WalEvent) :
    Except PyError (Pager WalEvent) := do
  let page ← s.readEvents runId (p.after.map Nat.cast) limit
  return p.take WalEvent.seqId limit.toNat page

/-- The loop, at most `n` pages of it, with nothing committed in between. -/
def Store.readPages (s : Store) (runId : String) (limit : ℤ) :
    ℕ → Pager WalEvent → Except PyError (Pager WalEvent)
  | 0, p => .ok p
  | n + 1, p => do
    if p.finished then return p
    else
      let p ← s.readPage runId limit p
      s.readPages runId limit n p

/-- An operation commits, or the loop takes a page. -/
inductive PagingStep (runId : String) (limit : ℤ) : Store × Pager WalEvent → Store × Pager WalEvent → Prop
  | commit {s s' : Store} {p : Pager WalEvent} (cfg : LoggingServiceConfig) (amb : Ambient) (o : FacadeOp)
      (r : o.Res) (hx : o.exec cfg amb s = .ok (r, s')) : PagingStep runId limit (s, p) (s', p)
  | page {s : Store} {p p' : Pager WalEvent} (hopen : p.finished = false)
      (hread : s.readPage runId limit p = .ok p') : PagingStep runId limit (s, p) (s, p')

/-- What was read are the first events of the run, in order; the next page is answered, a short one
completes them, and with nothing more committed it comes after finitely many pages. -/
structure PagedExactly (runId : String) (limit : ℤ) (s : Store) (p : Pager WalEvent) : Prop where
  ordered : p.seen.Pairwise fun e e' => e.seqId < e'.seqId
  first : p.seen <+: s.eventsOf (strip runId)
  answered : p.finished = false → ∃ p', s.readPage runId limit p = .ok p'
  complete : ∀ p', p.finished = false → s.readPage runId limit p = .ok p' → p'.finished = true →
    p'.seen = s.eventsOf (strip runId)
  finishes : p.finished = false → ∃ n ≤ (s.eventsOf (strip runId)).length + 1, ∃ p',
    s.readPages runId limit n p = .ok p' ∧ p'.finished = true ∧ p'.seen = s.eventsOf (strip runId)

/-- The numbers of the events are integers that SQLite stores, as those of its rows are. -/
def Store.NumbersStored (s : Store) : Prop := ∀ e ∈ s.walEvents, (e.seqId : ℤ) ≤ Store.maxInteger

/-! ## The log of one run -/

section
variable {runId k : String} {limit : ℤ} {s s' : Store} {p : Pager WalEvent}

theorem eventsOf_appended (h : s.walEvents <+: s'.walEvents) : s.eventsOf k <+: s'.eventsOf k := by
  obtain ⟨added, hadded⟩ := h
  unfold Store.eventsOf
  rw [← hadded, List.filter_append]
  exact List.prefix_append _ _

theorem eventsOf_ordered (hs : s.Sequenced) : (s.eventsOf k).Pairwise fun e e' => e.seqId < e'.seqId :=
  hs.ordered.filter _

/-- A page after the cursor is answered when SQLite stores the limit and the cursor. -/
theorem readEvents_iff (hr : blank runId = false) (hlimit : 1 ≤ limit) {page : List WalEvent} :
    s.readEvents runId (p.after.map Nat.cast) limit = .ok page ↔
      ((∀ n ∈ p.after, (n : ℤ) ≤ Store.maxInteger) ∧ limit ≤ Store.maxInteger) ∧
        page = (Pager.beyond WalEvent.seqId p.after (s.eventsOf (strip runId))).take limit.toNat := by
  have hcursor : (p.after.map (Nat.cast : ℕ → ℤ)).map Int.toNat = p.after := by
    cases p.after <;> simp
  have hrows : s.readWalEvents runId p.after limit.toNat =
      .ok ((Pager.beyond WalEvent.seqId p.after (s.eventsOf (strip runId))).take limit.toNat) := by
    unfold Store.readWalEvents
    rw [requireNonEmptyStr_run _ hr]
    refine congrArg (fun events : List WalEvent => (Except.ok (events.take limit.toNat) : Except PyError _)) ?_
    unfold Pager.beyond Store.eventsOf
    rw [List.filter_filter]
    exact List.filter_congr fun e _ => Bool.and_comm _ _
  unfold Store.readEvents Store.queryEvents
  rw [(raiseIf_ok (u := ())).2, (raiseIf_ok (u := ())).2 (by omega), hcursor, hrows]
  · show (do raiseIf _ _; raiseIf _ _; return _ : Except PyError (List WalEvent)) = .ok page ↔ _
    simp only [except_bind_ok, raiseIf_ok, except_pure_ok, exists_const, and_assoc, not_exists, not_and, not_lt]
  · rintro ⟨n, hn, hneg⟩
    obtain ⟨m, -, rfl⟩ := Option.mem_map.1 hn
    omega

/-- A page that is answered is the next turn of the pager over the events of the run. -/
theorem readPage_ok (hr : blank runId = false) (hlimit : 1 ≤ limit) (hopen : p.finished = false) {p' : Pager WalEvent}
    (h : s.readPage runId limit p = .ok p') : limit ≤ Store.maxInteger ∧
      p' = p.turn WalEvent.seqId limit.toNat (s.eventsOf (strip runId)) := by
  obtain ⟨page, hpage, hp'⟩ := except_bind_ok.1 h
  obtain ⟨⟨-, hmax⟩, rfl⟩ := (readEvents_iff hr hlimit).1 hpage
  refine ⟨hmax, (except_pure_ok.1 hp').trans ?_⟩
  unfold Pager.turn
  rw [if_neg (by simp [hopen])]

/-- The next page is answered, when SQLite stores the limit and the cursor. -/
theorem readPage_turn (hr : blank runId = false) (hlimit : 1 ≤ limit) (hmax : limit ≤ Store.maxInteger)
    (hopen : p.finished = false) (hafter : ∀ n ∈ p.after, (n : ℤ) ≤ Store.maxInteger) :
    s.readPage runId limit p = .ok (p.turn WalEvent.seqId limit.toNat (s.eventsOf (strip runId))) := by
  unfold Store.readPage Pager.turn
  rw [(readEvents_iff hr hlimit).2 ⟨⟨hafter, hmax⟩, rfl⟩, if_neg (by simp [hopen])]
  rfl

/-- The cursor is a number of the log. -/
theorem Store.NumbersStored.cursor (hs : s.NumbersStored) (hp : p.Along WalEvent.seqId (s.eventsOf k)) :
    ∀ n ∈ p.after, (n : ℤ) ≤ Store.maxInteger := by
  intro n hn
  rw [hp.cursor] at hn
  obtain ⟨e, he, rfl⟩ := Option.mem_map.1 hn
  exact hs e (List.mem_of_mem_filter (hp.before.subset (List.mem_of_getLast? he)))

/-- The loop with nothing committed in between. -/
theorem readPages_turns (hr : blank runId = false) (hlimit : 1 ≤ limit) (hmax : limit ≤ Store.maxInteger)
    (hs : s.Sequenced) (hstored : s.NumbersStored) (n : ℕ) (p : Pager WalEvent)
    (hp : p.Along WalEvent.seqId (s.eventsOf (strip runId))) : s.readPages runId limit n p =
      .ok ((Pager.turn WalEvent.seqId limit.toNat (s.eventsOf (strip runId)))^[n] p) := by
  induction n generalizing p with
  | zero => rfl
  | succ n ih =>
    rw [Function.iterate_succ_apply]
    unfold Store.readPages
    cases hfin : p.finished with
    | true =>
      have hstay : p.turn WalEvent.seqId limit.toNat (s.eventsOf (strip runId)) = p := if_pos hfin
      rw [hstay, ← ih p hp]
      cases n with
      | zero => rfl
      | succ m =>
        unfold Store.readPages
        rw [hfin]
        rfl
    | false =>
      rw [readPage_turn hr hlimit hmax hfin (hstored.cursor hp)]
      exact ih _ (hp.turn (eventsOf_ordered hs) _)

/-- A step keeps the log in sequence and the pager along the events of its run. -/
theorem PagingStep.along {c c' : Store × Pager WalEvent} (h : PagingStep runId limit c c')
    (hr : blank runId = false) (hlimit : 1 ≤ limit) (hs : c.1.Sequenced)
    (hp : c.2.Along WalEvent.seqId (c.1.eventsOf (strip runId))) :
    c'.1.Sequenced ∧ c'.2.Along WalEvent.seqId (c'.1.eventsOf (strip runId)) := by
  cases h with
  | commit cfg amb o r hx =>
    obtain ⟨hs', hgrow⟩ := exec_sequenced hx hs
    exact ⟨hs', hp.grow (eventsOf_appended hgrow)⟩
  | page hopen hread =>
    obtain ⟨-, rfl⟩ := readPage_ok hr hlimit hopen hread
    exact ⟨hs, hp.turn (eventsOf_ordered hs) _⟩

end

/-- **Paging loses and repeats nothing.**  From any store whose log is numbered in sequence, as
`AUTOINCREMENT` numbers it and every operation leaves it (`sequenced_reachable`), whatever commits
between the pages, for each limit that SQLite stores. -/
theorem paging_exact (runId : String) (limit : ℤ) (s s' : Store) (p : Pager WalEvent)
    (hr : blank runId = false) (hlimit : 1 ≤ limit) (hmax : limit ≤ Store.maxInteger) (hs : s.Sequenced)
    (hstored : s'.NumbersStored) (h : Relation.ReflTransGen (PagingStep runId limit) (s, {}) (s', p)) : PagedExactly runId limit s' p := by
  have hrun : s'.Sequenced ∧ p.Along WalEvent.seqId (s'.eventsOf (strip runId)) := by
    suffices hall : ∀ c, Relation.ReflTransGen (PagingStep runId limit) (s, {}) c →
        c.1.Sequenced ∧ c.2.Along WalEvent.seqId (c.1.eventsOf (strip runId)) from hall _ h
    intro c hc
    induction hc with
    | refl => exact ⟨hs, Pager.along_start _ _⟩
    | tail _ hstep ih => exact hstep.along hr hlimit ih.1 ih.2
  obtain ⟨hs', halong⟩ := hrun
  have hord := eventsOf_ordered (k := strip runId) hs'
  refine ⟨hord.sublist halong.before.sublist, halong.before, ?_, ?_, ?_⟩
  · intro hopen
    exact ⟨_, readPage_turn hr hlimit hmax hopen (hstored.cursor halong)⟩
  · intro p' hopen hread hend
    obtain ⟨-, rfl⟩ := readPage_ok hr hlimit hopen hread
    exact halong.complete hord hopen hend
  · intro hopen
    obtain ⟨n, hn, hfin, hseen⟩ := halong.finishes hord (by omega : 0 < limit.toNat) hopen
    exact ⟨n, hn, _, readPages_turns hr hlimit hmax hs' hstored n p halong, hfin, hseen⟩

/-- A run starts, and nothing has been read of it. -/
theorem paging_started {limit : ℤ} {s : Store} {r : RunProjections} (hx : startRun {} stillAmbient tripRun {} = .ok (r, s)) :
    Relation.ReflTransGen (PagingStep "trip" limit) ({}, {}) (s, {}) :=
  .single (.commit {} stillAmbient (.startRun tripRun) r hx)

/-- No page comes back for a limit of `2 ^ 63`. -/
theorem paging_overflows : ∃ s, Relation.ReflTransGen (PagingStep "trip" (2 ^ 63)) ({}, {}) (s, {}) ∧
    s.eventsOf "trip" ≠ [] ∧ (∀ p, s.readPage "trip" (2 ^ 63) {} ≠ .ok p) ∧ ¬ PagedExactly "trip" (2 ^ 63) s {} := by
  obtain ⟨r, s, hx⟩ : Succeeds (startRun {} stillAmbient tripRun) {} := succeeds_of_toBool (by decide +kernel)
  have hraises : ∀ p, s.readPage "trip" (2 ^ 63) {} ≠ .ok p := fun p hp =>
    absurd (readPage_ok (by decide +kernel) (by decide) rfl hp).1 (by decide)
  have hevents : (match startRun {} stillAmbient tripRun {} with
      | .ok (_, s) => decide (0 < (s.eventsOf "trip").length)
      | .error _ => false) = true := by decide +kernel
  rw [hx] at hevents
  refine ⟨s, paging_started hx, List.ne_nil_of_length_pos (of_decide_eq_true hevents), hraises, fun h => ?_⟩
  · obtain ⟨p, hp⟩ := h.answered rfl
    exact hraises p hp

/-- A run starts, and its first two events are read. -/
theorem paging_exact_trip : ∃ s p, Relation.ReflTransGen (PagingStep "trip" 2) ({}, {}) (s, p) ∧
    p.seen.length = 2 ∧ PagedExactly "trip" 2 s p := by
  have hr : blank "trip" = false := by decide +kernel
  have hempty : ({} : Store).Sequenced :=
    sequenced_reachable (Relation.ReflTransGen.refl : Relation.ReflTransGen (FacadeStep {} fun _ _ => True) {} {})
  obtain ⟨r, s, hx⟩ : Succeeds (startRun {} stillAmbient tripRun) {} := succeeds_of_toBool (by decide +kernel)
  have hpage : PagingStep "trip" 2 (s, {}) (s, Pager.turn WalEvent.seqId 2 (s.eventsOf (strip "trip")) {}) :=
    .page rfl (readPage_turn hr (by decide) (by decide) rfl fun n hn => by cases hn)
  have hsteps := (paging_started hx).tail hpage
  have hread : (match startRun {} stillAmbient tripRun {} with
      | .ok (_, s) => decide ((Pager.turn WalEvent.seqId 2 (s.eventsOf (strip "trip")) {}).seen.length = 2) &&
          s.walEvents.all fun e => decide ((e.seqId : ℤ) ≤ Store.maxInteger)
      | .error _ => false) = true := by decide +kernel
  rw [hx] at hread
  obtain ⟨hlen, hstored⟩ := Bool.and_eq_true_iff.1 hread
  refine ⟨s, _, hsteps, of_decide_eq_true hlen, paging_exact "trip" 2 {} s _ hr (by decide) (by decide) hempty
    (fun e he => ?_) hsteps⟩
  exact of_decide_eq_true (List.all_eq_true.1 hstored e he)

end Raef
