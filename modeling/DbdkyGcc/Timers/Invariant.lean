import DbdkyGcc.Timers.Queue

/-!
# The two sets name the same timers

The invariant of the queue has three parts. `Sets` ties `timers_` and `activeTimers_` to the
timers that are live; `Owned` says that a live timer is held by one of `queued`, `timers_` and
the batch of `handleRead`, and by one only; `Numbered` is about sequence numbers, which are
never handed out again. Each function of the queue keeps them, and none of its assertions
fails.
-/

namespace DbdkyGcc.Timers

open Foundations

/-- The two sets name the same live timers, but for the entries `leaving`, which have already
left the first one. -/
structure Sets (heap : Nat → Option Timer) (timers : OrderedSet Entry)
    (activeTimers : OrderedSet ActiveTimer) (leaving : List Entry) : Prop where
  sizes : timers.size + leaving.length = activeTimers.size
  live : ∀ e, e ∈ timers ∨ e ∈ leaving →
    ∃ t, heap e.timer = some t ∧ t.expiration = e.expiration
  active : ∀ a, a ∈ activeTimers ↔ ∃ t, heap a.timer = some t ∧ t.sequence = a.sequence ∧
    (⟨t.expiration, a.timer⟩ ∈ timers ∨ ⟨t.expiration, a.timer⟩ ∈ leaving)

/-- Each live timer has one owner; `held` are the timers of a batch. -/
structure Owned (heap : Nat → Option Timer) (timers : OrderedSet Entry) (queued : Finset Nat)
    (held : List Nat) : Prop where
  held_nodup : held.Nodup
  queued_live : ∀ a ∈ queued, ∃ t, heap a = some t
  held_live : ∀ a ∈ held, ∃ t, heap a = some t
  queued_timers : ∀ a ∈ queued, ∀ e ∈ timers, e.timer ≠ a
  held_timers : ∀ a ∈ held, ∀ e ∈ timers, e.timer ≠ a
  queued_held : ∀ a ∈ queued, a ∉ held
  owner : ∀ a t, heap a = some t → a ∈ queued ∨ a ∈ held ∨ ∃ e ∈ timers, e.timer = a

/-- Sequence numbers name timers for good. -/
structure Numbered (heap : Nat → Option Timer) (numCreated : Nat) (deleted : List Nat) : Prop where
  address_lt : ∀ a t, heap a = some t → a < UINTPTR_MAX
  sequence_le : ∀ a t, heap a = some t → t.sequence ≤ numCreated
  sequence_inj : ∀ a b t u, heap a = some t → heap b = some u → t.sequence = u.sequence → a = b
  deleted_le : ∀ n ∈ deleted, n ≤ numCreated
  deleted_nodup : deleted.Nodup
  live_not_deleted : ∀ a t, heap a = some t → t.sequence ∉ deleted

/-- The invariant, with the timers held by the running `handleRead`. -/
structure Inv (q : TimerQueue) (held : List Nat) : Prop where
  sets : Sets q.heap q.timers q.activeTimers []
  owned : Owned q.heap q.timers q.queued held
  numbered : Numbered q.heap q.numCreated q.deleted

variable {q : TimerQueue} {heap : Nat → Option Timer} {timers : OrderedSet Entry}
  {activeTimers : OrderedSet ActiveTimer} {queued : Finset Nat} {held : List Nat}
  {leaving : List Entry} {numCreated : Nat} {deleted : List Nat} {timer : Nat} {t : Timer}

theorem load_eq (h : q.heap timer = some t) : q.load timer = .ok t := by
  rw [TimerQueue.load, h]
  rfl

theorem delete_eq (h : q.heap timer = some t) :
    q.delete timer = .ok { q with
      heap := Function.update q.heap timer none
      deleted := t.sequence :: q.deleted } := by
  rw [TimerQueue.delete, h]
  rfl

/-- No entry of the two sets points to an address that neither holds. -/
theorem Sets.not_active (h : Sets heap timers activeTimers [])
    (hfree : ∀ e ∈ timers, e.timer ≠ timer) (n : Nat) : ⟨timer, n⟩ ∉ activeTimers := by
  rw [h.active]
  rintro ⟨t, -, -, hmem | hmem⟩
  · exact hfree _ hmem rfl
  · exact List.not_mem_nil hmem

/-- A change of the heap away from the sets. -/
theorem Sets.update (h : Sets heap timers activeTimers [])
    (hfree : ∀ e ∈ timers, e.timer ≠ timer) (o : Option Timer) :
    Sets (Function.update heap timer o) timers activeTimers [] := by
  refine ⟨h.sizes, fun e he => ?_, fun a => ?_⟩
  · have hne : e.timer ≠ timer := hfree e (he.resolve_right List.not_mem_nil)
    rw [Function.update_of_ne hne]
    exact h.live e he
  · by_cases ha : a.timer = timer
    · refine iff_of_false (fun hact => ?_) ?_
      · exact h.not_active hfree a.sequence (ha ▸ hact)
      · rintro ⟨t, -, -, hmem | hmem⟩
        · exact hfree _ hmem ha
        · exact List.not_mem_nil hmem
    · rw [Function.update_of_ne ha]
      exact h.active a

theorem Sets.insert (h : Sets heap timers activeTimers []) (ht : heap timer = some t)
    (hfree : ∀ e ∈ timers, e.timer ≠ timer) :
    Sets heap (timers.insert ⟨t.expiration, timer⟩) (activeTimers.insert ⟨timer, t.sequence⟩) [] := by
  have hnot : (⟨t.expiration, timer⟩ : Entry) ∉ timers := fun hmem => hfree _ hmem rfl
  refine ⟨?_, fun e he => ?_, fun a => ?_⟩
  · have hsizes := h.sizes
    rw [OrderedSet.size_insert_of_not_mem hnot,
      OrderedSet.size_insert_of_not_mem (h.not_active hfree t.sequence), ← hsizes]
    rfl
  · rcases OrderedSet.mem_insert.mp (he.resolve_right List.not_mem_nil) with rfl | he
    · exact ⟨t, ht, rfl⟩
    · exact h.live e (.inl he)
  · rw [OrderedSet.mem_insert, h.active]
    constructor
    · rintro (rfl | ⟨u, hu, hseq, hmem | hmem⟩)
      · exact ⟨t, ht, rfl, .inl (OrderedSet.mem_insert.mpr (.inl rfl))⟩
      · exact ⟨u, hu, hseq, .inl (OrderedSet.mem_insert.mpr (.inr hmem))⟩
      · exact absurd hmem List.not_mem_nil
    · rintro ⟨u, hu, hseq, hmem | hmem⟩
      · rcases OrderedSet.mem_insert.mp hmem with heq | hmem
        · have ha : a.timer = timer := congrArg Entry.timer heq
          rw [ha, ht] at hu
          cases hu
          left
          rw [← ha, hseq]
        · exact .inr ⟨u, hu, hseq, .inl hmem⟩
      · exact absurd hmem List.not_mem_nil

/-- `insert` puts a timer that is in neither set into both. -/
theorem insert_eq (h : Sets q.heap q.timers q.activeTimers []) (ht : q.heap timer = some t)
    (hfree : ∀ e ∈ q.timers, e.timer ≠ timer) :
    q.insert timer = .ok (q.timers.first.all fun e => t.expiration < e.expiration, { q with
      timers := q.timers.insert ⟨t.expiration, timer⟩
      activeTimers := q.activeTimers.insert ⟨timer, t.sequence⟩ }) := by
  have hnot : (⟨t.expiration, timer⟩ : Entry) ∉ q.timers := fun hmem => hfree _ hmem rfl
  have hsizes : q.timers.size = q.activeTimers.size := h.sizes
  have hsizes' := (h.insert ht hfree).sizes
  rw [List.length_nil, Nat.add_zero] at hsizes'
  simp only [TimerQueue.insert, ensure_eq_ok hsizes, load_eq ht, ok_bind, ensure_eq_ok hnot,
    ensure_eq_ok (h.not_active hfree t.sequence), ensure_eq_ok hsizes']
  rfl

theorem Sets.erase (h : Sets heap timers activeTimers []) (ht : heap timer = some t)
    (hmem : ⟨t.expiration, timer⟩ ∈ timers) :
    Sets (Function.update heap timer none) (timers.erase ⟨t.expiration, timer⟩)
      (activeTimers.erase ⟨timer, t.sequence⟩) [] := by
  have hact : (⟨timer, t.sequence⟩ : ActiveTimer) ∈ activeTimers :=
    (h.active _).mpr ⟨t, ht, rfl, .inl hmem⟩
  -- the only entry of this address is the one that is erased
  have hother : ∀ e, e ∈ timers.erase ⟨t.expiration, timer⟩ → e.timer ≠ timer := by
    intro e he heq
    obtain ⟨hne, he⟩ := OrderedSet.mem_erase.mp he
    obtain ⟨u, hu, hexp⟩ := h.live e (.inl he)
    rw [heq, ht] at hu
    cases hu
    apply hne
    rw [hexp, ← heq]
  refine ⟨?_, fun e he => ?_, fun a => ?_⟩
  · have h₁ := OrderedSet.size_erase_of_mem hmem
    have h₂ := OrderedSet.size_erase_of_mem hact
    have hsizes : timers.size = activeTimers.size := h.sizes
    rw [List.length_nil]
    omega
  · have he := he.resolve_right List.not_mem_nil
    rw [Function.update_of_ne (hother e he)]
    exact h.live e (.inl (OrderedSet.mem_erase.mp he).2)
  · rw [OrderedSet.mem_erase, h.active]
    constructor
    · rintro ⟨hne, u, hu, hseq, hmem' | hmem'⟩
      · have ha : a.timer ≠ timer := by
          intro ha
          apply hne
          rw [ha, ht] at hu
          cases hu
          rw [← ha, hseq]
        refine ⟨u, by rwa [Function.update_of_ne ha], hseq, .inl ?_⟩
        exact OrderedSet.mem_erase.mpr ⟨fun heq => ha (congrArg Entry.timer heq), hmem'⟩
      · exact absurd hmem' List.not_mem_nil
    · rintro ⟨u, hu, hseq, hmem' | hmem'⟩
      · have ha : a.timer ≠ timer := hother _ hmem'
        rw [Function.update_of_ne ha] at hu
        refine ⟨fun heq => ha (congrArg ActiveTimer.timer heq), u, hu, hseq, .inl ?_⟩
        exact (OrderedSet.mem_erase.mp hmem').2
      · exact absurd hmem' List.not_mem_nil

/-- A timer is in both sets or in neither, so a cancelled one is erased from both. -/
theorem cancelInLoop_active (h : Sets q.heap q.timers q.activeTimers []) {timerId : ActiveTimer}
    (hid : timerId ∈ q.activeTimers) :
    ∃ t, q.heap timerId.timer = some t ∧ t.sequence = timerId.sequence ∧
      ⟨t.expiration, timerId.timer⟩ ∈ q.timers ∧
      q.cancelInLoop timerId = .ok { q with
        heap := Function.update q.heap timerId.timer none
        deleted := t.sequence :: q.deleted
        timers := q.timers.erase ⟨t.expiration, timerId.timer⟩
        activeTimers := q.activeTimers.erase ⟨timerId.timer, t.sequence⟩ } := by
  obtain ⟨t, ht, hseq, hmem⟩ := (h.active timerId).mp hid
  have hmem := hmem.resolve_right List.not_mem_nil
  have hsizes : q.timers.size = q.activeTimers.size := h.sizes
  have hsizes' := (h.erase ht hmem).sizes
  have hid' : (⟨timerId.timer, t.sequence⟩ : ActiveTimer) = timerId := by rw [hseq]
  rw [List.length_nil, Nat.add_zero] at hsizes'
  refine ⟨t, ht, hseq, hmem, ?_⟩
  rw [hid'] at hsizes' ⊢
  simp only [TimerQueue.cancelInLoop, ensure_eq_ok hsizes, if_pos hid, load_eq ht, ok_bind,
    ensure_eq_ok hmem, TimerQueue.delete, ht, require, pure, Except.pure, ensure_eq_ok hsizes']

theorem cancelInLoop_inactive (h : Sets q.heap q.timers q.activeTimers []) {timerId : ActiveTimer}
    (hid : timerId ∉ q.activeTimers) :
    q.cancelInLoop timerId = .ok { q with
      cancelingTimers :=
        if q.callingExpiredTimers then q.cancelingTimers.insert timerId
        else q.cancelingTimers } := by
  have hsizes : q.timers.size = q.activeTimers.size := h.sizes
  simp only [TimerQueue.cancelInLoop, ensure_eq_ok hsizes, if_neg hid, ok_bind, pure, Except.pure]

/-- One turn of `getExpired`. -/
theorem eraseActive_eq {e : Entry} (h : Sets q.heap q.timers q.activeTimers (e :: leaving))
    (he : e ∉ q.timers) (hrest : e ∉ leaving) :
    ∃ t, q.heap e.timer = some t ∧
      q.eraseActive e = .ok { q with
        activeTimers := q.activeTimers.erase ⟨e.timer, t.sequence⟩ } ∧
      Sets q.heap q.timers (q.activeTimers.erase ⟨e.timer, t.sequence⟩) leaving := by
  obtain ⟨t, ht, hexp⟩ := h.live e (.inr List.mem_cons_self)
  have hself : (⟨t.expiration, e.timer⟩ : Entry) = e := by rw [hexp]
  have hact : (⟨e.timer, t.sequence⟩ : ActiveTimer) ∈ q.activeTimers := by
    refine (h.active _).mpr ⟨t, ht, rfl, .inr ?_⟩
    rw [hself]
    exact List.mem_cons_self
  refine ⟨t, ht, ?_, ?_, fun e' he' => ?_, fun a => ?_⟩
  · simp only [TimerQueue.eraseActive, load_eq ht, ok_bind, ensure_eq_ok hact, pure, Except.pure]
  · have hsize := OrderedSet.size_erase_of_mem hact
    have hsizes := h.sizes
    rw [List.length_cons] at hsizes
    omega
  · exact h.live e' (he'.imp_right (List.mem_cons_of_mem _))
  · rw [OrderedSet.mem_erase, h.active]
    constructor
    · rintro ⟨hne, u, hu, hseq, hmem⟩
      refine ⟨u, hu, hseq, hmem.imp_right fun hmem => ?_⟩
      rcases List.mem_cons.mp hmem with heq | hmem
      · have ha : a.timer = e.timer := congrArg Entry.timer heq
        rw [ha, ht] at hu
        cases hu
        exact absurd (by rw [← ha, hseq]) hne
      · exact hmem
    · rintro ⟨u, hu, hseq, hmem⟩
      refine ⟨?_, u, hu, hseq, hmem.imp_right (List.mem_cons_of_mem _)⟩
      rintro rfl
      rw [ht] at hu
      cases hu
      rw [hself] at hmem
      exact hmem.elim he hrest

/-- The loop of `getExpired` makes up for the entries that have left `timers_`. -/
theorem eraseActive_foldlM (h : Sets q.heap q.timers q.activeTimers leaving)
    (hnodup : leaving.Nodup) (hleft : ∀ e ∈ leaving, e ∉ q.timers) :
    ∃ activeTimers, leaving.foldlM TimerQueue.eraseActive q = .ok { q with activeTimers } ∧
      Sets q.heap q.timers activeTimers [] := by
  induction leaving generalizing q with
  | nil => exact ⟨q.activeTimers, rfl, h⟩
  | cons e leaving ih =>
    obtain ⟨he, hnodup⟩ := List.nodup_cons.mp hnodup
    obtain ⟨t, -, hturn, hsets⟩ := eraseActive_eq h (hleft e List.mem_cons_self) he
    obtain ⟨activeTimers, hloop, hsets⟩ :=
      ih (q := { q with activeTimers := q.activeTimers.erase ⟨e.timer, t.sequence⟩ }) hsets hnodup
        fun e' he' => hleft e' (List.mem_cons_of_mem _ he')
    refine ⟨activeTimers, ?_, hsets⟩
    rw [List.foldlM_cons, hturn]
    exact hloop

/-- Entries that are not before the sentry are not expired. -/
theorem lt_expiration {e : Entry} {now : Int} (ha : e.timer < UINTPTR_MAX)
    (h : ¬e < ⟨now, UINTPTR_MAX⟩) : now < e.expiration := by
  by_contra hle
  apply h
  rw [Entry.lt_iff]
  rcases lt_or_eq_of_le (not_lt.mp hle) with hlt | heq
  · exact .inl hlt
  · exact .inr ⟨heq, ha⟩

/-- `getExpired` takes the expired timers out of both sets. -/
theorem getExpired_eq (h : Sets q.heap q.timers q.activeTimers [])
    (haddr : ∀ a t, q.heap a = some t → a < UINTPTR_MAX) (now : Int) :
    (∀ e ∈ q.timers.dropBelow ⟨now, UINTPTR_MAX⟩, now < e.expiration) ∧
    ∃ activeTimers, q.getExpired now = .ok (q.timers.below ⟨now, UINTPTR_MAX⟩, { q with
        timers := q.timers.dropBelow ⟨now, UINTPTR_MAX⟩
        activeTimers }) ∧
      Sets q.heap (q.timers.dropBelow ⟨now, UINTPTR_MAX⟩) activeTimers [] := by
  set sentry : Entry := ⟨now, UINTPTR_MAX⟩ with hsentry
  have hlater : ∀ e ∈ q.timers.dropBelow sentry, now < e.expiration := by
    intro e he
    obtain ⟨he, hnot⟩ := OrderedSet.mem_dropBelow.mp he
    obtain ⟨t, ht, -⟩ := h.live e (.inl he)
    exact lt_expiration (haddr _ _ ht) hnot
  have hsplit : ∀ e, e ∈ q.timers ↔ e ∈ q.timers.dropBelow sentry ∨ e ∈ q.timers.below sentry := by
    intro e
    rw [OrderedSet.mem_dropBelow, OrderedSet.mem_below]
    tauto
  have hleaving : Sets q.heap (q.timers.dropBelow sentry) q.activeTimers (q.timers.below sentry) := by
    refine ⟨?_, fun e he => h.live e (.inl ((hsplit e).mpr he)), fun a => ?_⟩
    · rw [Nat.add_comm, OrderedSet.length_below_add_size]
      exact h.sizes
    · simp only [h.active, hsplit, List.not_mem_nil, or_false]
  have hfirst : (q.timers.dropBelow sentry).first.all (fun e => now < e.expiration) = true := by
    cases hf : (q.timers.dropBelow sentry).first with
    | none => rfl
    | some e => simpa using hlater e (OrderedSet.mem_of_first hf)
  have hsizes : q.timers.size = q.activeTimers.size := h.sizes
  obtain ⟨activeTimers, hloop, hsets⟩ := eraseActive_foldlM
    (q := { q with timers := q.timers.dropBelow sentry }) hleaving
    (OrderedSet.nodup_below sentry q.timers) fun e he hmem =>
      (OrderedSet.mem_dropBelow.mp hmem).2 (OrderedSet.mem_below.mp he).2
  have hsizes' : (q.timers.dropBelow sentry).size = activeTimers.size := hsets.sizes
  refine ⟨hlater, activeTimers, ?_, hsets⟩
  simp only [TimerQueue.getExpired, ensure_eq_ok hsizes, ok_bind, ← hsentry, ensure_eq_ok hfirst,
    hloop, ensure_eq_ok hsizes', pure, Except.pure]

end DbdkyGcc.Timers
