import DbdkyGcc.Timers.Ownership

/-!
# Every run of the timer queue is consistent

Under the invariant each function of the queue has a plain description, and `Next` collects
what the steps do. The invariant holds along every run, whatever the callbacks add and cancel
in between.
-/

namespace DbdkyGcc.Timers

open Foundations

variable {q : TimerQueue} {held : List Nat} {timer : Nat} {t : Timer}

section Operations

/-- A timer in the hands of the loop thread is in neither set. -/
theorem Inv.free (h : Inv q (timer :: held)) : ∀ e ∈ q.timers, e.timer ≠ timer :=
  h.owned.held_timers timer List.mem_cons_self

theorem Inv.create (h : Inv q held) (hdead : q.heap timer = none) (haddr : timer < UINTPTR_MAX)
    (when : Int) (interval : Interval) :
    Inv { q with
      heap := Function.update q.heap timer (some ⟨when, interval, q.numCreated + 1⟩)
      numCreated := q.numCreated + 1
      queued := insert timer q.queued } held := by
  have hfree : ∀ e ∈ q.timers, e.timer ≠ timer := by
    intro e he heq
    obtain ⟨t, ht, -⟩ := h.sets.live e (.inl he)
    rw [heq, hdead] at ht
    cases ht
  exact ⟨h.sets.update hfree _, h.owned.create hdead hfree _, h.numbered.create haddr when interval⟩

/-- The queue with a timer put into its two sets. -/
def TimerQueue.inserted (q : TimerQueue) (timer : Nat) (t : Timer) : TimerQueue :=
  { q with
    timers := q.timers.insert ⟨t.expiration, timer⟩
    activeTimers := q.activeTimers.insert ⟨timer, t.sequence⟩ }

theorem Inv.inserted (h : Inv q (timer :: held)) (ht : q.heap timer = some t) :
    Inv (q.inserted timer t) held :=
  ⟨h.sets.insert ht h.free, h.owned.insert t.expiration, h.numbered⟩

theorem Inv.insert_eq (h : Inv q (timer :: held)) (ht : q.heap timer = some t) :
    q.insert timer =
      .ok (q.timers.first.all fun e => t.expiration < e.expiration, q.inserted timer t) :=
  Timers.insert_eq h.sets ht h.free

theorem Inv.addTimerInLoop_eq (h : Inv q (timer :: held)) (ht : q.heap timer = some t) :
    q.addTimerInLoop timer = .ok { q.inserted timer t with
      timerfd :=
        if q.timers.first.all fun e => t.expiration < e.expiration
        then (q.resetTimerfd t.expiration).timerfd else q.timerfd } := by
  have hload : (q.inserted timer t).load timer = .ok t := load_eq ht
  simp only [TimerQueue.addTimerInLoop, h.insert_eq ht, ok_bind, hload]
  cases q.timers.first.all fun e => t.expiration < e.expiration with
  | true => rfl
  | false => rfl

theorem Inv.dequeue (h : Inv q held) (hmem : timer ∈ q.queued) :
    Inv { q with queued := q.queued.erase timer } (timer :: held) :=
  ⟨h.sets, h.owned.dequeue hmem, h.numbered⟩

/-- The queue without a timer of its two sets. -/
def TimerQueue.erased (q : TimerQueue) (timer : Nat) (t : Timer) : TimerQueue :=
  { q with
    heap := Function.update q.heap timer none
    deleted := t.sequence :: q.deleted
    timers := q.timers.erase ⟨t.expiration, timer⟩
    activeTimers := q.activeTimers.erase ⟨timer, t.sequence⟩ }

theorem Inv.erased (h : Inv q held) (ht : q.heap timer = some t)
    (hmem : ⟨t.expiration, timer⟩ ∈ q.timers) : Inv (q.erased timer t) held := by
  have htake : Owned q.heap (q.timers.erase ⟨t.expiration, timer⟩) q.queued (timer :: held) := by
    refine h.owned.take [⟨t.expiration, timer⟩] _ (fun e he => ?_) (fun e => ?_)
      (fun e he => h.sets.live e (.inl he)) (List.nodup_singleton _)
    · rw [List.mem_singleton.mp he]
      exact hmem
    · rw [OrderedSet.mem_erase, List.mem_singleton, and_comm]
  exact ⟨h.sets.erase ht hmem, htake.delete, h.numbered.delete ht⟩

/-- `cancelInLoop` deletes a timer of the two sets, and otherwise at most takes a note. -/
theorem Inv.cancelInLoop_eq (h : Inv q held) (timerId : ActiveTimer) :
    (∃ t, q.heap timerId.timer = some t ∧ t.sequence = timerId.sequence ∧
        ⟨t.expiration, timerId.timer⟩ ∈ q.timers ∧
        q.cancelInLoop timerId = .ok (q.erased timerId.timer t)) ∨
      timerId ∉ q.activeTimers ∧
        q.cancelInLoop timerId = .ok { q with
          cancelingTimers :=
            if q.callingExpiredTimers then q.cancelingTimers.insert timerId
            else q.cancelingTimers } := by
  by_cases hid : timerId ∈ q.activeTimers
  · exact .inl (cancelInLoop_active h.sets hid)
  · exact .inr ⟨hid, cancelInLoop_inactive h.sets hid⟩

/-- `getExpired` hands the expired timers over to a batch. -/
theorem Inv.getExpired_eq (h : Inv q []) (now : Int) :
    ∃ activeTimers, q.getExpired now = .ok (q.timers.below ⟨now, UINTPTR_MAX⟩, { q with
        timers := q.timers.dropBelow ⟨now, UINTPTR_MAX⟩
        activeTimers }) ∧
      Inv { q with timers := q.timers.dropBelow ⟨now, UINTPTR_MAX⟩, activeTimers }
        ((q.timers.below ⟨now, UINTPTR_MAX⟩).map Entry.timer) := by
  obtain ⟨-, activeTimers, heq, hsets⟩ :=
    Timers.getExpired_eq h.sets h.numbered.address_lt now
  have htake := h.owned.take (q.timers.below ⟨now, UINTPTR_MAX⟩)
    (q.timers.dropBelow ⟨now, UINTPTR_MAX⟩) (fun e he => (OrderedSet.mem_below.mp he).1)
    (fun e => ?_) (fun e he => h.sets.live e (.inl he)) (OrderedSet.nodup_below _ _)
  · rw [List.append_nil] at htake
    exact ⟨activeTimers, heq, hsets, htake, h.numbered⟩
  · rw [OrderedSet.mem_dropBelow, OrderedSet.mem_below]
    tauto

/-- The queue at the first callback of `handleRead`. -/
def TimerQueue.expiring (q : TimerQueue) (activeTimers : OrderedSet ActiveTimer) : TimerQueue :=
  { q.readTimerfd with
    timers := q.timers.dropBelow ⟨q.clock, UINTPTR_MAX⟩
    activeTimers
    callingExpiredTimers := true
    cancelingTimers := ∅
    batch := some ⟨q.clock, [], q.timers.below ⟨q.clock, UINTPTR_MAX⟩⟩ }

theorem Inv.handleRead_eq (h : Inv q []) :
    ∃ activeTimers, q.handleRead = .ok (q.expiring activeTimers) ∧
      Inv (q.expiring activeTimers) ((q.timers.below ⟨q.clock, UINTPTR_MAX⟩).map Entry.timer) := by
  have hread : Inv q.readTimerfd [] := ⟨h.sets, h.owned, h.numbered⟩
  obtain ⟨activeTimers, heq, hinv⟩ := hread.getExpired_eq q.clock
  refine ⟨activeTimers, ?_, hinv.sets, hinv.owned, hinv.numbered⟩
  simp only [TimerQueue.handleRead, heq, ok_bind]
  rfl

/-- The queue after the restart of a periodic timer. -/
def TimerQueue.restarted (q : TimerQueue) (timer : Nat) (t : Timer) (now : Int) : TimerQueue :=
  { q with heap := Function.update q.heap timer (some (t.restart now)) }.inserted timer
    (t.restart now)

/-- The queue after the deletion of a timer that is in neither set. -/
def TimerQueue.dropped (q : TimerQueue) (timer : Nat) (t : Timer) : TimerQueue :=
  { q with heap := Function.update q.heap timer none, deleted := t.sequence :: q.deleted }

/-- The expiration of a timer that is in no set is written. -/
theorem Inv.updated (h : Inv q (timer :: held)) (ht : q.heap timer = some t) (now : Int) :
    Inv { q with heap := Function.update q.heap timer (some (t.restart now)) } (timer :: held) :=
  ⟨h.sets.update h.free _, h.owned.update ht _, h.numbered.update ht rfl⟩

theorem Inv.restarted (h : Inv q (timer :: held)) (ht : q.heap timer = some t) (now : Int) :
    Inv (q.restarted timer t now) held :=
  (h.updated ht now).inserted (Function.update_self ..)

theorem Inv.dropped (h : Inv q (timer :: held)) (ht : q.heap timer = some t) :
    Inv (q.dropped timer t) held :=
  ⟨h.sets.update h.free _, h.owned.delete, h.numbered.delete ht⟩

/-- One turn of `reset`: a periodic timer that has not been cancelled goes back to the sets,
any other is deleted. -/
theorem Inv.resetOne_eq {e : Entry} (h : Inv q (e.timer :: held)) (ht : q.heap e.timer = some t)
    (now : Int) :
    TimerQueue.resetOne now q e =
      .ok (if t.repeats = true ∧ ⟨e.timer, t.sequence⟩ ∉ q.cancelingTimers
        then q.restarted e.timer t now else q.dropped e.timer t) := by
  have hinsert := (h.updated ht now).insert_eq (Function.update_self ..)
  simp only [TimerQueue.resetOne, load_eq ht, ok_bind]
  split
  · rw [hinsert]
    rfl
  · exact delete_eq ht

/-- The timerfd as `reset` leaves it. -/
def TimerQueue.rearmed (q : TimerQueue) : TimerQueue :=
  { q with
    timerfd := q.timers.first.elim q.timerfd fun e =>
      if 0 < e.expiration then (q.resetTimerfd e.expiration).timerfd else q.timerfd }

/-- The rule for `reset`: what each of its turns keeps holds in the end, before the timerfd is
set. -/
theorem Inv.reset_eq {R : TimerQueue → List Entry → Prop} (now : Int)
    (hrestarted : ∀ q e rest t, Inv q (e.timer :: rest.map Entry.timer) → q.heap e.timer = some t →
      R q (e :: rest) → t.repeats = true ∧ ⟨e.timer, t.sequence⟩ ∉ q.cancelingTimers →
      R (q.restarted e.timer t now) rest)
    (hdropped : ∀ q e rest t, Inv q (e.timer :: rest.map Entry.timer) → q.heap e.timer = some t →
      R q (e :: rest) → ¬(t.repeats = true ∧ ⟨e.timer, t.sequence⟩ ∉ q.cancelingTimers) →
      R (q.dropped e.timer t) rest)
    {expired : List Entry} (h : Inv q (expired.map Entry.timer)) (hq : R q expired) :
    ∃ q', q.reset expired now = .ok q'.rearmed ∧ Inv q' [] ∧ R q' [] := by
  have hturn : ∀ q e rest, Inv q ((e :: rest).map Entry.timer) ∧ R q (e :: rest) →
      ∃ q', TimerQueue.resetOne now q e = .ok q' ∧ Inv q' (rest.map Entry.timer) ∧ R q' rest := by
    rintro q e rest ⟨hinv, hq⟩
    obtain ⟨t, ht⟩ := hinv.owned.held_live e.timer List.mem_cons_self
    refine ⟨_, hinv.resetOne_eq ht now, ?_⟩
    split
    · next hc => exact ⟨hinv.restarted ht now, hrestarted q e rest t hinv ht hq hc⟩
    · next hc => exact ⟨hinv.dropped ht, hdropped q e rest t hinv ht hq hc⟩
  obtain ⟨q', hloop, hinv, hR'⟩ := foldlM_eq_ok
    (R := fun q rest => Inv q (rest.map Entry.timer) ∧ R q rest) hturn expired q ⟨h, hq⟩
  refine ⟨q', ?_, hinv, hR'⟩
  rw [TimerQueue.reset, hloop, ok_bind]
  cases hfirst : q'.timers.first with
  | none =>
    simp only [TimerQueue.rearmed, hfirst, Option.elim_none, ok_bind]
    rfl
  | some e =>
    obtain ⟨t, ht, hexp⟩ := hinv.sets.live e (.inl (OrderedSet.mem_of_first hfirst))
    simp only [TimerQueue.rearmed, hfirst, Option.elim_some, load_eq ht, Functor.map, Except.map,
      ok_bind, hexp]
    split
    · rfl
    · rfl

end Operations

section Runs

/-- The timers in the hands of the running `handleRead`. -/
def TimerQueue.batchTimers (q : TimerQueue) : List Nat :=
  q.batch.elim [] fun b => (b.ran ++ b.todo).map Entry.timer

/-- The invariant between two steps. -/
structure Good (q : TimerQueue) : Prop where
  inv : Inv q q.batchTimers
  calling : q.callingExpiredTimers = q.batch.isSome

theorem Started.good (h : Started q) : Good q := by
  obtain ⟨clock, -, rfl⟩ := h
  refine ⟨⟨⟨rfl, ?_, ?_⟩, ⟨List.nodup_nil, ?_, ?_, ?_, ?_, ?_, ?_⟩,
    ⟨?_, ?_, ?_, ?_, List.nodup_nil, ?_⟩⟩, rfl⟩
  all_goals simp [TimerQueue.initial, TimerQueue.batchTimers, OrderedSet.not_mem_empty]

/-- What the steps of the queue do to a state that meets the invariant. -/
inductive Next (q : TimerQueue) : Action → TimerQueue → Prop
  | tick {now : Int} : Next q (.tick now) { q with clock := now }
  | create {timer : Nat} {when : Int} {interval : Interval} (hdead : q.heap timer = none) :
    Next q (.create timer when interval) { q with
      heap := Function.update q.heap timer (some ⟨when, interval, q.numCreated + 1⟩)
      numCreated := q.numCreated + 1
      queued := insert timer q.queued }
  | add {timer : Nat} {t : Timer} (hmem : timer ∈ q.queued) (ht : q.heap timer = some t) :
    Next q (.addTimerInLoop timer) { q.inserted timer t with
      queued := q.queued.erase timer
      timerfd :=
        if q.timers.first.all fun e => t.expiration < e.expiration
        then (q.resetTimerfd t.expiration).timerfd else q.timerfd }
  | cancel {timerId : ActiveTimer} {t : Timer} (ht : q.heap timerId.timer = some t)
    (hseq : t.sequence = timerId.sequence) (hmem : ⟨t.expiration, timerId.timer⟩ ∈ q.timers) :
    Next q (.cancelInLoop timerId) (q.erased timerId.timer t)
  | note {timerId : ActiveTimer} (h : timerId ∉ q.activeTimers) :
    Next q (.cancelInLoop timerId) { q with
      cancelingTimers :=
        if q.callingExpiredTimers then q.cancelingTimers.insert timerId else q.cancelingTimers }
  | handleRead {activeTimers : OrderedSet ActiveTimer} (hb : q.batch = none) :
    Next q .handleRead (q.expiring activeTimers)
  | run {now : Int} {ran todo : List Entry} {e : Entry} {t : Timer}
    (hb : q.batch = some ⟨now, ran, e :: todo⟩) (ht : q.heap e.timer = some t) :
    Next q .run { q with
      started := ⟨e.timer, t.sequence⟩ :: q.started
      batch := some ⟨now, ran ++ [e], todo⟩ }
  | finish {now : Int} {ran : List Entry} {q' : TimerQueue} (hb : q.batch = some ⟨now, ran, []⟩)
    (hreset : { q with callingExpiredTimers := false }.reset ran now = .ok q') :
    Next q .finish { q' with batch := none }

theorem Good.run {now : Int} {ran todo : List Entry} {e : Entry} (h : Good q)
    (hb : q.batch = some ⟨now, ran, e :: todo⟩) :
    ∃ q', q.run ⟨now, ran, e :: todo⟩ e = .ok q' ∧ Next q .run q' ∧ Good q' := by
  have hinv := h.inv
  rw [TimerQueue.batchTimers, hb, Option.elim_some] at hinv
  obtain ⟨t, ht⟩ := hinv.owned.held_live e.timer (by simp)
  refine ⟨_, ?_, .run hb ht, ⟨?_, ?_⟩⟩
  · simp only [TimerQueue.run, load_eq ht, ok_bind]
    rfl
  · rw [TimerQueue.batchTimers, Option.elim_some, List.append_assoc]
    exact ⟨hinv.sets, hinv.owned, hinv.numbered⟩
  · rw [h.calling, hb]
    rfl

/-- The state in which `reset` begins. -/
theorem Good.beforeReset {now : Int} {ran : List Entry} (h : Good q)
    (hb : q.batch = some ⟨now, ran, []⟩) :
    Inv { q with callingExpiredTimers := false } (ran.map Entry.timer) := by
  have hinv := h.inv
  rw [TimerQueue.batchTimers, hb, Option.elim_some, List.append_nil] at hinv
  exact ⟨hinv.sets, hinv.owned, hinv.numbered⟩

theorem Good.finish {now : Int} {ran : List Entry} (h : Good q)
    (hb : q.batch = some ⟨now, ran, []⟩) :
    ∃ q', q.finish ⟨now, ran, []⟩ = .ok q' ∧ Next q .finish q' ∧ Good q' := by
  -- the flag is cleared before the loop of reset, which does not touch it
  obtain ⟨q', heq, hinv', hcalling⟩ := (h.beforeReset hb).reset_eq now
    (R := fun q _ => q.callingExpiredTimers = false)
    (fun _ _ _ _ _ _ hcalling _ => hcalling) (fun _ _ _ _ _ _ hcalling _ => hcalling) rfl
  refine ⟨{ q'.rearmed with batch := none }, ?_, .finish hb heq, ⟨?_, hcalling⟩⟩
  · rw [TimerQueue.finish, heq, ok_bind]
    rfl
  · exact ⟨hinv'.sets, hinv'.owned, hinv'.numbered⟩

/-- No step faults, and each keeps the invariant. -/
theorem Good.next {a : Action} {m : Except Fault TimerQueue} (h : Good q)
    (hstep : step q a = some m) : ∃ q', m = .ok q' ∧ Next q a q' ∧ Good q' := by
  cases a with
  | tick now =>
    cases hstep
    exact ⟨_, rfl, .tick, ⟨h.inv.sets, h.inv.owned, h.inv.numbered⟩, h.calling⟩
  | create timer when interval =>
    rw [step, Option.ite_none_right_eq_some] at hstep
    obtain ⟨⟨hdead, haddr⟩, hm⟩ := hstep
    cases hm
    exact ⟨_, rfl, .create hdead, h.inv.create hdead haddr when interval, h.calling⟩
  | addTimerInLoop timer =>
    rw [step, Option.ite_none_right_eq_some] at hstep
    obtain ⟨hmem, hm⟩ := hstep
    cases hm
    obtain ⟨t, ht⟩ := h.inv.owned.queued_live timer hmem
    have hinv := h.inv.dequeue hmem
    have hinv' := hinv.inserted ht
    refine ⟨_, hinv.addTimerInLoop_eq ht, .add hmem ht, ?_, h.calling⟩
    exact ⟨hinv'.sets, hinv'.owned, hinv'.numbered⟩
  | cancelInLoop timerId =>
    cases hstep
    rcases h.inv.cancelInLoop_eq timerId with ⟨t, ht, hseq, hmem, heq⟩ | ⟨hid, heq⟩
    · exact ⟨_, heq, .cancel ht hseq hmem, h.inv.erased ht hmem, h.calling⟩
    · refine ⟨_, heq, .note hid, ?_, h.calling⟩
      exact ⟨h.inv.sets, h.inv.owned, h.inv.numbered⟩
  | handleRead =>
    rw [step, Option.ite_none_right_eq_some] at hstep
    obtain ⟨hb, hm⟩ := hstep
    cases hm
    have hinv := h.inv
    rw [TimerQueue.batchTimers, hb, Option.elim_none] at hinv
    obtain ⟨activeTimers, heq, hinv'⟩ := hinv.handleRead_eq
    exact ⟨_, heq, .handleRead hb, hinv', rfl⟩
  | run =>
    obtain ⟨⟨now, ran, todo⟩, hb, hstep⟩ := Option.bind_eq_some_iff.mp hstep
    obtain ⟨e, he, hstep⟩ := Option.bind_eq_some_iff.mp hstep
    obtain ⟨todo, rfl⟩ := List.head?_eq_some_iff.mp he
    cases hstep
    exact h.run hb
  | finish =>
    obtain ⟨⟨now, ran, todo⟩, hb, hstep⟩ := Option.bind_eq_some_iff.mp hstep
    rw [Option.ite_none_right_eq_some] at hstep
    obtain ⟨rfl, hstep⟩ := hstep
    cases hstep
    exact h.finish hb

/-- What a reader of the queue can rely on between two steps. -/
structure Consistent (q : TimerQueue) : Prop where
  /-- a live timer is in both sets or in neither -/
  same : ∀ timer t, q.heap timer = some t →
    (⟨t.expiration, timer⟩ ∈ q.timers ↔ ⟨timer, t.sequence⟩ ∈ q.activeTimers)
  /-- the members of the two sets are live timers -/
  timers_live : ∀ e ∈ q.timers, ∃ t, q.heap e.timer = some t ∧ t.expiration = e.expiration
  active_live : ∀ a ∈ q.activeTimers, ∃ t, q.heap a.timer = some t ∧ t.sequence = a.sequence
  /-- the timers of a batch are live, and nobody else has them -/
  batch_live : ∀ timer ∈ q.batchTimers, (∃ t, q.heap timer = some t) ∧ timer ∉ q.queued ∧
    ∀ e ∈ q.timers, e.timer ≠ timer
  deleted_once : q.deleted.Nodup
  live_not_deleted : ∀ timer t, q.heap timer = some t → t.sequence ∉ q.deleted

theorem Good.consistent (h : Good q) : Consistent q := by
  refine ⟨fun timer t ht => ?_, fun e he => h.inv.sets.live e (.inl he), fun a ha => ?_,
    fun timer hmem => ⟨h.inv.owned.held_live timer hmem, fun hqueued => ?_,
      h.inv.owned.held_timers timer hmem⟩,
    h.inv.numbered.deleted_nodup, h.inv.numbered.live_not_deleted⟩
  · rw [h.inv.sets.active]
    constructor
    · exact fun hmem => ⟨t, ht, rfl, .inl hmem⟩
    · rintro ⟨u, hu, -, hmem⟩
      cases ht.symm.trans hu
      exact hmem.resolve_right List.not_mem_nil
  · obtain ⟨t, ht, hseq, -⟩ := (h.inv.sets.active a).mp ha
    exact ⟨t, ht, hseq⟩
  · exact h.inv.owned.queued_held timer hqueued hmem

/-- The invariant holds in every run, whichever steps are allowed. -/
theorem Run.good {allowed : TimerQueue → Action → Prop} {init : TimerQueue → Prop}
    (hinit : ∀ q, init q → Good q) {p : Except Fault TimerQueue} (h : Run step allowed init p) :
    ∃ q, p = .ok q ∧ Good q := by
  refine h.safe hinit fun q a m hq _ hstep => ?_
  obtain ⟨q', hm, -, hq'⟩ := hq.next hstep
  exact ⟨q', hm, hq'⟩

/-- Whatever is added, cancelled and fired, from the loop or from callbacks: no assertion of the
queue fails, no deleted timer is used or deleted again, and the two sets agree. -/
theorem timerQueue_consistent {p : Except Fault TimerQueue}
    (h : Run step (fun _ _ => True) Started p) : ∃ q, p = .ok q ∧ Consistent q := by
  obtain ⟨q, rfl, hq⟩ := Run.good (fun q hq => hq.good) h
  exact ⟨q, rfl, hq.consistent⟩

/-- A callback cancels the other timer of its batch, the address of a deleted timer is used
again, and a stale id of that address is cancelled. -/
def reuse : List Action :=
  [.create 16 2000 ⟨false, 0, by decide⟩, .addTimerInLoop 16,
    .create 32 2000 ⟨true, 700, by decide⟩, .addTimerInLoop 32, .tick 3000, .handleRead, .run,
    .cancelInLoop ⟨32, 2⟩, .run, .finish, .create 16 5000 ⟨true, 700, by decide⟩,
    .addTimerInLoop 16, .cancelInLoop ⟨16, 1⟩]

theorem timerQueue_consistent_after_reuse :
    ∃ q, exec (faulting step) (.ok (.initial 1000)) reuse = some (.ok q) ∧ Consistent q := by
  have hsome : (exec (faulting step) (.ok (.initial 1000)) reuse).isSome = true := by decide +kernel
  obtain ⟨p, hp⟩ := Option.isSome_iff_exists.mp hsome
  obtain ⟨q, rfl, hq⟩ :=
    timerQueue_consistent (Run.of_exec Started ⟨1000, by decide, rfl⟩ reuse hp)
  exact ⟨q, hp, hq⟩

end Runs

end DbdkyGcc.Timers
