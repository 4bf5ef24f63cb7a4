import DbdkyGcc.Timers.Consistent

/-!
# Adding a timer from another thread

`addTimer` makes a timer, passes its insertion to the loop, and then reads its sequence number
for the `TimerId` that it returns. In a thread other than the loop's the timer is no longer its
own by then. The steps of any number of such calls are interleaved here with those of the loop,
which cancels only ids that a call has returned.
-/

namespace DbdkyGcc.Timers

open Foundations

/-- The queue and the calls of `addTimer` in other threads: `awaiting` are the timers that have
been passed to the loop and whose sequence number has not been read, `returned` the ids that
calls have returned. -/
structure Threads where
  queue : TimerQueue
  awaiting : List ActiveTimer
  returned : List ActiveTimer

inductive ThreadAction
  /-- a call makes its timer, at this address, and passes it to the loop -/
  | addTimer (timer : Nat) (when : Int) (interval : Interval)
  /-- the call for this timer goes on and returns -/
  | readSequence (id : ActiveTimer)
  /-- a step of the loop -/
  | loop (a : Action)

/-- The loop makes no timers on this side, and knows the ids that have been returned. -/
def LoopStep (returned : List ActiveTimer) : Action → Prop
  | .create _ _ _ => False
  | .cancelInLoop id => id ∈ returned
  | _ => True

instance (returned : List ActiveTimer) : ∀ a, Decidable (LoopStep returned a)
  | .create _ _ _ => .isFalse id
  | .cancelInLoop id => inferInstanceAs (Decidable (id ∈ returned))
  | .tick _ => .isTrue trivial
  | .addTimerInLoop _ => .isTrue trivial
  | .handleRead => .isTrue trivial
  | .run => .isTrue trivial
  | .finish => .isTrue trivial

def threadStep (s : Threads) : ThreadAction → Option (Except Fault Threads)
  | .addTimer timer when interval =>
    (step s.queue (.create timer when interval)).map <| Except.map fun q =>
      { s with queue := q, awaiting := ⟨timer, s.queue.numCreated + 1⟩ :: s.awaiting }
  | .readSequence id =>
    if id ∈ s.awaiting then some do
      let t ← s.queue.load id.timer
      return { s with
        awaiting := s.awaiting.erase id
        returned := ⟨id.timer, t.sequence⟩ :: s.returned }
    else none
  | .loop a =>
    if LoopStep s.returned a then (step s.queue a).map (Except.map fun q => { s with queue := q })
    else none

def ThreadsStarted (s : Threads) : Prop := Started s.queue ∧ s.awaiting = [] ∧ s.returned = []

/-- `reset` does not run while a one-shot timer of its batch has its `addTimer` still to return. -/
def ReadFirst (s : Threads) : ThreadAction → Prop
  | .loop .finish => ∀ id ∈ s.awaiting, id.timer ∈ s.queue.batchTimers →
      (s.queue.heap id.timer).all Timer.repeats = true
  | _ => True

instance (s : Threads) : ∀ a, Decidable (ReadFirst s a)
  | .loop .finish => inferInstanceAs (Decidable (∀ id ∈ s.awaiting, _ → _))
  | .loop (.tick _) => .isTrue trivial
  | .loop (.create _ _ _) => .isTrue trivial
  | .loop (.addTimerInLoop _) => .isTrue trivial
  | .loop (.cancelInLoop _) => .isTrue trivial
  | .loop .handleRead => .isTrue trivial
  | .loop .run => .isTrue trivial
  | .addTimer _ _ _ => .isTrue trivial
  | .readSequence _ => .isTrue trivial

/-- Every call that has not read its sequence number can still do so. -/
def Readable (s : Threads) : Prop := ∀ id ∈ s.awaiting, Names s.queue.heap id

variable {s s' : Threads} {q q' : TimerQueue} {awaiting returned : List ActiveTimer}

/-- What the calls in progress rely on: their timers are live, and nobody can have cancelled
them. -/
structure Safe (q : TimerQueue) (awaiting returned : List ActiveTimer) : Prop where
  names : ∀ id ∈ awaiting, Names q.heap id
  nodup : awaiting.Nodup
  unknown : ∀ id ∈ awaiting, id ∉ returned
  issued : ∀ id ∈ returned, id.sequence ≤ q.numCreated
  canceling : ∀ id ∈ q.cancelingTimers, id ∈ returned

theorem ThreadsStarted.safe (h : ThreadsStarted s) : Safe s.queue s.awaiting s.returned := by
  obtain ⟨⟨clock, -, hq⟩, hawaiting, hreturned⟩ := h
  rw [hq, hawaiting, hreturned]
  refine ⟨?_, List.nodup_nil, ?_, ?_, ?_⟩
  all_goals simp [TimerQueue.initial, OrderedSet.not_mem_empty]

theorem Safe.sequence_le (h : Safe q awaiting returned) (hq : Good q) {id : ActiveTimer}
    (hid : id ∈ awaiting) : id.sequence ≤ q.numCreated := by
  obtain ⟨t, ht, hseq⟩ := names_iff.mp (h.names id hid)
  exact hseq ▸ hq.inv.numbered.sequence_le id.timer t ht

/-- The number of a new timer is in nobody's hands. -/
theorem Safe.create {timer : Nat} {when : Int} {interval : Interval} (h : Safe q awaiting returned)
    (hdead : q.heap timer = none) :
    Safe { q with
      heap := Function.update q.heap timer (some ⟨when, interval, q.numCreated + 1⟩)
      numCreated := q.numCreated + 1
      queued := insert timer q.queued } (⟨timer, q.numCreated + 1⟩ :: awaiting) returned := by
  have hne : ∀ id ∈ awaiting, id.timer ≠ timer := by
    intro id hid heq
    obtain ⟨t, ht, -⟩ := names_iff.mp (h.names id hid)
    rw [heq, hdead] at ht
    cases ht
  refine ⟨fun id hid => ?_, List.nodup_cons.mpr ⟨fun hmem => hne _ hmem rfl, h.nodup⟩,
    fun id hid => ?_, fun id hid => (h.issued id hid).trans (Nat.le_succ _), h.canceling⟩
  · rcases List.mem_cons.mp hid with rfl | hid
    · exact (names_update_self _).mpr rfl
    · exact (names_update_of_ne (hne id hid) _).mpr (h.names id hid)
  · rcases List.mem_cons.mp hid with rfl | hid
    · exact fun hmem => (Nat.lt_succ_self _).not_ge (h.issued _ hmem)
    · exact h.unknown id hid

theorem Safe.readSequence {id : ActiveTimer} (h : Safe q awaiting returned) (hq : Good q)
    (hid : id ∈ awaiting) : Safe q (awaiting.erase id) (id :: returned) := by
  have hsplit : ∀ a ∈ awaiting.erase id, a ≠ id ∧ a ∈ awaiting :=
    fun a ha => h.nodup.mem_erase_iff.mp ha
  refine ⟨fun a ha => h.names a (hsplit a ha).2, h.nodup.erase id, fun a ha => ?_, fun a ha => ?_,
    fun a ha => List.mem_cons_of_mem _ (h.canceling a ha)⟩
  · exact List.not_mem_cons_of_ne_of_not_mem (hsplit a ha).1 (h.unknown a (hsplit a ha).2)
  · rcases List.mem_cons.mp ha with rfl | ha
    · exact h.sequence_le hq hid
    · exact h.issued a ha

/-- What the calls rely on while `reset` goes through its batch. -/
structure Kept (awaiting returned : List ActiveTimer) (u : TimerQueue) (rest : List Entry) : Prop where
  names : ∀ id ∈ awaiting, Names u.heap id
  canceling : ∀ id ∈ u.cancelingTimers, id ∈ returned
  periodic : ∀ id ∈ awaiting, id.timer ∈ rest.map Entry.timer →
    (u.heap id.timer).all Timer.repeats = true

theorem Kept.restarted {e : Entry} {rest : List Entry} {t : Timer} (now : Int)
    (h : Kept awaiting returned q (e :: rest)) (ht : q.heap e.timer = some t)
    (hrepeats : t.repeats = true) : Kept awaiting returned (q.restarted e.timer t now) rest := by
  refine ⟨fun id hid => ?_, h.canceling, fun id hid hmem => ?_⟩
  · by_cases he : id.timer = e.timer
    · have hseq := h.names id hid
      rw [Names, he, ht] at hseq
      change Names (Function.update q.heap e.timer _) id
      rw [← he, names_update_self]
      exact hseq
    · exact (names_update_of_ne he _).mpr (h.names id hid)
  · change (Function.update q.heap e.timer _ id.timer).all Timer.repeats = true
    by_cases he : id.timer = e.timer
    · rw [he, Function.update_self]
      exact hrepeats
    · rw [Function.update_of_ne he]
      exact h.periodic id hid (List.mem_cons_of_mem _ hmem)

/-- A timer that somebody awaits is not the one that is deleted. -/
theorem Kept.dropped {e : Entry} {rest : List Entry} {t : Timer}
    (h : Kept awaiting returned q (e :: rest)) (hunknown : ∀ id ∈ awaiting, id ∉ returned)
    (ht : q.heap e.timer = some t)
    (hc : ¬(t.repeats = true ∧ ⟨e.timer, t.sequence⟩ ∉ q.cancelingTimers)) :
    Kept awaiting returned (q.dropped e.timer t) rest := by
  have hne : ∀ id ∈ awaiting, id.timer ≠ e.timer := by
    intro id hid he
    have hrepeats := h.periodic id hid (by rw [he]; exact List.mem_cons_self)
    rw [he, ht, Option.all_some] at hrepeats
    obtain ⟨u, hu, hseq⟩ := names_iff.mp (h.names id hid)
    rw [he, ht] at hu
    cases hu
    refine hc ⟨hrepeats, fun hmem => hunknown id hid (h.canceling id ?_)⟩
    rwa [← he, hseq] at hmem
  refine ⟨fun id hid => ?_, h.canceling, fun id hid hmem => ?_⟩
  · exact (names_update_of_ne (hne id hid) _).mpr (h.names id hid)
  · change (Function.update q.heap e.timer none id.timer).all Timer.repeats = true
    rw [Function.update_of_ne (hne id hid)]
    exact h.periodic id hid (List.mem_cons_of_mem _ hmem)

/-- A step of the loop that reads first keeps what the calls rely on. -/
theorem Safe.loop {a : Action} (h : Safe q awaiting returned) (hq : Good q)
    (hloop : LoopStep returned a) (hread : ReadFirst ⟨q, awaiting, returned⟩ (.loop a))
    (hn : Next q a q') : Safe q' awaiting returned := by
  cases hn with
  | tick => exact ⟨h.names, h.nodup, h.unknown, h.issued, h.canceling⟩
  | create _ => cases hloop
  | add _ _ => exact ⟨h.names, h.nodup, h.unknown, h.issued, h.canceling⟩
  | @cancel timerId t ht hseq _ =>
    refine ⟨fun id hid => ?_, h.nodup, h.unknown, h.issued, h.canceling⟩
    -- the id that is cancelled has been returned, so it is not this one
    refine (names_update_of_ne (fun he => h.unknown id hid ?_) _).mpr (h.names id hid)
    obtain ⟨u, hu, hseq'⟩ := names_iff.mp (h.names id hid)
    rw [he, ht] at hu
    cases hu
    have heq : id = timerId := by
      cases id
      cases timerId
      cases he
      cases hseq'.symm.trans hseq
      rfl
    exact heq ▸ hloop
  | note _ =>
    refine ⟨h.names, h.nodup, h.unknown, h.issued, fun id hid => ?_⟩
    dsimp only at hid
    split at hid
    · rcases OrderedSet.mem_insert.mp hid with rfl | hid
      · exact hloop
      · exact h.canceling id hid
    · exact h.canceling id hid
  | handleRead _ =>
    refine ⟨h.names, h.nodup, h.unknown, h.issued, fun id hid => ?_⟩
    exact absurd hid (OrderedSet.not_mem_empty id)
  | run _ _ => exact ⟨h.names, h.nodup, h.unknown, h.issued, h.canceling⟩
  | @finish now ran q' hb hreset =>
    have hkept : Kept awaiting returned { q with callingExpiredTimers := false } ran := by
      refine ⟨h.names, h.canceling, fun id hid hmem => hread id hid ?_⟩
      rw [TimerQueue.batchTimers, hb, Option.elim_some, List.append_nil]
      exact hmem
    obtain ⟨u, hu, -, hend, hnum⟩ := (hq.beforeReset hb).reset_eq now
      (R := fun u rest => Kept awaiting returned u rest ∧ u.numCreated = q.numCreated)
      (fun u e rest t _ ht hR hc => ⟨hR.1.restarted now ht hc.1, hR.2⟩)
      (fun u e rest t _ ht hR hc => ⟨hR.1.dropped h.unknown ht hc, hR.2⟩) ⟨hkept, rfl⟩
    cases hreset.symm.trans hu
    exact ⟨hend.names, h.nodup, h.unknown, fun id hid => (h.issued id hid).trans hnum.ge,
      hend.canceling⟩

/-- The timer is deleted, or still to come in `reset`. -/
def Doomed (timer : Nat) (t : Timer) (u : TimerQueue) (rest : List Entry) : Prop :=
  u.heap timer = none ∨ timer ∈ rest.map Entry.timer ∧ u.heap timer = some t

theorem Doomed.of_ne {timer : Nat} {t : Timer} {e : Entry} {rest : List Entry}
    (h : Doomed timer t q (e :: rest)) (hne : timer ≠ e.timer) {o : Option Timer}
    (hheap : q'.heap = Function.update q.heap e.timer o) : Doomed timer t q' rest := by
  rw [Doomed, hheap, Function.update_of_ne hne]
  exact h.imp_right fun hmem => ⟨(List.mem_cons.mp hmem.1).resolve_left hne, hmem.2⟩

/-- A one-shot timer of the batch does not survive `reset`. -/
theorem Good.reset_deletes {now : Int} {ran : List Entry} {u : TimerQueue} {timer : Nat} {t : Timer}
    (h : Good q) (hb : q.batch = some ⟨now, ran, []⟩)
    (hreset : { q with callingExpiredTimers := false }.reset ran now = .ok u)
    (hran : timer ∈ ran.map Entry.timer) (ht : q.heap timer = some t) (hshot : ¬t.repeats = true) :
    u.heap timer = none := by
  have hrestarted : ∀ v e rest w, Inv v (e.timer :: rest.map Entry.timer) →
      v.heap e.timer = some w → Doomed timer t v (e :: rest) →
      w.repeats = true ∧ ⟨e.timer, w.sequence⟩ ∉ v.cancelingTimers →
      Doomed timer t (v.restarted e.timer w now) rest := by
    intro v e rest w _ hw hdoomed hc
    refine hdoomed.of_ne ?_ rfl
    rintro rfl
    rcases hdoomed with hnone | ⟨-, hsome⟩
    · cases hnone.symm.trans hw
    · cases hsome.symm.trans hw
      exact hshot hc.1
  have hdropped : ∀ v e rest w, Inv v (e.timer :: rest.map Entry.timer) →
      v.heap e.timer = some w → Doomed timer t v (e :: rest) →
      ¬(w.repeats = true ∧ ⟨e.timer, w.sequence⟩ ∉ v.cancelingTimers) →
      Doomed timer t (v.dropped e.timer w) rest := by
    intro v e rest w _ _ hdoomed _
    by_cases hne : timer = e.timer
    · rw [hne]
      exact .inl (Function.update_self ..)
    · exact hdoomed.of_ne hne rfl
  obtain ⟨v, hv, -, hend⟩ :=
    (h.beforeReset hb).reset_eq now hrestarted hdropped (.inr ⟨hran, ht⟩)
  cases hreset.symm.trans hv
  exact hend.resolve_right fun hmem => List.not_mem_nil hmem.1

/-- The steps of the loop and of the calls, in a state in which all calls can read. -/
theorem threadStep_eq {a : ThreadAction} {m : Except Fault Threads} (hq : Good s.queue)
    (hs : Safe s.queue s.awaiting s.returned) (hstep : threadStep s a = some m) :
    ∃ t, m = .ok t ∧ Good t.queue ∧
      (ReadFirst s a → Safe t.queue t.awaiting t.returned) ∧ (¬ReadFirst s a → ¬Readable t) := by
  cases a with
  | addTimer timer when interval =>
    obtain ⟨m, hm, hmap⟩ := Option.map_eq_some_iff.mp hstep
    obtain ⟨q', rfl, hnext, hq'⟩ := hq.next hm
    refine ⟨_, hmap.symm, hq', fun _ => ?_, fun hnot => absurd trivial hnot⟩
    cases hnext with
    | create hdead => exact hs.create hdead
  | readSequence id =>
    rw [threadStep, Option.ite_none_right_eq_some] at hstep
    obtain ⟨hid, hm⟩ := hstep
    obtain ⟨t, ht, hseq⟩ := names_iff.mp (hs.names id hid)
    rw [load_eq ht, ok_bind, hseq] at hm
    cases hm
    exact ⟨_, rfl, hq, fun _ => hs.readSequence hq hid, fun hnot => absurd trivial hnot⟩
  | loop a =>
    rw [threadStep, Option.ite_none_right_eq_some] at hstep
    obtain ⟨hloop, hstep⟩ := hstep
    obtain ⟨m, hm, hmap⟩ := Option.map_eq_some_iff.mp hstep
    obtain ⟨q', rfl, hnext, hq'⟩ := hq.next hm
    refine ⟨_, hmap.symm, hq', fun hread => hs.loop hq hloop hread hnext, fun hnot hreadable => ?_⟩
    cases hnext with
    | @finish now ran q' hb hreset =>
      refine hnot fun id hid hmem => ?_
      rw [TimerQueue.batchTimers, hb, Option.elim_some, List.append_nil] at hmem
      obtain ⟨t, ht, -⟩ := names_iff.mp (hs.names id hid)
      rw [ht, Option.all_some]
      by_contra hshot
      obtain ⟨u, hu, -⟩ := names_iff.mp (hreadable id hid)
      cases (hq.reset_deletes hb hreset hmem ht hshot).symm.trans hu
    | _ => exact hnot trivial

/-- As long as `reset` waits for the calls whose one-shot timers it deletes, every call can read
its sequence number; the first `reset` that does not wait leaves a call that cannot. -/
theorem addTimer_reads_live_timer {p : Except Fault Threads}
    (h : Run threadStep ReadFirst ThreadsStarted p) :
    ∃ s, p = .ok s ∧ Readable s ∧
      ∀ a m, threadStep s a = some m → (ReadFirst s a ↔ ∃ t, m = .ok t ∧ Readable t) := by
  obtain ⟨s, rfl, hq, hs⟩ := h.safe
    (I := fun s => Good s.queue ∧ Safe s.queue s.awaiting s.returned)
    (fun s hs => ⟨hs.1.good, hs.safe⟩) (fun s a m hs ha hstep => by
      obtain ⟨t, hm, hgood, hsafe, -⟩ := threadStep_eq hs.1 hs.2 hstep
      exact ⟨t, hm, hgood, hsafe ha⟩)
  refine ⟨s, rfl, hs.names, fun a m hstep => ?_⟩
  obtain ⟨t, rfl, -, hsafe, hlost⟩ := threadStep_eq hq hs hstep
  constructor
  · exact fun ha => ⟨t, rfl, (hsafe ha).names⟩
  · rintro ⟨t, ht, hreadable⟩
    cases ht
    by_contra hnot
    exact hlost hnot hreadable

/-- The call for the one-shot timer returns while its batch is running, the one for the periodic
timer after the batch. -/
theorem addTimer_reads_live_timer_after_batch : ∃ s,
    Run threadStep ReadFirst ThreadsStarted (.ok s) ∧ s.awaiting = [⟨32, 2⟩] ∧ Readable s := by
  have hstart : ThreadsStarted ⟨.initial 1000, [], []⟩ := ⟨⟨1000, by decide, rfl⟩, rfl, rfl⟩
  obtain ⟨s, hs, hcheck⟩ := exists_of_seen (show seen
      (exec (faulting (restrict ReadFirst threadStep)) (.ok ⟨.initial 1000, [], []⟩)
        [.addTimer 16 2000 ⟨false, 0, by decide⟩, .loop (.addTimerInLoop 16),
          .addTimer 32 2000 ⟨true, 700, by decide⟩, .loop (.addTimerInLoop 32), .loop (.tick 3000),
          .loop .handleRead, .loop .run, .loop .run, .readSequence ⟨16, 1⟩, .loop .finish])
      (fun s => s.awaiting = [⟨32, 2⟩]) = true by decide +kernel)
  have hrun := Run.exec _ (Run.start hstart) hs
  obtain ⟨_, hok, hreadable, -⟩ := addTimer_reads_live_timer hrun
  cases hok
  exact ⟨s, hrun, of_decide_eq_true hcheck, hreadable⟩

/-- A one-shot timer that is due at once is inserted, fired and deleted before `addTimer` reads
its sequence number. -/
theorem addTimer_reads_deleted_timer : ∃ s,
    Run threadStep (fun _ _ => True) ThreadsStarted (.ok s) ∧
      threadStep s (.readSequence ⟨16, 1⟩) = some (.error .useAfterDelete) := by
  obtain ⟨s, hs, hcheck⟩ := exists_of_seen (show seen
      (exec (faulting threadStep) (.ok ⟨.initial 1000, [], []⟩)
        [.addTimer 16 1000 ⟨false, 0, by decide⟩, .loop (.addTimerInLoop 16), .loop (.tick 1100),
          .loop .handleRead, .loop .run, .loop .finish])
      (fun s => ⟨16, 1⟩ ∈ s.awaiting ∧ s.queue.heap 16 = none) = true by decide +kernel)
  obtain ⟨hmem, hdead⟩ := of_decide_eq_true hcheck
  refine ⟨s, Run.of_exec ThreadsStarted ⟨⟨1000, by decide, rfl⟩, rfl, rfl⟩ _ hs, ?_⟩
  rw [threadStep, if_pos hmem, TimerQueue.load, hdead]
  rfl

end DbdkyGcc.Timers
