import DbdkyGcc.Threads.Pool

/-!
# Stopping the thread pool

`stop()` clears `running_`, wakes the workers and joins them. It does not wake the
callers that wait in `run()`: they depend on the tasks that are still taken. A
worker that has passed the test of `running_` takes one more task, if there is
one, and the others none.

So nobody is left behind if the calls that wait find room in the queue, counting
one slot for every worker inside `take()`, and if they do not outnumber the slots
of an empty queue: a worker that finds the queue empty leaves without waking
anyone.
-/

namespace DbdkyGcc.Threads.ThreadPool

open Foundations

variable {τ : Type} {maxQueueSize : Nat} {s : ThreadPool τ}

/-- The worker has tested `running_` and not taken a task yet. -/
def inTake : Phase → Bool
  | .taking | .waiting | .notified => true
  | .testing | .executing | .finished => false

@[simp] theorem inTake_wake (p : Phase) : inTake p.wake = inTake p := by
  cases p <;> rfl

def takers (s : ThreadPool τ) : Nat := s.threads.countP inTake

/-- The calls that have found the queue full and have not returned. -/
def blocked (s : ThreadPool τ) : Nat := s.waiting.length + s.notified.length

/-- Besides the calls that are blocked, `n` more will not be left behind. -/
structure HasRoom (maxQueueSize n : Nat) (s : ThreadPool τ) : Prop where
  slots : s.blocked + n ≤ maxQueueSize
  total : s.blocked + n + s.queue.length ≤ maxQueueSize + s.takers

instance (n : Nat) (s : ThreadPool τ) : Decidable (HasRoom maxQueueSize n s) :=
  decidable_of_iff (s.blocked + n ≤ maxQueueSize ∧
    s.blocked + n + s.queue.length ≤ maxQueueSize + s.takers)
    ⟨fun h => ⟨h.1, h.2⟩, fun h => ⟨h.1, h.2⟩⟩

/-- `stop()` is called only when there is room for the calls that are blocked, and after it `run()`
only when there is room for one more. -/
def Roomy (maxQueueSize : Nat) (s : ThreadPool τ) : Action τ → Prop
  | .stop => HasRoom maxQueueSize 0 s
  | .run _ => s.running = false → HasRoom maxQueueSize 1 s
  | _ => True

instance (s : ThreadPool τ) : ∀ a, Decidable (Roomy maxQueueSize s a)
  | .stop => inferInstanceAs (Decidable (HasRoom maxQueueSize 0 s))
  | .run _ => inferInstanceAs (Decidable (s.running = false → HasRoom maxQueueSize 1 s))
  | .test _ | .take _ _ | .finish _ | .resume _ | .join => .isTrue trivial

/-! ### Room is kept -/

theorem takers_notifyAll (s : ThreadPool τ) : s.notifyAll.takers = s.takers := by
  unfold takers notifyAll
  rw [List.countP_map]
  congr 1
  funext p
  exact inTake_wake p

section Workers

variable {threads : List Phase} {i : Nat} {p q : Phase} (hp : threads[i]? = some p)
include hp

theorem countP_stays (hout : inTake p = false) (hq : inTake q = false) :
    (threads.set i q).countP inTake = threads.countP inTake := by
  obtain ⟨hi, rfl⟩ := List.getElem?_eq_some_iff.mp hp
  rw [List.countP_set hi, hout, hq]
  rfl

theorem countP_leaves (hin : inTake p = true) (hq : inTake q = false) :
    (threads.set i q).countP inTake + 1 = threads.countP inTake := by
  have hpos : 0 < threads.countP inTake :=
    List.countP_pos_iff.mpr ⟨p, List.mem_of_getElem? hp, hin⟩
  obtain ⟨hi, rfl⟩ := List.getElem?_eq_some_iff.mp hp
  rw [List.countP_set hi, hin, hq, if_pos rfl, if_neg Bool.false_ne_true]
  omega

end Workers

/-- A worker outside `take()` that stays outside does not matter. -/
theorem HasRoom.setPhase {n i : Nat} {p q : Phase} (h : HasRoom maxQueueSize n s)
    (hp : s.threads[i]? = some p) (hout : inTake p = false) (hq : inTake q = false) :
    HasRoom maxQueueSize n (s.setPhase i q) := by
  have htakers : (s.setPhase i q).takers = s.takers := countP_stays hp hout hq
  refine ⟨h.slots, ?_⟩
  rw [htakers]
  exact h.total

theorem hasRoom_tryPush (call : Call τ) (h : HasRoom maxQueueSize 1 s) :
    HasRoom maxQueueSize 0 (s.tryPush maxQueueSize call) := by
  obtain ⟨hslots, htotal⟩ := h
  unfold tryPush
  split
  · have hblocked : ({ s with waiting := s.waiting ++ [call] } : ThreadPool τ).blocked =
        s.blocked + 1 := by
      simp only [blocked, List.length_append, List.length_singleton]
      omega
    constructor
    · rw [hblocked]
      exact hslots
    · rw [hblocked]
      exact htotal
  · have htakers : (s.push call.task).takers = s.takers := takers_notifyAll _
    constructor
    · exact (Nat.le_succ _).trans hslots
    · rw [htakers]
      change s.blocked + 0 + (s.queue ++ [call.task]).length ≤ maxQueueSize + s.takers
      rw [List.length_append, List.length_singleton]
      omega

theorem blocked_notify {t : ThreadPool τ} {k : Nat} (ht : s.notify k = some t) :
    t.blocked = s.blocked ∧ t.queue = s.queue ∧ t.threads = s.threads := by
  unfold notify at ht
  split at ht
  · cases ht
    exact ⟨rfl, rfl, rfl⟩
  · obtain ⟨call, hcall, rfl⟩ := Option.map_eq_some_iff.mp ht
    obtain ⟨hk, -⟩ := List.getElem?_eq_some_iff.mp hcall
    refine ⟨?_, rfl, rfl⟩
    have hlength := List.length_eraseIdx_add_one hk
    simp only [blocked, List.length_cons]
    omega

/-- A worker in `take()` makes room for one, or leaves an empty queue. -/
theorem HasRoom.take {t : ThreadPool τ} {i k : Nat} {p : Phase} (h : HasRoom maxQueueSize 0 s)
    (hstopped : s.running = false) (hp : s.threads[i]? = some p) (hin : inTake p = true)
    (ht : s.take maxQueueSize i k = some t) : HasRoom maxQueueSize 0 t := by
  obtain ⟨hslots, htotal⟩ := h
  unfold ThreadPool.take at ht
  split at ht
  · rename_i hqueue
    have htakers : (s.setPhase i .testing).takers + 1 = s.takers := countP_leaves hp hin rfl
    simp only [hstopped, Bool.false_eq_true, if_false, Option.some.injEq] at ht
    subst ht
    refine ⟨hslots, ?_⟩
    change s.blocked + 0 + s.queue.length ≤ _
    rw [hqueue, List.length_nil]
    omega
  · rename_i task queue hqueue
    rw [hqueue, List.length_cons] at htotal
    have htakers : (s.threads.set i .executing).countP inTake + 1 = s.takers :=
      countP_leaves hp hin rfl
    dsimp only at ht
    split at ht
    · obtain ⟨hblocked, hq, hthreads⟩ := blocked_notify ht
      constructor
      · rw [hblocked]
        exact hslots
      · rw [hblocked, hq, takers, hthreads]
        change s.blocked + 0 + queue.length ≤
          maxQueueSize + (s.threads.set i .executing).countP inTake
        omega
    · cases ht
      refine ⟨hslots, ?_⟩
      change s.blocked + 0 + queue.length ≤
        maxQueueSize + (s.threads.set i .executing).countP inTake
      omega

/-! ### Nobody is left behind -/

/-- After `stop()` there is room for the calls that are blocked, and when it has returned all
workers have finished. -/
structure Stopping (maxQueueSize : Nat) (s : ThreadPool τ) : Prop where
  sound : Sound maxQueueSize s
  room : s.running = false → HasRoom maxQueueSize 0 s
  ended : s.joined = true → s.running = false ∧ ∀ p ∈ s.threads, p = .finished

theorem stopping_start (numThreads : Nat) :
    Stopping maxQueueSize (start numThreads : ThreadPool τ) :=
  ⟨sound_start numThreads, by simp [start], by simp [start]⟩

theorem running_tryPush (maxQueueSize : Nat) (s : ThreadPool τ) (call : Call τ) :
    (s.tryPush maxQueueSize call).running = s.running ∧
      (s.tryPush maxQueueSize call).joined = s.joined := by
  unfold tryPush
  split <;> exact ⟨rfl, rfl⟩

theorem finished_tryPush (call : Call τ) (h : ∀ p ∈ s.threads, p = .finished) :
    ∀ p ∈ (s.tryPush maxQueueSize call).threads, p = .finished := by
  unfold tryPush
  split
  · exact h
  · intro p hp
    obtain ⟨q, hq, rfl⟩ := List.mem_map.mp hp
    rw [h q hq]
    rfl

theorem running_take {t : ThreadPool τ} {i k : Nat} (ht : s.take maxQueueSize i k = some t) :
    t.running = s.running ∧ t.joined = s.joined := by
  unfold ThreadPool.take at ht
  split at ht
  · cases ht
    exact ⟨rfl, rfl⟩
  · dsimp only at ht
    split at ht
    · unfold notify at ht
      split at ht
      · cases ht
        exact ⟨rfl, rfl⟩
      · obtain ⟨call, -, rfl⟩ := Option.map_eq_some_iff.mp ht
        exact ⟨rfl, rfl⟩
    · cases ht
      exact ⟨rfl, rfl⟩

/-- A worker that has not finished is not joined. -/
theorem Stopping.not_joined (hs : Stopping maxQueueSize s) {i : Nat} {p : Phase}
    (hp : s.threads[i]? = some p) (hne : p ≠ .finished) : s.joined ≠ true := fun h =>
  hne ((hs.ended h).2 p (List.mem_of_getElem? hp))

theorem stopping_step {a : Action τ} {t : ThreadPool τ} (hs : Stopping maxQueueSize s)
    (ha : Roomy maxQueueSize s a) (ht : step maxQueueSize s a = some t) :
    Stopping maxQueueSize t := by
  have hsound := sound_step hs.sound ht
  cases a with
  | test i =>
    obtain ⟨hi, ht⟩ := Option.ite_none_right_eq_some.mp ht
    cases ht
    refine ⟨hsound, fun hstopped => ?_, fun h => absurd h (hs.not_joined hi (by simp))⟩
    change s.running = false at hstopped
    exact (hs.room hstopped).setPhase hi rfl (by simp [hstopped, inTake])
  | take i k =>
    obtain ⟨hi, ht⟩ := Option.ite_none_right_eq_some.mp ht
    obtain ⟨p, hp, hin⟩ : ∃ p, s.threads[i]? = some p ∧ inTake p = true :=
      hi.elim (fun h => ⟨_, h, rfl⟩) fun h => ⟨_, h, rfl⟩
    obtain ⟨hrunning, hjoined⟩ := running_take ht
    refine ⟨hsound, fun hstopped => ?_, fun h => ?_⟩
    · rw [hrunning] at hstopped
      exact (hs.room hstopped).take hstopped hp hin ht
    · refine absurd (hjoined ▸ h) (hs.not_joined hp ?_)
      rintro rfl
      cases hin
  | finish i =>
    obtain ⟨⟨hi, -⟩, ht⟩ := Option.ite_none_right_eq_some.mp ht
    cases ht
    refine ⟨hsound, fun hstopped => ?_, fun h => absurd h (hs.not_joined hi (by simp))⟩
    exact (hs.room hstopped).setPhase hi rfl rfl
  | run call =>
    obtain ⟨-, ht⟩ := Option.ite_none_right_eq_some.mp ht
    split at ht
    · cases ht
      exact hs
    · cases ht
      obtain ⟨hrunning, hjoined⟩ := running_tryPush maxQueueSize s call
      refine ⟨hsound, fun hstopped => ?_, fun h => ?_⟩
      · rw [hrunning] at hstopped
        exact hasRoom_tryPush call (ha hstopped)
      · rw [hjoined] at h
        exact ⟨hrunning.trans (hs.ended h).1, finished_tryPush call (hs.ended h).2⟩
  | resume k =>
    obtain ⟨call, hcall, rfl⟩ := Option.map_eq_some_iff.mp ht
    obtain ⟨hk, -⟩ := List.getElem?_eq_some_iff.mp hcall
    have hlength := List.length_eraseIdx_add_one hk
    obtain ⟨hrunning, hjoined⟩ := running_tryPush maxQueueSize
      { s with notified := s.notified.eraseIdx k } call
    refine ⟨hsound, fun hstopped => ?_, fun h => ?_⟩
    · rw [hrunning] at hstopped
      obtain ⟨hslots, htotal⟩ := hs.room hstopped
      have hblocked : ({ s with notified := s.notified.eraseIdx k } : ThreadPool τ).blocked + 1 =
          s.blocked := by
        simp only [blocked]
        omega
      refine hasRoom_tryPush call ⟨?_, ?_⟩
      · rw [hblocked]
        exact hslots
      · rw [hblocked]
        exact htotal
    · rw [hjoined] at h
      exact ⟨hrunning.trans (hs.ended h).1, finished_tryPush call (hs.ended h).2⟩
  | stop =>
    obtain ⟨hrunning, ht⟩ := Option.ite_none_right_eq_some.mp ht
    cases ht
    refine ⟨hsound, fun _ => ⟨ha.slots, ?_⟩, fun h => ?_⟩
    · rw [takers_notifyAll]
      exact ha.total
    · exact absurd (hs.ended h).1 (by simp [hrunning])
  | join =>
    obtain ⟨⟨hstopped, hended⟩, ht⟩ := Option.ite_none_right_eq_some.mp ht
    cases ht
    refine ⟨hsound, fun h => ?_, fun _ => ⟨Bool.eq_false_iff.mpr hstopped, hended⟩⟩
    obtain ⟨hslots, htotal⟩ := hs.room h
    exact ⟨hslots, htotal⟩

/-- When `stop()` is called with room for the calls that are blocked, and every later call finds
room, no call is left waiting once the workers are joined. -/
theorem stop_strands_nobody (numThreads : Nat)
    (h : Reached (step maxQueueSize) (Roomy maxQueueSize) (· = start numThreads) s)
    (hjoined : s.joined = true) : s.waiting = [] := by
  have hs : Stopping maxQueueSize s := by
    refine Reached.invariant ?_ (fun s a t hs ha ht => stopping_step hs ha ht) h
    rintro s rfl
    exact stopping_start numThreads
  obtain ⟨hstopped, hended⟩ := hs.ended hjoined
  have htakers : s.takers = 0 := by
    refine List.countP_eq_zero.mpr fun p hp => ?_
    rw [hended p hp]
    decide
  by_contra hwaiting
  have htotal := (hs.room hstopped).total
  have hoffered := (hs.sound.offered hwaiting).2
  have hpos := List.length_pos_iff.mpr hwaiting
  rw [htakers] at htotal
  unfold blocked at htotal
  omega

/-- The worker is in `take()` when the pool is stopped, takes the task, and the caller that
waits gets its slot. -/
theorem stop_strands_nobody_example :
    ∃ s : ThreadPool Nat, Reached (step 1) (Roomy 1) (· = start 1) s ∧ s.joined = true ∧
      s.pushed = [10, 11] ∧ s.waiting = [] := by
  have hseen : (exec (restrict (Roomy 1) (step 1)) (start 1 : ThreadPool Nat)
      [.test 0, .run ⟨none, 10⟩, .run ⟨none, 11⟩, .stop, .take 0 0, .resume 0, .finish 0, .test 0,
        .join]).any (fun s => s.joined = true ∧ s.pushed = [10, 11]) = true := by
    decide +kernel
  obtain ⟨s, hs, hcheck⟩ := (Option.any_eq_true _ _).mp hseen
  obtain ⟨hjoined, hpushed⟩ := of_decide_eq_true hcheck
  have hstart : Reached (step 1) (Roomy 1) (· = start 1) (start 1 : ThreadPool Nat) := .start rfl
  have hrun := hstart.exec _ hs
  exact ⟨s, hrun, hjoined, hpushed, stop_strands_nobody 1 hrun hjoined⟩

/-- The only worker is in a task when the pool is stopped and takes no other one: the caller that
waits for a slot is never woken. -/
theorem stop_strands_caller :
    ∃ s : ThreadPool Nat, Reachable 1 s ∧ s.joined = true ∧ s.waiting = [⟨none, 12⟩] ∧
      s.notified = [] := by
  have hseen : (exec (step 1) (start 1 : ThreadPool Nat)
      [.run ⟨none, 10⟩, .test 0, .take 0 0, .run ⟨none, 11⟩, .run ⟨none, 12⟩, .stop, .finish 0,
        .test 0, .join]).any
      (fun s => s.joined = true ∧ s.waiting = [⟨none, 12⟩] ∧ s.notified = []) = true := by
    decide +kernel
  obtain ⟨s, hs, hcheck⟩ := (Option.any_eq_true _ _).mp hseen
  exact ⟨s, ⟨1, Reached.of_exec _ (fun _ _ _ => trivial) (.start rfl) hs⟩,
    of_decide_eq_true hcheck⟩

end DbdkyGcc.Threads.ThreadPool
