import DbdkyGcc.Foundations.Runs

/-!
# The thread pool

Callers of `run()` put tasks into a queue that may be bounded, and the workers take
them out. A worker that finds nothing waits for `notEmpty_`, on which every new
task wakes all of them; a caller that finds the queue full waits for `notFull_`,
on which every task taken wakes a single one. A woken caller has to get the lock
again and may find that somebody else was faster.

A step of the model is a section under the lock or a read of `running_` without
it. No wake-up is lost: while a caller waits, as many others have been woken and
have not resumed yet as there are free slots.
-/

namespace DbdkyGcc.Threads

open Foundations

/-- Where a worker is: at the test of `running_`, before the lock in `take()`, in
`notEmpty_.wait()`, woken there but without the lock, in a task, or at the end of
`runInThread`. -/
inductive Phase
  | testing
  | taking
  | waiting
  | notified
  | executing
  | finished
  deriving DecidableEq, Repr

/-- `notEmpty_.notifyAll()`, for one worker. -/
def Phase.wake : Phase → Phase
  | .waiting => .notified
  | p => p

/-- A call of `run()`, by the worker with that number in the course of its task, or by a thread
outside the pool. -/
structure Call (τ : Type) where
  worker : Option Nat
  task : τ
  deriving DecidableEq

/-- The members of `ThreadPool` after `start()`, the calls in `notFull_.wait()` that have not been
woken and those that have been woken and do not have the lock yet, with all tasks put into the
queue and taken from it so far, and whether `stop()` has joined the workers. -/
structure ThreadPool (τ : Type) where
  running : Bool
  queue : List τ
  threads : List Phase
  waiting : List (Call τ)
  notified : List (Call τ)
  pushed : List τ
  taken : List τ
  joined : Bool

namespace ThreadPool

variable {τ : Type}

/-- The pool after `start(numThreads)`. -/
def start (numThreads : Nat) : ThreadPool τ :=
  ⟨true, [], List.replicate numThreads .testing, [], [], [], [], false⟩

def isFull (maxQueueSize : Nat) (s : ThreadPool τ) : Prop :=
  0 < maxQueueSize ∧ maxQueueSize ≤ s.queue.length

instance (maxQueueSize : Nat) (s : ThreadPool τ) : Decidable (isFull maxQueueSize s) :=
  inferInstanceAs (Decidable (_ ∧ _))

def setPhase (s : ThreadPool τ) (i : Nat) (p : Phase) : ThreadPool τ :=
  { s with threads := s.threads.set i p }

/-- `notEmpty_.notifyAll()`. -/
def notifyAll (s : ThreadPool τ) : ThreadPool τ :=
  { s with threads := s.threads.map Phase.wake }

/-- `notFull_.notify()` wakes one of the calls that wait, whichever, if there is one. -/
def notify (s : ThreadPool τ) (k : Nat) : Option (ThreadPool τ) :=
  if s.waiting = [] then some s
  else s.waiting[k]?.map fun call =>
    { s with waiting := s.waiting.eraseIdx k, notified := call :: s.notified }

def push (s : ThreadPool τ) (task : τ) : ThreadPool τ :=
  notifyAll { s with queue := s.queue ++ [task], pushed := s.pushed ++ [task] }

/-- `run()` from the test of `isFull()`, with the lock, to the wait or to its end. -/
def tryPush (maxQueueSize : Nat) (s : ThreadPool τ) (call : Call τ) : ThreadPool τ :=
  if isFull maxQueueSize s then { s with waiting := s.waiting ++ [call] }
  else s.push call.task

/-- `take()` from the test of its loop, with the lock, to the wait or to its end. An empty task is
returned when the pool has been stopped and nothing is left. -/
def take (maxQueueSize : Nat) (s : ThreadPool τ) (i k : Nat) : Option (ThreadPool τ) :=
  match s.queue with
  | [] => some (s.setPhase i (if s.running then .waiting else .testing))
  | task :: queue =>
    let s := { s with queue := queue, taken := s.taken ++ [task] }.setPhase i .executing
    if 0 < maxQueueSize then s.notify k else some s

/-- Whether a worker's task is in a call of `run()`. -/
def inRun (s : ThreadPool τ) (i : Nat) : Prop :=
  ∃ call ∈ s.waiting ++ s.notified, call.worker = some i

instance (s : ThreadPool τ) (i : Nat) : Decidable (s.inRun i) :=
  inferInstanceAs (Decidable (∃ call ∈ s.waiting ++ s.notified, call.worker = some i))

/-- Whether there is a thread that can make the call. -/
def mayCall (s : ThreadPool τ) : Option Nat → Prop
  | none => True
  | some i => s.threads[i]? = some .executing ∧ ¬ s.inRun i

instance (s : ThreadPool τ) : ∀ caller, Decidable (s.mayCall caller)
  | none => .isTrue trivial
  | some i => inferInstanceAs (Decidable (s.threads[i]? = some .executing ∧ ¬ s.inRun i))

inductive Action (τ : Type)
  /-- A worker tests `running_`. -/
  | test (i : Nat)
  /-- A worker gets the lock in `take()`; if it takes a task, the call `k` is woken. -/
  | take (i k : Nat)
  /-- The task of a worker returns. -/
  | finish (i : Nat)
  | run (call : Call τ)
  /-- A woken call gets the lock. -/
  | resume (k : Nat)
  | stop
  /-- `stop()` returns. -/
  | join

def step (maxQueueSize : Nat) (s : ThreadPool τ) : Action τ → Option (ThreadPool τ)
  | .test i =>
    if s.threads[i]? = some .testing then
      some (s.setPhase i (if s.running then .taking else .finished))
    else none
  | .take i k =>
    if s.threads[i]? = some .taking ∨ s.threads[i]? = some .notified then
      s.take maxQueueSize i k
    else none
  | .finish i =>
    if s.threads[i]? = some .executing ∧ ¬ s.inRun i then some (s.setPhase i .testing) else none
  | .run call =>
    if s.mayCall call.worker then
      -- Without workers the caller performs the task.
      if s.threads = [] then some s else some (s.tryPush maxQueueSize call)
    else none
  | .resume k =>
    s.notified[k]?.map fun call =>
      { s with notified := s.notified.eraseIdx k }.tryPush maxQueueSize call
  | .stop => if s.running then some { s with running := false }.notifyAll else none
  | .join =>
    if ¬ s.running ∧ ∀ p ∈ s.threads, p = .finished then some { s with joined := true } else none

/-! ### The hand-over of tasks -/

variable {maxQueueSize : Nat} {s : ThreadPool τ}

/-- The tasks leave the queue in the order in which they came, the queue keeps to its bound, and
neither a worker nor a caller sleeps through what it waits for. -/
structure Sound (maxQueueSize : Nat) (s : ThreadPool τ) : Prop where
  order : s.taken ++ s.queue = s.pushed
  bounded : 0 < maxQueueSize → s.queue.length ≤ maxQueueSize
  awake : s.queue ≠ [] → .waiting ∉ s.threads
  offered : s.waiting ≠ [] →
    0 < maxQueueSize ∧ maxQueueSize ≤ s.notified.length + s.queue.length

theorem sound_start (numThreads : Nat) : Sound maxQueueSize (start numThreads : ThreadPool τ) :=
  ⟨rfl, fun _ => Nat.zero_le _, by simp [start], by simp [start]⟩

theorem waiting_notMem_wake (threads : List Phase) : .waiting ∉ threads.map Phase.wake := by
  intro h
  obtain ⟨p, -, hp⟩ := List.mem_map.mp h
  cases p <;> cases hp

/-- A worker may go anywhere, but does not wait when there is a task. -/
theorem Sound.setPhase (hs : Sound maxQueueSize s) (i : Nat) {p : Phase}
    (hp : s.queue ≠ [] → p ≠ .waiting) : Sound maxQueueSize (s.setPhase i p) := by
  refine ⟨hs.order, hs.bounded, fun hqueue hmem => ?_, hs.offered⟩
  rcases List.mem_or_eq_of_mem_set hmem with hmem | heq
  · exact hs.awake hqueue hmem
  · exact hp hqueue heq.symm

theorem Sound.notifyAll (hs : Sound maxQueueSize s) : Sound maxQueueSize s.notifyAll :=
  ⟨hs.order, hs.bounded, fun _ => waiting_notMem_wake _, hs.offered⟩

/-- The same with one wake-up less: a woken call has got the lock, or a slot has become free. -/
structure Owing (maxQueueSize : Nat) (s : ThreadPool τ) : Prop where
  order : s.taken ++ s.queue = s.pushed
  bounded : 0 < maxQueueSize → s.queue.length ≤ maxQueueSize
  awake : s.queue ≠ [] → .waiting ∉ s.threads
  offered : s.waiting ≠ [] →
    0 < maxQueueSize ∧ maxQueueSize ≤ s.notified.length + 1 + s.queue.length

theorem Sound.owing (hs : Sound maxQueueSize s) : Owing maxQueueSize s := by
  refine ⟨hs.order, hs.bounded, hs.awake, fun hwaiting => ?_⟩
  obtain ⟨hpos, hle⟩ := hs.offered hwaiting
  exact ⟨hpos, by omega⟩

theorem Owing.tryPush (hs : Owing maxQueueSize s) (call : Call τ) :
    Sound maxQueueSize (s.tryPush maxQueueSize call) := by
  unfold ThreadPool.tryPush
  split
  · rename_i hfull
    refine ⟨hs.order, hs.bounded, hs.awake, fun _ => ⟨hfull.1, ?_⟩⟩
    exact hfull.2.trans (Nat.le_add_left _ _)
  · rename_i hfull
    constructor
    · change s.taken ++ (s.queue ++ [call.task]) = s.pushed ++ [call.task]
      rw [← List.append_assoc, hs.order]
    · intro hpos
      change (s.queue ++ [call.task]).length ≤ maxQueueSize
      rw [List.length_append]
      exact not_le.mp fun hle => hfull ⟨hpos, hle⟩
    · exact fun _ => waiting_notMem_wake _
    · intro hwaiting
      obtain ⟨hpos, hle⟩ := hs.offered hwaiting
      refine ⟨hpos, ?_⟩
      change maxQueueSize ≤ s.notified.length + (s.queue ++ [call.task]).length
      rw [List.length_append, List.length_singleton]
      omega

/-- A wake-up makes up for the slot that has become free. -/
theorem Owing.notify (hs : Owing maxQueueSize s) {t : ThreadPool τ} {k : Nat}
    (ht : s.notify k = some t) : Sound maxQueueSize t := by
  unfold ThreadPool.notify at ht
  split at ht
  · rename_i hnone
    cases ht
    exact ⟨hs.order, hs.bounded, hs.awake, fun h => absurd hnone h⟩
  · rename_i hsome
    obtain ⟨call, -, rfl⟩ := Option.map_eq_some_iff.mp ht
    exact ⟨hs.order, hs.bounded, hs.awake, fun _ => hs.offered hsome⟩

theorem Sound.take (hs : Sound maxQueueSize s) {t : ThreadPool τ} {i k : Nat}
    (ht : s.take maxQueueSize i k = some t) : Sound maxQueueSize t := by
  unfold ThreadPool.take at ht
  split at ht
  · rename_i hqueue
    cases ht
    exact hs.setPhase i fun h => absurd hqueue h
  · rename_i task queue hqueue
    have howing : Owing maxQueueSize
        ({ s with queue := queue, taken := s.taken ++ [task] }.setPhase i .executing) := by
      constructor
      · change s.taken ++ [task] ++ queue = s.pushed
        rw [← hs.order, hqueue, List.append_assoc]
        rfl
      · intro hpos
        have hle := hs.bounded hpos
        rw [hqueue, List.length_cons] at hle
        exact (Nat.le_succ _).trans hle
      · intro _ hmem
        rcases List.mem_or_eq_of_mem_set hmem with hmem | heq
        · exact hs.awake (by simp [hqueue]) hmem
        · cases heq
      · intro hwaiting
        obtain ⟨hpos, hle⟩ := hs.offered hwaiting
        refine ⟨hpos, ?_⟩
        change maxQueueSize ≤ s.notified.length + 1 + queue.length
        rw [hqueue, List.length_cons] at hle
        omega
    dsimp only at ht
    split at ht
    · exact howing.notify ht
    · -- Nobody waits for a queue that is not bounded.
      rename_i hzero
      cases ht
      exact ⟨howing.order, howing.bounded, howing.awake,
        fun h => absurd (howing.offered h).1 hzero⟩

theorem sound_step {a : Action τ} {t : ThreadPool τ} (hs : Sound maxQueueSize s)
    (ht : step maxQueueSize s a = some t) : Sound maxQueueSize t := by
  cases a with
  | test i =>
    obtain ⟨-, ht⟩ := Option.ite_none_right_eq_some.mp ht
    cases ht
    refine hs.setPhase i fun _ => ?_
    split <;> simp
  | take i k =>
    obtain ⟨-, ht⟩ := Option.ite_none_right_eq_some.mp ht
    exact hs.take ht
  | finish i =>
    obtain ⟨-, ht⟩ := Option.ite_none_right_eq_some.mp ht
    cases ht
    exact hs.setPhase i fun _ => by simp
  | run call =>
    obtain ⟨-, ht⟩ := Option.ite_none_right_eq_some.mp ht
    split at ht
    · cases ht
      exact hs
    · cases ht
      exact hs.owing.tryPush call
  | resume k =>
    obtain ⟨call, hcall, rfl⟩ := Option.map_eq_some_iff.mp ht
    obtain ⟨hk, -⟩ := List.getElem?_eq_some_iff.mp hcall
    have howing : Owing maxQueueSize { s with notified := s.notified.eraseIdx k } := by
      refine ⟨hs.order, hs.bounded, hs.awake, fun hwaiting => ?_⟩
      change 0 < maxQueueSize ∧
        maxQueueSize ≤ (s.notified.eraseIdx k).length + 1 + s.queue.length
      rw [List.length_eraseIdx_add_one hk]
      exact hs.offered hwaiting
    exact howing.tryPush call
  | stop =>
    obtain ⟨-, ht⟩ := Option.ite_none_right_eq_some.mp ht
    cases ht
    exact Sound.notifyAll ⟨hs.order, hs.bounded, hs.awake, hs.offered⟩
  | join =>
    obtain ⟨-, ht⟩ := Option.ite_none_right_eq_some.mp ht
    cases ht
    exact ⟨hs.order, hs.bounded, hs.awake, hs.offered⟩

/-- The states of a pool with any number of workers and callers. -/
def Reachable (maxQueueSize : Nat) (s : ThreadPool τ) : Prop :=
  ∃ numThreads, Reached (step maxQueueSize) (fun _ _ => True) (· = start numThreads) s

theorem Reachable.sound (h : Reachable maxQueueSize s) : Sound maxQueueSize s := by
  obtain ⟨numThreads, h⟩ := h
  refine Reached.invariant ?_ (fun s a t hs _ ht => sound_step hs ht) h
  rintro s rfl
  exact sound_start numThreads

/-- Tasks are taken in the order in which they were put into the queue, each at most once; the
queue keeps to its bound; no worker sleeps while there is a task, and no caller sleeps while there
are more free slots than woken callers. -/
theorem hands_over_tasks (h : Reachable maxQueueSize s) :
    s.taken ++ s.queue = s.pushed ∧
      (0 < maxQueueSize → s.queue.length ≤ maxQueueSize) ∧
      (s.queue ≠ [] → .waiting ∉ s.threads) ∧
      (s.waiting ≠ [] → 0 < maxQueueSize ∧
        maxQueueSize - s.queue.length ≤ s.notified.length) := by
  have hs := h.sound
  refine ⟨hs.order, hs.bounded, hs.awake, fun hwaiting => ?_⟩
  obtain ⟨hpos, hle⟩ := hs.offered hwaiting
  exact ⟨hpos, by omega⟩

/-- Two callers wait for a slot, and a task that is taken wakes one of them. -/
theorem hands_over_tasks_example :
    ∃ s : ThreadPool Nat, Reachable 1 s ∧ s.waiting.length = 1 ∧ s.taken = [10, 11] ∧
      1 - s.queue.length ≤ s.notified.length := by
  have hseen : (exec (step 1) (start 2 : ThreadPool Nat)
      [.run ⟨none, 10⟩, .test 0, .take 0 0, .run ⟨none, 11⟩, .run ⟨none, 12⟩, .run ⟨some 0, 13⟩,
        .test 1, .take 1 1]).any
      (fun s => s.waiting.length = 1 ∧ s.taken = [10, 11]) = true := by
    decide +kernel
  obtain ⟨s, hs, hcheck⟩ := (Option.any_eq_true _ _).mp hseen
  obtain ⟨hlength, htaken⟩ := of_decide_eq_true hcheck
  have hreached : Reachable 1 s :=
    ⟨2, Reached.of_exec _ (fun _ _ _ => trivial) (.start rfl) hs⟩
  have hwaiting : s.waiting ≠ [] := by
    rw [← List.length_pos_iff, hlength]
    exact Nat.one_pos
  exact ⟨s, hreached, hlength, htaken, ((hands_over_tasks hreached).2.2.2 hwaiting).2⟩

end ThreadPool

end DbdkyGcc.Threads
