import DbdkyGcc.Threads.Waiting

/-!
# The blocking queues

`BlockingQueue` and `BoundedBlockingQueue` as monitors. Both hand on what is put in the order in
which it is put (`Fifo`). No assertion behind a waiting loop fails, so the circular buffer, which
would drop its oldest element, is never written to when it is full. And no thread is forgotten: once
all are at rest, whoever is in `take()` finds nothing in the queue, and whoever is in `put()` finds
no room.
-/

namespace DbdkyGcc.Threads

open Foundations

/-! ### Queues in general -/

/-- A monitor whose bodies append to a list at one end and take from it at the other. -/
structure Fifo {σ C κ ρ : Type} (M : Monitor σ C κ ρ) (α : Type) where
  content : σ → List α
  put : κ → Option α
  taken : ρ → Option α
  law : ∀ {k d done}, M.loop k d = none → M.body k d = .ok done →
    content d ++ (put k).toList = (taken done.result).toList ++ content done.data

namespace Fifo

variable {T σ C κ ρ α : Type} {M : Monitor σ C κ ρ}

/-- What the calls have put, in the order in which they took effect. -/
def puts (F : Fifo M α) (performed : List (T × κ × ρ)) : List α :=
  performed.filterMap fun e => F.put e.2.1

/-- What the calls have taken, in the order in which they took effect. -/
def takes (F : Fifo M α) (performed : List (T × κ × ρ)) : List α :=
  performed.filterMap fun e => F.taken e.2.2

@[simp] theorem puts_snoc (F : Fifo M α) (l : List (T × κ × ρ)) (t : T) (k : κ) (r : ρ) :
    F.puts (l ++ [(t, k, r)]) = F.puts l ++ (F.put k).toList := by
  unfold puts
  rw [List.filterMap_append]
  cases h : F.put k <;> simp [h]

@[simp] theorem takes_snoc (F : Fifo M α) (l : List (T × κ × ρ)) (t : T) (k : κ) (r : ρ) :
    F.takes (l ++ [(t, k, r)]) = F.takes l ++ (F.taken r).toList := by
  unfold takes
  rw [List.filterMap_append]
  cases h : F.taken r <;> simp [h]

variable [DecidableEq T] {d : σ} {a : Atomic T σ κ ρ}

/-- What has been put is what has been taken and what is still there, in that order. -/
theorem puts_eq (F : Fifo M α) (hd : F.content d = []) (h : Atomic.Runs M d (.ok a)) :
    F.puts a.performed = F.takes a.performed ++ F.content a.data := by
  refine Atomic.Runs.performed (I := fun d l => F.puts l = F.takes l ++ F.content d) ?_ ?_ h
  · rw [hd]
    rfl
  · intro d l t k done ih hloop hbody
    calc F.puts (l ++ [(t, k, done.result)])
      _ = F.takes l ++ (F.content d ++ (F.put k).toList) := by
        rw [puts_snoc, ih, List.append_assoc]
      _ = F.takes l ++ ((F.taken done.result).toList ++ F.content done.data) := by
        rw [F.law hloop hbody]
      _ = F.takes (l ++ [(t, k, done.result)]) ++ F.content done.data := by
        rw [takes_snoc, List.append_assoc]

end Fifo

/-- The conditions of the two classes. -/
inductive QueueCondition
  | notEmpty
  | notFull
  deriving DecidableEq, Repr

/-- What the functions of the two classes return. -/
inductive QueueResult (α : Type)
  | void
  | value (x : α)
  | flag (b : Bool)
  | number (n : ℕ)
  deriving DecidableEq, Repr

/-- The element that a call has taken. -/
def QueueResult.taken {α : Type} : QueueResult α → Option α
  | .value x => some x
  | _ => none

/-! ### `BlockingQueue` -/

inductive BlockingQueueCall (α : Type)
  | put (x : α)
  | take
  | size
  deriving DecidableEq, Repr

section BlockingQueue

variable {α : Type}

/-- `BlockingQueue<T>` with the content of `queue_`, front first. -/
def blockingQueue (α : Type) :
    Monitor (List α) QueueCondition (BlockingQueueCall α) (QueueResult α) where
  loop
    | .take, queue => if queue.isEmpty then some .notEmpty else none
    | .put _, _ | .size, _ => none
  body
    | .put x, queue => .ok ⟨queue ++ [x], [.notify .notEmpty], .void⟩
    | .take, [] => .error .assertion
    | .take, front :: queue => .ok ⟨queue, [], .value front⟩
    | .size, queue => .ok ⟨queue, [], .number queue.length⟩

theorem blockingQueue_body_ok (k : BlockingQueueCall α) (queue : List α)
    (h : (blockingQueue α).loop k queue = none) :
    ∃ done, (blockingQueue α).body k queue = .ok done := by
  cases k with
  | put x => exact ⟨_, rfl⟩
  | size => exact ⟨_, rfl⟩
  | take =>
    cases queue with
    | nil => cases h
    | cons front queue => exact ⟨_, rfl⟩

def BlockingQueueCall.value : BlockingQueueCall α → Option α
  | .put x => some x
  | _ => none

def blockingQueueFifo (α : Type) : Fifo (blockingQueue α) α where
  content queue := queue
  put := BlockingQueueCall.value
  taken := QueueResult.taken
  law {k queue done} _ hbody := by
    cases k with
    | put x =>
      cases hbody
      rfl
    | size =>
      cases hbody
      exact List.append_nil _
    | take =>
      cases queue with
      | nil => cases hbody
      | cons front queue =>
        cases hbody
        exact List.append_nil _

theorem blockingQueue_loop_eq_some {k : BlockingQueueCall α} {queue : List α} {c : QueueCondition}
    (h : (blockingQueue α).loop k queue = some c) : k = .take ∧ c = .notEmpty ∧ queue = [] := by
  cases k with
  | put x => cases h
  | size => cases h
  | take =>
    obtain ⟨hempty, hc⟩ := Option.ite_none_right_eq_some.mp h
    cases hc
    exact ⟨rfl, rfl, List.isEmpty_iff.mp hempty⟩

/-- A unit of `notEmpty_` is an element. -/
def blockingQueueElements (α : Type) : Supplied (blockingQueue α) .notEmpty where
  units queue := queue.length
  uses k := match k with
    | .take => true
    | _ => false
  uses_iff h := by
    obtain ⟨rfl, rfl, -⟩ := blockingQueue_loop_eq_some h
    exact iff_of_true rfl rfl
  units_eq_zero h := by
    obtain ⟨-, -, rfl⟩ := blockingQueue_loop_eq_some h
    rfl
  units_le {k queue done} _ hbody := by
    cases k with
    | put x =>
      cases hbody
      simp
    | size =>
      cases hbody
      simp
    | take =>
      cases queue with
      | nil => cases hbody
      | cons front queue =>
        cases hbody
        simp

end BlockingQueue

/-! ### `BoundedBlockingQueue` -/

/-- `boost::circular_buffer<T>`: what its functions do, by the content of a buffer, oldest first.
Nothing is said about `push_back` on a full buffer, which drops an element, or about `front` and
`pop_front` on an empty one. -/
structure CircularBuffer (α : Type) where
  Buffer : Type
  content : Buffer → List α
  capacity : Buffer → ℕ
  /-- the constructor -/
  init : ℕ → Buffer
  empty : Buffer → Bool
  full : Buffer → Bool
  size : Buffer → ℕ
  front : (b : Buffer) → empty b = false → α
  pushBack : Buffer → α → Buffer
  popFront : Buffer → Buffer
  length_le : ∀ b, (content b).length ≤ capacity b
  content_init : ∀ n, content (init n) = []
  capacity_init : ∀ n, capacity (init n) = n
  empty_iff : ∀ b, empty b = true ↔ content b = []
  full_iff : ∀ b, full b = true ↔ (content b).length = capacity b
  size_eq : ∀ b, size b = (content b).length
  content_eq : ∀ b h, content b = front b h :: content (popFront b)
  capacity_popFront : ∀ b, empty b = false → capacity (popFront b) = capacity b
  content_pushBack : ∀ b x, full b = false → content (pushBack b x) = content b ++ [x]
  capacity_pushBack : ∀ b x, full b = false → capacity (pushBack b x) = capacity b

namespace CircularBuffer

variable {α : Type}

theorem length_lt (B : CircularBuffer α) {b : B.Buffer} (h : B.full b = false) :
    (B.content b).length < B.capacity b := by
  refine lt_of_le_of_ne (B.length_le b) fun heq => ?_
  rw [(B.full_iff b).mpr heq] at h
  cases h

/-- Buffers that are lists, for the capacity that they were made for. A full one drops its oldest
element, and one of capacity 0 the new one. -/
def lists (α : Type) : CircularBuffer α where
  Buffer := { b : ℕ × List α // b.2.length ≤ b.1 }
  content b := b.1.2
  capacity b := b.1.1
  init n := ⟨(n, []), Nat.zero_le n⟩
  empty b := b.1.2.isEmpty
  full b := b.1.2.length == b.1.1
  size b := b.1.2.length
  front b h := b.1.2.head (by simpa using h)
  pushBack b x := ⟨(b.1.1, (b.1.2 ++ [x]).drop (b.1.2.length + 1 - b.1.1)), by
    have := b.2
    simp only [List.length_drop, List.length_append, List.length_singleton]
    omega⟩
  popFront b := ⟨(b.1.1, b.1.2.tail), by
    have := b.2
    rw [List.length_tail]
    omega⟩
  length_le b := b.2
  content_init _ := rfl
  capacity_init _ := rfl
  empty_iff _ := List.isEmpty_iff
  full_iff _ := beq_iff_eq
  size_eq _ := rfl
  content_eq _ _ := (List.cons_head_tail _).symm
  capacity_popFront _ _ := rfl
  content_pushBack b x h := by
    have hle := b.2
    have hne : b.1.2.length ≠ b.1.1 := by simpa using h
    show (b.1.2 ++ [x]).drop (b.1.2.length + 1 - b.1.1) = _
    rw [Nat.sub_eq_zero_of_le (by omega), List.drop_zero]
  capacity_pushBack _ _ _ := rfl

end CircularBuffer

inductive BoundedBlockingQueueCall (α : Type)
  | put (x : α)
  | take
  | empty
  | full
  | size
  | capacity
  deriving DecidableEq, Repr

section BoundedBlockingQueue

variable {α : Type} (B : CircularBuffer α)

/-- `BoundedBlockingQueue<T>` with `queue_`. -/
def boundedBlockingQueue : Monitor B.Buffer QueueCondition (BoundedBlockingQueueCall α)
    (QueueResult α) where
  loop
    | .put _, queue => if B.full queue then some .notFull else none
    | .take, queue => if B.empty queue then some .notEmpty else none
    | _, _ => none
  body
    | .put x, queue => do
      ensure .assertion (B.full queue = false)
      .ok ⟨B.pushBack queue x, [.notify .notEmpty], .void⟩
    | .take, queue =>
      if h : B.empty queue = false then
        .ok ⟨B.popFront queue, [.notify .notFull], .value (B.front queue h)⟩
      else .error .assertion
    | .empty, queue => .ok ⟨queue, [], .flag (B.empty queue)⟩
    | .full, queue => .ok ⟨queue, [], .flag (B.full queue)⟩
    | .size, queue => .ok ⟨queue, [], .number (B.size queue)⟩
    | .capacity, queue => .ok ⟨queue, [], .number (B.capacity queue)⟩

variable {B}

/-- What a body does, by the function. -/
theorem boundedBlockingQueue_body_cases {k : BoundedBlockingQueueCall α} {queue : B.Buffer}
    {done : Section B.Buffer QueueCondition (QueueResult α)}
    (h : (boundedBlockingQueue B).body k queue = .ok done) :
    (∃ x, k = .put x ∧ B.full queue = false ∧
      done = ⟨B.pushBack queue x, [.notify .notEmpty], .void⟩) ∨
    (∃ hempty, k = .take ∧
      done = ⟨B.popFront queue, [.notify .notFull], .value (B.front queue hempty)⟩) ∨
    ((∀ x, k ≠ .put x) ∧ k ≠ .take ∧ done.data = queue ∧ done.signals = [] ∧
      done.result.taken = none) := by
  cases k with
  | put x =>
    obtain ⟨hfull, h⟩ := ensure_bind_eq_ok_iff.mp h
    cases h
    exact .inl ⟨x, rfl, hfull, rfl⟩
  | take =>
    simp only [boundedBlockingQueue] at h
    split at h
    · next hempty =>
      cases h
      exact .inr (.inl ⟨hempty, rfl, rfl⟩)
    · cases h
  | _ =>
    cases h
    exact .inr (.inr ⟨by simp, by simp, rfl, rfl, rfl⟩)

theorem boundedBlockingQueue_body_ok (k : BoundedBlockingQueueCall α) (queue : B.Buffer)
    (h : (boundedBlockingQueue B).loop k queue = none) :
    ∃ done, (boundedBlockingQueue B).body k queue = .ok done := by
  cases k with
  | put x =>
    have hfull : B.full queue = false := by
      rw [← Bool.not_eq_true]
      intro hfull
      simp [boundedBlockingQueue, hfull] at h
    exact ⟨_, ensure_bind_eq_ok_iff.mpr ⟨hfull, rfl⟩⟩
  | take =>
    have hempty : B.empty queue = false := by
      rw [← Bool.not_eq_true]
      intro hempty
      simp [boundedBlockingQueue, hempty] at h
    exact ⟨_, dif_pos hempty⟩
  | _ => exact ⟨_, rfl⟩

theorem boundedBlockingQueue_loop_eq_some {k : BoundedBlockingQueueCall α}
    {queue : B.Buffer} {c : QueueCondition}
    (h : (boundedBlockingQueue B).loop k queue = some c) :
    (k = .take ∧ c = .notEmpty ∧ B.content queue = []) ∨
    ∃ x, k = .put x ∧ c = .notFull ∧ (B.content queue).length = B.capacity queue := by
  cases k with
  | put x =>
    obtain ⟨hfull, hc⟩ := Option.ite_none_right_eq_some.mp h
    cases hc
    exact .inr ⟨x, rfl, rfl, (B.full_iff queue).mp hfull⟩
  | take =>
    obtain ⟨hempty, hc⟩ := Option.ite_none_right_eq_some.mp h
    cases hc
    exact .inl ⟨rfl, rfl, (B.empty_iff queue).mp hempty⟩
  | _ => cases h

def BoundedBlockingQueueCall.value : BoundedBlockingQueueCall α → Option α
  | .put x => some x
  | _ => none

variable (B)

def boundedBlockingQueueFifo : Fifo (boundedBlockingQueue B) α where
  content := B.content
  put := BoundedBlockingQueueCall.value
  taken := QueueResult.taken
  law {k queue done} _ hbody := by
    obtain ⟨x, rfl, hfull, rfl⟩ | ⟨hempty, rfl, rfl⟩ | ⟨hput, -, hdata, -, htaken⟩ :=
      boundedBlockingQueue_body_cases hbody
    · rw [B.content_pushBack queue x hfull]
      rfl
    · rw [B.content_eq queue hempty]
      exact List.append_nil _
    · have hvalue : k.value = none := by
        cases k with
        | put x => exact absurd rfl (hput x)
        | _ => rfl
      rw [hdata, htaken, hvalue]
      exact List.append_nil _

/-- A unit of `notEmpty_` is an element. -/
def boundedBlockingQueueElements : Supplied (boundedBlockingQueue B) .notEmpty where
  units queue := (B.content queue).length
  uses k := match k with
    | .take => true
    | _ => false
  uses_iff h := by
    obtain ⟨rfl, rfl, -⟩ | ⟨x, rfl, rfl, -⟩ := boundedBlockingQueue_loop_eq_some h
    · exact iff_of_true rfl rfl
    · exact iff_of_false Bool.false_ne_true (by decide)
  units_eq_zero h := by
    obtain ⟨-, -, hempty⟩ | ⟨x, -, hc, -⟩ := boundedBlockingQueue_loop_eq_some h
    · rw [hempty]
      rfl
    · cases hc
  units_le {k queue done} _ hbody := by
    obtain ⟨x, rfl, hfull, rfl⟩ | ⟨hempty, rfl, rfl⟩ | ⟨-, htake, hdata, hsignals, -⟩ :=
      boundedBlockingQueue_body_cases hbody
    · simp [B.content_pushBack queue x hfull]
    · simp [B.content_eq queue hempty]
    · rw [hdata, hsignals]
      cases k with
      | take => exact absurd rfl htake
      | _ => simp

/-- A unit of `notFull_` is a free place. -/
def boundedBlockingQueuePlaces : Supplied (boundedBlockingQueue B) .notFull where
  units queue := B.capacity queue - (B.content queue).length
  uses k := match k with
    | .put _ => true
    | _ => false
  uses_iff h := by
    obtain ⟨rfl, rfl, -⟩ | ⟨x, rfl, rfl, -⟩ := boundedBlockingQueue_loop_eq_some h
    · exact iff_of_false Bool.false_ne_true (by decide)
    · exact iff_of_true rfl rfl
  units_eq_zero h := by
    obtain ⟨-, hc, -⟩ | ⟨x, -, -, hfull⟩ := boundedBlockingQueue_loop_eq_some h
    · cases hc
    · omega
  units_le {k queue done} _ hbody := by
    obtain ⟨x, rfl, hfull, rfl⟩ | ⟨hempty, rfl, rfl⟩ | ⟨hput, -, hdata, hsignals, -⟩ :=
      boundedBlockingQueue_body_cases hbody
    · have hlt := B.length_lt hfull
      simp [B.content_pushBack queue x hfull, B.capacity_pushBack queue x hfull]
      omega
    · simp [B.content_eq queue hempty, B.capacity_popFront queue hempty]
      omega
    · rw [hdata, hsignals]
      cases k with
      | put x => exact absurd rfl (hput x)
      | _ => simp

end BoundedBlockingQueue

section Results

variable {T α : Type} [DecidableEq T] [Fintype T] (B : CircularBuffer α)

/-- The threads that use a `BoundedBlockingQueue`. -/
abbrev BoundedQueueUsers (T : Type) {α : Type} (B : CircularBuffer α) :=
  Execution T B.Buffer QueueCondition (BoundedBlockingQueueCall α) (QueueResult α)

omit [Fintype T] in
/-- The capacity never changes. -/
theorem boundedBlockingQueue_capacity {capacity : ℕ}
    {a : Atomic T B.Buffer (BoundedBlockingQueueCall α) (QueueResult α)}
    (h : Atomic.Runs (boundedBlockingQueue B) (B.init capacity) (.ok a)) :
    B.capacity a.data = capacity := by
  refine Atomic.Runs.performed (I := fun d _ => B.capacity d = capacity) (B.capacity_init capacity)
    ?_ h
  intro queue l t k done ih _ hbody
  obtain ⟨x, -, hfull, rfl⟩ | ⟨hempty, -, rfl⟩ | ⟨-, -, hdata, -, -⟩ :=
    boundedBlockingQueue_body_cases hbody
  · exact (B.capacity_pushBack queue x hfull).trans ih
  · exact (B.capacity_popFront queue hempty).trans ih
  · rw [hdata]
    exact ih

/-- Whatever the threads do and in whatever order, no assertion of a `BoundedBlockingQueue` fails,
there are never more elements than it was made for, and the calls have the results of calls that
take effect one after another, with the elements taken in the order in which they were put. -/
theorem boundedBlockingQueue_fifo (capacity : ℕ) (p : Except Failure (BoundedQueueUsers T B))
    (h : Execution.Runs (boundedBlockingQueue B) (B.init capacity) p) :
    ∃ s a, p = .ok s ∧ Atomic.Runs (boundedBlockingQueue B) (B.init capacity) (.ok a) ∧
      Represents s a ∧ (B.content s.data).length ≤ capacity ∧
      (boundedBlockingQueueFifo B).puts a.performed =
        (boundedBlockingQueueFifo B).takes a.performed ++ B.content s.data := by
  obtain ⟨s, rfl, -⟩ := h.safe boundedBlockingQueue_body_ok
  obtain ⟨a, ha, hrep⟩ := linearizable h
  have hputs := (boundedBlockingQueueFifo B).puts_eq (B.content_init capacity) ha
  have hlength := B.length_le a.data
  rw [boundedBlockingQueue_capacity B ha, hrep.data] at hlength
  rw [hrep.data] at hputs
  exact ⟨s, a, rfl, ha, hrep, hlength, hputs⟩

/-- A thread waits for an element and gets the one that another thread puts. -/
theorem boundedBlockingQueue_fifo_handover :
    let B := CircularBuffer.lists ℕ
    ∃ s : BoundedQueueUsers (Fin 2) B,
    s.events = [.call 1 .take, .call 0 (.put 7), .ret 0 .void, .ret 1 (.value 7)] ∧
    ∃ s' a, (.ok s : Except Failure (BoundedQueueUsers (Fin 2) B)) = .ok s' ∧
      Atomic.Runs (boundedBlockingQueue B) (B.init 1) (.ok a) ∧
      Represents s' a ∧ (B.content s'.data).length ≤ 1 ∧
      (boundedBlockingQueueFifo B).puts a.performed =
        (boundedBlockingQueueFifo B).takes a.performed ++ B.content s'.data := by
  intro B
  have hrun : seen (exec (faulting (Execution.step (boundedBlockingQueue B)))
      (.ok (Execution.init (T := Fin 2) (B.init 1)))
      (List.flatten [.call 1 .take :: List.replicate 5 (.proceed 1 none),
        .call 0 (.put 7) :: List.replicate 4 (.proceed 0 none),
        .proceed 0 (some 1) :: List.replicate 2 (.proceed 0 none),
        List.replicate 7 (.proceed 1 none)]))
      (fun s => decide (s.events = [.call 1 .take, .call 0 (.put 7), .ret 0 .void,
        .ret 1 (.value 7)])) = true := by decide +kernel
  obtain ⟨s, hs, hevents⟩ := exists_of_seen hrun
  exact ⟨s, of_decide_eq_true hevents,
    boundedBlockingQueue_fifo B 1 (.ok s) (.of_exec _ hs)⟩

/-- Left to themselves the threads in the functions of a `BoundedBlockingQueue` come to rest, and
then only a `take()` from an empty queue and a `put()` into a full one have not returned. -/
theorem boundedBlockingQueue_settles (capacity : ℕ) (s : BoundedQueueUsers T B)
    (h : Execution.Runs (boundedBlockingQueue B) (B.init capacity) (.ok s)) :
    (∀ f : ℕ → BoundedQueueUsers T B, f 0 = s → ¬ ∀ i, ∃ t chosen,
      (f i).step (boundedBlockingQueue B) (.proceed t chosen) = some (.ok (f (i + 1)))) ∧
    (s.Stuck (boundedBlockingQueue B) → ∀ t, s.pc t = .outside ∨
      (s.pc t = .waiting .take .notEmpty ∧ B.content s.data = []) ∨
      ∃ x, s.pc t = .waiting (.put x) .notFull ∧ (B.content s.data).length = capacity) := by
  refine ⟨fun f _ => Execution.not_endless _ f, fun hstuck t => ?_⟩
  obtain hout | ⟨k, c, hwait⟩ := h.exclusive.quiet hstuck t
  · exact .inl hout
  · obtain ⟨d', hd'⟩ : ∃ d', (boundedBlockingQueue B).loop k d' = some c := by
      have hagrees := h.exclusive.agrees t
      rwa [hwait] at hagrees
    obtain ⟨rfl, rfl, -⟩ | ⟨x, rfl, rfl, -⟩ := boundedBlockingQueue_loop_eq_some hd'
    · have hzero := (boundedBlockingQueueElements B).units_eq_zero_of_stuck h hstuck hwait
      exact .inr (.inl ⟨hwait, List.length_eq_zero_iff.mp hzero⟩)
    · have hzero := (boundedBlockingQueuePlaces B).units_eq_zero_of_stuck h hstuck hwait
      obtain ⟨a, ha, hrep⟩ := linearizable h
      have hcapacity := boundedBlockingQueue_capacity B ha
      have hle := B.length_le s.data
      rw [hrep.data] at hcapacity
      simp only [boundedBlockingQueuePlaces] at hzero
      exact .inr (.inr ⟨x, hwait, by omega⟩)

/-- A thread in `take()`, with nothing to take. -/
theorem boundedBlockingQueue_settles_waiting :
    let B := CircularBuffer.lists ℕ
    ∃ s : BoundedQueueUsers (Fin 2) B,
    (s.pc 1).waitsFor .notEmpty = true ∧ s.Stuck (boundedBlockingQueue B) ∧
    ∀ t, s.pc t = .outside ∨ (s.pc t = .waiting .take .notEmpty ∧ B.content s.data = []) ∨
      ∃ x, s.pc t = .waiting (.put x) .notFull ∧ (B.content s.data).length = 1 := by
  intro B
  have hrun : seen (exec (faulting (Execution.step (boundedBlockingQueue B)))
      (.ok (Execution.init (T := Fin 2) (B.init 1)))
      (.call 1 .take :: List.replicate 5 (.proceed 1 none)))
      (fun s => (s.pc 1).waitsFor .notEmpty && decide (∀ t chosen,
        (s.step (boundedBlockingQueue B) (.proceed t chosen)).isNone = true)) = true := by
    decide +kernel
  obtain ⟨s, hs, hcheck⟩ := exists_of_seen hrun
  obtain ⟨hwaits, hnone⟩ := (Bool.and_eq_true _ _).mp hcheck
  have hstuck : s.Stuck (boundedBlockingQueue B) := fun t chosen =>
    Option.isNone_iff_eq_none.mp (of_decide_eq_true hnone t chosen)
  exact ⟨s, hwaits, hstuck,
    (boundedBlockingQueue_settles B 1 s (.of_exec _ hs)).2 hstuck⟩

/-- A `BlockingQueue` hands on its elements in order, no assertion fails, and at rest only a
`take()` from an empty queue has not returned. -/
theorem blockingQueue_delivers (p : Except Failure
      (Execution T (List α) QueueCondition (BlockingQueueCall α) (QueueResult α)))
    (h : Execution.Runs (blockingQueue α) [] p) :
    ∃ s a, p = .ok s ∧ Atomic.Runs (blockingQueue α) [] (.ok a) ∧ Represents s a ∧
      (blockingQueueFifo α).puts a.performed = (blockingQueueFifo α).takes a.performed ++ s.data ∧
      (s.Stuck (blockingQueue α) → ∀ t, s.pc t = .outside ∨
        (s.pc t = .waiting .take .notEmpty ∧ s.data = [])) := by
  obtain ⟨s, rfl, hex⟩ := h.safe blockingQueue_body_ok
  obtain ⟨a, ha, hrep⟩ := linearizable h
  have hputs := (blockingQueueFifo α).puts_eq rfl ha
  rw [hrep.data] at hputs
  refine ⟨s, a, rfl, ha, hrep, hputs, fun hstuck t => ?_⟩
  obtain hout | ⟨k, c, hwait⟩ := hex.quiet hstuck t
  · exact .inl hout
  · obtain ⟨d', hd'⟩ : ∃ d', (blockingQueue α).loop k d' = some c := by
      have hagrees := hex.agrees t
      rwa [hwait] at hagrees
    obtain ⟨rfl, rfl, -⟩ := blockingQueue_loop_eq_some hd'
    have hzero := (blockingQueueElements α).units_eq_zero_of_stuck h hstuck hwait
    exact .inr ⟨hwait, List.length_eq_zero_iff.mp hzero⟩

/-- An element is put, and another thread takes it. -/
theorem blockingQueue_delivers_one : ∃ s : Execution (Fin 2) (List ℕ) QueueCondition
      (BlockingQueueCall ℕ) (QueueResult ℕ),
    s.events = [.call 0 (.put 7), .ret 0 .void, .call 1 .take, .ret 1 (.value 7)] ∧
    ∃ s' a, (.ok s : Except Failure (Execution (Fin 2) (List ℕ) QueueCondition
        (BlockingQueueCall ℕ) (QueueResult ℕ))) = .ok s' ∧
      Atomic.Runs (blockingQueue ℕ) [] (.ok a) ∧ Represents s' a ∧
      (blockingQueueFifo ℕ).puts a.performed = (blockingQueueFifo ℕ).takes a.performed ++ s'.data ∧
      (s'.Stuck (blockingQueue ℕ) → ∀ t, s'.pc t = .outside ∨
        (s'.pc t = .waiting .take .notEmpty ∧ s'.data = [])) := by
  have hrun : seen (exec (faulting (Execution.step (blockingQueue ℕ)))
      (.ok (Execution.init (T := Fin 2) []))
      (List.flatten [.call 0 (.put 7) :: List.replicate 7 (.proceed 0 none),
        .call 1 .take :: List.replicate 6 (.proceed 1 none)]))
      (fun s => decide (s.events = [.call 0 (.put 7), .ret 0 .void, .call 1 .take,
        .ret 1 (.value 7)])) = true := by decide +kernel
  obtain ⟨s, hs, hevents⟩ := exists_of_seen hrun
  exact ⟨s, of_decide_eq_true hevents, blockingQueue_delivers (.ok s) (.of_exec _ hs)⟩

end Results

end DbdkyGcc.Threads
