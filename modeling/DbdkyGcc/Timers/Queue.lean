import DbdkyGcc.Foundations.Guarded
import DbdkyGcc.Foundations.OrderedSet
import DbdkyGcc.Foundations.Runs

/-!
# The timer queue

`TimerQueue` keeps its timers twice, ordered by expiration and by address, and drives one
timerfd. The functions below are its own, on a heap of `Timer` objects whose addresses the
allocator may hand out again. A failed assertion and the use of a deleted timer are faults.
`handleRead` is three kinds of steps, so that the callbacks it runs can call back into the
queue between them.
-/

namespace DbdkyGcc.Timers

open Foundations

/-- What the queue reads off an interval given in seconds: whether it is above zero, and its
whole microseconds. An interval of 2^63 microseconds or more, which the source cannot convert to
`int64_t`, is not one. -/
structure Interval where
  positive : Bool
  micros : Int
  micros_nonneg : positive = true → 0 ≤ micros
deriving DecidableEq

/-- `Timer`, without its callback. Times are microseconds since the epoch. The source has them in
`int64_t`; the model adds without overflow, which is the same as long as the sums of times and
intervals stay below 2^63. -/
structure Timer where
  expiration : Int
  interval : Interval
  sequence : Nat
deriving DecidableEq

/-- `repeat()` -/
def Timer.repeats (t : Timer) : Bool := t.interval.positive

/-- `restart(now)`; the expiration of a timer that does not repeat becomes invalid. -/
def Timer.restart (t : Timer) (now : Int) : Timer :=
  { t with expiration := if t.repeats then now + t.interval.micros else 0 }

/-- A member of `timers_`. -/
structure Entry where
  expiration : Int
  timer : Nat
deriving DecidableEq

/-- A member of `activeTimers_`, and a `TimerId`. -/
structure ActiveTimer where
  timer : Nat
  sequence : Nat
deriving DecidableEq

/-- Entries are compared by expiration, then by address. -/
def Entry.key (e : Entry) : Int ×ₗ Nat := toLex (e.expiration, e.timer)

def ActiveTimer.key (a : ActiveTimer) : Nat ×ₗ Nat := toLex (a.timer, a.sequence)

theorem Entry.key_injective : Function.Injective Entry.key := by
  rintro ⟨e, t⟩ ⟨e', t'⟩ h
  cases toLex.injective h
  rfl

theorem ActiveTimer.key_injective : Function.Injective ActiveTimer.key := by
  rintro ⟨t, n⟩ ⟨t', n'⟩ h
  cases toLex.injective h
  rfl

instance : LinearOrder Entry := LinearOrder.lift' Entry.key Entry.key_injective

instance : LinearOrder ActiveTimer := LinearOrder.lift' ActiveTimer.key ActiveTimer.key_injective

theorem Entry.lt_iff {a b : Entry} :
    a < b ↔ a.expiration < b.expiration ∨ a.expiration = b.expiration ∧ a.timer < b.timer :=
  Prod.Lex.toLex_lt_toLex

theorem Entry.le_iff {a b : Entry} :
    a ≤ b ↔ a.expiration < b.expiration ∨ a.expiration = b.expiration ∧ a.timer ≤ b.timer :=
  Prod.Lex.toLex_le_toLex

/-- No object lies at the highest address. -/
def UINTPTR_MAX : Nat := 2 ^ 64 - 1

/-- The state of an armed timerfd: when it was set, and when it fires. -/
structure Arming where
  settime : Int
  deadline : Int
deriving DecidableEq

/-- The local variables of `handleRead` between two callbacks: the entries whose callback has
been started, and those whose turn is still to come. -/
structure Batch where
  now : Int
  ran : List Entry
  todo : List Entry
deriving DecidableEq

inductive Fault
  | assertion
  | useAfterDelete
  | doubleDelete
deriving DecidableEq

/-- The queue with what it works on. `queued` are the timers whose `addTimerInLoop` has been
passed to the loop and has not run. The fields `deleted` and `started` are history: the
sequence numbers of deleted timers, and the timers whose callback has been started. -/
structure TimerQueue where
  heap : Nat → Option Timer
  numCreated : Nat
  clock : Int
  timerfd : Option Arming
  timers : OrderedSet Entry
  activeTimers : OrderedSet ActiveTimer
  callingExpiredTimers : Bool
  cancelingTimers : OrderedSet ActiveTimer
  queued : Finset Nat
  batch : Option Batch
  deleted : List Nat
  started : List ActiveTimer

/-- A timespec. -/
structure Timespec where
  sec : Int
  nsec : Int
deriving DecidableEq

def howMuchTimeFromNow (when now : Int) : Timespec :=
  let microseconds := if when - now < 100 then 100 else when - now
  { sec := microseconds / 1000000, nsec := microseconds % 1000000 * 1000 }

namespace TimerQueue

variable (q : TimerQueue)

/-- A member of the timer at an address. -/
def load (timer : Nat) : Except Fault Timer := require .useAfterDelete (q.heap timer)

def delete (timer : Nat) : Except Fault TimerQueue := do
  let t ← require .doubleDelete (q.heap timer)
  return { q with
    heap := Function.update q.heap timer none
    deleted := t.sequence :: q.deleted }

/-- `timerfd_settime` with a relative time; the time zero disarms. -/
def timerfdSettime (value : Timespec) : TimerQueue :=
  { q with
    timerfd :=
      if value = ⟨0, 0⟩ then none
      else some ⟨q.clock, q.clock + (value.sec * 1000000 + value.nsec / 1000)⟩ }

def resetTimerfd (expiration : Int) : TimerQueue :=
  q.timerfdSettime (howMuchTimeFromNow expiration q.clock)

/-- A read disarms a timerfd that has fired, and fails before. -/
def readTimerfd : TimerQueue :=
  { q with timerfd := q.timerfd.filter fun arming => q.clock < arming.deadline }

def insert (timer : Nat) : Except Fault (Bool × TimerQueue) := do
  ensure .assertion (q.timers.size = q.activeTimers.size)
  let t ← q.load timer
  let earliestChanged := q.timers.first.all fun e => t.expiration < e.expiration
  ensure .assertion (⟨t.expiration, timer⟩ ∉ q.timers)
  ensure .assertion (⟨timer, t.sequence⟩ ∉ q.activeTimers)
  let timers := q.timers.insert ⟨t.expiration, timer⟩
  let activeTimers := q.activeTimers.insert ⟨timer, t.sequence⟩
  ensure .assertion (timers.size = activeTimers.size)
  return (earliestChanged, { q with timers, activeTimers })

def addTimerInLoop (timer : Nat) : Except Fault TimerQueue := do
  let (earliestChanged, q) ← q.insert timer
  if earliestChanged then do
    let t ← q.load timer
    return q.resetTimerfd t.expiration
  else return q

def cancelInLoop (timerId : ActiveTimer) : Except Fault TimerQueue := do
  ensure .assertion (q.timers.size = q.activeTimers.size)
  let q ←
    if timerId ∈ q.activeTimers then do
      let t ← q.load timerId.timer
      ensure .assertion (⟨t.expiration, timerId.timer⟩ ∈ q.timers)
      let timers := q.timers.erase ⟨t.expiration, timerId.timer⟩
      let q ← { q with timers }.delete timerId.timer
      pure { q with activeTimers := q.activeTimers.erase timerId }
    else
      pure { q with
        cancelingTimers :=
          if q.callingExpiredTimers then q.cancelingTimers.insert timerId else q.cancelingTimers }
  ensure .assertion (q.timers.size = q.activeTimers.size)
  return q

/-- The turn of the loop of `getExpired` for one expired entry. -/
def eraseActive (e : Entry) : Except Fault TimerQueue := do
  let t ← q.load e.timer
  ensure .assertion (⟨e.timer, t.sequence⟩ ∈ q.activeTimers)
  return { q with activeTimers := q.activeTimers.erase ⟨e.timer, t.sequence⟩ }

def getExpired (now : Int) : Except Fault (List Entry × TimerQueue) := do
  ensure .assertion (q.timers.size = q.activeTimers.size)
  let sentry : Entry := ⟨now, UINTPTR_MAX⟩
  let expired := q.timers.below sentry
  let timers := q.timers.dropBelow sentry
  ensure .assertion (timers.first.all fun e => now < e.expiration)
  let q ← expired.foldlM eraseActive { q with timers }
  ensure .assertion (q.timers.size = q.activeTimers.size)
  return (expired, q)

/-- `handleRead` up to its loop over the callbacks. -/
def handleRead : Except Fault TimerQueue := do
  let now := q.clock
  let (expired, q) ← q.readTimerfd.getExpired now
  return { q with
    callingExpiredTimers := true
    cancelingTimers := ∅
    batch := some ⟨now, [], expired⟩ }

/-- `it->second->run()`, up to the entry of the callback. -/
def run (b : Batch) (e : Entry) : Except Fault TimerQueue := do
  let t ← q.load e.timer
  return { q with
    started := ⟨e.timer, t.sequence⟩ :: q.started
    batch := some ⟨b.now, b.ran ++ [e], b.todo.tail⟩ }

/-- The turn of the loop of `reset` for one expired entry. -/
def resetOne (now : Int) (q : TimerQueue) (e : Entry) : Except Fault TimerQueue := do
  let t ← q.load e.timer
  if t.repeats = true ∧ ⟨e.timer, t.sequence⟩ ∉ q.cancelingTimers then do
    let heap := Function.update q.heap e.timer (some (t.restart now))
    let (_, q) ← { q with heap }.insert e.timer
    return q
  else q.delete e.timer

/-- `reset`; a time is valid when it is above zero, and the default one is not. -/
def reset (expired : List Entry) (now : Int) : Except Fault TimerQueue := do
  let q ← expired.foldlM (resetOne now) q
  let nextExpire ← q.timers.first.elim (.ok 0) fun e => Timer.expiration <$> q.load e.timer
  return if 0 < nextExpire then q.resetTimerfd nextExpire else q

/-- `handleRead` after its loop. -/
def finish (b : Batch) : Except Fault TimerQueue := do
  let q ← { q with callingExpiredTimers := false }.reset b.ran b.now
  return { q with batch := none }

end TimerQueue

inductive Action
  /-- time passes, or the wall clock is set -/
  | tick (now : Int)
  /-- `addTimer` in any thread: a timer at this address, its insertion passed to the loop -/
  | create (timer : Nat) (when : Int) (interval : Interval)
  | addTimerInLoop (timer : Nat)
  | cancelInLoop (timerId : ActiveTimer)
  | handleRead
  | run
  | finish

/-- The steps of the queue. Outside `handleRead` its functions are called by the loop, inside
by the callbacks; `timerId` may be any pair, current or stale. -/
def step (q : TimerQueue) : Action → Option (Except Fault TimerQueue)
  | .tick now => some (.ok { q with clock := now })
  | .create timer when interval =>
    if q.heap timer = none ∧ timer < UINTPTR_MAX then
      some (.ok { q with
        heap := Function.update q.heap timer (some ⟨when, interval, q.numCreated + 1⟩)
        numCreated := q.numCreated + 1
        queued := insert timer q.queued })
    else none
  | .addTimerInLoop timer =>
    if timer ∈ q.queued then
      some ({ q with queued := q.queued.erase timer }.addTimerInLoop timer)
    else none
  | .cancelInLoop timerId => some (q.cancelInLoop timerId)
  | .handleRead => if q.batch = none then some q.handleRead else none
  | .run => do
    let b ← q.batch
    let e ← b.todo.head?
    return q.run b e
  | .finish => do
    let b ← q.batch
    if b.todo = [] then return q.finish b else none

/-- The wall clock is not set back. -/
def NotSetBack (q : TimerQueue) : Action → Prop
  | .tick now => q.clock ≤ now
  | _ => True

instance (q : TimerQueue) : ∀ a, Decidable (NotSetBack q a)
  | .tick now => inferInstanceAs (Decidable (q.clock ≤ now))
  | .create _ _ _ => .isTrue trivial
  | .addTimerInLoop _ => .isTrue trivial
  | .cancelInLoop _ => .isTrue trivial
  | .handleRead => .isTrue trivial
  | .run => .isTrue trivial
  | .finish => .isTrue trivial

/-- A new queue. -/
def TimerQueue.initial (clock : Int) : TimerQueue :=
  ⟨fun _ => none, 0, clock, none, ∅, ∅, false, ∅, ∅, none, [], []⟩

/-- The wall clock reads a time after the epoch when the queue is made. -/
def Started (q : TimerQueue) : Prop := ∃ clock, 0 < clock ∧ q = .initial clock

end DbdkyGcc.Timers
