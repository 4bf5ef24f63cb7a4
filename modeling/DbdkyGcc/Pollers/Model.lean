import DbdkyGcc.Foundations.Guarded

/-!
# The two pollers

`PollPoller` and `EPollPoller` keep the interest of a loop's channels for `poll(2)` and for
`epoll_wait`. Both are given here with the system call that they use: level-triggered, and
reporting the ready events among those that a descriptor is registered for, and errors and
hang-ups always. A channel is named by its descriptor.
-/

namespace DbdkyGcc.Pollers

open Foundations

/-- The bits of `events` and `revents`. -/
inductive Event
  | POLLIN
  | POLLPRI
  | POLLOUT
  | POLLERR
  | POLLHUP
deriving DecidableEq

abbrev Events := Finset Event

def kNoneEvent : Events := ∅

def kReadEvent : Events := {.POLLIN, .POLLPRI}

def kWriteEvent : Events := {.POLLOUT}

/-- What the system calls report for a registered descriptor. -/
def occurring (ready events : Events) : Events := ready ∩ (events ∪ {.POLLERR, .POLLHUP})

structure Channel where
  events : Events
  index : Int

inductive Fault
  | assertion
  /-- a member of a null pointer -/
  | nullPointer
  /-- `LOG_SYSFATAL` -/
  | fatal
deriving DecidableEq

/-- A loop's channels, by descriptor, and its poller. -/
structure Loop (π : Type) where
  channel : Nat → Channel
  poller : π

variable {π : Type}

def Loop.setEvents (l : Loop π) (fd : Nat) (events : Events) : Loop π :=
  { l with channel := Function.update l.channel fd { l.channel fd with events } }

def Loop.setIndex (l : Loop π) (fd : Nat) (index : Int) : Loop π :=
  { l with channel := Function.update l.channel fd { l.channel fd with index } }

/-- The virtual functions of `Poller`. The state of the kernel is given to `poll`; it returns the
active channels with their `revents`. -/
class Poller (π : Type) where
  updateChannel : Loop π → Nat → Except Fault (Loop π)
  removeChannel : Loop π → Nat → Except Fault (Loop π)
  poll : Loop π → (Nat → Events) → Except Fault (List (Nat × Events) × Loop π)

/-- The interest operations of `Channel`. -/
inductive Operation
  | enableReading
  | enableWriting
  | disableWriting
  | disableAll
deriving DecidableEq

def Operation.apply : Operation → Events → Events
  | .enableReading, events => events ∪ kReadEvent
  | .enableWriting, events => events ∪ kWriteEvent
  | .disableWriting, events => events \ kWriteEvent
  | .disableAll, _ => kNoneEvent

inductive Action
  | update (op : Operation) (fd : Nat)
  | remove (fd : Nat)
  | poll (ready : Nat → Events)

/-- One operation on a channel or one poll, with what it reports. -/
def Loop.step [Poller π] (l : Loop π) : Action → Except Fault (List (Nat × Events) × Loop π)
  | .update op fd => do
    let l ← Poller.updateChannel (l.setEvents fd (op.apply (l.channel fd).events)) fd
    return ([], l)
  | .remove fd => do
    ensure .assertion ((l.channel fd).events = kNoneEvent)
    let l ← Poller.removeChannel l fd
    return ([], l)
  | .poll ready => Poller.poll l ready

section PollPoller

/-- A `struct pollfd`; `revents` is filled by each call. -/
structure PollFd where
  fd : Int
  events : Events
deriving DecidableEq

structure PollPoller where
  pollfds : List PollFd
  channels : Finset Int

/-- `poll(2)` ignores an entry whose descriptor is negative. -/
def PollFd.revents (ready : Nat → Events) (pfd : PollFd) : Events :=
  if pfd.fd < 0 then ∅ else occurring (ready pfd.fd.toNat) pfd.events

namespace PollPoller

def updateChannel (l : Loop PollPoller) (fd : Nat) : Except Fault (Loop PollPoller) := do
  let channel := l.channel fd
  let p := l.poller
  if channel.index < 0 then do
    ensure .assertion ((fd : Int) ∉ p.channels)
    let poller :=
      { pollfds := p.pollfds ++ [⟨fd, channel.events⟩], channels := insert (fd : Int) p.channels }
    return { l.setIndex fd p.pollfds.length with poller }
  else do
    ensure .assertion ((fd : Int) ∈ p.channels)
    let idx := channel.index.toNat
    let pfd ← require .assertion p.pollfds[idx]?
    ensure .assertion (pfd.fd = fd ∨ pfd.fd = -fd - 1)
    let pfd' : PollFd :=
      { fd := if channel.events = kNoneEvent then -fd - 1 else pfd.fd, events := channel.events }
    return { l with poller := { p with pollfds := p.pollfds.set idx pfd' } }

def removeChannel (l : Loop PollPoller) (fd : Nat) : Except Fault (Loop PollPoller) := do
  let channel := l.channel fd
  let p := l.poller
  ensure .assertion ((fd : Int) ∈ p.channels)
  ensure .assertion (channel.events = kNoneEvent)
  ensure .assertion (0 ≤ channel.index)
  let idx := channel.index.toNat
  let pfd ← require .assertion p.pollfds[idx]?
  ensure .assertion (pfd.fd = -fd - 1 ∧ pfd.events = channel.events)
  let channels := p.channels.erase fd
  if idx = p.pollfds.length - 1 then
    return { l with poller := { pollfds := p.pollfds.dropLast, channels } }
  else do
    let last ← require .assertion p.pollfds.getLast?
    let channelAtEnd := if last.fd < 0 then -last.fd - 1 else last.fd
    -- `channels_[channelAtEnd]` of a key that is not there is null
    ensure .nullPointer (channelAtEnd ∈ channels)
    let poller := { pollfds := (p.pollfds.set idx last).dropLast, channels }
    return { l.setIndex channelAtEnd.toNat channel.index with poller }

/-- The loop of `fillActiveChannels`, with `numEvents` still to be found. -/
def fillActiveChannels (channels : Finset Int) (ready : Nat → Events) :
    Nat → List PollFd → Except Fault (List (Nat × Events))
  | 0, _ => .ok []
  | _ + 1, [] => .ok []
  | numEvents + 1, pfd :: pollfds =>
    if pfd.events ≠ kNoneEvent then do
      ensure .assertion (pfd.fd ∈ channels)
      let activeChannels ← fillActiveChannels channels ready numEvents pollfds
      return (pfd.fd.toNat, pfd.revents ready) :: activeChannels
    else fillActiveChannels channels ready (numEvents + 1) pollfds

def poll (l : Loop PollPoller) (ready : Nat → Events) :
    Except Fault (List (Nat × Events) × Loop PollPoller) := do
  let numEvents := l.poller.pollfds.countP fun pfd => pfd.revents ready ≠ ∅
  let activeChannels ← fillActiveChannels l.poller.channels ready numEvents l.poller.pollfds
  return (activeChannels, l)

end PollPoller

instance : Poller PollPoller where
  updateChannel := PollPoller.updateChannel
  removeChannel := PollPoller.removeChannel
  poll := PollPoller.poll

/-- A loop with a new `PollPoller`. -/
def PollPoller.new : Loop PollPoller := ⟨fun _ => ⟨kNoneEvent, -1⟩, [], ∅⟩

end PollPoller

section EPollPoller

/-- `interest` is the kernel's interest list; `events` is the size of `events_`. -/
structure EPollPoller where
  interest : List (Nat × Events)
  channels : Finset Nat
  events : Nat

def kNew : Int := -1

def kAdded : Int := 1

def kDeleted : Int := 2

inductive EpollCtl
  | EPOLL_CTL_ADD
  | EPOLL_CTL_MOD
  | EPOLL_CTL_DEL
deriving DecidableEq

/-- `epoll_ctl`, which fails when the descriptor is on the list already, or is not. -/
def epollCtl (interest : List (Nat × Events)) (operation : EpollCtl) (fd : Nat) (events : Events) :
    Option (List (Nat × Events)) :=
  match operation with
  | .EPOLL_CTL_ADD =>
    if fd ∈ interest.map Prod.fst then none else some (interest ++ [(fd, events)])
  | .EPOLL_CTL_MOD =>
    if fd ∈ interest.map Prod.fst then
      some (interest.map fun e => if e.1 = fd then (fd, events) else e)
    else none
  | .EPOLL_CTL_DEL =>
    if fd ∈ interest.map Prod.fst then some (interest.filter fun e => e.1 ≠ fd) else none

namespace EPollPoller

def update (operation : EpollCtl) (l : Loop EPollPoller) (fd : Nat) : Except Fault (Loop EPollPoller) :=
  match epollCtl l.poller.interest operation fd (l.channel fd).events with
  | some interest => .ok { l with poller := { l.poller with interest } }
  | none => if operation = .EPOLL_CTL_DEL then .ok l else .error .fatal

def updateChannel (l : Loop EPollPoller) (fd : Nat) : Except Fault (Loop EPollPoller) := do
  let index := (l.channel fd).index
  let p := l.poller
  if index = kNew ∨ index = kDeleted then do
    let l ←
      if index = kNew then do
        ensure .assertion (fd ∉ p.channels)
        pure { l with poller := { p with channels := insert fd p.channels } }
      else do
        ensure .assertion (fd ∈ p.channels)
        pure l
    update .EPOLL_CTL_ADD (l.setIndex fd kAdded) fd
  else do
    ensure .assertion (fd ∈ p.channels)
    ensure .assertion (index = kAdded)
    if (l.channel fd).events = kNoneEvent then do
      let l ← update .EPOLL_CTL_DEL l fd
      return l.setIndex fd kDeleted
    else update .EPOLL_CTL_MOD l fd

def removeChannel (l : Loop EPollPoller) (fd : Nat) : Except Fault (Loop EPollPoller) := do
  let index := (l.channel fd).index
  let p := l.poller
  ensure .assertion (fd ∈ p.channels)
  ensure .assertion ((l.channel fd).events = kNoneEvent)
  ensure .assertion (index = kAdded ∨ index = kDeleted)
  let l := { l with poller := { p with channels := p.channels.erase fd } }
  let l ← if index = kAdded then update .EPOLL_CTL_DEL l fd else pure l
  return l.setIndex fd kNew

/-- The descriptors of the interest list that have something to report. -/
def occurred (p : EPollPoller) (ready : Nat → Events) : List (Nat × Events) :=
  (p.interest.map fun e => (e.1, occurring (ready e.1) e.2)).filter fun e => e.2 ≠ ∅

/-- `epoll_wait` fills at most `events_`, which grows when it has been full. -/
def poll (l : Loop EPollPoller) (ready : Nat → Events) :
    Except Fault (List (Nat × Events) × Loop EPollPoller) := do
  let p := l.poller
  let events := (p.occurred ready).take p.events
  let numEvents := events.length
  ensure .assertion (numEvents ≤ p.events)
  ensure .assertion (∀ e ∈ events, e.1 ∈ p.channels)
  let size := if 0 < numEvents ∧ numEvents = p.events then p.events * 2 else p.events
  return (events, { l with poller := { p with events := size } })

end EPollPoller

instance : Poller EPollPoller where
  updateChannel := EPollPoller.updateChannel
  removeChannel := EPollPoller.removeChannel
  poll := EPollPoller.poll

def kInitEventListSize : Nat := 16

/-- A loop with a new `EPollPoller`. -/
def EPollPoller.new : Loop EPollPoller := ⟨fun _ => ⟨kNoneEvent, -1⟩, [], ∅, kInitEventListSize⟩

end EPollPoller

end DbdkyGcc.Pollers
