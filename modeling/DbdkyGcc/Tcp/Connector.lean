import DbdkyGcc.Foundations.Guarded
import DbdkyGcc.Foundations.Runs

/-!
# The connector of a client

`TcpClient` has its connections made by a `Connector`, which creates a socket, waits for it on a
channel of its own, and hands it over or tries again after a delay. The functions below are those
of the two classes. They run in the loop thread, in the callbacks of the active channels and in
functors; other threads call `connect`, `disconnect` and `stop`, whose rest is queued to the loop.
A failed assertion is a fault. Sockets are numbered in the order of their creation.
-/

namespace DbdkyGcc.Tcp

open Foundations

inductive States
  | kDisconnected
  | kConnecting
  | kConnected
deriving DecidableEq

def kInitRetryDelayMs : Nat := 500

def kMaxRetryDelayMs : Nat := 30 * 1000

/-- `channel_`: its socket, and whether the poller still has it. -/
structure Channel where
  sockfd : Nat
  registered : Bool
deriving DecidableEq

/-- What is queued to the loop; each `stop()` has a number. -/
inductive Functor
  | startInLoop
  | stopInLoop (call : Nat)
  | resetChannel
deriving DecidableEq

/-- What a poll finds active: the channel of the connector, that of the connection, the timerfd, or
any other channel. -/
inductive Source
  | connector (error writable : Bool)
  | connection
  | timers
  | other
deriving DecidableEq

def Source.isConnector : Source → Bool
  | .connector _ _ => true
  | _ => false

/-- No callback of the connector is to come for the source. -/
def Source.isDone : Source → Bool
  | .connector error writable => !error && !writable
  | _ => true

/-- Where the loop is. -/
inductive Phase
  /-- outside `loop()`, or in `poll` -/
  | waiting
  /-- among the active channels: whether that of the connector is one of them, the one whose
  callbacks run, and those to come -/
  | handling (connectorActive : Bool) (current : Option Source) (todo : List Source)
  /-- in `doPendingFunctors`, with the functors to come -/
  | draining (functors : List Functor)
deriving DecidableEq

inductive Fault
  | startInLoop
  | connecting
  | handleWrite
  | handleError
  | removeChannel
  | nullChannel
deriving DecidableEq

/-- What `connect(2)` leads to. -/
inductive Outcome
  | connecting
  | retry
  | close
deriving DecidableEq

/-- The members of `TcpClient` (`retry`, `clientConnect`, `connection`) and of its connector, the
loop, the timers that have been scheduled, and the calls in other threads: `entering` have
written `TcpClient::connect_`, `calling` have written `Connector::connect_` too and have a functor
to queue. History are the sockets, and for `stop()` the calls since the last `start()` or
`restart()` and those whose `stopInLoop` has run. -/
structure Client where
  retry : Bool
  clientConnect : Bool
  connection : Option Nat
  connect : Bool
  state : States
  channel : Option Channel
  retryDelayMs : Nat
  phase : Phase
  pending : List Functor
  timers : List Nat
  entering : List Bool
  calling : List Functor
  created : Nat
  closed : List Nat
  handed : List Nat
  scheduled : Nat
  stopCalls : Nat
  stops : List Nat
  stopped : List Nat

namespace Client

variable (s : Client)

/-- `TcpClient::newConnection` -/
def newConnection (sockfd : Nat) : Client :=
  { s with connection := some sockfd, handed := sockfd :: s.handed }

/-- `sockets::close` -/
def close (sockfd : Nat) : Client := { s with closed := sockfd :: s.closed }

/-- `Connector::retry` -/
def retryLater (sockfd : Nat) : Client :=
  let s := { s.close sockfd with state := .kDisconnected }
  if s.connect then
    { s with
      timers := s.retryDelayMs :: s.timers
      scheduled := s.scheduled + 1
      retryDelayMs := min (s.retryDelayMs * 2) kMaxRetryDelayMs }
  else s

/-- `connecting`; the new channel is registered by `enableWriting`. -/
def connecting (sockfd : Nat) : Except Fault Client := do
  let s := { s with state := .kConnecting }
  ensure .connecting (s.channel = none)
  return { s with channel := some ⟨sockfd, true⟩ }

/-- `Connector::connect` -/
def connectSocket (outcome : Outcome) : Except Fault Client :=
  let sockfd := s.created
  let s := { s with created := s.created + 1 }
  match outcome with
  | .connecting => s.connecting sockfd
  | .retry => .ok (s.retryLater sockfd)
  | .close => .ok (s.close sockfd)

def startInLoop (outcome : Outcome) : Except Fault Client := do
  ensure .startInLoop (s.state = .kDisconnected)
  if s.connect then s.connectSocket outcome else return s

/-- `currentActiveChannel_` is the channel of the connector. -/
def isCurrent : Bool :=
  match s.phase with
  | .handling _ current _ => current.any Source.isConnector
  | _ => false

/-- The channel of the connector is among `activeChannels_`. -/
def isActive : Bool :=
  match s.phase with
  | .handling connectorActive _ _ => connectorActive
  | _ => false

/-- `removeAndResetChannel`, with the assertion of `EventLoop::removeChannel`. -/
def removeAndResetChannel : Except Fault (Nat × Client) := do
  let channel ← require .nullChannel s.channel
  ensure .removeChannel (s.isCurrent = true ∨ s.isActive = false)
  return (channel.sockfd, { s with
    channel := some { channel with registered := false }
    pending := s.pending ++ [.resetChannel] })

/-- `stopInLoop`, of the `stop()` with this number. -/
def stopInLoop (call : Nat) : Except Fault Client := do
  let s := { s with stopped := call :: s.stopped }
  if s.state = .kConnecting then do
    let (sockfd, s) ← { s with state := .kDisconnected }.removeAndResetChannel
    return s.retryLater sockfd
  else return s

def resetChannel : Client := { s with channel := none }

/-- `handleWrite`; the two arguments are what `getSocketError` and `isSelfConnect` find. -/
def handleWrite (err selfConnect : Bool) : Except Fault Client := do
  if s.state = .kConnecting then do
    let (sockfd, s) ← s.removeAndResetChannel
    if err = true ∨ selfConnect = true then
      return s.retryLater sockfd
    else
      let s := { s with state := .kConnected }
      return if s.connect then s.newConnection sockfd else s.close sockfd
  else do
    ensure .handleWrite (s.state = .kDisconnected)
    return s

def handleError : Except Fault Client := do
  ensure .handleError (s.state = .kConnecting)
  let (sockfd, s) ← s.removeAndResetChannel
  return s.retryLater sockfd

/-- `Connector::restart` -/
def restart (outcome : Outcome) : Except Fault Client :=
  { s with
    state := .kDisconnected
    retryDelayMs := kInitRetryDelayMs
    connect := true
    stops := [] }.startInLoop outcome

/-- `TcpClient::removeConnection` -/
def removeConnection (outcome : Outcome) : Except Fault Client :=
  let s := { s with connection := none }
  if s.retry = true ∧ s.clientConnect = true then s.restart outcome else .ok s

/-- `Connector::start` up to `runInLoop` -/
def start : Client := { s with connect := true, stops := [] }

/-- `Connector::stop` up to `runInLoop`; its number is `stopCalls`. -/
def stop : Client :=
  { s with
    connect := false
    stopCalls := s.stopCalls + 1
    stops := s.stopCalls :: s.stops }

def runFunctor (outcome : Outcome) : Functor → Except Fault Client
  | .startInLoop => s.startInLoop outcome
  | .stopInLoop call => s.stopInLoop call
  | .resetChannel => .ok s.resetChannel

end Client

/-- The loop thread runs the code of others. -/
def Phase.runsCallbacks : Phase → Bool
  | .waiting => true
  | .handling _ current _ => current.any Source.isDone
  | .draining _ => true

inductive Action
  | enableRetry
  | disconnect
  /-- `connect()` in the loop thread -/
  | connectInLoop (outcome : Outcome)
  /-- `stop()` in the loop thread -/
  | stopInLoop
  /-- `connect()` (`true`) or `stop()` in another thread writes `TcpClient::connect_` -/
  | call (start : Bool)
  /-- and goes on with `Connector::start` or `Connector::stop` -/
  | start
  | stop
  | queueInLoop (f : Functor)
  | poll (active : List Source)
  /-- the next active channel is handled -/
  | next
  | handleError
  | handleWrite (err selfConnect : Bool)
  /-- a retry timer with this delay fires -/
  | timer (delay : Nat) (outcome : Outcome)
  | removeConnection (outcome : Outcome)
  | doPendingFunctors
  | run (outcome : Outcome)
  | finish

/-- The steps. A poll reports the channels that are registered, each once, in any order. The
callbacks of one channel come in the order of `handleEventWithGuard`; once its connection is
removed, a channel is like any other. -/
def step (s : Client) : Action → Option (Except Fault Client)
  | .enableRetry => some (.ok { s with retry := true })
  | .disconnect => some (.ok { s with clientConnect := false })
  | .connectInLoop outcome =>
    if s.phase.runsCallbacks = true then
      some ({ s with clientConnect := true }.start.startInLoop outcome)
    else none
  | .stopInLoop =>
    if s.phase.runsCallbacks = true then
      some ({ s with clientConnect := false }.stop.stopInLoop s.stopCalls)
    else none
  | .call start => some (.ok { s with clientConnect := start, entering := start :: s.entering })
  | .start =>
    if true ∈ s.entering then
      some (.ok { s.start with
        entering := s.entering.erase true
        calling := .startInLoop :: s.calling })
    else none
  | .stop =>
    if false ∈ s.entering then
      some (.ok { s.stop with
        entering := s.entering.erase false
        calling := .stopInLoop s.stopCalls :: s.calling })
    else none
  | .queueInLoop f =>
    if f ∈ s.calling then
      some (.ok { s with calling := s.calling.erase f, pending := s.pending ++ [f] })
    else none
  | .poll active =>
    if s.phase = .waiting ∧
        active.countP Source.isConnector ≤ (if s.channel.any Channel.registered then 1 else 0) ∧
        active.count .connection ≤ (if s.connection.isSome then 1 else 0) then
      some (.ok { s with phase := .handling (active.any Source.isConnector) none active })
    else none
  | .next =>
    match s.phase with
    | .handling connectorActive current (source :: todo) =>
      if current.all Source.isDone = true then
        some (.ok { s with phase := .handling connectorActive (some source) todo })
      else none
    | _ => none
  | .handleError =>
    match s.phase with
    | .handling connectorActive (some (.connector true writable)) todo =>
      some (Client.handleError { s with
        phase := .handling connectorActive (some (.connector false writable)) todo })
    | _ => none
  | .handleWrite err selfConnect =>
    match s.phase with
    | .handling connectorActive (some (.connector false true)) todo =>
      some (Client.handleWrite { s with
        phase := .handling connectorActive (some (.connector false false)) todo } err selfConnect)
    | _ => none
  | .timer delay outcome =>
    match s.phase with
    | .handling _ (some .timers) _ =>
      if delay ∈ s.timers then
        some ({ s with timers := s.timers.erase delay }.startInLoop outcome)
      else none
    | _ => none
  | .removeConnection outcome =>
    match s.phase with
    | .handling connectorActive (some .connection) todo =>
      if s.connection.isSome then
        some (Client.removeConnection
          { s with phase := .handling connectorActive (some .other) todo } outcome)
      else none
    | _ => none
  | .doPendingFunctors =>
    match s.phase with
    | .handling _ current [] =>
      if current.all Source.isDone = true then
        some (.ok { s with phase := .draining s.pending, pending := [] })
      else none
    | _ => none
  | .run outcome =>
    match s.phase with
    | .draining (f :: functors) => some ({ s with phase := .draining functors }.runFunctor outcome f)
    | _ => none
  | .finish =>
    match s.phase with
    | .draining [] => some (.ok { s with phase := .waiting })
    | _ => none

/-- A new client. -/
def Client.new : Client :=
  { retry := false, clientConnect := true, connection := none, connect := false
    state := .kDisconnected, channel := none, retryDelayMs := kInitRetryDelayMs
    phase := .waiting, pending := [], timers := [], entering := [], calling := [], created := 0
    closed := [], handed := [], scheduled := 0, stopCalls := 0, stops := [], stopped := [] }

/-- The functors of a batch that are to come. -/
def Phase.functors : Phase → List Functor
  | .draining functors => functors
  | _ => []

/-- The functors that are to run or to be queued. -/
def Client.functors (s : Client) : List Functor := s.phase.functors ++ s.pending ++ s.calling

/-! ## What the functions return -/

namespace Client

variable {s t : Client}

/-- The channel is removed and its reset is queued. -/
def released (s : Client) (channel : Channel) : Client :=
  { s with
    channel := some { channel with registered := false }
    pending := s.pending ++ [.resetChannel] }

/-- The socket of the channel is given up. -/
def abandoned (s : Client) (channel : Channel) : Client :=
  (s.released channel).retryLater channel.sockfd

/-- The socket of the channel is connected. -/
def established (s : Client) (channel : Channel) : Client :=
  let s := { s.released channel with state := .kConnected }
  if s.connect then s.newConnection channel.sockfd else s.close channel.sockfd

theorem retryLater_state (s : Client) (sockfd : Nat) :
    (s.retryLater sockfd).state = .kDisconnected := by
  unfold retryLater
  dsimp only
  split <;> rfl

theorem abandoned_state (s : Client) (channel : Channel) :
    (s.abandoned channel).state = .kDisconnected :=
  retryLater_state _ _

/-- The assertion of `EventLoop::removeChannel`. -/
def Removable (s : Client) : Prop := s.isCurrent = true ∨ s.isActive = false

theorem removeAndResetChannel_bind_eq_ok_iff {k : Nat × Client → Except Fault Client} :
    s.removeAndResetChannel >>= k = .ok t ↔
      ∃ channel, s.channel = some channel ∧ s.Removable ∧
        k (channel.sockfd, s.released channel) = .ok t := by
  unfold removeAndResetChannel
  cases hc : s.channel with
  | none =>
    refine iff_of_false (fun h => ?_) ?_
    · cases h
    · rintro ⟨channel, hchannel, -⟩
      cases hchannel
  | some channel =>
    rw [require, ok_bind, bind_assoc, ensure_bind_eq_ok_iff, pure_bind]
    constructor
    · rintro ⟨hr, h⟩
      exact ⟨channel, rfl, hr, h⟩
    · rintro ⟨_, hchannel, hr, h⟩
      cases hchannel
      exact ⟨hr, h⟩

theorem connecting_eq_ok_iff {sockfd : Nat} : s.connecting sockfd = .ok t ↔
    s.channel = none ∧ t = { s with state := .kConnecting, channel := some ⟨sockfd, true⟩ } := by
  unfold connecting
  rw [ensure_bind_eq_ok_iff, pure_eq_ok_iff]

theorem startInLoop_eq_ok_iff {outcome : Outcome} : s.startInLoop outcome = .ok t ↔
    s.state = .kDisconnected ∧
      if s.connect = true then s.connectSocket outcome = .ok t else t = s := by
  unfold startInLoop
  rw [ensure_bind_eq_ok_iff]
  split
  · rfl
  · rw [pure_eq_ok_iff]

theorem stopInLoop_eq_ok_iff {call : Nat} : s.stopInLoop call = .ok t ↔
    if s.state = .kConnecting then ∃ channel, s.channel = some channel ∧ s.Removable ∧
      t = { s with stopped := call :: s.stopped }.abandoned channel
    else t = { s with stopped := call :: s.stopped } := by
  unfold stopInLoop
  dsimp only
  split
  · simp only [removeAndResetChannel_bind_eq_ok_iff, pure_eq_ok_iff]
    rfl
  · rw [pure_eq_ok_iff]

theorem handleError_eq_ok_iff : s.handleError = .ok t ↔
    s.state = .kConnecting ∧ ∃ channel, s.channel = some channel ∧ s.Removable ∧
      t = s.abandoned channel := by
  unfold handleError
  simp only [ensure_bind_eq_ok_iff, removeAndResetChannel_bind_eq_ok_iff, pure_eq_ok_iff]
  rfl

theorem handleWrite_eq_ok_iff {err selfConnect : Bool} :
    s.handleWrite err selfConnect = .ok t ↔
    if s.state = .kConnecting then ∃ channel, s.channel = some channel ∧ s.Removable ∧
      t = if err = true ∨ selfConnect = true then s.abandoned channel else s.established channel
    else s.state = .kDisconnected ∧ t = s := by
  unfold handleWrite
  split
  · rw [removeAndResetChannel_bind_eq_ok_iff]
    refine exists_congr fun channel => and_congr_right fun _ => and_congr_right fun _ => ?_
    dsimp only
    split <;> exact pure_eq_ok_iff
  · rw [ensure_bind_eq_ok_iff, pure_eq_ok_iff]

end Client

/-! ## What the steps do -/

/-- The steps by the functions that they call. -/
inductive Next (s : Client) : Action → Except Fault Client → Prop
  | enableRetry : Next s .enableRetry (.ok { s with retry := true })
  | disconnect : Next s .disconnect (.ok { s with clientConnect := false })
  | connectInLoop {outcome : Outcome} (hp : s.phase.runsCallbacks = true) :
    Next s (.connectInLoop outcome) ({ s with clientConnect := true }.start.startInLoop outcome)
  | stopInLoop (hp : s.phase.runsCallbacks = true) :
    Next s .stopInLoop ({ s with clientConnect := false }.stop.stopInLoop s.stopCalls)
  | call {start : Bool} : Next s (.call start)
      (.ok { s with clientConnect := start, entering := start :: s.entering })
  | start (h : true ∈ s.entering) : Next s .start
      (.ok { s.start with
        entering := s.entering.erase true
        calling := .startInLoop :: s.calling })
  | stop (h : false ∈ s.entering) : Next s .stop
      (.ok { s.stop with
        entering := s.entering.erase false
        calling := .stopInLoop s.stopCalls :: s.calling })
  | queueInLoop {f : Functor} (h : f ∈ s.calling) : Next s (.queueInLoop f)
      (.ok { s with calling := s.calling.erase f, pending := s.pending ++ [f] })
  | poll {active : List Source} (hp : s.phase = .waiting)
    (hconnector : active.countP Source.isConnector ≤
      if s.channel.any Channel.registered then 1 else 0)
    (hconnection : active.count .connection ≤ if s.connection.isSome then 1 else 0) :
    Next s (.poll active)
      (.ok { s with phase := .handling (active.any Source.isConnector) none active })
  | next {b : Bool} {current : Option Source} {source : Source} {todo : List Source}
    (hp : s.phase = .handling b current (source :: todo))
    (hdone : current.all Source.isDone = true) :
    Next s .next (.ok { s with phase := .handling b (some source) todo })
  | handleError {b writable : Bool} {todo : List Source}
    (hp : s.phase = .handling b (some (.connector true writable)) todo) :
    Next s .handleError (Client.handleError
      { s with phase := .handling b (some (.connector false writable)) todo })
  | handleWrite {b err selfConnect : Bool} {todo : List Source}
    (hp : s.phase = .handling b (some (.connector false true)) todo) :
    Next s (.handleWrite err selfConnect) (Client.handleWrite
      { s with phase := .handling b (some (.connector false false)) todo } err selfConnect)
  | timer {b : Bool} {delay : Nat} {outcome : Outcome} {todo : List Source}
    (hp : s.phase = .handling b (some .timers) todo) (h : delay ∈ s.timers) :
    Next s (.timer delay outcome) ({ s with timers := s.timers.erase delay }.startInLoop outcome)
  | removeConnection {b : Bool} {outcome : Outcome} {todo : List Source}
    (hp : s.phase = .handling b (some .connection) todo) (h : s.connection.isSome = true) :
    Next s (.removeConnection outcome)
      (Client.removeConnection { s with phase := .handling b (some .other) todo } outcome)
  | doPendingFunctors {b : Bool} {current : Option Source} (hp : s.phase = .handling b current [])
    (hdone : current.all Source.isDone = true) :
    Next s .doPendingFunctors (.ok { s with phase := .draining s.pending, pending := [] })
  | run {f : Functor} {functors : List Functor} {outcome : Outcome}
    (hp : s.phase = .draining (f :: functors)) :
    Next s (.run outcome) ({ s with phase := .draining functors }.runFunctor outcome f)
  | finish (hp : s.phase = .draining []) : Next s .finish (.ok { s with phase := .waiting })

theorem Next.of_step {s : Client} {a : Action} {m : Except Fault Client} (h : step s a = some m) :
    Next s a m := by
  cases a with
  | enableRetry =>
    cases h
    exact .enableRetry
  | disconnect =>
    cases h
    exact .disconnect
  | connectInLoop outcome =>
    obtain ⟨hp, h⟩ := Option.ite_none_right_eq_some.mp h
    cases h
    exact .connectInLoop hp
  | stopInLoop =>
    obtain ⟨hp, h⟩ := Option.ite_none_right_eq_some.mp h
    cases h
    exact .stopInLoop hp
  | call start =>
    cases h
    exact .call
  | start =>
    obtain ⟨hmem, h⟩ := Option.ite_none_right_eq_some.mp h
    cases h
    exact .start hmem
  | stop =>
    obtain ⟨hmem, h⟩ := Option.ite_none_right_eq_some.mp h
    cases h
    exact .stop hmem
  | queueInLoop f =>
    obtain ⟨hmem, h⟩ := Option.ite_none_right_eq_some.mp h
    cases h
    exact .queueInLoop hmem
  | poll active =>
    obtain ⟨⟨hp, hconnector, hconnection⟩, h⟩ := Option.ite_none_right_eq_some.mp h
    cases h
    exact .poll hp hconnector hconnection
  | next =>
    simp only [step] at h
    split at h
    · next hp =>
      obtain ⟨hdone, h⟩ := Option.ite_none_right_eq_some.mp h
      cases h
      exact .next hp hdone
    · cases h
  | handleError =>
    simp only [step] at h
    split at h
    · next hp =>
      cases h
      exact .handleError hp
    · cases h
  | handleWrite err selfConnect =>
    simp only [step] at h
    split at h
    · next hp =>
      cases h
      exact .handleWrite hp
    · cases h
  | timer delay outcome =>
    simp only [step] at h
    split at h
    · next hp =>
      obtain ⟨hmem, h⟩ := Option.ite_none_right_eq_some.mp h
      cases h
      exact .timer hp hmem
    · cases h
  | removeConnection outcome =>
    simp only [step] at h
    split at h
    · next hp =>
      obtain ⟨hsome, h⟩ := Option.ite_none_right_eq_some.mp h
      cases h
      exact .removeConnection hp hsome
    · cases h
  | doPendingFunctors =>
    simp only [step] at h
    split at h
    · next hp =>
      obtain ⟨hdone, h⟩ := Option.ite_none_right_eq_some.mp h
      cases h
      exact .doPendingFunctors hp hdone
    · cases h
  | run outcome =>
    simp only [step] at h
    split at h
    · next hp =>
      cases h
      exact .run hp
    · cases h
  | finish =>
    simp only [step] at h
    split at h
    · next hp =>
      cases h
      exact .finish hp
    · cases h

end DbdkyGcc.Tcp
