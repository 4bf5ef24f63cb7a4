import DbdkyGcc.Tcp.Connector

/-!
# The invariant of a client

The invariant counts what is left of an attempt to connect: its channel is registered while the
socket is being connected, one `resetChannel` is to come for a channel that is not, and there is
one timer or one `startInLoop` to come, never both. Each function of the connector keeps it and
does not fault, where it is called in a state that it is ready for.
-/

namespace DbdkyGcc.Tcp

open Foundations

namespace Client

variable (s : Client)

/-- The calls of `connect()` whose `startInLoop` is to come. -/
def starts : Nat := s.entering.count true + s.functors.count .startInLoop

/-- Nothing is left of an attempt to connect. -/
def Idle : Prop :=
  s.state = .kDisconnected ∧ s.channel = none ∧ s.timers = [] ∧ s.starts = 0

/-- The channels to be reset. -/
def unreset : Nat :=
  match s.channel with
  | some ⟨_, false⟩ => 1
  | _ => 0

/-- The socket that is being connected. -/
def connectingSockets : List Nat :=
  match s.channel with
  | some ⟨sockfd, true⟩ => [sockfd]
  | _ => []

/-- With a connection, the channel of the attempt is reset before the next poll. -/
def Settled : Prop :=
  match s.phase with
  | .waiting => s.channel = none
  | .handling _ _ _ => True
  | .draining _ => .resetChannel ∉ s.pending

end Client

/-! ## A batch of active channels -/

/-- The active channels fit the state: an event of the connector's channel is to come only while
it is connecting, one of the connection only while it is connected. -/
structure Batch (state : States) (channel : Option Channel) (active : Bool)
    (current : Option Source) (todo : List Source) : Prop where
  connectors : (current.toList ++ todo).countP Source.isConnector ≤ 1
  connections : (current.toList ++ todo).count .connection ≤ 1
  later : todo.any Source.isConnector = true → state = .kConnecting ∧ active = true
  error : ∀ writable, current = some (.connector true writable) → state = .kConnecting
  write : current = some (.connector false true) → state ≠ .kConnected
  connection : .connection ∈ current.toList ++ todo → state = .kConnected ∧ channel = none

def InBatch (state : States) (channel : Option Channel) : Phase → Prop
  | .handling active current todo => Batch state channel active current todo
  | _ => True

namespace Batch

variable {state state' : States} {channel channel' : Option Channel} {active : Bool}
  {current : Option Source} {source : Source} {todo : List Source}

/-- Where no event is to come, the state may become any. -/
theorem free (h : Batch state channel active current todo)
    (hdone : current.all Source.isDone = true) (htodo : ¬todo.any Source.isConnector = true)
    (hconnection : .connection ∉ current.toList ++ todo) :
    Batch state' channel' active current todo where
  connectors := h.connectors
  connections := h.connections
  later ht := absurd ht htodo
  error writable hcurrent := by
    rw [hcurrent] at hdone
    cases hdone
  write hcurrent := by
    rw [hcurrent] at hdone
    cases hdone
  connection hmem := absurd hmem hconnection

/-- There is one event of the connector's channel in a batch. -/
theorem not_todo (h : Batch state channel active (some source) todo)
    (hsource : source.isConnector = true) : ¬todo.any Source.isConnector = true := by
  intro ht
  have hpos : 0 < todo.countP Source.isConnector := by
    rw [List.countP_pos_iff]
    exact List.any_eq_true.mp ht
  have hone := h.connectors
  rw [Option.toList_some, List.singleton_append, List.countP_cons_of_pos hsource] at hone
  omega

theorem not_connection (h : Batch state channel active current todo)
    (hstate : state ≠ .kConnected) : .connection ∉ current.toList ++ todo :=
  fun hmem => hstate (h.connection hmem).1

/-- A callback of the connector's channel has run. -/
theorem handled {error writable w : Bool}
    (h : Batch state channel active (some (.connector error writable)) todo)
    (hstate : state ≠ .kConnected) (hstate' : w = true → state' ≠ .kConnected) :
    Batch state' channel' active (some (.connector false w)) todo where
  connectors := h.connectors
  connections := h.connections
  later ht := absurd ht (h.not_todo rfl)
  error _ hcurrent := by cases hcurrent
  write hcurrent := by
    cases hcurrent
    exact hstate' rfl
  connection hmem := by
    refine absurd ?_ (h.not_connection hstate)
    simpa using hmem

/-- The connection is closed by its callback. -/
theorem closed (h : Batch state channel active (some .connection) todo) :
    Batch state' channel' active (some .other) todo where
  connectors := h.connectors
  connections := by
    have hone := h.connections
    simp only [Option.toList_some, List.singleton_append, List.count_cons] at hone ⊢
    simp only [beq_self_eq_true, if_true] at hone
    simp only [reduceCtorEq, beq_iff_eq, if_false]
    omega
  later ht := by
    have hconnecting := (h.later ht).1
    have hconnected := (h.connection (by simp)).1
    rw [hconnected] at hconnecting
    cases hconnecting
  error _ hcurrent := by cases hcurrent
  write hcurrent := by cases hcurrent
  connection hmem := by
    have hone := h.connections
    have hpos : 0 < todo.count .connection := List.count_pos_iff.mpr (by simpa using hmem)
    rw [Option.toList_some, List.singleton_append, List.count_cons_self] at hone
    omega

/-- The next channel of the batch. -/
theorem next (h : Batch state channel active current (source :: todo)) :
    Batch state channel active (some source) todo where
  connectors := by
    have hone := h.connectors
    rw [List.countP_append] at hone
    exact (Nat.le_add_left _ _).trans hone
  connections := by
    have hone := h.connections
    rw [List.count_append] at hone
    exact (Nat.le_add_left _ _).trans hone
  later ht := h.later (by rw [List.any_cons, ht, Bool.or_true])
  error writable hsource := by
    cases hsource
    exact (h.later rfl).1
  write hsource := by
    cases hsource
    rw [(h.later rfl).1]
    decide
  connection hmem := h.connection (List.mem_append_right _ hmem)

end Batch

/-! ## The invariant -/

structure LifeCycle (s : Client) : Prop where
  registered : s.state = .kConnecting ↔ ∃ sockfd, s.channel = some ⟨sockfd, true⟩
  resets : s.functors.count .resetChannel = s.unreset
  uncalled : .resetChannel ∉ s.calling
  attempts : s.timers.length + s.starts ≤ 1
  disconnected : 0 < s.timers.length + s.starts → s.state = .kDisconnected
  starting : 0 < s.starts → s.channel = none
  connected : s.connection.isSome = true → s.state = .kConnected
  settled : s.connection.isSome = true → s.Settled
  batch : InBatch s.state s.channel s.phase
  sockets : (s.closed ++ s.handed ++ s.connectingSockets).Perm (List.range s.created)

namespace LifeCycle

variable {s t : Client} {channel : Channel} {outcome : Outcome}

theorem new : LifeCycle Client.new where
  registered := iff_of_false nofun nofun
  resets := rfl
  uncalled := nofun
  attempts := Nat.zero_le 1
  disconnected _ := rfl
  starting _ := rfl
  connected := nofun
  settled := nofun
  batch := trivial
  sockets := .refl _

/-- The flags and the history of `stop()` do not matter. -/
theorem flags (h : LifeCycle s) {retry clientConnect connect : Bool}
    {retryDelayMs scheduled stopCalls : Nat} {stops stopped : List Nat} :
    LifeCycle { s with
      retry := retry
      clientConnect := clientConnect
      connect := connect
      retryDelayMs := retryDelayMs
      scheduled := scheduled
      stopCalls := stopCalls
      stops := stops
      stopped := stopped } :=
  ⟨h.registered, h.resets, h.uncalled, h.attempts, h.disconnected, h.starting, h.connected,
    h.settled, h.batch, h.sockets⟩

/-- The loop and the other threads go on, and no `startInLoop` is added. -/
theorem of_threads (h : LifeCycle s) {phase : Phase} {pending calling : List Functor}
    {entering : List Bool}
    (hresets : (phase.functors ++ pending ++ calling).count .resetChannel =
      s.functors.count .resetChannel)
    (huncalled : .resetChannel ∉ calling)
    (hstarts : entering.count true + (phase.functors ++ pending ++ calling).count .startInLoop ≤
      s.starts)
    (hsettled : s.connection.isSome = true →
      Client.Settled { s with phase := phase, pending := pending })
    (hbatch : InBatch s.state s.channel phase) :
    LifeCycle { s with
      phase := phase
      pending := pending
      calling := calling
      entering := entering } where
  registered := h.registered
  resets := hresets.trans h.resets
  uncalled := huncalled
  attempts := (Nat.add_le_add_left hstarts _).trans h.attempts
  disconnected hpos := h.disconnected (hpos.trans_le (Nat.add_le_add_left hstarts _))
  starting hpos := h.starting (hpos.trans_le hstarts)
  connected := h.connected
  settled := hsettled
  batch := hbatch
  sockets := h.sockets

/-- The loop goes on and takes out no functor. -/
theorem of_phase (h : LifeCycle s) {phase : Phase} (hfunctors : phase.functors = s.phase.functors)
    (hsettled : s.connection.isSome = true → Client.Settled { s with phase := phase })
    (hbatch : InBatch s.state s.channel phase) : LifeCycle { s with phase := phase } := by
  refine h.of_threads ?_ h.uncalled ?_ hsettled hbatch
  · rw [hfunctors]
    rfl
  · rw [hfunctors]
    rfl

theorem handling (h : LifeCycle s) {active active' : Bool} {current current' : Option Source}
    {todo todo' : List Source} (hp : s.phase = .handling active current todo)
    (hbatch : Batch s.state s.channel active' current' todo') :
    LifeCycle { s with phase := .handling active' current' todo' } := by
  refine h.of_phase ?_ (fun _ => trivial) hbatch
  rw [hp]
  rfl

theorem attempts_eq_zero (htimers : s.timers = []) (hstarts : s.starts = 0) :
    s.timers.length + s.starts = 0 := by
  rw [htimers, hstarts]
  rfl

theorem attempt_free (h : LifeCycle s) (hstate : s.state ≠ .kDisconnected) :
    s.timers = [] ∧ s.starts = 0 := by
  have hzero : ¬0 < s.timers.length + s.starts := fun hpos => hstate (h.disconnected hpos)
  have hlength : s.timers.length = 0 := by omega
  exact ⟨List.eq_nil_of_length_eq_zero hlength, by omega⟩

theorem no_connection (h : LifeCycle s) (hstate : s.state ≠ .kConnected) :
    ¬s.connection.isSome = true :=
  fun hsome => hstate (h.connected hsome)

/-- Where callbacks of others run, no event is to come for a channel that they may remove. -/
theorem free (h : LifeCycle s) (hp : s.phase.runsCallbacks = true)
    (hconnected : s.state ≠ .kConnected) (hremovable : s.state = .kConnecting → s.Removable)
    (state : States) (channel : Option Channel) : InBatch state channel s.phase := by
  have hbatch := h.batch
  unfold Client.Removable Client.isCurrent Client.isActive at hremovable
  cases hphase : s.phase with
  | waiting => trivial
  | draining functors => trivial
  | handling active current todo =>
    rw [hphase] at hp hbatch hremovable
    cases current with
    | none => cases hp
    | some source =>
      refine Batch.free hbatch hp (fun htodo => ?_) (hbatch.not_connection hconnected)
      obtain ⟨hconnecting, rfl⟩ := hbatch.later htodo
      rcases hremovable hconnecting with hcurrent | hactive
      · exact hbatch.not_todo hcurrent htodo
      · cases hactive

/-- While the client is disconnected, timers and calls of `connect()` may come and go up to one. -/
theorem of_attempts (h : LifeCycle s) {timers : List Nat} {entering : List Bool}
    (hstate : s.state = .kDisconnected)
    (hattempts : timers.length + (entering.count true + s.functors.count .startInLoop) ≤ 1)
    (hstarting : 0 < entering.count true + s.functors.count .startInLoop → s.channel = none) :
    LifeCycle { s with timers := timers, entering := entering } where
  registered := h.registered
  resets := h.resets
  uncalled := h.uncalled
  attempts := hattempts
  disconnected _ := hstate
  starting := hstarting
  connected := h.connected
  settled := h.settled
  batch := h.batch
  sockets := h.sockets

/-- A socket is given up, and with `connect_` set a timer is all that is left. -/
theorem retryLater {sockfd : Nat} (hchannel : ∀ fd, s.channel ≠ some ⟨fd, true⟩)
    (hresets : s.functors.count .resetChannel = s.unreset) (huncalled : .resetChannel ∉ s.calling)
    (htimers : s.timers = []) (hstarts : s.starts = 0) (hconnection : ¬s.connection.isSome = true)
    (hbatch : InBatch .kDisconnected s.channel s.phase)
    (hsockets : (sockfd :: (s.closed ++ s.handed)).Perm (List.range s.created)) :
    LifeCycle (s.retryLater sockfd) := by
  have hnone : s.connectingSockets = [] := by
    unfold Client.connectingSockets
    split
    · next fd hfd => exact absurd hfd (hchannel fd)
    · rfl
  have hclosed : LifeCycle { s.close sockfd with state := .kDisconnected } :=
    { registered := iff_of_false nofun fun ⟨fd, hfd⟩ => hchannel fd hfd
      resets := hresets
      uncalled := huncalled
      attempts := (attempts_eq_zero htimers hstarts).trans_le zero_le_one
      disconnected := fun _ => rfl
      starting := fun hpos => absurd hpos (hstarts.not_gt)
      connected := fun hsome => absurd hsome hconnection
      settled := fun hsome => absurd hsome hconnection
      batch := hbatch
      sockets := by
        change (sockfd :: s.closed ++ s.handed ++ s.connectingSockets).Perm _
        rw [hnone, List.append_nil]
        exact hsockets }
  unfold Client.retryLater
  dsimp only
  split
  · refine (hclosed.of_attempts rfl ?_ hclosed.starting).flags
    change (s.retryDelayMs :: s.timers).length + s.starts ≤ 1
    rw [htimers, hstarts]
    exact le_rfl
  · exact hclosed

theorem perm_range_succ {closed handed : List Nat} {n : Nat}
    (h : (closed ++ handed).Perm (List.range n)) :
    (n :: (closed ++ handed)).Perm (List.range (n + 1)) := by
  rw [List.range_succ]
  exact (h.cons n).trans (List.perm_append_singleton n (List.range n)).symm

/-- An attempt to connect begins where nothing is left of an earlier one. -/
theorem startInLoop (h : LifeCycle s) (hidle : s.Idle)
    (hfree : ∀ state channel, InBatch state channel s.phase) (outcome : Outcome) :
    ∃ t, s.startInLoop outcome = .ok t ∧ LifeCycle t := by
  obtain ⟨hstate, hchannel, htimers, hstarts⟩ := hidle
  have hconnection : ¬s.connection.isSome = true := h.no_connection (by rw [hstate]; decide)
  have hunreset : s.unreset = 0 := by
    unfold Client.unreset
    rw [hchannel]
  have hsockets : (s.closed ++ s.handed).Perm (List.range s.created) := by
    have hperm := h.sockets
    rwa [Client.connectingSockets, hchannel, List.append_nil] at hperm
  by_cases hconnect : s.connect = true
  · suffices hsocket : ∃ t, s.connectSocket outcome = .ok t ∧ LifeCycle t by
      obtain ⟨t, ht, hlife⟩ := hsocket
      refine ⟨t, Client.startInLoop_eq_ok_iff.mpr ⟨hstate, ?_⟩, hlife⟩
      rwa [if_pos hconnect]
    cases outcome with
    | connecting =>
      refine ⟨_, Client.connecting_eq_ok_iff.mpr ⟨hchannel, rfl⟩, ?_⟩
      exact
        { registered := iff_of_true rfl ⟨s.created, rfl⟩
          resets := h.resets.trans hunreset
          uncalled := h.uncalled
          attempts := h.attempts
          disconnected := fun hpos => absurd hpos (attempts_eq_zero htimers hstarts).not_gt
          starting := fun hpos => absurd hpos hstarts.not_gt
          connected := fun hsome => absurd hsome hconnection
          settled := fun hsome => absurd hsome hconnection
          batch := hfree _ _
          sockets := (List.perm_append_singleton _ _).trans (perm_range_succ hsockets) }
    | retry =>
      refine ⟨_, rfl, ?_⟩
      refine retryLater (fun fd hfd => ?_) h.resets h.uncalled htimers hstarts hconnection
        (hfree _ _) (perm_range_succ hsockets)
      change s.channel = some ⟨fd, true⟩ at hfd
      rw [hchannel] at hfd
      cases hfd
    | close =>
      refine ⟨_, rfl, ?_⟩
      exact
        { registered := h.registered
          resets := h.resets
          uncalled := h.uncalled
          attempts := h.attempts
          disconnected := h.disconnected
          starting := h.starting
          connected := h.connected
          settled := h.settled
          batch := h.batch
          sockets := by
            change (s.created :: s.closed ++ s.handed ++ s.connectingSockets).Perm _
            rw [Client.connectingSockets, hchannel, List.append_nil]
            exact perm_range_succ hsockets }
  · refine ⟨s, Client.startInLoop_eq_ok_iff.mpr ⟨hstate, ?_⟩, h⟩
    rw [if_neg hconnect]

theorem count_released (s : Client) (channel : Channel) (f : Functor) :
    (s.released channel).functors.count f = s.functors.count f + [Functor.resetChannel].count f := by
  change (s.phase.functors ++ (s.pending ++ [Functor.resetChannel]) ++ s.calling).count f = _
  simp only [Client.functors, List.count_append]
  omega

theorem starts_released (s : Client) (channel : Channel) :
    (s.released channel).starts = s.starts := by
  change s.entering.count true + (s.released channel).functors.count .startInLoop = _
  rw [count_released]
  rfl

/-- While a socket is being connected, its channel is all that is left of the attempt. -/
theorem resets_released (h : LifeCycle s) (hc : s.channel = some channel)
    (hstate : s.state = .kConnecting) :
    (s.released channel).functors.count .resetChannel = 1 ∧
      (channel.sockfd :: (s.closed ++ s.handed)).Perm (List.range s.created) := by
  obtain ⟨sockfd, hsockfd⟩ := h.registered.mp hstate
  obtain rfl : channel = ⟨sockfd, true⟩ := Option.some.inj (hc.symm.trans hsockfd)
  have hunreset : s.unreset = 0 := by
    unfold Client.unreset
    rw [hc]
  refine ⟨?_, ?_⟩
  · rw [count_released, h.resets, hunreset]
    rfl
  · have hperm := h.sockets
    rw [Client.connectingSockets, hc] at hperm
    exact (List.perm_append_singleton _ _).symm.trans hperm

theorem abandoned (h : LifeCycle s) (hc : s.channel = some channel)
    (hstate : s.state = .kConnecting)
    (hbatch : InBatch .kDisconnected (some ⟨channel.sockfd, false⟩) s.phase) :
    LifeCycle (s.abandoned channel) := by
  obtain ⟨hresets, hsockets⟩ := h.resets_released hc hstate
  obtain ⟨htimers, hstarts⟩ := h.attempt_free (by rw [hstate]; decide)
  refine retryLater (fun fd hfd => ?_) hresets h.uncalled htimers
    ((starts_released s channel).trans hstarts) (h.no_connection (by rw [hstate]; decide)) hbatch
    hsockets
  cases hfd

theorem established (h : LifeCycle s) (hc : s.channel = some channel)
    (hstate : s.state = .kConnecting) {active : Bool} {current : Option Source}
    {todo : List Source} (hp : s.phase = .handling active current todo)
    (hbatch : Batch .kConnected (some ⟨channel.sockfd, false⟩) active current todo) :
    LifeCycle (s.established channel) := by
  obtain ⟨hresets, hsockets⟩ := h.resets_released hc hstate
  obtain ⟨htimers, hstarts⟩ := h.attempt_free (by rw [hstate]; decide)
  have hattempts : ¬0 < s.timers.length + (s.released channel).starts := by
    rw [htimers, starts_released, hstarts]
    exact lt_irrefl 0
  have hstarts' : ¬0 < (s.released channel).starts := by
    rw [starts_released, hstarts]
    exact lt_irrefl 0
  have hinBatch : InBatch .kConnected (some ⟨channel.sockfd, false⟩) s.phase := by
    rw [hp]
    exact hbatch
  have hsettled : (s.released channel).Settled := by
    unfold Client.Settled
    change match s.phase with
      | .waiting => _
      | .handling _ _ _ => True
      | .draining _ => _
    rw [hp]
    trivial
  have hlife : ∀ connection closed handed, (closed ++ handed).Perm (List.range s.created) →
      LifeCycle { s.released channel with
        state := .kConnected
        connection := connection
        closed := closed
        handed := handed } := by
    intro connection closed handed hperm
    exact
      { registered := iff_of_false nofun nofun
        resets := hresets
        uncalled := h.uncalled
        attempts := Nat.le_of_not_lt fun hlt => hattempts (Nat.zero_lt_one.trans hlt)
        disconnected := fun hpos => absurd hpos hattempts
        starting := fun hpos => absurd hpos hstarts'
        connected := fun _ => rfl
        settled := fun _ => hsettled
        batch := hinBatch
        sockets := by
          change (closed ++ handed ++ []).Perm _
          rwa [List.append_nil] }
  unfold Client.established
  dsimp only
  split
  · exact hlife _ _ _ (List.perm_middle.trans hsockets)
  · exact hlife _ _ _ hsockets

theorem channel_of_connecting (h : LifeCycle s) (hstate : s.state = .kConnecting) :
    ∃ channel, s.channel = some channel := by
  obtain ⟨sockfd, hsockfd⟩ := h.registered.mp hstate
  exact ⟨_, hsockfd⟩

theorem stopInLoop (h : LifeCycle s) (call : Nat)
    (hremovable : s.state = .kConnecting → s.Removable)
    (hfree : s.state = .kConnecting → ∀ state channel, InBatch state channel s.phase) :
    ∃ t, s.stopInLoop call = .ok t ∧ LifeCycle t := by
  by_cases hstate : s.state = .kConnecting
  · obtain ⟨channel, hc⟩ := h.channel_of_connecting hstate
    refine ⟨{ s with stopped := call :: s.stopped }.abandoned channel,
      Client.stopInLoop_eq_ok_iff.mpr ?_, ?_⟩
    · rw [if_pos hstate]
      exact ⟨channel, hc, hremovable hstate, rfl⟩
    · have hcalled : LifeCycle { s with stopped := call :: s.stopped } := h.flags
      exact hcalled.abandoned hc hstate (hfree hstate _ _)
  · refine ⟨{ s with stopped := call :: s.stopped }, Client.stopInLoop_eq_ok_iff.mpr ?_, h.flags⟩
    rw [if_neg hstate]

theorem handleError (h : LifeCycle s) (hstate : s.state = .kConnecting)
    (hremovable : s.Removable) (hbatch : ∀ channel, InBatch .kDisconnected channel s.phase) :
    ∃ t, s.handleError = .ok t ∧ LifeCycle t := by
  obtain ⟨channel, hc⟩ := h.channel_of_connecting hstate
  refine ⟨_, Client.handleError_eq_ok_iff.mpr ⟨hstate, channel, hc, hremovable, rfl⟩, ?_⟩
  exact h.abandoned hc hstate (hbatch _)

theorem handleWrite (h : LifeCycle s) {active : Bool} {todo : List Source}
    (hp : s.phase = .handling active (some (.connector false false)) todo)
    (hstate : s.state ≠ .kConnected) (err selfConnect : Bool) :
    ∃ t, s.handleWrite err selfConnect = .ok t ∧ LifeCycle t := by
  have hremovable : s.Removable := by
    refine .inl ?_
    rw [Client.isCurrent, hp]
    rfl
  have hbatch := h.batch
  rw [hp] at hbatch
  have hfree : ∀ state channel,
      Batch state channel active (some (.connector false false)) todo :=
    fun _ _ => hbatch.handled hstate nofun
  by_cases hconnecting : s.state = .kConnecting
  · obtain ⟨channel, hc⟩ := h.channel_of_connecting hconnecting
    have hok : s.handleWrite err selfConnect = .ok (if err = true ∨ selfConnect = true then
        s.abandoned channel else s.established channel) := by
      rw [Client.handleWrite_eq_ok_iff, if_pos hconnecting]
      exact ⟨channel, hc, hremovable, rfl⟩
    refine ⟨_, hok, ?_⟩
    split
    · exact h.abandoned hc hconnecting (by rw [hp]; exact hfree _ _)
    · exact h.established hc hconnecting hp (hfree _ _)
  · refine ⟨s, ?_, h⟩
    rw [Client.handleWrite_eq_ok_iff, if_neg hconnecting]
    refine ⟨?_, rfl⟩
    cases hs : s.state with
    | kDisconnected => rfl
    | kConnecting => exact absurd hs hconnecting
    | kConnected => exact absurd hs hstate

/-- The connection is closed: the attempt that `restart` begins finds nothing left. -/
theorem removeConnection (h : LifeCycle s) (hstate : s.state = .kConnected)
    (hchannel : s.channel = none) (hfree : ∀ state channel, InBatch state channel s.phase)
    (outcome : Outcome) : ∃ t, s.removeConnection outcome = .ok t ∧ LifeCycle t := by
  obtain ⟨htimers, hstarts⟩ := h.attempt_free (by rw [hstate]; decide)
  have hnone : ∀ sockfd, s.channel ≠ some ⟨sockfd, true⟩ := by
    intro sockfd hsockfd
    rw [hchannel] at hsockfd
    cases hsockfd
  have hclosed : ∀ state, state ≠ .kConnecting →
      LifeCycle { s with connection := none, state := state } := by
    intro state hnot
    exact
      { registered := iff_of_false hnot fun ⟨sockfd, hsockfd⟩ => hnone sockfd hsockfd
        resets := h.resets
        uncalled := h.uncalled
        attempts := h.attempts
        disconnected := fun hpos => absurd hpos (attempts_eq_zero htimers hstarts).not_gt
        starting := h.starting
        connected := nofun
        settled := nofun
        batch := hfree _ _
        sockets := h.sockets }
  unfold Client.removeConnection
  dsimp only
  split
  · have hrestart : LifeCycle { s with
        connection := none
        state := .kDisconnected
        retryDelayMs := kInitRetryDelayMs
        connect := true
        stops := [] } := (hclosed .kDisconnected nofun).flags
    exact hrestart.startInLoop ⟨rfl, hchannel, htimers, hstarts⟩ hfree outcome
  · refine ⟨_, rfl, ?_⟩
    have hsame := hclosed s.state (by rw [hstate]; decide)
    exact hsame

end LifeCycle

end DbdkyGcc.Tcp
