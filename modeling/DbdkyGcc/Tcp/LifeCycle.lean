import DbdkyGcc.Tcp.Invariant

/-!
# The life cycle of a client's connections

The handlers of the connector assert what state they find. The assertions hold, and each socket is
closed once or handed over once, as long as `connect()` is called only when nothing of an earlier
attempt is left, a socket whose event is still to be handled is not stopped, and no retry timer
fires before the channel of the last attempt is reset.
-/

namespace DbdkyGcc.Tcp

open Foundations

/-- The calls and events that the connector is ready for. -/
def Orderly (s : Client) : Action → Prop
  | .connectInLoop _ => s.Idle
  | .call start => start = true → s.Idle
  | .stopInLoop => s.state = .kConnecting → s.Removable
  | .timer _ _ => s.channel = none
  | _ => True

instance (s : Client) : Decidable s.Idle := inferInstanceAs (Decidable (_ ∧ _))

instance (s : Client) : Decidable s.Removable := inferInstanceAs (Decidable (_ ∨ _))

instance (s : Client) : ∀ a, Decidable (Orderly s a)
  | .connectInLoop _ => inferInstanceAs (Decidable s.Idle)
  | .call _ => inferInstanceAs (Decidable (_ = true → s.Idle))
  | .stopInLoop => inferInstanceAs (Decidable (_ = _ → s.Removable))
  | .timer _ _ => inferInstanceAs (Decidable (_ = _))
  | .enableRetry | .disconnect | .start | .stop | .queueInLoop _ | .poll _ | .next
  | .handleError | .handleWrite _ _ | .removeConnection _ | .doPendingFunctors | .run _
  | .finish => .isTrue trivial

/-! ## The steps -/

namespace LifeCycle

variable {s : Client}

/-- A reset that runs is that of the channel. -/
theorem resetChannel (h : LifeCycle s) {functors : List Functor}
    (hp : s.phase = .draining (.resetChannel :: functors)) :
    LifeCycle (Client.resetChannel { s with phase := .draining functors }) := by
  have hcount : s.functors.count .resetChannel =
      (functors ++ s.pending ++ s.calling).count .resetChannel + 1 := by
    rw [Client.functors, hp]
    exact List.count_cons_self
  have hstarts : s.starts = s.entering.count true +
      (functors ++ s.pending ++ s.calling).count .startInLoop := by
    rw [Client.starts, Client.functors, hp]
    rfl
  have hchannel : ∃ sockfd, s.channel = some ⟨sockfd, false⟩ ∧
      (functors ++ s.pending ++ s.calling).count .resetChannel = 0 := by
    have hone := h.resets
    rw [hcount, Client.unreset] at hone
    split at hone
    · next sockfd hsockfd => exact ⟨sockfd, hsockfd, by omega⟩
    · cases hone
  obtain ⟨sockfd, hsockfd, hzero⟩ := hchannel
  exact
    { registered := by
        refine iff_of_false (fun hstate => ?_) fun hnone => ?_
        · obtain ⟨fd, hfd⟩ := h.registered.mp hstate
          rw [hsockfd] at hfd
          cases hfd
        · obtain ⟨fd, hfd⟩ := hnone
          cases hfd
      resets := hzero
      uncalled := h.uncalled
      attempts := by
        have hattempts := h.attempts
        rwa [hstarts] at hattempts
      disconnected := by
        have hdisconnected := h.disconnected
        rwa [hstarts] at hdisconnected
      starting := fun _ => rfl
      connected := h.connected
      settled := by
        have hsettled := h.settled
        rwa [Client.Settled, hp] at hsettled
      batch := trivial
      sockets := by
        have hsockets := h.sockets
        rwa [Client.connectingSockets, hsockfd] at hsockets }

/-- A functor of a batch is taken out to run. -/
theorem draining (h : LifeCycle s) {f : Functor} {functors : List Functor}
    (hp : s.phase = .draining (f :: functors)) (hf : f ≠ .resetChannel) :
    LifeCycle { s with phase := .draining functors } := by
  have hfunctors : s.functors = f :: (functors ++ s.pending ++ s.calling) := by
    rw [Client.functors, hp]
    rfl
  refine h.of_threads ?_ h.uncalled ?_ (fun hsome => ?_) trivial
  · rw [hfunctors, List.count_cons_of_ne hf]
    rfl
  · rw [Client.starts, hfunctors]
    exact Nat.add_le_add_left (List.count_le_count_cons ..) _
  · have hsettled := h.settled hsome
    rwa [Client.Settled, hp] at hsettled

theorem runFunctor (h : LifeCycle s) {f : Functor} {functors : List Functor}
    (hp : s.phase = .draining (f :: functors)) (outcome : Outcome) :
    ∃ t, Client.runFunctor { s with phase := .draining functors } outcome f = .ok t ∧
      LifeCycle t := by
  cases f with
  | startInLoop =>
    have hstarts : s.starts = s.entering.count true +
        ((functors ++ s.pending ++ s.calling).count .startInLoop + 1) := by
      rw [Client.starts, Client.functors, hp]
      exact congrArg _ List.count_cons_self
    have hattempts := h.attempts
    have hlength : s.timers.length = 0 := by omega
    have hzero : s.entering.count true +
        (functors ++ s.pending ++ s.calling).count .startInLoop = 0 := by omega
    exact (h.draining hp (by decide)).startInLoop
      ⟨h.disconnected (by omega), h.starting (by omega), List.eq_nil_of_length_eq_zero hlength,
        hzero⟩ (fun _ _ => trivial) outcome
  | stopInLoop call =>
    exact (h.draining hp (by simp)).stopInLoop call (fun _ => .inr rfl) fun _ _ _ => trivial
  | resetChannel => exact ⟨_, rfl, h.resetChannel hp⟩

/-- What a poll reports fits the state. -/
theorem poll (h : LifeCycle s) {active : List Source} (hp : s.phase = .waiting)
    (hconnector : active.countP Source.isConnector ≤
      if s.channel.any Channel.registered then 1 else 0)
    (hconnection : active.count .connection ≤ if s.connection.isSome then 1 else 0) :
    LifeCycle { s with phase := .handling (active.any Source.isConnector) none active } := by
  refine h.of_phase ?_ (fun _ => trivial) ?_
  · rw [hp]
    rfl
  · exact
      { connectors := hconnector.trans (by split <;> decide)
        connections := hconnection.trans (by split <;> decide)
        later := fun hany => by
          have hpos : 0 < active.countP Source.isConnector := by
            rw [List.countP_pos_iff]
            exact List.any_eq_true.mp hany
          split at hconnector
          · next hregistered =>
            obtain ⟨channel, hc, hr⟩ := (Option.any_eq_true _ _).mp hregistered
            refine ⟨h.registered.mpr ⟨channel.sockfd, ?_⟩, hany⟩
            rw [hc, ← hr]
          · omega
        error := fun _ hcurrent => by cases hcurrent
        write := fun hcurrent => by cases hcurrent
        connection := fun hmem => by
          have hpos : 0 < active.count .connection := List.count_pos_iff.mpr hmem
          split at hconnection
          · next hsome =>
            have hsettled := h.settled hsome
            rw [Client.Settled, hp] at hsettled
            exact ⟨h.connected hsome, hsettled⟩
          · omega }

/-- After the batch of functors no reset is left that a connection would wait for. -/
theorem finish (h : LifeCycle s) (hp : s.phase = .draining []) :
    LifeCycle { s with phase := .waiting } := by
  refine h.of_phase ?_ (fun hsome => ?_) trivial
  · rw [hp]
    rfl
  · have hpending : .resetChannel ∉ s.pending := by
      have hsettled := h.settled hsome
      rwa [Client.Settled, hp] at hsettled
    have hzero : s.unreset = 0 := by
      rw [← h.resets, Client.functors, hp, List.count_eq_zero]
      exact List.not_mem_append (List.not_mem_append List.not_mem_nil hpending) h.uncalled
    change s.channel = none
    cases hc : s.channel with
    | none => rfl
    | some channel =>
      obtain ⟨sockfd, registered⟩ := channel
      cases registered with
      | false =>
        rw [Client.unreset, hc] at hzero
        cases hzero
      | true =>
        have hstate := h.registered.mpr ⟨sockfd, hc⟩
        rw [h.connected hsome] at hstate
        cases hstate

/-- `connect()` is called where nothing is left of an earlier attempt. -/
theorem call (h : LifeCycle s) {start : Bool} (hidle : start = true → s.Idle) :
    LifeCycle { s with entering := start :: s.entering } := by
  cases start with
  | false =>
    refine h.of_threads rfl h.uncalled ?_ h.settled h.batch
    rw [List.count_cons_of_ne Bool.false_ne_true]
    rfl
  | true =>
    obtain ⟨hstate, hchannel, htimers, hstarts⟩ := hidle rfl
    change s.entering.count true + s.functors.count .startInLoop = 0 at hstarts
    have hone : (true :: s.entering).count true + s.functors.count .startInLoop = 1 := by
      rw [List.count_cons_self]
      omega
    refine h.of_attempts hstate ?_ fun _ => hchannel
    rw [hone, htimers]
    exact le_rfl

/-- The calls in flight go on to `Connector::start`. -/
theorem start (h : LifeCycle s) (hmem : true ∈ s.entering) : LifeCycle { s with
    entering := s.entering.erase true
    calling := .startInLoop :: s.calling } := by
  refine h.of_threads ?_ ?_ ?_ h.settled h.batch
  · simp [Client.functors, List.count_append]
  · simp [h.uncalled]
  · have hpos : 0 < s.entering.count true := List.count_pos_iff.mpr hmem
    simp only [Client.starts, Client.functors, List.count_append, List.count_erase_self,
      List.count_cons_self]
    omega

theorem stop (h : LifeCycle s) (call : Nat) : LifeCycle { s with
    entering := s.entering.erase false
    calling := .stopInLoop call :: s.calling } := by
  refine h.of_threads ?_ ?_ ?_ h.settled h.batch
  · simp [Client.functors, List.count_append]
  · simp [h.uncalled]
  · simp [Client.starts, Client.functors, List.count_append, List.count_erase_of_ne]

theorem queueInLoop (h : LifeCycle s) {f : Functor} (hmem : f ∈ s.calling) : LifeCycle { s with
    calling := s.calling.erase f
    pending := s.pending ++ [f] } := by
  have hperm : (s.phase.functors ++ (s.pending ++ [f]) ++ s.calling.erase f).Perm s.functors := by
    rw [Client.functors, ← List.append_assoc, List.append_assoc _ [f]]
    exact (List.perm_cons_erase hmem).symm.append_left _
  have hne : .resetChannel ≠ f := fun hf => h.uncalled (hf ▸ hmem)
  refine h.of_threads (hperm.count_eq _) (fun hcalled => ?_) ?_ (fun hsome => ?_) h.batch
  · exact h.uncalled (List.mem_of_mem_erase hcalled)
  · rw [hperm.count_eq]
    rfl
  · have hsettled := h.settled hsome
    unfold Client.Settled at hsettled ⊢
    cases hp : s.phase with
    | waiting => rwa [hp] at hsettled
    | handling active current todo => trivial
    | draining functors =>
      rw [hp] at hsettled
      exact List.not_mem_append hsettled (by simpa using hne)

/-- The one timer left fires. -/
theorem timer (h : LifeCycle s) {delay : Nat} (hmem : delay ∈ s.timers)
    (hchannel : s.channel = none) :
    LifeCycle { s with timers := s.timers.erase delay } ∧
      Client.Idle { s with timers := s.timers.erase delay } := by
  have hlength := List.length_erase_of_mem hmem
  have hpos : 0 < s.timers.length := List.length_pos_of_mem hmem
  have hattempts := h.attempts
  have hstate : s.state = .kDisconnected := h.disconnected (by omega)
  have hnil : s.timers.erase delay = [] := List.eq_nil_of_length_eq_zero (by omega)
  have hstarts : s.starts = 0 := by omega
  refine ⟨h.of_attempts hstate ?_ h.starting, hstate, hchannel, hnil, hstarts⟩
  change (s.timers.erase delay).length + s.starts ≤ 1
  omega

/-- A step that the connector is ready for does not fault. -/
theorem next {a : Action} {m : Except Fault Client} (h : LifeCycle s) (hready : Orderly s a)
    (ha : Next s a m) : ∃ t, m = .ok t ∧ LifeCycle t := by
  cases ha with
  | enableRetry => exact ⟨_, rfl, h.flags⟩
  | disconnect => exact ⟨_, rfl, h.flags⟩
  | connectInLoop hp =>
    have hstart : LifeCycle { s with clientConnect := true }.start := h.flags
    have hnot : s.state ≠ .kConnected ∧ s.state ≠ .kConnecting := by
      rw [hready.1]
      decide
    exact hstart.startInLoop hready (h.free hp hnot.1 fun hs => absurd hs hnot.2) _
  | stopInLoop hp =>
    have hstop : LifeCycle { s with clientConnect := false }.stop := h.flags
    refine hstop.stopInLoop s.stopCalls hready fun hstate => ?_
    change s.state = .kConnecting at hstate
    exact h.free hp (by rw [hstate]; decide) hready
  | call => exact ⟨_, rfl, (h.call hready).flags⟩
  | start hmem => exact ⟨_, rfl, (h.start hmem).flags⟩
  | stop hmem => exact ⟨_, rfl, (h.stop s.stopCalls).flags⟩
  | queueInLoop hmem => exact ⟨_, rfl, h.queueInLoop hmem⟩
  | poll hp hconnector hconnection => exact ⟨_, rfl, h.poll hp hconnector hconnection⟩
  | next hp hdone =>
    have hbatch := h.batch
    rw [hp] at hbatch
    exact ⟨_, rfl, h.handling hp hbatch.next⟩
  | @handleError active writable todo hp =>
    have hbatch := h.batch
    rw [hp] at hbatch
    have hstate := hbatch.error _ rfl
    have hnot : s.state ≠ .kConnected := by
      rw [hstate]
      decide
    have hphase : LifeCycle { s with
        phase := .handling active (some (.connector false writable)) todo } :=
      h.handling hp (hbatch.handled hnot fun _ => hnot)
    exact hphase.handleError hstate (.inl rfl) fun _ => hbatch.handled hnot fun _ => by decide
  | @handleWrite active _ _ todo hp =>
    have hbatch := h.batch
    rw [hp] at hbatch
    have hnot := hbatch.write rfl
    have hphase : LifeCycle { s with
        phase := .handling active (some (.connector false false)) todo } :=
      h.handling hp (hbatch.handled hnot fun _ => hnot)
    exact hphase.handleWrite rfl hnot _ _
  | timer hp hmem =>
    obtain ⟨hlife, hidle⟩ := h.timer hmem hready
    have hnot : s.state ≠ .kConnected ∧ s.state ≠ .kConnecting := by
      rw [hidle.1]
      decide
    refine hlife.startInLoop hidle (h.free ?_ hnot.1 fun hs => absurd hs hnot.2) _
    rw [hp]
    rfl
  | removeConnection hp hsome =>
    have hbatch := h.batch
    rw [hp] at hbatch
    obtain ⟨hstate, hchannel⟩ := hbatch.connection (by simp)
    have hphase := h.handling hp hbatch.closed
    exact hphase.removeConnection hstate hchannel (fun _ _ => hbatch.closed) _
  | doPendingFunctors hp hdone =>
    have hfunctors : s.pending ++ [] ++ s.calling = s.functors := by
      rw [Client.functors, hp, List.append_nil]
      rfl
    refine ⟨_, rfl, h.of_threads ?_ h.uncalled ?_ (fun _ => List.not_mem_nil) trivial⟩
    · exact congrArg _ hfunctors
    · exact (congrArg (fun fs => s.entering.count true + fs.count .startInLoop) hfunctors).le
  | run hp => exact h.runFunctor hp _
  | finish hp => exact ⟨_, rfl, h.finish hp⟩

end LifeCycle

/-- In every run of calls and events that the connector is ready for, no assertion fails, and of
the sockets created each is closed once, or handed over once, or the one being connected. -/
theorem sockets_closed_or_handed {p : Except Fault Client}
    (h : Run step Orderly (· = Client.new) p) :
    ∃ s, p = .ok s ∧
      (s.closed ++ s.handed ++ s.connectingSockets).Perm (List.range s.created) := by
  have hlife : ∃ s, p = .ok s ∧ LifeCycle s := by
    refine Run.safe (I := LifeCycle) ?_ ?_ h
    · rintro _ rfl
      exact .new
    · intro s a m hs hready hm
      exact hs.next hready (.of_step hm)
  obtain ⟨s, rfl, hs⟩ := hlife
  exact ⟨s, rfl, hs.sockets⟩

/-- A retry, a connection, and the next attempt when it is closed. -/
theorem sockets_closed_or_handed_with_retry : ∃ s : Client,
    s.closed = [0] ∧ s.handed = [1] ∧ s.connectingSockets = [2] ∧
      (s.closed ++ s.handed ++ s.connectingSockets).Perm (List.range s.created) := by
  have hrun : seen (exec (faulting (restrict Orderly step)) (.ok Client.new)
      [.enableRetry, .connectInLoop .retry, .poll [.timers], .next, .timer 500 .connecting,
        .doPendingFunctors, .finish, .poll [.connector false true], .next,
        .handleWrite false false, .doPendingFunctors, .run .connecting, .finish,
        .poll [.connection], .next, .removeConnection .connecting])
      (fun s => decide (s.closed = [0] ∧ s.handed = [1] ∧ s.connectingSockets = [2])) = true := by
    decide +kernel
  obtain ⟨s, hs, hcheck⟩ := exists_of_seen hrun
  obtain ⟨hclosed, hhanded, hconnecting⟩ := of_decide_eq_true hcheck
  have hstart : Run step Orderly (· = Client.new) (.ok Client.new) := Run.start rfl
  obtain ⟨t, ht, hperm⟩ := sockets_closed_or_handed (hstart.exec _ hs)
  cases ht
  exact ⟨s, hclosed, hhanded, hconnecting, hperm⟩

/-- They fail for `connect()` after `disconnect()`, for `connect()` right after `stop()`, and for
`stop()` in the callback of another channel before the event of the socket is handled. -/
theorem connector_assertions_fail :
    Run step (fun _ _ => True) (· = Client.new) (.error .startInLoop) ∧
    Run step (fun _ _ => True) (· = Client.new) (.error .connecting) ∧
    Run step (fun _ _ => True) (· = Client.new) (.error .removeChannel) := by
  refine ⟨Run.of_exec (· = Client.new) rfl [.connectInLoop .connecting,
    .poll [.connector false true], .next, .handleWrite false false, .doPendingFunctors,
    .run .connecting, .finish, .disconnect, .poll [.connection], .next,
    .removeConnection .connecting, .connectInLoop .connecting] rfl, ?_, ?_⟩
  · exact Run.of_exec (· = Client.new) rfl [.connectInLoop .connecting, .stopInLoop,
      .connectInLoop .connecting] rfl
  · exact Run.of_exec (· = Client.new) rfl [.connectInLoop .connecting,
      .poll [.other, .connector false true], .next, .stopInLoop] rfl

end DbdkyGcc.Tcp
