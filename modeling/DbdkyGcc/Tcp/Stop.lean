import DbdkyGcc.Tcp.Connector

/-!
# Stop is final

A `stop()` takes effect in two parts: it clears `connect_` at once, and its `stopInLoop` gives up
the socket that is being connected. Until the next `start()` or `restart()` the cleared flag keeps
every handler from beginning anything new. The numbers of the calls tell the `stopInLoop` of one
`stop()` from that of another.
-/

namespace DbdkyGcc.Tcp

open Foundations

/-- The calls of `stop()` are the same, and no functor of one is added. -/
structure SameCalls (s t : Client) : Prop where
  connect : t.connect = s.connect
  stopCalls : t.stopCalls = s.stopCalls
  stops : t.stops = s.stops
  stopped : t.stopped = s.stopped
  functors : ∀ call, .stopInLoop call ∈ t.functors → .stopInLoop call ∈ s.functors

namespace SameCalls

variable {s t u : Client} {outcome : Outcome} {channel : Channel}

theorem refl (s : Client) : SameCalls s s := ⟨rfl, rfl, rfl, rfl, fun _ h => h⟩

/-- The other members do not matter. -/
theorem rest (s : Client) {connection : Option Nat} {state : States} {channel : Option Channel}
    {retryDelayMs created scheduled : Nat} {timers closed handed : List Nat} :
    SameCalls s { s with
      connection := connection
      state := state
      channel := channel
      retryDelayMs := retryDelayMs
      timers := timers
      created := created
      closed := closed
      handed := handed
      scheduled := scheduled } :=
  ⟨rfl, rfl, rfl, rfl, fun _ h => h⟩

theorem trans (hst : SameCalls s t) (htu : SameCalls t u) : SameCalls s u where
  connect := htu.connect.trans hst.connect
  stopCalls := htu.stopCalls.trans hst.stopCalls
  stops := htu.stops.trans hst.stops
  stopped := htu.stopped.trans hst.stopped
  functors call h := hst.functors call (htu.functors call h)

/-- The loop goes on, within a batch or to channels. -/
theorem phase (s : Client) {phase : Phase} (h : ∀ f ∈ phase.functors, f ∈ s.phase.functors) :
    SameCalls s { s with phase := phase } := by
  refine ⟨rfl, rfl, rfl, rfl, fun call hcall => ?_⟩
  rcases List.mem_append.mp hcall with hcall | hcall
  · rcases List.mem_append.mp hcall with hcall | hcall
    · exact List.mem_append_left _ (List.mem_append_left _ (h _ hcall))
    · exact List.mem_append_left _ (List.mem_append_right _ hcall)
  · exact List.mem_append_right _ hcall

theorem retryLater (s : Client) (sockfd : Nat) : SameCalls s (s.retryLater sockfd) := by
  unfold Client.retryLater
  dsimp only
  split <;> exact rest s

theorem released (s : Client) (channel : Channel) : SameCalls s (s.released channel) := by
  refine ⟨rfl, rfl, rfl, rfl, fun call h => ?_⟩
  change Functor.stopInLoop call ∈ s.phase.functors ++ (s.pending ++ [.resetChannel]) ++ s.calling
    at h
  simpa [Client.functors] using h

theorem abandoned (s : Client) (channel : Channel) : SameCalls s (s.abandoned channel) :=
  (released s channel).trans (retryLater _ _)

theorem established (s : Client) (channel : Channel) : SameCalls s (s.established channel) := by
  have h : SameCalls s { s.released channel with state := .kConnected } :=
    (released s channel).trans (rest _)
  unfold Client.established
  dsimp only
  split <;> exact h.trans (rest _)

theorem connectSocket (h : s.connectSocket outcome = .ok t) : SameCalls s t := by
  cases outcome with
  | connecting =>
    obtain ⟨-, rfl⟩ := Client.connecting_eq_ok_iff.mp h
    exact rest s
  | retry =>
    cases h
    have hcreated : SameCalls s { s with created := s.created + 1 } := rest s
    exact hcreated.trans (retryLater _ _)
  | close =>
    cases h
    exact rest s

theorem startInLoop (h : s.startInLoop outcome = .ok t) : SameCalls s t := by
  obtain ⟨-, h⟩ := Client.startInLoop_eq_ok_iff.mp h
  split at h
  · exact connectSocket h
  · cases h
    exact refl s

theorem handleError (h : s.handleError = .ok t) : SameCalls s t := by
  obtain ⟨-, channel, -, -, rfl⟩ := Client.handleError_eq_ok_iff.mp h
  exact abandoned s channel

theorem handleWrite {err selfConnect : Bool} (h : s.handleWrite err selfConnect = .ok t) :
    SameCalls s t := by
  have h := Client.handleWrite_eq_ok_iff.mp h
  split at h
  · obtain ⟨channel, -, -, rfl⟩ := h
    split
    · exact abandoned s channel
    · exact established s channel
  · obtain ⟨-, rfl⟩ := h
    exact refl _

end SameCalls

/-- `connect_` is clear while a `stop()` is the last word, no socket is being connected once its
`stopInLoop` has run, and the numbers in use have been given out. -/
structure Heeded (s : Client) : Prop where
  connect : s.stops ≠ [] → s.connect = false
  state : ∀ call ∈ s.stops, call ∈ s.stopped → s.state ≠ .kConnecting
  stopped : ∀ call ∈ s.stopped, call < s.stopCalls
  functors : ∀ call, .stopInLoop call ∈ s.functors → call < s.stopCalls

namespace Heeded

variable {s t : Client} {outcome : Outcome} {call : Nat}

theorem not_connect (h : Heeded s) (hcall : call ∈ s.stops) : ¬s.connect = true := by
  rw [h.connect (List.ne_nil_of_mem hcall)]
  decide

/-- A socket may begin to be connected only where `connect_` is set. -/
theorem of_sameCalls (h : Heeded s) (hst : SameCalls s t)
    (hstate : t.state = .kConnecting → s.state = .kConnecting ∨ s.connect = true) :
    Heeded t where
  connect hstops := by
    rw [hst.stops] at hstops
    exact hst.connect.trans (h.connect hstops)
  state call hcall hstopped hconnecting := by
    rw [hst.stops] at hcall
    rw [hst.stopped] at hstopped
    rcases hstate hconnecting with hs | hs
    · exact h.state call hcall hstopped hs
    · exact h.not_connect hcall hs
  stopped call hcall := by
    rw [hst.stopped] at hcall
    exact hst.stopCalls.symm ▸ h.stopped call hcall
  functors call hcall := hst.stopCalls.symm ▸ h.functors call (hst.functors call hcall)

theorem handling (h : Heeded s) (b : Bool) (current : Option Source) (todo : List Source) :
    Heeded { s with phase := .handling b current todo } :=
  h.of_sameCalls (.phase s nofun) .inl

theorem draining (h : Heeded s) {f : Functor} {functors : List Functor}
    (hp : s.phase = .draining (f :: functors)) :
    Heeded { s with phase := .draining functors } := by
  refine h.of_sameCalls (.phase s fun g hg => ?_) .inl
  rw [hp]
  exact List.mem_cons_of_mem f hg

/-- The other members do not matter. -/
theorem rest (h : Heeded s) {retry clientConnect : Bool} {connection : Option Nat}
    {channel : Option Channel} {timers : List Nat} {entering : List Bool} :
    Heeded { s with
      retry := retry
      clientConnect := clientConnect
      connection := connection
      channel := channel
      timers := timers
      entering := entering } :=
  ⟨h.connect, h.state, h.stopped, h.functors⟩

theorem start (h : Heeded s) : Heeded s.start where
  connect hstops := absurd rfl hstops
  state _ hcall := absurd hcall List.not_mem_nil
  stopped := h.stopped
  functors := h.functors

theorem stop (h : Heeded s) : Heeded s.stop where
  connect _ := rfl
  state call hcall hstopped := by
    rcases List.mem_cons.mp hcall with rfl | hcall
    · exact absurd (h.stopped _ hstopped) (lt_irrefl _)
    · exact h.state call hcall hstopped
  stopped call hcall := (h.stopped call hcall).trans (Nat.lt_succ_self _)
  functors call hcall := (h.functors call hcall).trans (Nat.lt_succ_self _)

theorem startInLoop (h : Heeded s) (ht : s.startInLoop outcome = .ok t) : Heeded t := by
  refine h.of_sameCalls (.startInLoop ht) fun hconnecting => ?_
  obtain ⟨hdisconnected, ht⟩ := Client.startInLoop_eq_ok_iff.mp ht
  split at ht
  · next hconnect => exact .inr hconnect
  · cases ht
    exact .inl hconnecting

theorem stopInLoop (h : Heeded s) (hcall : call < s.stopCalls)
    (ht : s.stopInLoop call = .ok t) : Heeded t := by
  -- the call is entered before the state changes, so the two are seen together
  have hstopped : ∀ k ∈ call :: s.stopped, k < s.stopCalls := by
    intro k hk
    rcases List.mem_cons.mp hk with rfl | hk
    · exact hcall
    · exact h.stopped k hk
  have ht := Client.stopInLoop_eq_ok_iff.mp ht
  split at ht
  · obtain ⟨channel, -, -, rfl⟩ := ht
    have hgiven : Heeded { s with stopped := call :: s.stopped, state := .kDisconnected } :=
      ⟨h.connect, fun _ _ _ => nofun, hstopped, h.functors⟩
    refine hgiven.of_sameCalls (.abandoned _ channel) fun hconnecting => ?_
    rw [Client.abandoned_state] at hconnecting
    cases hconnecting
  · next hstate =>
    cases ht
    exact ⟨h.connect, fun _ _ _ => hstate, hstopped, h.functors⟩

theorem handleError (h : Heeded s) (ht : s.handleError = .ok t) : Heeded t := by
  refine h.of_sameCalls (.handleError ht) fun _ => .inl ?_
  exact (Client.handleError_eq_ok_iff.mp ht).1

theorem handleWrite (h : Heeded s) {err selfConnect : Bool}
    (ht : s.handleWrite err selfConnect = .ok t) : Heeded t := by
  refine h.of_sameCalls (.handleWrite ht) fun hconnecting => .inl ?_
  have ht := Client.handleWrite_eq_ok_iff.mp ht
  split at ht
  · assumption
  · obtain ⟨-, rfl⟩ := ht
    exact hconnecting

theorem runFunctor (h : Heeded s) {f : Functor}
    (hf : ∀ call, f = .stopInLoop call → call < s.stopCalls)
    (ht : s.runFunctor outcome f = .ok t) : Heeded t := by
  cases f with
  | startInLoop => exact h.startInLoop ht
  | stopInLoop call => exact h.stopInLoop (hf call rfl) ht
  | resetChannel =>
    cases ht
    exact h.rest

theorem removeConnection (h : Heeded s) (ht : s.removeConnection outcome = .ok t) : Heeded t := by
  unfold Client.removeConnection at ht
  dsimp only at ht
  split at ht
  · -- `restart` sets the flag, and no call of `stop()` counts any more
    have hstart : Heeded { s with
        connection := none
        state := .kDisconnected
        retryDelayMs := kInitRetryDelayMs
        connect := true
        stops := [] } := ⟨nofun, nofun, h.stopped, h.functors⟩
    exact hstart.startInLoop ht
  · cases ht
    exact h.rest

/-- Every step keeps it. -/
theorem next {a : Action} {m : Except Fault Client} (h : Heeded s) (ha : Next s a m)
    (hm : m = .ok t) : Heeded t := by
  cases ha with
  | enableRetry | disconnect | call =>
    cases hm
    exact h.rest
  | connectInLoop hp =>
    exact h.rest.start.startInLoop hm
  | stopInLoop hp =>
    exact h.rest.stop.stopInLoop (Nat.lt_succ_self _) hm
  | start hmem =>
    cases hm
    refine ⟨h.start.connect, h.start.state, h.stopped, fun call hcall => h.functors call ?_⟩
    simpa [Client.functors, Client.start] using hcall
  | stop hmem =>
    cases hm
    refine ⟨h.stop.connect, h.stop.state, h.stop.stopped, fun call hcall => ?_⟩
    by_cases hself : call = s.stopCalls
    · subst hself
      exact Nat.lt_succ_self s.stopCalls
    · refine h.stop.functors call ?_
      simpa [Client.functors, Client.stop, hself] using hcall
  | @queueInLoop f hmem =>
    cases hm
    refine ⟨h.connect, h.state, h.stopped, fun call hcall => h.functors call ?_⟩
    have hsub : ∀ g ∈ s.calling.erase f, g ∈ s.calling := fun _ => List.mem_of_mem_erase
    simp only [Client.functors, List.mem_append, List.mem_singleton] at hcall ⊢
    rcases hcall with (hcall | hcall | rfl) | hcall
    · exact .inl (.inl hcall)
    · exact .inl (.inr hcall)
    · exact .inr hmem
    · exact .inr (hsub _ hcall)
  | poll hp hconnector hconnection =>
    cases hm
    exact h.handling _ _ _
  | next hp hdone =>
    cases hm
    exact h.handling _ _ _
  | handleError hp =>
    exact (h.handling _ _ _).handleError hm
  | handleWrite hp =>
    exact (h.handling _ _ _).handleWrite hm
  | timer hp hmem =>
    exact h.rest.startInLoop hm
  | removeConnection hp hsome =>
    exact (h.handling _ _ _).removeConnection hm
  | doPendingFunctors hp hdone =>
    cases hm
    refine ⟨h.connect, h.state, h.stopped, fun call hcall => h.functors call ?_⟩
    simpa [Client.functors, Phase.functors, hp] using hcall
  | @run f functors _ hp =>
    refine (h.draining hp).runFunctor (fun call hf => h.functors call ?_) hm
    simp [Client.functors, Phase.functors, hp, hf]
  | finish hp =>
    cases hm
    exact h.of_sameCalls (.phase s nofun) .inl

end Heeded

/-- From `s`, where the `stopInLoop` of the call has run, to `t`: while the call is still the last
word, no socket is created, none handed over and no timer scheduled. -/
structure Final (call : Nat) (s t : Client) : Prop where
  stopped : call ∈ t.stopped
  unmoved : call ∈ t.stops → call ∈ s.stops ∧
    t.created = s.created ∧ t.handed = s.handed ∧ t.scheduled = s.scheduled

namespace Final

variable {s t u : Client} {call : Nat} {outcome : Outcome}

theorem trans (hst : Final call s t) (htu : Final call t u) : Final call s u where
  stopped := htu.stopped
  unmoved hcall := by
    obtain ⟨hcall, hcreated, hhanded, hscheduled⟩ := htu.unmoved hcall
    rw [hcreated, hhanded, hscheduled]
    exact hst.unmoved hcall

/-- The other members do not matter. -/
theorem rest (hcall : call ∈ s.stopped) {retry clientConnect : Bool} {connection : Option Nat}
    {channel : Option Channel} {phase : Phase} {pending calling : List Functor}
    {timers : List Nat} {entering : List Bool} :
    Final call s { s with
      retry := retry
      clientConnect := clientConnect
      connection := connection
      channel := channel
      phase := phase
      pending := pending
      timers := timers
      entering := entering
      calling := calling } :=
  ⟨hcall, fun hstops => ⟨hstops, rfl, rfl, rfl⟩⟩

theorem stop (h : Heeded s) (hcall : call ∈ s.stopped) : Final call s s.stop := by
  refine ⟨hcall, fun hstops => ?_⟩
  rcases List.mem_cons.mp hstops with rfl | hstops
  · exact absurd (h.stopped _ hcall) (lt_irrefl _)
  · exact ⟨hstops, rfl, rfl, rfl⟩

theorem startInLoop (h : Heeded s) (hcall : call ∈ s.stopped)
    (ht : s.startInLoop outcome = .ok t) : Final call s t := by
  have hst := SameCalls.startInLoop ht
  refine ⟨hst.stopped ▸ hcall, fun hstops => ?_⟩
  rw [hst.stops] at hstops
  obtain ⟨-, ht⟩ := Client.startInLoop_eq_ok_iff.mp ht
  rw [if_neg (h.not_connect hstops)] at ht
  rw [ht]
  exact ⟨hstops, rfl, rfl, rfl⟩

theorem stopInLoop (h : Heeded s) (hcall : call ∈ s.stopped) {k : Nat}
    (ht : s.stopInLoop k = .ok t) : Final call s t := by
  have ht := Client.stopInLoop_eq_ok_iff.mp ht
  split at ht
  · next hstate =>
    obtain ⟨channel, -, -, rfl⟩ := ht
    have hst := SameCalls.abandoned { s with stopped := k :: s.stopped } channel
    refine ⟨hst.stopped ▸ List.mem_cons_of_mem k hcall, fun hstops => ?_⟩
    rw [hst.stops] at hstops
    exact absurd hstate (h.state call hstops hcall)
  · rw [ht]
    exact ⟨List.mem_cons_of_mem k hcall, fun hstops => ⟨hstops, rfl, rfl, rfl⟩⟩

theorem handleError (h : Heeded s) (hcall : call ∈ s.stopped) (ht : s.handleError = .ok t) :
    Final call s t := by
  have hst := SameCalls.handleError ht
  refine ⟨hst.stopped ▸ hcall, fun hstops => ?_⟩
  rw [hst.stops] at hstops
  exact absurd (Client.handleError_eq_ok_iff.mp ht).1 (h.state call hstops hcall)

theorem handleWrite (h : Heeded s) (hcall : call ∈ s.stopped) {err selfConnect : Bool}
    (ht : s.handleWrite err selfConnect = .ok t) : Final call s t := by
  have hst := SameCalls.handleWrite ht
  refine ⟨hst.stopped ▸ hcall, fun hstops => ?_⟩
  rw [hst.stops] at hstops
  have ht := Client.handleWrite_eq_ok_iff.mp ht
  rw [if_neg (h.state call hstops hcall)] at ht
  rw [ht.2]
  exact ⟨hstops, rfl, rfl, rfl⟩

theorem runFunctor (h : Heeded s) (hcall : call ∈ s.stopped) {f : Functor}
    (ht : s.runFunctor outcome f = .ok t) : Final call s t := by
  cases f with
  | startInLoop => exact startInLoop h hcall ht
  | stopInLoop k => exact stopInLoop h hcall ht
  | resetChannel =>
    cases ht
    exact rest hcall

theorem removeConnection (ht : s.removeConnection outcome = .ok t) (hcall : call ∈ s.stopped) :
    Final call s t := by
  unfold Client.removeConnection at ht
  dsimp only at ht
  split at ht
  · have hst := SameCalls.startInLoop ht
    refine ⟨hst.stopped ▸ hcall, fun hstops => ?_⟩
    rw [hst.stops] at hstops
    cases hstops
  · cases ht
    exact rest hcall

/-- One step. -/
theorem next {a : Action} {m : Except Fault Client} (h : Heeded s) (hcall : call ∈ s.stopped)
    (ha : Next s a m) (hm : m = .ok t) : Final call s t := by
  cases ha with
  | enableRetry | disconnect | call | queueInLoop | poll | next | doPendingFunctors | finish =>
    cases hm
    exact rest hcall
  | connectInLoop hp =>
    have hstart : Final call s { s with clientConnect := true }.start := ⟨hcall, nofun⟩
    exact hstart.trans (startInLoop h.rest.start hcall hm)
  | stopInLoop hp =>
    have hflag : Final call s { s with clientConnect := false } := rest hcall
    have hstop := hflag.trans (stop h.rest hcall)
    exact hstop.trans (stopInLoop h.rest.stop hcall hm)
  | start hmem =>
    cases hm
    exact ⟨hcall, nofun⟩
  | stop hmem =>
    cases hm
    exact ⟨hcall, (stop h hcall).unmoved⟩
  | handleError hp =>
    exact (rest hcall).trans (handleError (h.handling _ _ _) hcall hm)
  | handleWrite hp =>
    exact (rest hcall).trans (handleWrite (h.handling _ _ _) hcall hm)
  | @timer _ delay _ _ hp hmem =>
    have htimers : Final call s { s with timers := s.timers.erase delay } := rest hcall
    exact htimers.trans (startInLoop h.rest hcall hm)
  | removeConnection hp hsome =>
    exact (rest hcall).trans (removeConnection hm hcall)
  | run hp =>
    exact (rest hcall).trans (runFunctor (h.draining hp) hcall hm)

end Final

theorem heeded_of_run {s : Client} (h : Run step (fun _ _ => True) (· = Client.new) (.ok s)) :
    Heeded s := by
  refine Run.invariant (I := Heeded) ?_ ?_ h s rfl
  · rintro _ rfl
    exact ⟨nofun, nofun, nofun, nofun⟩
  · intro s a t hs _ ht
    exact hs.next (.of_step ht) rfl

/-- Once the `stopInLoop` of a `stop()` has run, and until `start()` or `restart()` is called, no
socket is created, `newConnectionCallback_` is not called, and no retry timer is scheduled. -/
theorem stop_is_final {s t : Client} {call : Nat}
    (hs : Run step (fun _ _ => True) (· = Client.new) (.ok s))
    (hstop : call ∈ s.stops) (hstopped : call ∈ s.stopped)
    (ht : Run step (fun _ _ => True) (· = s) (.ok t)) (hsince : call ∈ t.stops) :
    t.created = s.created ∧ t.handed = s.handed ∧ t.scheduled = s.scheduled := by
  have hfinal : Heeded t ∧ Final call s t := by
    refine Run.invariant (I := fun t => Heeded t ∧ Final call s t) ?_ ?_ ht t rfl
    · rintro _ rfl
      exact ⟨heeded_of_run hs, hstopped, fun hstops => ⟨hstops, rfl, rfl, rfl⟩⟩
    · rintro t a u ⟨hheeded, hfinal⟩ _ hu
      have hnext := Next.of_step hu
      exact ⟨hheeded.next hnext rfl, hfinal.trans (.next hheeded hfinal.stopped hnext rfl)⟩
  exact (hfinal.2.unmoved hsince).2

/-- The retry timer of a stopped connector fires. -/
theorem stop_is_final_for_timer : ∃ s t : Client,
    s.timers = [500] ∧ t.timers = [] ∧ 0 ∈ t.stops ∧ t.created = s.created := by
  have hrun : seen (exec (faulting step) (.ok Client.new) [.connectInLoop .retry, .stopInLoop])
      (fun s => decide (s.timers = [500] ∧ 0 ∈ s.stops ∧ 0 ∈ s.stopped) &&
        seen (exec (faulting step) (.ok s) [.poll [.timers], .next, .timer 500 .connecting])
          fun t => decide (t.timers = [] ∧ 0 ∈ t.stops)) = true := by
    decide +kernel
  obtain ⟨s, hs, hcheck⟩ := exists_of_seen hrun
  obtain ⟨hs', hcheck⟩ := Bool.and_eq_true_iff.mp hcheck
  obtain ⟨htimers, hstop, hstopped⟩ := of_decide_eq_true hs'
  obtain ⟨t, ht, hcheck⟩ := exists_of_seen hcheck
  obtain ⟨htimers', hsince⟩ := of_decide_eq_true hcheck
  exact ⟨s, t, htimers, htimers', hsince,
    (stop_is_final (Run.of_exec (· = Client.new) rfl _ hs) hstop hstopped
      (Run.of_exec (· = s) rfl _ ht) hsince).1⟩

end DbdkyGcc.Tcp
