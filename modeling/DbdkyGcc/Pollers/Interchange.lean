import DbdkyGcc.Foundations.Runs
import DbdkyGcc.Pollers.EPollInterest

/-!
# When the pollers are interchangeable

Two loops, one with each poller, are driven by the same operations and the same readiness.
`PollPoller` keeps its interest as entries in a vector, `EPollPoller` as registrations in the
kernel; `Paired` relates the two as long as a channel begins with some interest, and is only
removed once it has none.
-/

namespace DbdkyGcc.Pollers

open Foundations

structure Both where
  poll : Loop PollPoller
  epoll : Loop EPollPoller

def Both.new : Both := ⟨PollPoller.new, EPollPoller.new⟩

/-- The two loops in lockstep, while neither fails. -/
def Both.step (s : Both) (a : Action) : Option Both := do
  let (_, poll) ← (s.poll.step a).toOption
  let (_, epoll) ← (s.epoll.step a).toOption
  return { poll, epoll }

/-- Where `EPollPoller` does not fail, `PollPoller` does not either, and both report the same. -/
def Agrees (s : Both) (a : Action) : Prop :=
  ∀ active' epoll, s.epoll.step a = .ok (active', epoll) →
    ∃ active poll, s.poll.step a = .ok (active, poll) ∧ ∀ x, x ∈ active ↔ x ∈ active'

/-- The condition under which the pollers agree. The interest of a channel is not empty when it is
registered, and once it is empty the channel is only removed. At a poll the ready descriptors
come before the others in `pollfds_`, and `events_` has room for all of them. -/
def Uniform (s : Both) : Action → Prop
  | .update op fd =>
    let channel := s.poll.channel fd
    (channel.index < 0 → op.apply channel.events ≠ kNoneEvent) ∧
      (0 ≤ channel.index → channel.events ≠ kNoneEvent)
  | .remove _ => True
  | .poll ready =>
    (s.poll.poller.interested.filter fun pfd => pfd.revents ready ≠ ∅) <+: s.poll.poller.interested ∧
      (s.epoll.poller.occurred ready).length ≤ s.epoll.poller.events

instance (s : Both) : ∀ a, Decidable (Uniform s a)
  | .update _ _ => inferInstanceAs (Decidable (_ ∧ _))
  | .remove _ => .isTrue trivial
  | .poll _ => inferInstanceAs (Decidable (_ ∧ _))

/-! ## Every run -/

/-- The two loops have the same interest; a channel that is not registered has none. -/
structure Paired (s : Both) (events : Nat → Events) (order : List Nat) : Prop where
  poll : PollInv s.poll events order
  epoll : EPollInv s.epoll events order
  absent : ∀ fd, fd ∉ order → events fd = kNoneEvent

theorem Paired.new : Paired .new (fun _ => kNoneEvent) [] := by
  refine ⟨⟨fun _ => rfl, rfl, fun i x hx => ?_, ?_⟩, ⟨fun _ => rfl, ?_, fun _ => ?_, ?_⟩, fun _ _ => rfl⟩
  · cases hx
  · exact fun fd => iff_of_false (Finset.notMem_empty _) List.not_mem_nil
  · exact fun fd => iff_of_false (Finset.notMem_empty _) List.not_mem_nil
  · rw [if_neg List.not_mem_nil]
    rfl
  · exact fun fd e => iff_of_false List.not_mem_nil fun h => List.not_mem_nil h.1

variable {s t : Both} {events : Nat → Events} {order : List Nat} {fd : Nat}
  {ready : Nat → Events}

/-- The two loops do a step together: neither fails, they report the same, and stay paired. -/
def Together (s : Both) (a : Action) : Prop :=
  ∃ active active' poll epoll, s.poll.step a = .ok (active, poll) ∧
    s.epoll.step a = .ok (active', epoll) ∧ (∀ x, x ∈ active ↔ x ∈ active') ∧
    ∃ events order, Paired ⟨poll, epoll⟩ events order

/-- A channel changes its interest in both loops. -/
theorem Paired.of_updates {op : Operation} (h : Paired s events order) {poll : Loop PollPoller}
    {epoll : Loop EPollPoller} {order' : List Nat}
    (hpoll : PollPoller.updateChannel (s.poll.setEvents fd (op.apply (events fd))) fd = .ok poll)
    (hepoll : EPollPoller.updateChannel (s.epoll.setEvents fd (op.apply (events fd))) fd = .ok epoll)
    (hpaired : Paired ⟨poll, epoll⟩ (Function.update events fd (op.apply (events fd))) order') :
    Together s (.update op fd) := by
  refine ⟨[], [], poll, epoll, ?_, ?_, fun _ => Iff.rfl, _, _, hpaired⟩
  · change Poller.updateChannel _ fd >>= _ = _
    rw [h.poll.events_eq]
    exact bind_eq_ok_iff.mpr ⟨poll, hpoll, rfl⟩
  · change Poller.updateChannel _ fd >>= _ = _
    rw [h.epoll.events_eq]
    exact bind_eq_ok_iff.mpr ⟨epoll, hepoll, rfl⟩

theorem Paired.update {op : Operation} (h : Paired s events order) (ha : Uniform s (.update op fd)) :
    Together s (.update op fd) := by
  obtain ⟨hnew, hpresent⟩ := ha
  rw [h.poll.events_eq] at hnew hpresent
  by_cases hindex : (s.poll.channel fd).index < 0
  · have hfd : fd ∉ order := by
      intro hmem
      obtain ⟨i, hi, -⟩ := h.poll.indexed.exists_getElem? hmem
      omega
    obtain ⟨poll, hpoll, hpollinv⟩ := h.poll.register hindex hfd (hnew hindex)
    obtain ⟨epoll, hepoll, hepollinv⟩ := h.epoll.register hfd (hnew hindex)
    refine h.of_updates hpoll hepoll ⟨hpollinv, hepollinv, fun x hx => ?_⟩
    rw [List.mem_append, List.mem_singleton, not_or] at hx
    rw [Function.update_of_ne hx.2]
    exact h.absent x hx.1
  · have hsome := hpresent (not_lt.mp hindex)
    have hfd : fd ∈ order := by
      by_contra hfd
      exact hsome (h.absent fd hfd)
    obtain ⟨poll, hpoll, hpollinv⟩ := h.poll.change hfd hsome
    obtain ⟨epoll, hepoll, hepollinv⟩ := h.epoll.change hfd hsome
    refine h.of_updates hpoll hepoll ⟨hpollinv, hepollinv, fun x hx => ?_⟩
    have hne : x ≠ fd := by
      rintro rfl
      exact hx hfd
    rw [Function.update_of_ne hne]
    exact h.absent x hx

theorem Paired.remove (h : Paired s events order) (hfd : fd ∈ order)
    (hnone : events fd = kNoneEvent) : Together s (.remove fd) := by
  obtain ⟨poll, order', hpoll, hpollinv, horder⟩ := h.poll.remove hfd hnone
  obtain ⟨epoll, hepoll, hepollinv⟩ := h.epoll.remove hfd hnone horder
  refine ⟨[], [], poll, epoll, ?_, ?_, fun _ => Iff.rfl, events, order', hpollinv, hepollinv,
    fun x hx => ?_⟩
  · exact ensure_bind_eq_ok_iff.mpr ⟨(h.poll.events_eq fd).trans hnone,
      bind_eq_ok_iff.mpr ⟨poll, hpoll, rfl⟩⟩
  · exact ensure_bind_eq_ok_iff.mpr ⟨(h.epoll.events_eq fd).trans hnone,
      bind_eq_ok_iff.mpr ⟨epoll, hepoll, rfl⟩⟩
  · by_cases hxfd : x = fd
    · rw [hxfd, hnone]
    · exact h.absent x fun hmem => hx ((horder x).mpr ⟨hxfd, hmem⟩)

theorem Paired.poll_together (h : Paired s events order) (ha : Uniform s (.poll ready)) :
    Together s (.poll ready) := by
  obtain ⟨active, hpoll, hactive⟩ := h.poll.poll ha.1
  obtain ⟨epoll, hepoll, hepollinv⟩ := h.epoll.poll ha.2
  refine ⟨active, _, s.poll, epoll, hpoll, hepoll, ?_, events, order, h.poll, hepollinv, h.absent⟩
  rintro ⟨fd, r⟩
  rw [hactive, h.epoll.occurred]

theorem Paired.together {a : Action} (h : Paired s events order) (ha : Uniform s a)
    {r : List (Nat × Events) × Loop EPollPoller} (hok : s.epoll.step a = .ok r) : Together s a := by
  cases a with
  | update op fd => exact h.update ha
  | poll ready => exact h.poll_together ha
  | remove fd =>
    obtain ⟨hfd, hnone⟩ := h.epoll.of_remove hok
    exact h.remove hfd hnone

theorem Paired.agrees {a : Action} (h : Paired s events order) (ha : Uniform s a) : Agrees s a := by
  intro active' epoll hok
  obtain ⟨active, _, poll, _, hpoll, hepoll, hsame, -⟩ := h.together ha hok
  cases hepoll.symm.trans hok
  exact ⟨active, poll, hpoll, hsame⟩

theorem Paired.next {a : Action} (h : Paired s events order) (ha : Uniform s a)
    (hstep : s.step a = some t) : ∃ events order, Paired t events order := by
  obtain ⟨⟨_, poll⟩, hpoll, hstep⟩ := Option.bind_eq_some_iff.mp hstep
  obtain ⟨⟨_, epoll⟩, hepoll, hstep⟩ := Option.bind_eq_some_iff.mp hstep
  cases hstep
  have hok := eq_ok_of_toOption hepoll
  obtain ⟨_, _, poll', epoll', hpoll', hepoll', -, hpaired⟩ := h.together ha hok
  cases hpoll'.symm.trans (eq_ok_of_toOption hpoll)
  cases hepoll'.symm.trans hok
  exact hpaired

/-- In every run that meets the condition, `PollPoller` fails only where `EPollPoller` does, and
every poll reports the same channels with the same events. -/
theorem pollers_agree (h : Reached Both.step Uniform (· = .new) s) {a : Action} (ha : Uniform s a) :
    Agrees s a := by
  obtain ⟨events, order, hs⟩ := h.invariant (I := fun s => ∃ events order, Paired s events order)
    (fun s hs => ⟨_, _, hs ▸ Paired.new⟩)
    (fun s a t ⟨events, order, hs⟩ ha hstep => hs.next ha hstep)
  exact hs.agrees ha

/-- The readiness in which something occurs on one descriptor only. -/
def onlyReady (fd : Nat) (events : Events) (x : Nat) : Events := if x = fd then events else ∅

/-- One channel stays, another is disabled and removed. -/
theorem pollers_agree_after_removal : ∃ s epoll,
    Reached Both.step Uniform (· = .new) s ∧
      s.epoll.step (.poll (onlyReady 4 {.POLLIN})) = .ok ([(4, {.POLLIN})], epoll) ∧
      Agrees s (.poll (onlyReady 4 {.POLLIN})) := by
  have hrun : ((exec (restrict Uniform Both.step) .new
      [.update .enableReading 3, .update .enableReading 4, .update .enableWriting 4,
        .poll fun _ => {.POLLIN}, .update .disableAll 3, .remove 3]).any fun s =>
      Uniform s (.poll (onlyReady 4 {.POLLIN})) ∧
        (s.epoll.step (.poll (onlyReady 4 {.POLLIN}))).toOption.any fun r =>
          r.1 = [(4, {.POLLIN})]) = true := by decide +kernel
  obtain ⟨s, hs, hcheck⟩ := (Option.any_eq_true _ _).mp hrun
  obtain ⟨huniform, hcheck⟩ := of_decide_eq_true hcheck
  obtain ⟨⟨active, epoll⟩, hok, hactive⟩ := (Option.any_eq_true _ _).mp hcheck
  cases of_decide_eq_true hactive
  have hstart : Reached Both.step Uniform (· = .new) .new := .start rfl
  have hreached := hstart.exec _ hs
  exact ⟨s, epoll, hreached, eq_ok_of_toOption hok, pollers_agree hreached huniform⟩

/-- With the second of two channels ready, `PollPoller` reports the first; and a channel that has
been removed cannot be registered again. -/
theorem pollers_disagree :
    (∃ s, Reached Both.step (fun _ _ => True) (· = .new) s ∧
      ¬Agrees s (.poll (onlyReady 4 {.POLLIN}))) ∧
    ∃ s, Reached Both.step (fun _ _ => True) (· = .new) s ∧
      (∃ r, s.epoll.step (.update .enableReading 3) = .ok r) ∧
      ∀ r, s.poll.step (.update .enableReading 3) ≠ .ok r := by
  constructor
  · have hrun : ((exec Both.step .new [.update .enableReading 3, .update .enableReading 4]).any fun s =>
        (s.epoll.step (.poll (onlyReady 4 {.POLLIN}))).toOption.any (fun r =>
          r.1 = [(4, {.POLLIN})]) ∧
        (s.poll.step (.poll (onlyReady 4 {.POLLIN}))).toOption.any fun r => r.1 = [(3, ∅)]) = true := by
      decide +kernel
    obtain ⟨s, hs, hcheck⟩ := (Option.any_eq_true _ _).mp hrun
    obtain ⟨hepoll, hpoll⟩ := of_decide_eq_true hcheck
    obtain ⟨⟨_, epoll⟩, hepoll, hactive'⟩ := (Option.any_eq_true _ _).mp hepoll
    obtain ⟨⟨_, poll⟩, hpoll, hactive⟩ := (Option.any_eq_true _ _).mp hpoll
    cases of_decide_eq_true hactive'
    cases of_decide_eq_true hactive
    refine ⟨s, .of_exec _ (fun _ _ _ => trivial) (.start rfl) hs, fun hagrees => ?_⟩
    obtain ⟨_, _, hok, hsame⟩ := hagrees _ _ (eq_ok_of_toOption hepoll)
    cases (eq_ok_of_toOption hpoll).symm.trans hok
    exact absurd ((hsame (4, {.POLLIN})).mpr List.mem_cons_self) (by decide)
  · have hrun : ((exec Both.step .new
        [.update .enableReading 3, .update .disableAll 3, .remove 3]).any fun s =>
        (s.epoll.step (.update .enableReading 3)).toOption.isSome ∧
        (s.poll.step (.update .enableReading 3)).toOption.isNone) = true := by
      decide +kernel
    obtain ⟨s, hs, hcheck⟩ := (Option.any_eq_true _ _).mp hrun
    obtain ⟨hepoll, hpoll⟩ := of_decide_eq_true hcheck
    obtain ⟨r, hr⟩ := Option.isSome_iff_exists.mp hepoll
    refine ⟨s, .of_exec _ (fun _ _ _ => trivial) (.start rfl) hs, ⟨r, eq_ok_of_toOption hr⟩,
      fun r' hr' => ?_⟩
    rw [hr'] at hpoll
    cases hpoll

end DbdkyGcc.Pollers
