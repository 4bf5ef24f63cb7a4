import DbdkyGcc.Pollers.PollInterest

/-!
# The interest of the channels in the kernel

`EPollPoller` keeps the interest of its channels in the kernel's list, and in each channel whether
it is there. `EPollInv` states what they hold when the interest of the channels is `events`.
-/

namespace DbdkyGcc.Pollers

open Foundations

variable {events : Nat → Events} {order : List Nat} {fd : Nat} {e : Events}
  {ready : Nat → Events}

/-- The state of the `epoll` loop. Exactly the channels with some interest are on the kernel's
list. -/
structure EPollInv (l : Loop EPollPoller) (events : Nat → Events) (order : List Nat) : Prop where
  events_eq : ∀ fd, (l.channel fd).events = events fd
  channels : ∀ fd, fd ∈ l.poller.channels ↔ fd ∈ order
  index_eq : ∀ fd, (l.channel fd).index =
    if fd ∈ order then if events fd = kNoneEvent then kDeleted else kAdded else kNew
  interest : ∀ fd e, (fd, e) ∈ l.poller.interest ↔
    fd ∈ order ∧ events fd ≠ kNoneEvent ∧ e = events fd

theorem EPollInv.mem_interest {l : Loop EPollPoller} (h : EPollInv l events order) :
    fd ∈ l.poller.interest.map Prod.fst ↔ fd ∈ order ∧ events fd ≠ kNoneEvent := by
  rw [List.mem_map]
  constructor
  · rintro ⟨⟨x, e⟩, hmem, rfl⟩
    obtain ⟨hx, hne, -⟩ := (h.interest x e).mp hmem
    exact ⟨hx, hne⟩
  · rintro ⟨hfd, hne⟩
    exact ⟨(fd, events fd), (h.interest fd _).mpr ⟨hfd, hne, rfl⟩, rfl⟩

theorem epoll_updateChannel_new {l : Loop EPollPoller} (hindex : (l.channel fd).index = kNew)
    (hfree : fd ∉ l.poller.channels) (hinterest : fd ∉ l.poller.interest.map Prod.fst) :
    EPollPoller.updateChannel l fd = .ok { l.setIndex fd kAdded with
      poller := { l.poller with
        interest := l.poller.interest ++ [(fd, (l.channel fd).events)]
        channels := insert fd l.poller.channels } } := by
  simp only [EPollPoller.updateChannel, hindex, true_or, if_true, ensure_eq_ok hfree, ok_bind, pure,
    Except.pure, EPollPoller.update, epollCtl, setIndex_events, setIndex_poller, if_neg hinterest]
  rfl

theorem EPollInv.register {l : Loop EPollPoller} (h : EPollInv l events order) (hfd : fd ∉ order)
    (he : e ≠ kNoneEvent) :
    ∃ l', EPollPoller.updateChannel (l.setEvents fd e) fd = .ok l' ∧
      EPollInv l' (Function.update events fd e) (order ++ [fd]) := by
  have hindex : ((l.setEvents fd e).channel fd).index = kNew := by
    rw [setEvents_index, h.index_eq, if_neg hfd]
  refine ⟨_, epoll_updateChannel_new hindex (fun hmem => hfd ((h.channels fd).mp hmem))
    (fun hmem => hfd (h.mem_interest.mp hmem).1), fun x => ?_, fun x => ?_, fun x => ?_, fun x e' => ?_⟩
  · change (((l.setEvents fd e).setIndex fd _).channel x).events = _
    rw [setIndex_events, setEvents_events_eq _ _ h.events_eq]
  · change x ∈ insert fd l.poller.channels ↔ _
    rw [Finset.mem_insert, h.channels, List.mem_append, List.mem_singleton, or_comm]
  · change (((l.setEvents fd e).setIndex fd _).channel x).index = _
    rw [setIndex_index]
    by_cases hx : x = fd
    · simp [hx, he]
    · simp [hx, h.index_eq]
  · change (x, e') ∈ l.poller.interest ++ [(fd, _)] ↔ _
    rw [List.mem_append, h.interest, setEvents_events, Function.update_self, List.mem_singleton]
    by_cases hx : x = fd
    · simp [hx, hfd, he]
    · simp [hx]

theorem epoll_updateChannel_del {l : Loop EPollPoller} (hindex : (l.channel fd).index = kAdded)
    (hmem : fd ∈ l.poller.channels) (hinterest : fd ∈ l.poller.interest.map Prod.fst)
    (hnone : (l.channel fd).events = kNoneEvent) :
    EPollPoller.updateChannel l fd = .ok { l.setIndex fd kDeleted with
      poller := { l.poller with interest := l.poller.interest.filter fun e => e.1 ≠ fd } } := by
  have hnew : ¬(kAdded = kNew ∨ kAdded = kDeleted) := by decide
  simp only [EPollPoller.updateChannel, hindex, if_neg hnew, ensure_eq_ok hmem, ensure_eq_ok, ok_bind,
    if_pos hnone, EPollPoller.update, epollCtl, if_pos hinterest]
  rfl

theorem epoll_updateChannel_mod {l : Loop EPollPoller} (hindex : (l.channel fd).index = kAdded)
    (hmem : fd ∈ l.poller.channels) (hinterest : fd ∈ l.poller.interest.map Prod.fst)
    (hnone : (l.channel fd).events ≠ kNoneEvent) :
    EPollPoller.updateChannel l fd = .ok { l with
      poller := { l.poller with
        interest := l.poller.interest.map fun e =>
          if e.1 = fd then (fd, (l.channel fd).events) else e } } := by
  have hnew : ¬(kAdded = kNew ∨ kAdded = kDeleted) := by decide
  simp only [EPollPoller.updateChannel, hindex, if_neg hnew, ensure_eq_ok hmem, ensure_eq_ok, ok_bind,
    if_neg hnone, EPollPoller.update, epollCtl, if_pos hinterest]

/-- `EPOLL_CTL_MOD` touches the one descriptor. -/
theorem mem_interest_mod {interest : List (Nat × Events)} {x : Nat} {e' : Events}
    (hmem : fd ∈ interest.map Prod.fst) :
    (x, e') ∈ interest.map (fun a => if a.1 = fd then (fd, e) else a) ↔
      if x = fd then e' = e else (x, e') ∈ interest := by
  rw [List.mem_map]
  constructor
  · rintro ⟨⟨y, u⟩, hy, heq⟩
    by_cases hyfd : y = fd
    · rw [if_pos hyfd] at heq
      cases heq
      rw [if_pos rfl]
    · rw [if_neg hyfd] at heq
      cases heq
      rwa [if_neg hyfd]
  · intro h
    split at h
    · next hx =>
      obtain ⟨⟨y, u⟩, hy, rfl⟩ := List.mem_map.mp hmem
      exact ⟨(y, u), hy, by rw [if_pos rfl, h, hx]⟩
    · next hx => exact ⟨(x, e'), h, if_neg hx⟩

theorem EPollInv.change {l : Loop EPollPoller} (h : EPollInv l events order) (hfd : fd ∈ order)
    (hne : events fd ≠ kNoneEvent) :
    ∃ l', EPollPoller.updateChannel (l.setEvents fd e) fd = .ok l' ∧
      EPollInv l' (Function.update events fd e) order := by
  have hindex : ((l.setEvents fd e).channel fd).index = kAdded := by
    rw [setEvents_index, h.index_eq, if_pos hfd, if_neg hne]
  have hmem : fd ∈ l.poller.channels := (h.channels fd).mpr hfd
  have hinterest : fd ∈ l.poller.interest.map Prod.fst := h.mem_interest.mpr ⟨hfd, hne⟩
  have hnew : ((l.setEvents fd e).channel fd).events = e := by
    rw [setEvents_events, Function.update_self]
  by_cases he : e = kNoneEvent
  · refine ⟨_, epoll_updateChannel_del hindex hmem hinterest (hnew.trans he), fun x => ?_, h.channels,
      fun x => ?_, fun x e' => ?_⟩
    · change (((l.setEvents fd e).setIndex fd _).channel x).events = _
      rw [setIndex_events, setEvents_events_eq _ _ h.events_eq]
    · change (((l.setEvents fd e).setIndex fd _).channel x).index = _
      rw [setIndex_index]
      by_cases hx : x = fd
      · simp [hx, he, hfd]
      · simp [hx, h.index_eq]
    · change (x, e') ∈ l.poller.interest.filter _ ↔ _
      rw [List.mem_filter, h.interest]
      by_cases hx : x = fd
      · simp [hx, he]
      · simp [hx]
  · refine ⟨_, epoll_updateChannel_mod hindex hmem hinterest
      (fun hnone => he (hnew.symm.trans hnone)), fun x => ?_, h.channels,
      fun x => ?_, fun x e' => ?_⟩
    · exact setEvents_events_eq _ _ h.events_eq e
    · change ((l.setEvents fd e).channel x).index = _
      rw [setEvents_index]
      by_cases hx : x = fd
      · simp [hx, he, hfd, h.index_eq, hne]
      · simp [hx, h.index_eq]
    · change (x, e') ∈ l.poller.interest.map _ ↔ _
      rw [hnew, mem_interest_mod hinterest]
      by_cases hx : x = fd
      · simp [hx, he, hfd]
      · simp [hx, h.interest]

theorem epoll_removeChannel_eq {l : Loop EPollPoller} (hindex : (l.channel fd).index = kDeleted)
    (hmem : fd ∈ l.poller.channels) (hnone : (l.channel fd).events = kNoneEvent) :
    EPollPoller.removeChannel l fd = .ok { l.setIndex fd kNew with
      poller := { l.poller with channels := l.poller.channels.erase fd } } := by
  have hnot : ¬kDeleted = kAdded := by decide
  simp only [EPollPoller.removeChannel, hindex, ensure_eq_ok hmem, ensure_eq_ok hnone, or_true,
    ensure_eq_ok, ok_bind, if_neg hnot, pure, Except.pure]
  rfl

theorem EPollInv.remove {l : Loop EPollPoller} {order' : List Nat} (h : EPollInv l events order)
    (hfd : fd ∈ order) (hnone : events fd = kNoneEvent)
    (horder : ∀ x, x ∈ order' ↔ x ≠ fd ∧ x ∈ order) :
    ∃ l', EPollPoller.removeChannel l fd = .ok l' ∧ EPollInv l' events order' := by
  have hindex : (l.channel fd).index = kDeleted := by rw [h.index_eq, if_pos hfd, if_pos hnone]
  refine ⟨_, epoll_removeChannel_eq hindex ((h.channels fd).mpr hfd) ((h.events_eq fd).trans hnone),
    fun x => ?_, fun x => ?_, fun x => ?_, fun x e' => ?_⟩
  · change ((l.setIndex fd kNew).channel x).events = _
    rw [setIndex_events, h.events_eq]
  · change x ∈ l.poller.channels.erase fd ↔ _
    rw [Finset.mem_erase, h.channels, horder]
  · change ((l.setIndex fd kNew).channel x).index = _
    rw [setIndex_index]
    by_cases hx : x = fd
    · simp [hx, horder]
    · simp [hx, horder, h.index_eq]
  · change (x, e') ∈ l.poller.interest ↔ _
    rw [h.interest, horder]
    by_cases hx : x = fd
    · simp [hx, hnone]
    · simp [hx]

/-- A removal that succeeds is one of a registered channel without interest. -/
theorem EPollInv.of_remove {l : Loop EPollPoller} {r : List (Nat × Events) × Loop EPollPoller}
    (h : EPollInv l events order) (hok : l.step (.remove fd) = .ok r) :
    fd ∈ order ∧ events fd = kNoneEvent := by
  obtain ⟨hnone, hok⟩ := ensure_bind_eq_ok_iff.mp hok
  obtain ⟨l', hl', -⟩ := bind_eq_ok_iff.mp hok
  obtain ⟨hmem, -⟩ := ensure_bind_eq_ok_iff.mp hl'
  exact ⟨(h.channels fd).mp hmem, (h.events_eq fd).symm.trans hnone⟩

theorem EPollInv.occurred {l : Loop EPollPoller} (h : EPollInv l events order) (fd : Nat)
    (r : Events) : (fd, r) ∈ l.poller.occurred ready ↔ Occurs events ready order fd r := by
  rw [EPollPoller.occurred, List.mem_filter, List.mem_map]
  constructor
  · rintro ⟨⟨⟨x, e⟩, hmem, heq⟩, hne⟩
    obtain ⟨hx, hinterest, rfl⟩ := (h.interest x e).mp hmem
    cases heq
    exact ⟨hx, hinterest, rfl, of_decide_eq_true hne⟩
  · rintro ⟨hfd, hinterest, rfl, hne⟩
    exact ⟨⟨(fd, events fd), (h.interest fd _).mpr ⟨hfd, hinterest, rfl⟩, rfl⟩, decide_eq_true hne⟩

theorem EPollInv.poll {l : Loop EPollPoller} (h : EPollInv l events order)
    (hroom : (l.poller.occurred ready).length ≤ l.poller.events) :
    ∃ l', EPollPoller.poll l ready = .ok (l.poller.occurred ready, l') ∧ EPollInv l' events order := by
  have hknown : ∀ x ∈ l.poller.occurred ready, x.1 ∈ l.poller.channels :=
    fun x hx => (h.channels x.1).mpr ((h.occurred x.1 x.2).mp hx).1
  have hpoll : ∃ size, EPollPoller.poll l ready =
      .ok (l.poller.occurred ready, { l with poller := { l.poller with events := size } }) := by
    simp only [EPollPoller.poll, List.take_of_length_le hroom, ensure_eq_ok hroom,
      ensure_eq_ok hknown, ok_bind]
    exact ⟨_, rfl⟩
  obtain ⟨size, hpoll⟩ := hpoll
  exact ⟨_, hpoll, h.events_eq, h.channels, h.index_eq, h.interest⟩

end DbdkyGcc.Pollers
