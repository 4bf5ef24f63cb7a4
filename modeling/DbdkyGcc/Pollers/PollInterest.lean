import DbdkyGcc.Foundations.Indexed
import DbdkyGcc.Pollers.Model

/-!
# The interest of the channels in a `pollfd` table

`PollPoller` has one entry for each registered channel, at the place that the channel records.
`PollInv` states what the table holds when the interest of the channels is `events`; an entry
without interest is negated, so that `poll(2)` skips it.
-/

namespace DbdkyGcc.Pollers

open Foundations

section Channels

variable {π : Type} (l : Loop π) (fd x : Nat)

@[simp] theorem setEvents_poller (e : Events) : (l.setEvents fd e).poller = l.poller := rfl

@[simp] theorem setIndex_poller (i : Int) : (l.setIndex fd i).poller = l.poller := rfl

@[simp] theorem setEvents_events (e : Events) : ((l.setEvents fd e).channel x).events =
    Function.update (fun x => (l.channel x).events) fd e x := by
  by_cases hx : x = fd
  · rw [hx]
    simp [Loop.setEvents]
  · simp [Loop.setEvents, hx]

@[simp] theorem setEvents_index (e : Events) :
    ((l.setEvents fd e).channel x).index = (l.channel x).index := by
  by_cases hx : x = fd
  · rw [hx]
    simp [Loop.setEvents]
  · simp [Loop.setEvents, hx]

@[simp] theorem setIndex_events (i : Int) :
    ((l.setIndex fd i).channel x).events = (l.channel x).events := by
  by_cases hx : x = fd
  · rw [hx]
    simp [Loop.setIndex]
  · simp [Loop.setIndex, hx]

@[simp] theorem setIndex_index (i : Int) : ((l.setIndex fd i).channel x).index =
    Function.update (fun x => (l.channel x).index) fd i x := by
  by_cases hx : x = fd
  · rw [hx]
    simp [Loop.setIndex]
  · simp [Loop.setIndex, hx]

theorem setEvents_events_eq {l : Loop π} {events : Nat → Events}
    (h : ∀ fd, (l.channel fd).events = events fd) (e : Events) :
    ((l.setEvents fd e).channel x).events = Function.update events fd e x := by
  rw [setEvents_events, funext h]

end Channels

variable {events : Nat → Events} {order : List Nat} {fd : Nat} {e : Events}

/-- The entry of a channel in `pollfds_`. -/
def entry (events : Nat → Events) (fd : Nat) : PollFd :=
  ⟨if events fd = kNoneEvent then -fd - 1 else fd, events fd⟩

/-- The state of the `poll` loop, with its channels in the order of `pollfds_`. -/
structure PollInv (l : Loop PollPoller) (events : Nat → Events) (order : List Nat) : Prop where
  events_eq : ∀ fd, (l.channel fd).events = events fd
  pollfds : l.poller.pollfds = order.map (entry events)
  indexed : Indexed (fun fd => (l.channel fd).index) order
  channels : ∀ fd : Nat, (fd : Int) ∈ l.poller.channels ↔ fd ∈ order

theorem entry_update_of_notMem (hfd : fd ∉ order) :
    order.map (entry (Function.update events fd e)) = order.map (entry events) := by
  refine List.map_congr_left fun x hx => ?_
  have hne : x ≠ fd := fun h => hfd (h ▸ hx)
  rw [entry, entry, Function.update_of_ne hne]

theorem updateChannel_new {l : Loop PollPoller} (hindex : (l.channel fd).index < 0)
    (hfree : (fd : Int) ∉ l.poller.channels) :
    PollPoller.updateChannel l fd = .ok { l.setIndex fd l.poller.pollfds.length with
      poller := ⟨l.poller.pollfds ++ [⟨fd, (l.channel fd).events⟩], insert (fd : Int) l.poller.channels⟩ } := by
  simp only [PollPoller.updateChannel, if_pos hindex, ensure_eq_ok hfree, ok_bind]
  rfl

theorem PollInv.register {l : Loop PollPoller} (h : PollInv l events order)
    (hindex : (l.channel fd).index < 0) (hfd : fd ∉ order) (he : e ≠ kNoneEvent) :
    ∃ l', PollPoller.updateChannel (l.setEvents fd e) fd = .ok l' ∧
      PollInv l' (Function.update events fd e) (order ++ [fd]) := by
  have hindex' : ((l.setEvents fd e).channel fd).index < 0 := by rwa [setEvents_index]
  refine ⟨_, updateChannel_new hindex' (fun hmem => hfd ((h.channels fd).mp hmem)), ?_⟩
  refine ⟨fun x => ?_, ?_, ?_, fun x => ?_⟩
  · change (((l.setEvents fd e).setIndex fd _).channel x).events = _
    rw [setIndex_events, setEvents_events_eq _ _ h.events_eq]
  · change l.poller.pollfds ++ [⟨fd, _⟩] = _
    rw [setEvents_events_eq _ _ h.events_eq, Function.update_self, List.map_append, entry_update_of_notMem hfd,
      h.pollfds, List.map_singleton, entry, Function.update_self, if_neg he]
  · have happend := h.indexed.append hfd
    have hlength : (l.setEvents fd e).poller.pollfds.length = order.length := by
      rw [setEvents_poller, h.pollfds, List.length_map]
    intro i x hx
    change (((l.setEvents fd e).setIndex fd _).channel x).index = _
    rw [setIndex_index, hlength]
    simp only [setEvents_index]
    exact happend i x hx
  · change (x : Int) ∈ insert (fd : Int) l.poller.channels ↔ _
    rw [Finset.mem_insert, h.channels, List.mem_append, List.mem_singleton, Nat.cast_inj, or_comm]

theorem updateChannel_present {l : Loop PollPoller} {i : Nat} {pfd : PollFd}
    (hindex : (l.channel fd).index = i) (hmem : (fd : Int) ∈ l.poller.channels)
    (hpfd : l.poller.pollfds[i]? = some pfd) (hfd : pfd.fd = fd ∨ pfd.fd = -fd - 1) :
    PollPoller.updateChannel l fd = .ok { l with
      poller := { l.poller with
        pollfds := l.poller.pollfds.set i
          ⟨if (l.channel fd).events = kNoneEvent then -fd - 1 else pfd.fd, (l.channel fd).events⟩ } } := by
  have hnot : ¬(l.channel fd).index < 0 := by omega
  have hidx : (l.channel fd).index.toNat = i := by omega
  simp only [PollPoller.updateChannel, if_neg hnot, ensure_eq_ok hmem, hidx, hpfd, require,
    ensure_eq_ok hfd, ok_bind]
  rfl

/-- The entry of one channel is rewritten in place. -/
theorem set_entry {i : Nat} (hnodup : order.Nodup) (hi : order[i]? = some fd) :
    (order.map (entry events)).set i (entry (Function.update events fd e) fd) =
      order.map (entry (Function.update events fd e)) := by
  apply List.ext_getElem?
  intro j
  rw [List.getElem?_set, List.length_map, List.getElem?_map, List.getElem?_map]
  obtain ⟨hlt, hget⟩ := List.getElem?_eq_some_iff.mp hi
  split
  · next hij =>
    rw [← hij, hi]
    rfl
  · next hij =>
    cases hj : order[j]? with
    | none => rfl
    | some x =>
      have hne : x ≠ fd := by
        rintro rfl
        exact hij ((hnodup.getElem_inj_iff).mp (hget.trans (List.getElem?_eq_some_iff.mp hj).2.symm))
      simp only [Option.map_some, entry, Function.update_of_ne hne]

theorem PollInv.change {l : Loop PollPoller} (h : PollInv l events order) (hfd : fd ∈ order)
    (hne : events fd ≠ kNoneEvent) :
    ∃ l', PollPoller.updateChannel (l.setEvents fd e) fd = .ok l' ∧
      PollInv l' (Function.update events fd e) order := by
  obtain ⟨i, hindex, hi⟩ := h.indexed.exists_getElem? hfd
  have hindex' : ((l.setEvents fd e).channel fd).index = i := by rwa [setEvents_index]
  have hpfd : (l.setEvents fd e).poller.pollfds[i]? = some (entry events fd) := by
    rw [setEvents_poller, h.pollfds, List.getElem?_map, hi]
    rfl
  have hentry : (entry events fd).fd = fd := if_neg hne
  refine ⟨_, updateChannel_present hindex' ((h.channels fd).mpr hfd) hpfd (.inl hentry), ?_⟩
  refine ⟨fun x => ?_, ?_, fun i x hx => ?_, h.channels⟩
  · exact setEvents_events_eq _ _ h.events_eq e
  · change l.poller.pollfds.set i _ = _
    rw [h.pollfds, ← set_entry h.indexed.nodup hi, setEvents_events, Function.update_self,
      hentry, entry, Function.update_self]
  · change ((l.setEvents fd e).channel x).index = _
    rw [setEvents_index]
    exact h.indexed i x hx

/-- The descriptor of an entry, negated or not. -/
theorem entry_channel (events : Nat → Events) (fd : Nat) :
    (if (entry events fd).fd < 0 then -(entry events fd).fd - 1 else (entry events fd).fd) = fd := by
  simp only [entry]
  split
  · rw [if_pos (by omega)]
    omega
  · rw [if_neg (by omega)]

theorem removeChannel_last {l : Loop PollPoller} {i : Nat} (hindex : (l.channel fd).index = i)
    (hmem : (fd : Int) ∈ l.poller.channels) (hnone : (l.channel fd).events = kNoneEvent)
    (hpfd : l.poller.pollfds[i]? = some ⟨-fd - 1, kNoneEvent⟩)
    (hi : i = l.poller.pollfds.length - 1) :
    PollPoller.removeChannel l fd = .ok { l with
      poller := ⟨l.poller.pollfds.dropLast, l.poller.channels.erase fd⟩ } := by
  have hnonneg : 0 ≤ (l.channel fd).index := by omega
  have hidx : (l.channel fd).index.toNat = i := by omega
  simp only [PollPoller.removeChannel, ensure_eq_ok hmem, hnone, ensure_eq_ok, ensure_eq_ok hnonneg,
    hidx, hpfd, require, ok_bind, and_self, if_pos hi]
  rfl

theorem removeChannel_swap {l : Loop PollPoller} {i y : Nat} {last : PollFd}
    (hindex : (l.channel fd).index = i) (hmem : (fd : Int) ∈ l.poller.channels)
    (hnone : (l.channel fd).events = kNoneEvent)
    (hpfd : l.poller.pollfds[i]? = some ⟨-fd - 1, kNoneEvent⟩)
    (hi : i ≠ l.poller.pollfds.length - 1) (hlast : l.poller.pollfds.getLast? = some last)
    (hy : (if last.fd < 0 then -last.fd - 1 else last.fd) = y)
    (hymem : (y : Int) ∈ l.poller.channels.erase fd) :
    PollPoller.removeChannel l fd = .ok { l.setIndex y i with
      poller := ⟨(l.poller.pollfds.set i last).dropLast, l.poller.channels.erase fd⟩ } := by
  have hnonneg : 0 ≤ (l.channel fd).index := by omega
  have hidx : (l.channel fd).index.toNat = i := by omega
  simp only [PollPoller.removeChannel, ensure_eq_ok hmem, hnone, ensure_eq_ok, ensure_eq_ok hnonneg,
    hidx, hpfd, require, ok_bind, and_self, if_neg hi, hlast, hy, ensure_eq_ok hymem]
  rw [hindex]
  rfl

theorem PollInv.remove {l : Loop PollPoller} (h : PollInv l events order) (hfd : fd ∈ order)
    (hnone : events fd = kNoneEvent) :
    ∃ l' order', PollPoller.removeChannel l fd = .ok l' ∧ PollInv l' events order' ∧
      ∀ x, x ∈ order' ↔ x ≠ fd ∧ x ∈ order := by
  obtain ⟨i, hindex, hi⟩ := h.indexed.exists_getElem? hfd
  have hentry : entry events fd = ⟨-fd - 1, kNoneEvent⟩ := by rw [entry, hnone, if_pos rfl]
  have hpfd : l.poller.pollfds[i]? = some ⟨-fd - 1, kNoneEvent⟩ := by
    rw [h.pollfds, List.getElem?_map, hi, Option.map_some, hentry]
  have hmem : (fd : Int) ∈ l.poller.channels := (h.channels fd).mpr hfd
  have hevents : (l.channel fd).events = kNoneEvent := (h.events_eq fd).trans hnone
  have hlength : l.poller.pollfds.length = order.length := by rw [h.pollfds, List.length_map]
  have horder : ∀ x, x ∈ swapRemove order i ↔ x ≠ fd ∧ x ∈ order :=
    fun x => mem_swapRemove h.indexed.nodup hi
  have hchannels : ∀ x : Nat, (x : Int) ∈ l.poller.channels.erase fd ↔ x ∈ swapRemove order i := by
    intro x
    rw [Finset.mem_erase, h.channels, horder, Ne, Nat.cast_inj]
  obtain ⟨y, hy⟩ : ∃ y, order.getLast? = some y :=
    ⟨_, List.getLast?_eq_some_getLast (List.ne_nil_of_mem hfd)⟩
  have hindexed := h.indexed.swapRemove hy i
  by_cases hlast : i = l.poller.pollfds.length - 1
  · -- the last entry: no other channel moves
    rw [hlength] at hlast
    have hyfd : y = fd := by
      rw [List.getLast?_eq_getElem?, ← hlast, hi] at hy
      exact (Option.some.inj hy).symm
    refine ⟨_, swapRemove order i, removeChannel_last hindex hmem hevents hpfd (by rw [hlength]; exact hlast),
      ⟨h.events_eq, ?_, ?_, hchannels⟩, horder⟩
    · change l.poller.pollfds.dropLast = _
      rw [hlast, swapRemove_last, h.pollfds, List.map_dropLast]
    · rw [hyfd, ← hindex, Function.update_eq_self] at hindexed
      exact hindexed
  · have hyorder : y ∈ order := List.mem_of_getLast? hy
    have hyfd : y ≠ fd := by
      rintro rfl
      rw [List.getLast?_eq_getElem?] at hy
      have hsame := h.indexed _ y hy
      dsimp only at hsame
      omega
    have hlastpfd : l.poller.pollfds.getLast? = some (entry events y) := by
      rw [h.pollfds, List.getLast?_map, hy, Option.map_some]
    have hymem : (y : Int) ∈ l.poller.channels.erase fd :=
      (hchannels y).mpr ((horder y).mpr ⟨hyfd, hyorder⟩)
    refine ⟨_, swapRemove order i, removeChannel_swap hindex hmem hevents hpfd hlast hlastpfd
      (entry_channel events y) hymem, ⟨fun x => ?_, ?_, fun j x hx => ?_, hchannels⟩, horder⟩
    · change ((l.setIndex y i).channel x).events = _
      rw [setIndex_events, h.events_eq]
    · change (l.poller.pollfds.set i _).dropLast = _
      rw [map_swapRemove, swapRemove, List.getLast?_map, hy, Option.map_some, Option.elim_some, h.pollfds]
    · change ((l.setIndex y i).channel x).index = _
      rw [setIndex_index]
      exact hindexed j x hx

/-- The entries of channels with some interest. -/
def PollPoller.interested (p : PollPoller) : List PollFd :=
  p.pollfds.filter fun pfd => pfd.events ≠ kNoneEvent

/-! ## A poll -/

variable {ready : Nat → Events}

/-- The pair that is reported for an entry. -/
def PollFd.active (ready : Nat → Events) (pfd : PollFd) : Nat × Events :=
  (pfd.fd.toNat, pfd.revents ready)

/-- `fillActiveChannels` takes the first entries that have some interest. -/
theorem fillActiveChannels_eq {channels : Finset Int} {pollfds : List PollFd}
    (h : ∀ pfd ∈ pollfds, pfd.events ≠ kNoneEvent → pfd.fd ∈ channels) (numEvents : Nat) :
    PollPoller.fillActiveChannels channels ready numEvents pollfds =
      .ok (((pollfds.filter fun pfd => pfd.events ≠ kNoneEvent).take numEvents).map
        (PollFd.active ready)) := by
  induction pollfds generalizing numEvents with
  | nil =>
    cases numEvents with
    | zero => rfl
    | succ n => rfl
  | cons pfd pollfds ih =>
    have htail := ih fun p hp => h p (List.mem_cons_of_mem _ hp)
    cases numEvents with
    | zero => rw [List.take_zero]; rfl
    | succ n =>
      by_cases hne : pfd.events ≠ kNoneEvent
      · have hmem := h pfd List.mem_cons_self hne
        rw [PollPoller.fillActiveChannels, if_pos hne, ensure_eq_ok hmem, ok_bind, htail, ok_bind,
          List.filter_cons_of_pos (by simpa using hne), List.take_succ_cons, List.map_cons]
        rfl
      · rw [PollPoller.fillActiveChannels, if_neg hne, htail, List.filter_cons_of_neg (by simpa using hne)]

theorem revents_entry_of_none (hnone : events fd = kNoneEvent) :
    (entry events fd).revents ready = ∅ := by
  rw [PollFd.revents, entry, if_pos hnone, if_pos]
  dsimp only
  omega

theorem active_entry (hne : events fd ≠ kNoneEvent) :
    (entry events fd).active ready = (fd, occurring (ready fd) (events fd)) := by
  rw [PollFd.active, PollFd.revents, entry, if_neg hne]
  dsimp only
  rw [if_neg (by omega), Int.toNat_natCast]

/-- What both loops report: the registered channels for which something occurs. -/
def Occurs (events ready : Nat → Events) (order : List Nat) (fd : Nat) (revents : Events) : Prop :=
  fd ∈ order ∧ events fd ≠ kNoneEvent ∧ revents = occurring (ready fd) (events fd) ∧ revents ≠ ∅

theorem PollInv.poll {l : Loop PollPoller} (h : PollInv l events order)
    (hfirst : (l.poller.interested.filter fun pfd => pfd.revents ready ≠ ∅) <+: l.poller.interested) :
    ∃ active, PollPoller.poll l ready = .ok (active, l) ∧
      ∀ fd r, (fd, r) ∈ active ↔ Occurs events ready order fd r := by
  have hmem : ∀ pfd ∈ l.poller.pollfds, pfd.events ≠ kNoneEvent → pfd.fd ∈ l.poller.channels := by
    rw [h.pollfds]
    intro pfd hpfd hne
    obtain ⟨fd, hfd, rfl⟩ := List.mem_map.mp hpfd
    have hentry : (entry events fd).fd = fd := if_neg hne
    rw [hentry]
    exact (h.channels fd).mpr hfd
  -- an entry without interest is not reported by poll, so the others are counted
  have hcount : l.poller.pollfds.countP (fun pfd => pfd.revents ready ≠ ∅) =
      (l.poller.interested.filter fun pfd => pfd.revents ready ≠ ∅).length := by
    rw [List.countP_eq_length_filter, PollPoller.interested, List.filter_filter]
    refine congrArg List.length (List.filter_congr fun pfd hpfd => ?_)
    rw [h.pollfds] at hpfd
    obtain ⟨fd, -, rfl⟩ := List.mem_map.mp hpfd
    by_cases hnone : events fd = kNoneEvent
    · simp [revents_entry_of_none hnone]
    · simp [entry, hnone]
  refine ⟨(l.poller.interested.filter fun pfd => pfd.revents ready ≠ ∅).map (PollFd.active ready),
    ?_, fun fd r => ?_⟩
  · simp only [PollPoller.poll, fillActiveChannels_eq hmem, ok_bind, hcount]
    exact congrArg (fun first => Except.ok (first.map (PollFd.active ready), l))
      (List.prefix_iff_eq_take.mp hfirst).symm
  · rw [List.mem_map, PollPoller.interested, h.pollfds]
    constructor
    · rintro ⟨pfd, hpfd, hactive⟩
      obtain ⟨hinterested, hready⟩ := List.mem_filter.mp hpfd
      obtain ⟨horder, hne⟩ := List.mem_filter.mp hinterested
      obtain ⟨x, hx, rfl⟩ := List.mem_map.mp horder
      have hrevents : (entry events x).revents ready = r := congrArg Prod.snd hactive
      rw [active_entry (of_decide_eq_true hne)] at hactive
      cases hactive
      exact ⟨hx, of_decide_eq_true hne, rfl, hrevents ▸ of_decide_eq_true hready⟩
    · rintro ⟨hfd, hne, rfl, hoccurs⟩
      have hactive : (entry events fd).active ready = _ := active_entry hne
      refine ⟨entry events fd, List.mem_filter.mpr ⟨List.mem_filter.mpr
        ⟨List.mem_map_of_mem hfd, decide_eq_true hne⟩, decide_eq_true ?_⟩, hactive⟩
      have hrevents : (entry events fd).revents ready = _ := congrArg Prod.snd hactive
      rw [hrevents]
      exact hoccurs

end DbdkyGcc.Pollers
