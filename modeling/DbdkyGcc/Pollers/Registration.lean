import DbdkyGcc.Foundations.Runs
import DbdkyGcc.Pollers.EPollInterest

/-!
# The kernel's list and the indices of the channels

`EPollPoller` records in the index of a channel whether the kernel has its descriptor. The two
always agree, and every call of `epoll_ctl` finds what it needs; but `updateChannel` does not look
at the interest of a channel that the kernel does not have, and adds it also when it is empty.
-/

namespace DbdkyGcc.Pollers

open Foundations

/-- A step that fails no assertion. -/
def Loop.next {π : Type} [Poller π] (l : Loop π) (a : Action) : Option (Loop π) :=
  (l.step a).toOption.map Prod.snd

theorem next_eq_some {π : Type} [Poller π] {l l' : Loop π} {a : Action} :
    l.next a = some l' ↔ ∃ active, l.step a = .ok (active, l') := by
  rw [Loop.next, Option.map_eq_some_iff]
  constructor
  · rintro ⟨⟨active, _⟩, hok, rfl⟩
    exact ⟨active, eq_ok_of_toOption hok⟩
  · rintro ⟨active, hok⟩
    exact ⟨(active, l'), by rw [hok]; rfl, rfl⟩

variable {l l' : Loop EPollPoller} {fd : Nat} {e : Events} {a : Action}

/-- The `epoll_ctl` that a step makes, with its descriptor and its mask. -/
def Loop.control (l : Loop EPollPoller) : Action → Option (EpollCtl × Nat × Events)
  | .update op fd =>
    let index := (l.channel fd).index
    let events := op.apply (l.channel fd).events
    if index = kNew ∨ index = kDeleted then some (.EPOLL_CTL_ADD, fd, events)
    else if events = kNoneEvent then some (.EPOLL_CTL_DEL, fd, events)
    else some (.EPOLL_CTL_MOD, fd, events)
  | .remove fd =>
    if (l.channel fd).index = kAdded then some (.EPOLL_CTL_DEL, fd, (l.channel fd).events) else none
  | .poll _ => none

/-- The kernel accepts the call of `epoll_ctl` that the step makes, and the step changes the
kernel's list by nothing else. -/
structure Accepted (l : Loop EPollPoller) (a : Action) : Prop where
  not_fatal : l.step a ≠ .error .fatal
  interest : ∀ l', l.next a = some l' →
    (l.control a).elim (l'.poller.interest = l.poller.interest) fun c =>
      epollCtl l.poller.interest c.1 c.2.1 c.2.2 = some l'.poller.interest

/-- What the kernel knows of the channels. -/
structure Mirrors (l : Loop EPollPoller) : Prop where
  added : ∀ fd, fd ∈ l.poller.interest.map Prod.fst ↔
    fd ∈ l.poller.channels ∧ (l.channel fd).index = kAdded
  mask : ∀ fd e, (fd, e) ∈ l.poller.interest → e = (l.channel fd).events
  idle : ∀ fd, (l.channel fd).events = kNoneEvent → fd ∉ l.poller.interest.map Prod.fst

/-- The part of it that every step keeps. -/
structure Registered (l : Loop EPollPoller) : Prop where
  channels : ∀ fd, fd ∈ l.poller.channels ↔ (l.channel fd).index ≠ kNew
  index : ∀ fd, (l.channel fd).index = kNew ∨ (l.channel fd).index = kAdded ∨
    (l.channel fd).index = kDeleted
  interest : ∀ fd e, (fd, e) ∈ l.poller.interest ↔
    (l.channel fd).index = kAdded ∧ e = (l.channel fd).events

theorem Registered.new : Registered EPollPoller.new where
  channels _ := iff_of_false (Finset.notMem_empty _) fun h => h rfl
  index _ := .inl rfl
  interest _ _ := iff_of_false List.not_mem_nil fun h => absurd h.1 (show kNew ≠ kAdded by decide)

theorem Registered.mem_interest (h : Registered l) :
    fd ∈ l.poller.interest.map Prod.fst ↔ (l.channel fd).index = kAdded := by
  rw [List.mem_map]
  constructor
  · rintro ⟨⟨x, e⟩, hmem, rfl⟩
    exact ((h.interest x e).mp hmem).1
  · intro hindex
    exact ⟨_, (h.interest fd _).mpr ⟨hindex, rfl⟩, rfl⟩

/-- Only the last part of `Mirrors` depends on the interest of the channels. -/
theorem Registered.mirrors_iff (h : Registered l) :
    Mirrors l ↔ ∀ fd, (l.channel fd).index = kAdded → (l.channel fd).events ≠ kNoneEvent := by
  constructor
  · intro hm fd hindex hnone
    exact hm.idle fd hnone (h.mem_interest.mpr hindex)
  · intro hidle
    refine ⟨fun fd => ?_, fun fd e hmem => ((h.interest fd e).mp hmem).2, fun fd hnone hmem => ?_⟩
    · rw [h.mem_interest, h.channels]
      constructor
      · intro hindex
        exact ⟨by rw [hindex]; decide, hindex⟩
      · exact And.right
    · exact hidle fd (h.mem_interest.mp hmem) hnone

theorem epoll_updateChannel_deleted (hindex : (l.channel fd).index = kDeleted)
    (hmem : fd ∈ l.poller.channels) (hinterest : fd ∉ l.poller.interest.map Prod.fst) :
    EPollPoller.updateChannel l fd = .ok { l.setIndex fd kAdded with
      poller := { l.poller with
        interest := l.poller.interest ++ [(fd, (l.channel fd).events)] } } := by
  have hnew : ¬kDeleted = kNew := by decide
  simp only [EPollPoller.updateChannel, hindex, or_true, if_true, if_neg hnew, ensure_eq_ok hmem,
    ok_bind, pure, Except.pure, EPollPoller.update, epollCtl, setIndex_events, setIndex_poller,
    if_neg hinterest]

theorem epoll_removeChannel_added (hindex : (l.channel fd).index = kAdded)
    (hmem : fd ∈ l.poller.channels) (hinterest : fd ∈ l.poller.interest.map Prod.fst)
    (hnone : (l.channel fd).events = kNoneEvent) :
    EPollPoller.removeChannel l fd = .ok { l.setIndex fd kNew with
      poller := { l.poller with
        interest := l.poller.interest.filter fun e => e.1 ≠ fd
        channels := l.poller.channels.erase fd } } := by
  simp only [EPollPoller.removeChannel, hindex, ensure_eq_ok hmem, ensure_eq_ok hnone, true_or,
    ensure_eq_ok, ok_bind, if_true, EPollPoller.update, epollCtl, if_pos hinterest]
  rfl

/-- A change of one channel. -/
theorem Registered.of_change (h : Registered l) (fd : Nat)
    (hchannel : ∀ x, x ≠ fd → l'.channel x = l.channel x)
    (hchannels : ∀ x, x ≠ fd → (x ∈ l'.poller.channels ↔ x ∈ l.poller.channels))
    (hinterest : ∀ x e, x ≠ fd → ((x, e) ∈ l'.poller.interest ↔ (x, e) ∈ l.poller.interest))
    (hindex : (l'.channel fd).index = kNew ∨ (l'.channel fd).index = kAdded ∨
      (l'.channel fd).index = kDeleted)
    (hmem : fd ∈ l'.poller.channels ↔ (l'.channel fd).index ≠ kNew)
    (hlist : ∀ e, (fd, e) ∈ l'.poller.interest ↔
      (l'.channel fd).index = kAdded ∧ e = (l'.channel fd).events) : Registered l' := by
  refine ⟨fun x => ?_, fun x => ?_, fun x e => ?_⟩
  · by_cases hx : x = fd
    · exact hx ▸ hmem
    · rw [hchannels x hx, hchannel x hx]
      exact h.channels x
  · by_cases hx : x = fd
    · exact hx ▸ hindex
    · rw [hchannel x hx]
      exact h.index x
  · by_cases hx : x = fd
    · exact hx ▸ hlist e
    · rw [hinterest x e hx, hchannel x hx]
      exact h.interest x e

theorem channel_set_of_ne {x : Nat} (hx : x ≠ fd) (i : Int) :
    ((l.setEvents fd e).setIndex fd i).channel x = l.channel x := by
  simp [Loop.setEvents, Loop.setIndex, hx]

theorem channel_set_self (i : Int) :
    ((l.setEvents fd e).setIndex fd i).channel fd = ⟨e, i⟩ := by
  simp [Loop.setEvents, Loop.setIndex]

/-- What a change of the interest leads to, by the index of the channel. -/
structure Changed (l : Loop EPollPoller) (fd : Nat) (e : Events) (index : Int)
    (operation : EpollCtl) (l' : Loop EPollPoller) : Prop where
  updateChannel : EPollPoller.updateChannel (l.setEvents fd e) fd = .ok l'
  registered : Registered l'
  channel : l'.channel = Function.update l.channel fd ⟨e, index⟩
  control : epollCtl l.poller.interest operation fd e = some l'.poller.interest

theorem channel_set_eq (i : Int) :
    ((l.setEvents fd e).setIndex fd i).channel = Function.update l.channel fd ⟨e, i⟩ := by
  funext x
  by_cases hx : x = fd
  · rw [hx, channel_set_self, Function.update_self]
  · rw [channel_set_of_ne hx, Function.update_of_ne hx]

/-- A channel that the kernel does not have is added, whatever its interest. -/
theorem Registered.add (h : Registered l) (hindex : (l.channel fd).index ≠ kAdded) (e : Events) :
    ∃ l', Changed l fd e kAdded .EPOLL_CTL_ADD l' := by
  have hnot : fd ∉ l.poller.interest.map Prod.fst := fun hmem => hindex (h.mem_interest.mp hmem)
  have hlist : ∀ x u, (x, u) ∈ l.poller.interest ++ [(fd, e)] ↔
      (x, u) ∈ l.poller.interest ∨ x = fd ∧ u = e := by
    intro x u
    rw [List.mem_append, List.mem_singleton, Prod.mk.injEq]
  refine ⟨{ (l.setEvents fd e).setIndex fd kAdded with
    poller := { l.poller with
      interest := l.poller.interest ++ [(fd, e)]
      channels := insert fd l.poller.channels } }, ?_, ?_, channel_set_eq _, if_neg hnot⟩
  · have hevents : ((l.setEvents fd e).channel fd).events = e := by
      rw [setEvents_events, Function.update_self]
    rcases h.index fd with hnew | hadded | hdeleted
    · have hfree : fd ∉ l.poller.channels := fun hmem => (h.channels fd).mp hmem hnew
      have hupdate := epoll_updateChannel_new (l := l.setEvents fd e)
        (by rwa [setEvents_index]) hfree hnot
      rwa [hevents] at hupdate
    · exact absurd hadded hindex
    · have hmem : fd ∈ l.poller.channels := (h.channels fd).mpr (by rw [hdeleted]; decide)
      have hupdate := epoll_updateChannel_deleted (l := l.setEvents fd e)
        (by rwa [setEvents_index]) hmem hnot
      rw [Finset.insert_eq_of_mem hmem]
      rwa [hevents] at hupdate
  · refine h.of_change fd (fun x hx => channel_set_of_ne hx _) (fun x hx => ?_) (fun x u hx => ?_)
      ?_ ?_ fun u => ?_
    · exact Finset.mem_insert.trans (or_iff_right hx)
    · exact (hlist x u).trans (or_iff_left fun heq => hx heq.1)
    · rw [channel_set_self]
      exact .inr (.inl rfl)
    · rw [channel_set_self]
      exact iff_of_true (Finset.mem_insert_self ..) (show kAdded ≠ kNew by decide)
    · rw [channel_set_self]
      refine (hlist fd u).trans ?_
      rw [or_iff_right fun hmem => hnot (List.mem_map_of_mem hmem)]
      exact and_congr_left fun _ => iff_of_true rfl rfl

/-- A channel that the kernel has is taken off the list when its interest is gone. -/
theorem Registered.delete (h : Registered l) (hindex : (l.channel fd).index = kAdded) :
    ∃ l', Changed l fd kNoneEvent kDeleted .EPOLL_CTL_DEL l' := by
  have hin : fd ∈ l.poller.interest.map Prod.fst := h.mem_interest.mpr hindex
  have hmem : fd ∈ l.poller.channels := (h.channels fd).mpr (by rw [hindex]; decide)
  refine ⟨{ (l.setEvents fd kNoneEvent).setIndex fd kDeleted with
    poller := { l.poller with interest := l.poller.interest.filter fun e => e.1 ≠ fd } },
    ?_, ?_, channel_set_eq _, if_pos hin⟩
  · refine epoll_updateChannel_del (by rwa [setEvents_index]) hmem hin ?_
    rw [setEvents_events, Function.update_self]
  · refine h.of_change fd (fun x hx => channel_set_of_ne hx _) (fun _ _ => Iff.rfl)
      (fun x u hx => ?_) ?_ ?_ fun u => ?_
    · exact List.mem_filter.trans (and_iff_left (decide_eq_true hx))
    · rw [channel_set_self]
      exact .inr (.inr rfl)
    · rw [channel_set_self]
      exact iff_of_true hmem (show kDeleted ≠ kNew by decide)
    · rw [channel_set_self]
      refine iff_of_false (fun hu => ?_) fun hu => absurd hu.1 (by decide)
      exact of_decide_eq_true (List.mem_filter.mp hu).2 rfl

theorem Registered.modify (h : Registered l) (hindex : (l.channel fd).index = kAdded)
    (he : e ≠ kNoneEvent) : ∃ l', Changed l fd e kAdded .EPOLL_CTL_MOD l' := by
  have hin : fd ∈ l.poller.interest.map Prod.fst := h.mem_interest.mpr hindex
  have hmem : fd ∈ l.poller.channels := (h.channels fd).mpr (by rw [hindex]; decide)
  have hevents : ((l.setEvents fd e).channel fd).events = e := by
    rw [setEvents_events, Function.update_self]
  have hchannel : (l.setEvents fd e).channel = Function.update l.channel fd ⟨e, kAdded⟩ := by
    show Function.update l.channel fd ⟨e, (l.channel fd).index⟩ = _
    rw [hindex]
  refine ⟨{ l.setEvents fd e with
    poller := { l.poller with
      interest := l.poller.interest.map fun a => if a.1 = fd then (fd, e) else a } },
    ?_, ?_, hchannel, if_pos hin⟩
  · have hupdate := epoll_updateChannel_mod (l := l.setEvents fd e) (by rwa [setEvents_index]) hmem
      hin (by rwa [hevents])
    rwa [hevents] at hupdate
  · have hself : (l.setEvents fd e).channel fd = ⟨e, kAdded⟩ := by
      rw [hchannel, Function.update_self]
    refine h.of_change fd (fun x hx => ?_) (fun _ _ => Iff.rfl) (fun x u hx => ?_) ?_ ?_ fun u => ?_
    · exact (congrFun hchannel x).trans (Function.update_of_ne hx ..)
    · exact (mem_interest_mod hin).trans (by rw [if_neg hx])
    · rw [hself]
      exact .inr (.inl rfl)
    · rw [hself]
      exact iff_of_true hmem (show kAdded ≠ kNew by decide)
    · rw [hself]
      refine (mem_interest_mod hin).trans ?_
      rw [if_pos rfl]
      exact (and_iff_right rfl).symm

/-- The three cases of `updateChannel`. -/
theorem Registered.update (h : Registered l) (op : Operation) (fd : Nat) :
    ∃ l' index operation, Changed l fd (op.apply (l.channel fd).events) index operation l' ∧
      l.control (.update op fd) = some (operation, fd, op.apply (l.channel fd).events) ∧
      index = if (l.channel fd).index = kAdded ∧ op.apply (l.channel fd).events = kNoneEvent
        then kDeleted else kAdded := by
  by_cases hindex : (l.channel fd).index = kAdded
  · have hnot : ¬((l.channel fd).index = kNew ∨ (l.channel fd).index = kDeleted) := by
      rw [hindex]
      decide
    by_cases hnone : op.apply (l.channel fd).events = kNoneEvent
    · obtain ⟨l', hl'⟩ := h.delete hindex
      refine ⟨l', _, _, hnone ▸ hl', ?_, (if_pos ⟨hindex, hnone⟩).symm⟩
      simp only [Loop.control, if_neg hnot, if_pos hnone]
    · obtain ⟨l', hl'⟩ := h.modify hindex hnone
      refine ⟨l', _, _, hl', ?_, (if_neg fun hc => hnone hc.2).symm⟩
      simp only [Loop.control, if_neg hnot, if_neg hnone]
  · obtain ⟨l', hl'⟩ := h.add hindex (op.apply (l.channel fd).events)
    refine ⟨l', _, _, hl', ?_, (if_neg fun hc => hindex hc.1).symm⟩
    have hnew : (l.channel fd).index = kNew ∨ (l.channel fd).index = kDeleted :=
      (h.index fd).imp_right fun hor => hor.resolve_left hindex
    simp only [Loop.control, if_pos hnew]

theorem Changed.step {op : Operation} {index : Int} {operation : EpollCtl}
    (h : Changed l fd (op.apply (l.channel fd).events) index operation l') :
    l.step (.update op fd) = .ok ([], l') := by
  change Poller.updateChannel _ fd >>= _ = _
  exact bind_eq_ok_iff.mpr ⟨l', h.updateChannel, rfl⟩

/-- A removal that fails no assertion. A channel that was added with no interest is taken off the
kernel's list here. -/
theorem Registered.remove (h : Registered l) (hmem : fd ∈ l.poller.channels)
    (hnone : (l.channel fd).events = kNoneEvent) :
    ∃ l', l.step (.remove fd) = .ok ([], l') ∧ Registered l' ∧
      l'.channel = Function.update l.channel fd ⟨(l.channel fd).events, kNew⟩ ∧
      (l.control (.remove fd)).elim (l'.poller.interest = l.poller.interest) fun c =>
        epollCtl l.poller.interest c.1 c.2.1 c.2.2 = some l'.poller.interest := by
  have hself : (l.setIndex fd kNew).channel fd = ⟨(l.channel fd).events, kNew⟩ :=
    Function.update_self ..
  -- the kernel's list after the removal, in both cases
  have hdone : ∀ interest : List (Nat × Events),
      (∀ x e, (x, e) ∈ interest ↔ x ≠ fd ∧ (x, e) ∈ l.poller.interest) →
      Registered { l.setIndex fd kNew with
        poller := { l.poller with interest, channels := l.poller.channels.erase fd } } := by
    intro interest hinterest
    refine h.of_change fd (fun x hx => Function.update_of_ne hx ..) (fun x hx => ?_)
      (fun x e hx => ?_) ?_ ?_ fun e => ?_
    · exact Finset.mem_erase.trans (and_iff_right hx)
    · exact (hinterest x e).trans (and_iff_right hx)
    · exact .inl (congrArg Channel.index hself)
    · exact iff_of_false (Finset.notMem_erase _ _) fun hne => hne (congrArg Channel.index hself)
    · refine iff_of_false (fun he => ((hinterest fd e).mp he).1 rfl) fun he => ?_
      exact absurd ((congrArg Channel.index hself).symm.trans he.1) (show kNew ≠ kAdded by decide)
  have hstep : ∀ {l'}, EPollPoller.removeChannel l fd = .ok l' →
      l.step (.remove fd) = .ok ([], l') := by
    intro l' hl'
    exact ensure_bind_eq_ok_iff.mpr ⟨hnone, bind_eq_ok_iff.mpr ⟨l', hl', rfl⟩⟩
  rcases h.index fd with hindex | hindex | hindex
  · exact absurd hindex ((h.channels fd).mp hmem)
  · have hin : fd ∈ l.poller.interest.map Prod.fst := h.mem_interest.mpr hindex
    refine ⟨_, hstep (epoll_removeChannel_added hindex hmem hin hnone), hdone _ fun x e => ?_,
      rfl, ?_⟩
    · rw [List.mem_filter, decide_eq_true_iff, and_comm]
    · rw [Loop.control, if_pos hindex]
      exact if_pos hin
  · refine ⟨_, hstep (epoll_removeChannel_eq hindex hmem hnone), hdone _ fun x e => ?_, rfl, ?_⟩
    · refine ⟨fun he => ⟨?_, he⟩, And.right⟩
      rintro rfl
      have hadded := ((h.interest x e).mp he).1
      rw [hindex] at hadded
      exact absurd hadded (by decide)
    · rw [Loop.control, if_neg (by rw [hindex]; decide)]
      rfl

theorem Registered.poll (h : Registered l) (ready : Nat → Events) :
    ∃ active size, l.step (.poll ready) =
      .ok (active, { l with poller := { l.poller with events := size } }) := by
  have hroom : ((l.poller.occurred ready).take l.poller.events).length ≤ l.poller.events :=
    List.length_take_le ..
  have hknown : ∀ x ∈ (l.poller.occurred ready).take l.poller.events, x.1 ∈ l.poller.channels := by
    intro x hx
    obtain ⟨hx, -⟩ := List.mem_filter.mp (List.mem_of_mem_take hx)
    obtain ⟨⟨fd, e⟩, hfd, rfl⟩ := List.mem_map.mp hx
    refine (h.channels fd).mpr ?_
    rw [((h.interest fd e).mp hfd).1]
    decide
  change ∃ active size, EPollPoller.poll l ready = _
  simp only [EPollPoller.poll, ensure_eq_ok hroom, ensure_eq_ok hknown, ok_bind]
  exact ⟨_, _, rfl⟩

/-- Every call of `epoll_ctl` is accepted, whatever the interest. -/
theorem Registered.accepted (h : Registered l) (a : Action) : Accepted l a := by
  cases a with
  | update op fd =>
    obtain ⟨l', _, _, hl', hcontrol, -⟩ := h.update op fd
    refine ⟨by rw [hl'.step]; rintro ⟨⟩, fun l'' hnext => ?_⟩
    obtain ⟨_, hok⟩ := next_eq_some.mp hnext
    cases hl'.step.symm.trans hok
    rw [hcontrol]
    exact hl'.control
  | remove fd =>
    by_cases hc : (l.channel fd).events = kNoneEvent ∧ fd ∈ l.poller.channels
    · obtain ⟨l', hstep, -, -, hinterest⟩ := h.remove hc.2 hc.1
      refine ⟨by rw [hstep]; rintro ⟨⟩, fun l'' hnext => ?_⟩
      obtain ⟨_, hok⟩ := next_eq_some.mp hnext
      cases hstep.symm.trans hok
      exact hinterest
    · -- one of the first two assertions fails
      have hfails : l.step (.remove fd) = .error .assertion := by
        change ensure .assertion _ >>= (fun _ => EPollPoller.removeChannel l fd >>= _) = _
        by_cases hnone : (l.channel fd).events = kNoneEvent
        · have hnot : fd ∉ l.poller.channels := fun hmem => hc ⟨hnone, hmem⟩
          rw [ensure_eq_ok hnone, ok_bind, EPollPoller.removeChannel, ensure, if_neg hnot]
          rfl
        · rw [ensure, if_neg hnone]
          rfl
      refine ⟨by rw [hfails]; rintro ⟨⟩, fun l' hnext => ?_⟩
      obtain ⟨_, hok⟩ := next_eq_some.mp hnext
      cases hfails.symm.trans hok
  | poll ready =>
    obtain ⟨active, size, hpoll⟩ := h.poll ready
    refine ⟨by rw [hpoll]; rintro ⟨⟩, fun l' hnext => ?_⟩
    obtain ⟨_, hok⟩ := next_eq_some.mp hnext
    cases hpoll.symm.trans hok
    rfl

/-- A channel that the kernel does not have is left with some interest. -/
def Interested (l : Loop EPollPoller) : Action → Prop
  | .update op fd =>
    (l.channel fd).index = kNew ∨ (l.channel fd).index = kDeleted →
      op.apply (l.channel fd).events ≠ kNoneEvent
  | _ => True

theorem Registered.next (h : Registered l) (hnext : l.next a = some l') :
    Registered l' ∧ (Mirrors l → (Mirrors l' ↔ Interested l a)) := by
  obtain ⟨_, hok⟩ := next_eq_some.mp hnext
  cases a with
  | update op fd =>
    obtain ⟨_, index, _, hl', -, hindex⟩ := h.update op fd
    cases hl'.step.symm.trans hok
    refine ⟨hl'.registered, fun hm => ?_⟩
    rw [hl'.registered.mirrors_iff, hl'.channel]
    rw [h.mirrors_iff] at hm
    constructor
    · intro hidle hnew
      have hnot : ¬((l.channel fd).index = kAdded ∧ op.apply (l.channel fd).events = kNoneEvent) := by
        rintro ⟨hadded, -⟩
        rw [hadded] at hnew
        exact absurd hnew (by decide)
      have hfd := hidle fd
      rw [Function.update_self] at hfd
      exact hfd (hindex.trans (if_neg hnot))
    · intro hinterested x hx
      by_cases hxfd : x = fd
      · subst hxfd
        rw [Function.update_self] at hx ⊢
        intro hnone
        by_cases hadded : (l.channel x).index = kAdded
        · rw [show index = kAdded from hx, if_pos ⟨hadded, hnone⟩] at hindex
          exact absurd hindex (by decide)
        · exact hinterested ((h.index x).imp_right fun hor => hor.resolve_left hadded) hnone
      · rw [Function.update_of_ne hxfd] at hx ⊢
        exact hm x hx
  | remove fd =>
    obtain ⟨hnone, hrest⟩ := ensure_bind_eq_ok_iff.mp hok
    obtain ⟨_, hremove, -⟩ := bind_eq_ok_iff.mp hrest
    obtain ⟨hmem, -⟩ := ensure_bind_eq_ok_iff.mp hremove
    obtain ⟨_, hstep, hreg, hchannel, -⟩ := h.remove hmem hnone
    cases hstep.symm.trans hok
    refine ⟨hreg, fun hm => iff_of_true ?_ trivial⟩
    rw [hreg.mirrors_iff, hchannel]
    rw [h.mirrors_iff] at hm
    intro x hx
    by_cases hxfd : x = fd
    · rw [hxfd, Function.update_self] at hx
      exact absurd hx (show kNew ≠ kAdded by decide)
    · rw [Function.update_of_ne hxfd] at hx ⊢
      exact hm x hx
  | poll ready =>
    obtain ⟨active, size, hpoll⟩ := h.poll ready
    cases hpoll.symm.trans hok
    exact ⟨⟨h.channels, h.index, h.interest⟩,
      fun hm => iff_of_true ⟨hm.added, hm.mask, hm.idle⟩ trivial⟩

theorem Mirrors.new : Mirrors EPollPoller.new :=
  Registered.new.mirrors_iff.mpr fun _ h => absurd h (show kNew ≠ kAdded by decide)

/-- The kernel's list mirrors the channels throughout a run exactly when each of its updates that
finds a channel new or deleted leaves it some interest. -/
theorem registration_mirrored_iff (acts : List Action) :
    Always Loop.next (fun l => Mirrors l ∧ ∀ a, Accepted l a) EPollPoller.new acts ↔
      Meets Loop.next Interested EPollPoller.new acts := by
  refine always_iff_meets (I := Registered) (fun l a l' h hnext => (h.next hnext).1)
    (fun l a l' h hm hnext => ?_) (fun l a h hnone => ?_) acts .new ⟨.new, Registered.new.accepted⟩
  · obtain ⟨hreg, hiff⟩ := h.next hnext
    rw [← hiff hm.1]
    exact and_iff_left hreg.accepted
  · -- an update never fails
    cases a with
    | update op fd =>
      obtain ⟨l', _, _, hl', -⟩ := h.update op fd
      rw [next_eq_some.mpr ⟨[], hl'.step⟩] at hnone
      cases hnone
    | remove fd => trivial
    | poll ready => trivial

/-- An acceptor that is destroyed before it listens: its channel is disabled first. -/
theorem registration_not_mirrored :
    ¬Always Loop.next (fun l => Mirrors l ∧ ∀ a, Accepted l a) EPollPoller.new
      [.update .disableAll 3, .remove 3] := by
  intro h
  have hstep : (Loop.next EPollPoller.new (.update .disableAll 3)).any (fun l =>
      3 ∈ l.poller.interest.map Prod.fst ∧ (l.channel 3).events = kNoneEvent) = true := by
    decide +kernel
  obtain ⟨l, hl, hcheck⟩ := (Option.any_eq_true _ _).mp hstep
  obtain ⟨hmem, hnone⟩ := of_decide_eq_true hcheck
  exact (h.2 l hl).head.1.idle 3 hnone hmem

end DbdkyGcc.Pollers
