import DbdkyGcc.Foundations.Runs
import DbdkyGcc.Pollers.PollInterest

/-!
# Where a channel's entry is

`PollPoller` finds the entry of a channel at the index that the channel records, and after a
removal the owner of the moved entry by its descriptor, negated or not. Both are right in every
run in which only registered channels without interest are removed, and a removed channel is not
used again; a descriptor may get a new channel then. The functions are also given as they are
compiled with `NDEBUG`, without the assertions.
-/

namespace DbdkyGcc.Pollers

open Foundations

variable {l l' : Loop PollPoller} {fd : Nat} {e : Events}

/-- The descriptor of the channel that an entry belongs to. -/
def PollFd.owner (pfd : PollFd) : Nat := (if pfd.fd < 0 then -pfd.fd - 1 else pfd.fd).toNat

theorem owner_eq_iff {pfd : PollFd} : pfd.owner = fd ↔ pfd.fd = fd ∨ pfd.fd = -fd - 1 := by
  rw [PollFd.owner]
  split
  · omega
  · omega

theorem owner_cast (pfd : PollFd) :
    (if pfd.fd < 0 then -pfd.fd - 1 else pfd.fd) = (pfd.owner : Int) := by
  rw [PollFd.owner, Int.toNat_of_nonneg]
  split
  · omega
  · omega

namespace PollPoller

/-- `updateChannel` without its assertions; `none` where it leaves the vector. -/
def updateEntry (l : Loop PollPoller) (fd : Nat) : Option (Loop PollPoller) :=
  let channel := l.channel fd
  let p := l.poller
  if channel.index < 0 then
    let poller :=
      { pollfds := p.pollfds ++ [⟨fd, channel.events⟩], channels := insert (fd : Int) p.channels }
    some { l.setIndex fd p.pollfds.length with poller }
  else do
    let idx := channel.index.toNat
    let pfd ← p.pollfds[idx]?
    let pfd' : PollFd :=
      { fd := if channel.events = kNoneEvent then -fd - 1 else pfd.fd, events := channel.events }
    return { l with poller := { p with pollfds := p.pollfds.set idx pfd' } }

/-- `removeChannel` without its assertions; `none` where it leaves the vector or uses a null
pointer. -/
def removeEntry (l : Loop PollPoller) (fd : Nat) : Option (Loop PollPoller) :=
  let channel := l.channel fd
  let p := l.poller
  let channels := p.channels.erase fd
  let idx := channel.index.toNat
  if channel.index < 0 ∨ p.pollfds.length ≤ idx then none
  else if idx = p.pollfds.length - 1 then
    some { l with poller := { pollfds := p.pollfds.dropLast, channels } }
  else do
    let last ← p.pollfds.getLast?
    let channelAtEnd := if last.fd < 0 then -last.fd - 1 else last.fd
    let poller := { pollfds := (p.pollfds.set idx last).dropLast, channels }
    if channelAtEnd ∈ channels then
      some { l.setIndex channelAtEnd.toNat channel.index with poller }
    else none

end PollPoller

/-- Where the assertions of `updateChannel` hold they make no difference. -/
theorem updateEntry_of_updateChannel (h : PollPoller.updateChannel l fd = .ok l') :
    PollPoller.updateEntry l fd = some l' := by
  simp only [PollPoller.updateChannel] at h
  simp only [PollPoller.updateEntry]
  split at h
  · next hindex =>
    obtain ⟨-, h⟩ := ensure_bind_eq_ok_iff.mp h
    rw [if_pos hindex]
    exact congrArg some (Except.ok.inj h)
  · next hindex =>
    obtain ⟨-, h⟩ := ensure_bind_eq_ok_iff.mp h
    obtain ⟨pfd, hpfd, h⟩ := bind_eq_ok_iff.mp h
    obtain ⟨-, h⟩ := ensure_bind_eq_ok_iff.mp h
    rw [if_neg hindex, require_eq_ok_iff.mp hpfd]
    exact congrArg some (Except.ok.inj h)

theorem removeEntry_of_removeChannel (h : PollPoller.removeChannel l fd = .ok l') :
    PollPoller.removeEntry l fd = some l' := by
  simp only [PollPoller.removeChannel] at h
  obtain ⟨-, h⟩ := ensure_bind_eq_ok_iff.mp h
  obtain ⟨-, h⟩ := ensure_bind_eq_ok_iff.mp h
  obtain ⟨hindex, h⟩ := ensure_bind_eq_ok_iff.mp h
  obtain ⟨pfd, hpfd, h⟩ := bind_eq_ok_iff.mp h
  obtain ⟨-, h⟩ := ensure_bind_eq_ok_iff.mp h
  obtain ⟨hlt, -⟩ := List.getElem?_eq_some_iff.mp (require_eq_ok_iff.mp hpfd)
  have hrange : ¬((l.channel fd).index < 0 ∨
      l.poller.pollfds.length ≤ (l.channel fd).index.toNat) := by omega
  simp only [PollPoller.removeEntry, if_neg hrange]
  split at h
  · next hlast =>
    rw [if_pos hlast]
    exact congrArg some (Except.ok.inj h)
  · next hlast =>
    obtain ⟨last, hgetLast, h⟩ := bind_eq_ok_iff.mp h
    obtain ⟨hmem, h⟩ := ensure_bind_eq_ok_iff.mp h
    rw [if_neg hlast, require_eq_ok_iff.mp hgetLast]
    exact (if_pos hmem).trans (congrArg some (Except.ok.inj h))

/-- The map, the vector and the indices of the channels agree. -/
structure Tabled (l : Loop PollPoller) : Prop where
  indexed : Indexed (fun fd => (l.channel fd).index) (l.poller.pollfds.map PollFd.owner)
  channels : l.poller.channels = (l.poller.pollfds.map fun pfd => (pfd.owner : Int)).toFinset
  events : ∀ pfd ∈ l.poller.pollfds, pfd.events = (l.channel pfd.owner).events

theorem Tabled.new : Tabled PollPoller.new where
  indexed i x hx := by cases hx
  channels := rfl
  events _ hpfd := absurd hpfd List.not_mem_nil

theorem Tabled.mem_channels (h : Tabled l) {x : Int} :
    x ∈ l.poller.channels ↔ ∃ fd ∈ l.poller.pollfds.map PollFd.owner, (fd : Int) = x := by
  rw [h.channels, List.mem_toFinset, List.mem_map]
  constructor
  · rintro ⟨pfd, hpfd, rfl⟩
    exact ⟨_, List.mem_map_of_mem hpfd, rfl⟩
  · rintro ⟨fd, hfd, rfl⟩
    obtain ⟨pfd, hpfd, rfl⟩ := List.mem_map.mp hfd
    exact ⟨pfd, hpfd, rfl⟩

theorem Tabled.mem_owners (h : Tabled l) :
    (fd : Int) ∈ l.poller.channels ↔ fd ∈ l.poller.pollfds.map PollFd.owner := by
  rw [h.mem_channels]
  constructor
  · rintro ⟨x, hx, heq⟩
    exact Int.natCast_inj.mp heq ▸ hx
  · intro hfd
    exact ⟨fd, hfd, rfl⟩

theorem Tabled.card_channels (h : Tabled l) :
    l.poller.channels.card = l.poller.pollfds.length := by
  have hnodup : (l.poller.pollfds.map fun pfd => (pfd.owner : Int)).Nodup := by
    have hmap := h.indexed.nodup.map (f := Nat.cast) fun a b hab => Int.natCast_inj.mp hab
    rwa [List.map_map] at hmap
  rw [h.channels, List.toFinset_card_of_nodup hnodup, List.length_map]

/-- The entry of a registered channel is where the channel says. -/
theorem Tabled.entry (h : Tabled l) (hmem : (fd : Int) ∈ l.poller.channels) :
    ∃ (i : Nat) (pfd : PollFd), (l.channel fd).index = i ∧ l.poller.pollfds[i]? = some pfd ∧
      pfd.owner = fd ∧ pfd.events = (l.channel fd).events := by
  obtain ⟨i, hindex, hi⟩ := h.indexed.exists_getElem? (h.mem_owners.mp hmem)
  rw [List.getElem?_map, Option.map_eq_some_iff] at hi
  obtain ⟨pfd, hpfd, hfd⟩ := hi
  exact ⟨i, pfd, hindex, hpfd, hfd, hfd ▸ h.events pfd (List.mem_of_getElem? hpfd)⟩

/-- Channels that are not registered do not matter. -/
theorem Tabled.congr (h : Tabled l) (hpoller : l'.poller = l.poller)
    (hchannel : ∀ x : Nat, (x : Int) ∈ l.poller.channels → l'.channel x = l.channel x) :
    Tabled l' := by
  refine ⟨fun i x hx => ?_, by rw [hpoller, h.channels], fun pfd hpfd => ?_⟩
  · rw [hpoller] at hx
    dsimp only
    rw [hchannel x (h.mem_owners.mpr (List.mem_of_getElem? hx))]
    exact h.indexed i x hx
  · rw [hpoller] at hpfd
    rw [hchannel _ (h.mem_owners.mpr (List.mem_map_of_mem hpfd))]
    exact h.events pfd hpfd

/-- A new channel goes to the end. -/
theorem Tabled.register (h : Tabled l) (hfd : (fd : Int) ∉ l.poller.channels)
    (hindex : (l.channel fd).index < 0) (e : Events) :
    ∃ l', PollPoller.updateChannel (l.setEvents fd e) fd = .ok l' ∧ Tabled l' := by
  have howner : (⟨fd, e⟩ : PollFd).owner = fd := owner_eq_iff.mpr (.inl rfl)
  have hevents : ((l.setEvents fd e).channel fd).events = e := by
    rw [setEvents_events, Function.update_self]
  have hupdate := updateChannel_new (l := l.setEvents fd e) (by rwa [setEvents_index]) hfd
  rw [hevents] at hupdate
  refine ⟨_, hupdate, fun i x hx => ?_, ?_, fun pfd hpfd => ?_⟩
  · change (List.map PollFd.owner (l.poller.pollfds ++ [⟨fd, e⟩]))[i]? = some x at hx
    have happend := h.indexed.append fun hmem => hfd (h.mem_owners.mpr hmem)
    rw [List.map_append, List.map_singleton, howner] at hx
    rw [List.length_map] at happend
    change (((l.setEvents fd e).setIndex fd _).channel x).index = _
    rw [setIndex_index]
    simp only [setEvents_index]
    exact happend i x hx
  · change insert (fd : Int) l.poller.channels = (List.map _ (l.poller.pollfds ++ [_])).toFinset
    rw [List.map_append, List.toFinset_append, ← h.channels, List.map_singleton, howner,
      Finset.insert_eq, Finset.union_comm]
    rfl
  · change pfd ∈ l.poller.pollfds ++ [⟨fd, e⟩] at hpfd
    change pfd.events = (((l.setEvents fd e).setIndex fd _).channel pfd.owner).events
    rw [setIndex_events, setEvents_events]
    rcases List.mem_append.mp hpfd with hold | hnew
    · rw [Function.update_of_ne]
      · exact h.events pfd hold
      · rintro rfl
        exact hfd (h.mem_owners.mpr (List.mem_map_of_mem hold))
    · rw [List.mem_singleton.mp hnew, howner, Function.update_self]

/-- The entry of a registered channel is changed in its place. -/
theorem Tabled.change (h : Tabled l) (hmem : (fd : Int) ∈ l.poller.channels) (e : Events) :
    ∃ l', PollPoller.updateChannel (l.setEvents fd e) fd = .ok l' ∧ Tabled l' := by
  obtain ⟨i, pfd, hindex, hpfd, howner, -⟩ := h.entry hmem
  have hevents : ((l.setEvents fd e).channel fd).events = e := by
    rw [setEvents_events, Function.update_self]
  have hupdate := updateChannel_present (l := l.setEvents fd e) (by rwa [setEvents_index]) hmem hpfd
    (owner_eq_iff.mp howner)
  rw [hevents] at hupdate
  set pfd' : PollFd := ⟨if e = kNoneEvent then -fd - 1 else pfd.fd, e⟩ with hpfd'
  have howner' : pfd'.owner = fd := by
    rw [owner_eq_iff, hpfd']
    dsimp only
    split
    · exact .inr rfl
    · exact owner_eq_iff.mp howner
  -- the owners are the same as before
  have howners : (l.poller.pollfds.set i pfd').map PollFd.owner = l.poller.pollfds.map PollFd.owner := by
    obtain ⟨hlt, hget⟩ := List.getElem?_eq_some_iff.mp hpfd
    have hset := @List.set_getElem_self _ (l.poller.pollfds.map PollFd.owner) i
      (by rwa [List.length_map])
    rw [List.getElem_map, hget, howner] at hset
    rw [List.map_set, howner', hset]
  refine ⟨_, hupdate, fun j x hx => ?_, ?_, fun u hu => ?_⟩
  · change (List.map PollFd.owner (l.poller.pollfds.set i pfd'))[j]? = some x at hx
    change ((l.setEvents fd e).channel x).index = _
    rw [howners] at hx
    rw [setEvents_index]
    exact h.indexed j x hx
  · change l.poller.channels = (List.map _ (l.poller.pollfds.set i pfd')).toFinset
    have hcast := congrArg (List.map (Nat.cast : Nat → Int)) howners
    rw [List.map_map, List.map_map] at hcast
    rw [h.channels]
    exact congrArg List.toFinset hcast.symm
  · change u ∈ l.poller.pollfds.set i pfd' at hu
    change u.events = ((l.setEvents fd e).channel u.owner).events
    rw [setEvents_events]
    obtain ⟨j, hj⟩ := List.mem_iff_getElem?.mp hu
    rw [List.getElem?_set] at hj
    split at hj
    · obtain ⟨-, hj⟩ := Option.ite_none_right_eq_some.mp hj
      rw [← Option.some.inj hj, howner', Function.update_self]
    · next hij =>
      rw [Function.update_of_ne]
      · exact h.events u (List.mem_of_getElem? hj)
      · intro hu
        have hsame := h.indexed j u.owner (by rw [List.getElem?_map, hj]; rfl)
        dsimp only at hsame
        rw [hu, hindex] at hsame
        exact hij (Int.natCast_inj.mp hsame)

/-- The owner of the last entry is still registered when another channel is removed. -/
theorem Tabled.last_mem (h : Tabled l) {i : Nat} {last : PollFd} (hindex : (l.channel fd).index = i)
    (hi : i ≠ l.poller.pollfds.length - 1) (hlast : l.poller.pollfds.getLast? = some last) :
    (last.owner : Int) ∈ l.poller.channels.erase fd := by
  have hmem := List.mem_map_of_mem (f := PollFd.owner) (List.mem_of_getLast? hlast)
  refine Finset.mem_erase.mpr ⟨fun heq => hi ?_, h.mem_owners.mpr hmem⟩
  rw [List.getLast?_eq_getElem?] at hlast
  have hplace := h.indexed _ last.owner (by rw [List.getElem?_map, hlast]; rfl)
  dsimp only at hplace
  rw [Int.natCast_inj.mp heq, hindex] at hplace
  exact Int.natCast_inj.mp hplace

/-- Both branches of a removal: the last entry takes the place of the removed one, and its channel
is told. -/
theorem Tabled.removeEntry_eq (h : Tabled l) {i : Nat} {pfd last : PollFd}
    (hindex : (l.channel fd).index = i) (hpfd : l.poller.pollfds[i]? = some pfd)
    (howner : pfd.owner = fd) (hlast : l.poller.pollfds.getLast? = some last) :
    PollPoller.removeEntry l fd = some { l.setIndex last.owner i with
      poller := ⟨swapRemove l.poller.pollfds i, l.poller.channels.erase fd⟩ } := by
  obtain ⟨hlt, hget⟩ := List.getElem?_eq_some_iff.mp hpfd
  have hidx : (l.channel fd).index.toNat = i := by omega
  have hrange : ¬((l.channel fd).index < 0 ∨ l.poller.pollfds.length ≤ i) := by omega
  simp only [PollPoller.removeEntry, hidx, if_neg hrange]
  by_cases hi : i = l.poller.pollfds.length - 1
  · have hfd : last.owner = fd := by
      rw [List.getLast?_eq_getElem?, ← hi, hpfd] at hlast
      rw [← Option.some.inj hlast, howner]
    have hsame : l.setIndex fd i = l := by
      rw [Loop.setIndex, ← hindex, Function.update_eq_self]
    rw [if_pos hi, hfd, hsame, hi, swapRemove_last]
  · rw [if_neg hi, hlast, Option.bind_eq_bind, Option.bind_some, owner_cast,
      if_pos (h.last_mem hindex hi hlast), Int.toNat_natCast, hindex, swapRemove, hlast,
      Option.elim_some]

theorem Tabled.remove (h : Tabled l) (hmem : (fd : Int) ∈ l.poller.channels) :
    ∃ l', PollPoller.removeEntry l fd = some l' ∧ Tabled l' := by
  obtain ⟨i, pfd, hindex, hpfd, howner, -⟩ := h.entry hmem
  obtain ⟨hlt, -⟩ := List.getElem?_eq_some_iff.mp hpfd
  obtain ⟨last, hlast⟩ : ∃ last, l.poller.pollfds.getLast? = some last :=
    ⟨_, List.getLast?_eq_some_getLast (List.ne_nil_of_length_pos (by omega))⟩
  have hplace : (l.poller.pollfds.map PollFd.owner)[i]? = some fd := by
    rw [List.getElem?_map, hpfd, Option.map_some, howner]
  have howners : ∀ x, x ∈ (swapRemove l.poller.pollfds i).map PollFd.owner ↔
      x ≠ fd ∧ x ∈ l.poller.pollfds.map PollFd.owner := by
    intro x
    rw [map_swapRemove]
    exact mem_swapRemove h.indexed.nodup hplace
  refine ⟨_, h.removeEntry_eq hindex hpfd howner hlast, fun j x hx => ?_, ?_, fun u hu => ?_⟩
  · change ((swapRemove l.poller.pollfds i).map PollFd.owner)[j]? = some x at hx
    have hindexed := h.indexed.swapRemove
      (by rw [List.getLast?_map, hlast]; rfl) i
    rw [map_swapRemove] at hx
    change ((l.setIndex last.owner i).channel x).index = _
    rw [setIndex_index]
    exact hindexed j x hx
  · change l.poller.channels.erase fd = _
    ext x
    rw [Finset.mem_erase, h.mem_channels, List.mem_toFinset, List.mem_map]
    constructor
    · rintro ⟨hne, x, hx, rfl⟩
      obtain ⟨u, hu, rfl⟩ := List.mem_map.mp
        ((howners x).mpr ⟨fun heq => hne (congrArg Nat.cast heq), hx⟩)
      exact ⟨u, hu, rfl⟩
    · rintro ⟨u, hu, rfl⟩
      obtain ⟨hne, hx⟩ := (howners u.owner).mp (List.mem_map_of_mem hu)
      exact ⟨fun heq => hne (Int.natCast_inj.mp heq), u.owner, hx, rfl⟩
  · change u ∈ swapRemove l.poller.pollfds i at hu
    change u.events = ((l.setIndex last.owner i).channel u.owner).events
    rw [setIndex_events]
    exact h.events u ((perm_swapRemove hpfd).mem_iff.mpr (List.mem_cons_of_mem _ hu))

inductive Call
  /-- a new `Channel` for a descriptor -/
  | create (fd : Nat)
  /-- the interest of a channel changes -/
  | update (fd : Nat) (events : Events)
  | remove (fd : Nat)

/-- One call, in a build with `NDEBUG` or without. -/
def PollPoller.call (ndebug : Bool) (l : Loop PollPoller) : Call → Option (Loop PollPoller)
  | .create fd => some { l with channel := Function.update l.channel fd ⟨kNoneEvent, -1⟩ }
  | .update fd events =>
    let l := l.setEvents fd events
    if ndebug then updateEntry l fd else (updateChannel l fd).toOption
  | .remove fd => if ndebug then removeEntry l fd else (removeChannel l fd).toOption

/-- A descriptor has one registered channel at most, a channel that has been removed is not used
again, and only registered channels without interest are removed. -/
def Disciplined (l : Loop PollPoller) : Call → Prop
  | .create fd => (fd : Int) ∉ l.poller.channels
  | .update fd _ => (l.channel fd).index < 0 ∨ (fd : Int) ∈ l.poller.channels
  | .remove fd => (fd : Int) ∈ l.poller.channels ∧ (l.channel fd).events = kNoneEvent

instance (l : Loop PollPoller) : ∀ c, Decidable (Disciplined l c)
  | .create _ => inferInstanceAs (Decidable (_ ∉ _))
  | .update _ _ => inferInstanceAs (Decidable (_ ∨ _))
  | .remove _ => inferInstanceAs (Decidable (_ ∧ _))

/-- The channel was registered without interest, so that its entry is not negated. -/
def Unnegated (l : Loop PollPoller) (fd : Nat) : Prop :=
  ∃ (i : Nat) (pfd : PollFd), (l.channel fd).index = i ∧ l.poller.pollfds[i]? = some pfd ∧
    pfd.fd = fd

/-- The last assertion of `removeChannel` is the only one that can fail. -/
theorem Tabled.removeChannel (h : Tabled l) (hmem : (fd : Int) ∈ l.poller.channels)
    (hnone : (l.channel fd).events = kNoneEvent) (hentry : ¬Unnegated l fd) :
    ∃ l', PollPoller.removeChannel l fd = .ok l' := by
  obtain ⟨i, pfd, hindex, hpfd, howner, hevents⟩ := h.entry hmem
  have hnegated : pfd.fd = -fd - 1 :=
    (owner_eq_iff.mp howner).resolve_left fun heq => hentry ⟨i, pfd, hindex, hpfd, heq⟩
  obtain rfl : pfd = ⟨-fd - 1, kNoneEvent⟩ := by
    rw [← hnegated, ← hnone, ← hevents]
  by_cases hi : i = l.poller.pollfds.length - 1
  · exact ⟨_, removeChannel_last hindex hmem hnone hpfd hi⟩
  · obtain ⟨hlt, -⟩ := List.getElem?_eq_some_iff.mp hpfd
    obtain ⟨last, hlast⟩ : ∃ last, l.poller.pollfds.getLast? = some last :=
      ⟨_, List.getLast?_eq_some_getLast (List.ne_nil_of_length_pos (by omega))⟩
    exact ⟨_, removeChannel_swap hindex hmem hnone hpfd hi hlast (owner_cast last)
      (h.last_mem hindex hi hlast)⟩

/-- A call of the run: the table is kept, and without assertions nothing fails. -/
theorem Tabled.call (h : Tabled l) {c : Call} (hc : Disciplined l c) :
    ∃ l', PollPoller.call true l c = some l' ∧ Tabled l' ∧
      (PollPoller.call false l c = some l' ∨ ∃ fd, c = .remove fd ∧ Unnegated l fd) := by
  cases c with
  | create fd =>
    refine ⟨_, rfl, h.congr rfl fun x hx => Function.update_of_ne ?_ .., .inl rfl⟩
    rintro rfl
    exact hc hx
  | update fd e =>
    obtain ⟨l', hl', htabled⟩ : ∃ l',
        PollPoller.updateChannel (l.setEvents fd e) fd = .ok l' ∧ Tabled l' := by
      by_cases hmem : (fd : Int) ∈ l.poller.channels
      · exact h.change hmem e
      · exact h.register hmem (hc.resolve_right hmem) e
    refine ⟨l', updateEntry_of_updateChannel hl', htabled, .inl ?_⟩
    show (PollPoller.updateChannel _ fd).toOption = _
    rw [hl']
    rfl
  | remove fd =>
    obtain ⟨hmem, hnone⟩ := hc
    obtain ⟨l', hl', htabled⟩ := h.remove hmem
    refine ⟨l', hl', htabled, ?_⟩
    by_cases hentry : Unnegated l fd
    · exact .inr ⟨fd, rfl, hentry⟩
    · obtain ⟨l'', hl''⟩ := h.removeChannel hmem hnone hentry
      have hsame := removeEntry_of_removeChannel hl''
      rw [hl'] at hsame
      cases hsame
      left
      show (PollPoller.removeChannel l fd).toOption = _
      rw [hl'']
      rfl

theorem Tabled.next {ndebug : Bool} (h : Tabled l) {c : Call} (hc : Disciplined l c)
    (hcall : PollPoller.call ndebug l c = some l') : Tabled l' := by
  obtain ⟨u, hu, htabled, hdebug⟩ := h.call hc
  cases ndebug with
  | true =>
    cases hu.symm.trans hcall
    exact htabled
  | false =>
    rcases hdebug with hok | ⟨fd, rfl, -⟩
    · cases hok.symm.trans hcall
      exact htabled
    · -- a removal that fails no assertion does what it does without them
      have hremove := removeEntry_of_removeChannel (eq_ok_of_toOption hcall)
      cases hu.symm.trans hremove
      exact htabled

/-- In every run of such calls, in either build, `channels_` and `pollfds_` have the same size, and
the entry of every registered channel stands where its index says. No call leaves the vector, and
the only assertion that can fail is the one of `removeChannel` on an entry that is not negated. -/
theorem pollfds_mirror_channels {ndebug : Bool}
    (h : Reached (PollPoller.call ndebug) Disciplined (· = PollPoller.new) l) :
    l.poller.channels.card = l.poller.pollfds.length ∧
    (∀ x ∈ l.poller.channels, ∃ (fd i : Nat) (pfd : PollFd), x = fd ∧ (l.channel fd).index = i ∧
      l.poller.pollfds[i]? = some pfd ∧ (pfd.fd = fd ∨ pfd.fd = -fd - 1) ∧
      pfd.events = (l.channel fd).events) ∧
    ∀ c, Disciplined l c → ∃ l', PollPoller.call true l c = some l' ∧
      (PollPoller.call false l c = some l' ∨ ∃ fd, c = .remove fd ∧ Unnegated l fd) := by
  have htabled : Tabled l := h.invariant (fun l hl => hl ▸ Tabled.new)
    fun l c l' hl hc hcall => hl.next hc hcall
  refine ⟨htabled.card_channels, fun x hx => ?_, fun c hc => ?_⟩
  · obtain ⟨fd, -, rfl⟩ := htabled.mem_channels.mp hx
    obtain ⟨i, pfd, hindex, hpfd, howner, hevents⟩ := htabled.entry hx
    exact ⟨fd, i, pfd, rfl, hindex, hpfd, owner_eq_iff.mp howner, hevents⟩
  · obtain ⟨l', hl', -, hdebug⟩ := htabled.call hc
    exact ⟨l', hl', hdebug⟩

/-- The first of three channels is removed, so that the last one moves, and a new channel gets its
descriptor. -/
theorem pollfds_mirror_channels_after_removal : ∃ l,
    Reached (PollPoller.call false) Disciplined (· = PollPoller.new) l ∧
    l.poller.pollfds.map PollFd.fd = [-6, 4, 3] ∧ l.poller.channels.card = 3 ∧
    ∃ (i : Nat) (pfd : PollFd), (l.channel 5).index = i ∧ l.poller.pollfds[i]? = some pfd ∧
      pfd.events = (l.channel 5).events := by
  have hrun : ((exec (restrict Disciplined (PollPoller.call false)) PollPoller.new
      [.update 3 kReadEvent, .update 4 kReadEvent, .update 5 kWriteEvent, .update 5 kNoneEvent,
        .update 3 kNoneEvent, .remove 3, .create 3, .update 3 kWriteEvent]).any fun l =>
      l.poller.pollfds.map PollFd.fd = [-6, 4, 3] ∧ 5 ∈ l.poller.channels) = true := by
    decide +kernel
  obtain ⟨l, hl, hcheck⟩ := (Option.any_eq_true _ _).mp hrun
  obtain ⟨hpollfds, hmem⟩ := of_decide_eq_true hcheck
  have hstart : Reached (PollPoller.call false) Disciplined (· = PollPoller.new) PollPoller.new :=
    .start rfl
  have hreached := hstart.exec _ hl
  obtain ⟨hcard, hentries, -⟩ := pollfds_mirror_channels hreached
  obtain ⟨fd, i, pfd, hfd, hindex, hpfd, -, hevents⟩ := hentries 5 hmem
  obtain rfl : 5 = fd := Int.natCast_inj.mp hfd
  refine ⟨l, hreached, hpollfds, ?_, i, pfd, hindex, hpfd, hevents⟩
  rw [hcard, ← List.length_map PollFd.fd, hpollfds]
  rfl

end DbdkyGcc.Pollers
