import DbdkyGcc.Timers.Consistent

/-!
# One call of handleRead

A call takes the expired entries out of `timers_`, starts their callbacks one after another, and
puts the periodic timers back. The callbacks may do anything with the queue in between. `Serving`
says how far a call has come; what a whole call has done is `Served`.
-/

namespace DbdkyGcc.Timers

open Foundations

variable {q u u' : TimerQueue} {acts : List Action} {e : Entry} {t : Timer}

/-- The entries whose time has come, in the order of `timers_`. -/
def TimerQueue.due (q : TimerQueue) : List Entry :=
  q.timers.toList.filter fun e => e.expiration ≤ q.clock

/-- The id of the timer that an entry points to. -/
def TimerQueue.idOf (q : TimerQueue) (e : Entry) : ActiveTimer :=
  ⟨e.timer, ((q.heap e.timer).map Timer.sequence).getD 0⟩

/-- The ids that the actions cancel. -/
def cancels (acts : List Action) : List ActiveTimer :=
  acts.filterMap fun
    | .cancelInLoop id => some id
    | _ => none

/-- How many callbacks the actions start. -/
def runs (acts : List Action) : Nat :=
  acts.countP fun
    | .run => true
    | _ => false

theorem cancels_append (acts : List Action) (a : Action) :
    cancels (acts ++ [a]) = cancels acts ++ cancels [a] := List.filterMap_append

theorem runs_append (acts : List Action) (a : Action) : runs (acts ++ [a]) = runs acts + runs [a] :=
  List.countP_append

theorem idOf_eq (h : q.heap e.timer = some t) : q.idOf e = ⟨e.timer, t.sequence⟩ := by
  rw [TimerQueue.idOf, h]
  rfl

theorem mem_due : e ∈ q.due ↔ e ∈ q.timers ∧ e.expiration ≤ q.clock := by
  rw [TimerQueue.due, List.mem_filter, decide_eq_true_iff]
  rfl

theorem due_sorted (q : TimerQueue) : q.due.Pairwise fun a b => a.expiration ≤ b.expiration := by
  refine (q.timers.sorted.filter _).imp fun {a b} hab => ?_
  rcases Entry.lt_iff.mp hab with hlt | ⟨heq, -⟩
  · exact hlt.le
  · exact heq.le

theorem Good.live (hq : Good q) (he : e ∈ q.timers) : ∃ t, q.heap e.timer = some t := by
  obtain ⟨t, ht, -⟩ := hq.inv.sets.live e (.inl he)
  exact ⟨t, ht⟩

/-- What `getExpired` takes out are the entries that are due. -/
theorem Good.below_eq_due (hq : Good q) : q.timers.below ⟨q.clock, UINTPTR_MAX⟩ = q.due := by
  rw [OrderedSet.below_eq_filter, TimerQueue.due]
  refine List.filter_congr fun e he => ?_
  obtain ⟨t, ht⟩ := hq.live he
  have haddr := hq.inv.numbered.address_lt e.timer t ht
  rw [decide_eq_decide, Entry.lt_iff]
  dsimp only
  constructor
  · rintro (hlt | ⟨heq, -⟩)
    · exact hlt.le
    · exact heq.le
  · intro hle
    rcases hle.lt_or_eq with hlt | heq
    · exact .inl hlt
    · exact .inr ⟨heq, haddr⟩

/-- The callbacks of the first `n` due timers have been started, in their order. -/
structure Progress (q : TimerQueue) (n : Nat) (u : TimerQueue) : Prop where
  batch : u.batch = some ⟨q.clock, q.due.take n, q.due.drop n⟩
  le : n ≤ q.due.length
  started : u.started = ((q.due.take n).map q.idOf).reverse ++ q.started

/-- Since `q` the timers of the batch have not been touched, and the other timers that were
not named by `ids` are where they were. -/
structure Intact (q : TimerQueue) (ids : List ActiveTimer) (u : TimerQueue) : Prop where
  held : ∀ e ∈ q.due, u.heap e.timer = q.heap e.timer
  noted : ∀ e ∈ q.due, q.idOf e ∈ u.cancelingTimers ↔ q.idOf e ∈ ids
  others : ∀ e ∈ q.timers, e ∉ q.due → q.idOf e ∉ ids →
    e ∈ u.timers ∧ u.heap e.timer = q.heap e.timer

/-- A call of `handleRead` that began in `q` has come to `u`, with `acts` behind it. -/
structure Serving (q : TimerQueue) (acts : List Action) (u : TimerQueue) : Prop where
  progress : Progress q (runs acts) u
  intact : Intact q (cancels acts) u

theorem Serving.begin (hq : Good q) (activeTimers : OrderedSet ActiveTimer) :
    Serving q [] (q.expiring activeTimers) := by
  refine ⟨⟨?_, Nat.zero_le _, rfl⟩, ⟨fun e _ => rfl, fun e _ => ?_, fun e he hdue _ => ?_⟩⟩
  · rw [TimerQueue.expiring, hq.below_eq_due]
    rfl
  · exact iff_of_false (OrderedSet.not_mem_empty _) List.not_mem_nil
  · refine ⟨OrderedSet.mem_dropBelow.mpr ⟨he, fun hlt => hdue ?_⟩, rfl⟩
    rw [← hq.below_eq_due]
    exact OrderedSet.mem_below.mpr ⟨he, hlt⟩

/-- The running call holds the timers that are due. -/
theorem Progress.mem_batchTimers {n : Nat} (h : Progress q n u) (he : e ∈ q.due) :
    e.timer ∈ u.batchTimers := by
  rw [TimerQueue.batchTimers, h.batch, Option.elim_some, List.take_append_drop]
  exact List.mem_map_of_mem he

theorem Progress.run {n : Nat} {now : Int} {ran todo : List Entry} (h : Progress q n u)
    (hheld : ∀ e ∈ q.due, u.heap e.timer = q.heap e.timer)
    (hb : u.batch = some ⟨now, ran, e :: todo⟩) (ht : u.heap e.timer = some t) :
    Progress q (n + 1) { u with
      started := ⟨e.timer, t.sequence⟩ :: u.started
      batch := some ⟨now, ran ++ [e], todo⟩ } := by
  have hbatch := h.batch.symm.trans hb
  injection hbatch with hbatch
  injection hbatch with hnow hran htodo
  have hlt : n < q.due.length := by
    rw [← not_le, ← List.drop_eq_nil_iff, htodo]
    exact List.cons_ne_nil _ _
  have hdrop := List.drop_eq_getElem_cons hlt
  rw [htodo] at hdrop
  injection hdrop with he hrest
  have hid : q.idOf e = ⟨e.timer, t.sequence⟩ := by
    refine idOf_eq ?_
    rw [← hheld e (he ▸ List.getElem_mem hlt), ht]
  have htake : q.due.take (n + 1) = ran ++ [e] := by
    rw [List.take_succ_eq_append_getElem hlt, hran, ← he]
  refine ⟨?_, hlt, ?_⟩
  · rw [htake, hnow, hrest]
  · rw [htake, List.map_append, List.reverse_append, ← hran, List.map_cons, hid, h.started]
    rfl

/-- A timer appears at an address that was dead. -/
theorem Intact.create {ids : List ActiveTimer} {timer : Nat} (h : Intact q ids u) (hq : Good q)
    (hdead : u.heap timer = none) (hheap : ∀ a, a ≠ timer → u'.heap a = u.heap a)
    (hcanceling : u'.cancelingTimers = u.cancelingTimers) (htimers : u'.timers = u.timers) :
    Intact q ids u' := by
  have hne : ∀ e ∈ q.timers, u.heap e.timer = q.heap e.timer → e.timer ≠ timer := by
    intro e he heq haddr
    obtain ⟨t, ht⟩ := hq.live he
    rw [← heq, haddr, hdead] at ht
    cases ht
  refine ⟨fun e he => ?_, fun e he => ?_, fun e he hdue hid => ?_⟩
  · rw [hheap _ (hne e (mem_due.mp he).1 (h.held e he))]
    exact h.held e he
  · rw [hcanceling]
    exact h.noted e he
  · obtain ⟨hmem, heq⟩ := h.others e he hdue hid
    rw [hheap _ (hne e he heq), htimers]
    exact ⟨hmem, heq⟩

/-- A cancel that deletes a timer of the sets. It is none of the batch. -/
theorem Intact.cancel {ids : List ActiveTimer} {n : Nat} {timerId : ActiveTimer}
    (h : Intact q ids u) (hp : Progress q n u) (hu : Good u)
    (ht : u.heap timerId.timer = some t) (hseq : t.sequence = timerId.sequence)
    (hmem : ⟨t.expiration, timerId.timer⟩ ∈ u.timers) :
    Intact q (ids ++ [timerId]) (u.erased timerId.timer t) := by
  have hne : ∀ e ∈ q.due, e.timer ≠ timerId.timer := by
    intro e he haddr
    exact hu.inv.owned.held_timers e.timer (hp.mem_batchTimers he) _ hmem haddr.symm
  refine ⟨fun e he => ?_, fun e he => ?_, fun e he hdue hid => ?_⟩
  · exact (Function.update_of_ne (hne e he) ..).trans (h.held e he)
  · have hid : q.idOf e ≠ timerId := fun heq => hne e he (congrArg ActiveTimer.timer heq)
    rw [List.mem_append, List.mem_singleton, or_iff_left hid]
    exact h.noted e he
  · rw [List.mem_append, not_or, List.mem_singleton] at hid
    obtain ⟨hin, heq⟩ := h.others e he hdue hid.1
    have haddr : e.timer ≠ timerId.timer := by
      intro haddr
      rw [haddr, ht] at heq
      refine hid.2 ?_
      rw [TimerQueue.idOf, haddr, ← heq, Option.map_some, Option.getD_some, hseq]
    refine ⟨OrderedSet.mem_erase.mpr ⟨fun heq => haddr (congrArg Entry.timer heq), hin⟩, ?_⟩
    exact (Function.update_of_ne haddr ..).trans heq

/-- A cancel that takes a note. -/
theorem Intact.note {ids : List ActiveTimer} (h : Intact q ids u) (timerId : ActiveTimer) :
    Intact q (ids ++ [timerId])
      { u with cancelingTimers := u.cancelingTimers.insert timerId } := by
  refine ⟨h.held, fun e he => ?_, fun e he hdue hid => ?_⟩
  · rw [List.mem_append, List.mem_singleton, ← h.noted e he, or_comm]
    exact OrderedSet.mem_insert
  · exact h.others e he hdue fun hmem => hid (List.mem_append_left _ hmem)

theorem Serving.quiet {a : Action} (hruns : runs [a] = 0) (hcancels : cancels [a] = [])
    (hp : Progress q (runs acts) u) (hi : Intact q (cancels acts) u) :
    Serving q (acts ++ [a]) u := by
  constructor
  · rwa [runs_append, hruns]
  · rwa [cancels_append, hcancels, List.append_nil]

/-- A step inside the call. -/
theorem Serving.next {a : Action} (h : Serving q acts u) (hq : Good q) (hu : Good u)
    (ha : a ≠ .finish) (hn : Next u a u') : Serving q (acts ++ [a]) u' := by
  obtain ⟨hp, hi⟩ := h
  have hcalling : u.callingExpiredTimers = true := by
    rw [hu.calling, hp.batch]
    rfl
  cases hn with
  | tick =>
    exact .quiet rfl rfl ⟨hp.batch, hp.le, hp.started⟩ ⟨hi.held, hi.noted, hi.others⟩
  | create hdead =>
    refine .quiet rfl rfl ⟨hp.batch, hp.le, hp.started⟩ (hi.create hq hdead ?_ rfl rfl)
    exact fun a hne => Function.update_of_ne hne ..
  | add _ _ =>
    refine .quiet rfl rfl ⟨hp.batch, hp.le, hp.started⟩ ⟨hi.held, hi.noted, ?_⟩
    intro e he hdue hid
    exact (hi.others e he hdue hid).imp_left fun hmem => OrderedSet.mem_insert.mpr (.inr hmem)
  | @cancel timerId t ht hseq hmem =>
    constructor
    · rw [runs_append]
      exact ⟨hp.batch, hp.le, hp.started⟩
    · rw [cancels_append]
      exact hi.cancel hp hu ht hseq hmem
  | @note timerId _ =>
    constructor
    · rw [runs_append]
      exact ⟨hp.batch, hp.le, hp.started⟩
    · rw [cancels_append, if_pos hcalling]
      exact hi.note timerId
  | handleRead hb =>
    rw [hp.batch] at hb
    cases hb
  | run hb ht =>
    constructor
    · rw [runs_append]
      exact hp.run hi.held hb ht
    · rw [cancels_append]
      exact ⟨hi.held, by simpa [cancels] using hi.noted, by simpa [cancels] using hi.others⟩
  | finish => exact absurd rfl ha

/-- What `reset` does with a timer that was due: a periodic one that nobody has cancelled is
back, any other is gone. -/
def Settled (q : TimerQueue) (ids : List ActiveTimer) (u : TimerQueue) (e : Entry) : Prop :=
  ∀ t, q.heap e.timer = some t →
    if t.repeats = true ∧ q.idOf e ∉ ids then
      u.heap e.timer = some (t.restart q.clock) ∧
        ⟨(t.restart q.clock).expiration, e.timer⟩ ∈ u.timers
    else u.heap e.timer = none

/-- The loop of `reset` with the entries `rest` still ahead. -/
structure Settling (q : TimerQueue) (ids : List ActiveTimer) (u : TimerQueue) (rest : List Entry) :
    Prop where
  ahead : ∀ e ∈ rest, e ∈ q.due ∧ u.heap e.timer = q.heap e.timer
  behind : ∀ e ∈ q.due, e ∉ rest → Settled q ids u e
  noted : ∀ e ∈ q.due, q.idOf e ∈ u.cancelingTimers ↔ q.idOf e ∈ ids
  others : ∀ e ∈ q.timers, e ∉ q.due → q.idOf e ∉ ids →
    e ∈ u.timers ∧ u.heap e.timer = q.heap e.timer

theorem Good.entry_eq (hq : Good q) {e' : Entry} (he : e ∈ q.timers) (he' : e' ∈ q.timers)
    (haddr : e.timer = e'.timer) : e = e' := by
  obtain ⟨t, ht, hexp⟩ := hq.inv.sets.live e (.inl he)
  obtain ⟨t', ht', hexp'⟩ := hq.inv.sets.live e' (.inl he')
  rw [haddr, ht'] at ht
  cases ht
  obtain ⟨x, a⟩ := e
  obtain ⟨x', a'⟩ := e'
  simp only at haddr hexp hexp'
  rw [haddr, ← hexp, hexp']

variable {ids : List ActiveTimer} {rest : List Entry}

theorem Settled.frame (h : Settled q ids u e) (hheap : u'.heap e.timer = u.heap e.timer)
    (htimers : ∀ e, e ∈ u.timers → e ∈ u'.timers) : Settled q ids u' e := by
  intro t ht
  have hold := h t ht
  split at hold
  · next hc =>
    rw [if_pos hc, hheap]
    exact hold.imp_right (htimers _)
  · next hc =>
    rw [if_neg hc, hheap]
    exact hold

/-- A turn of `reset` settles its timer and leaves every other alone. -/
theorem Settling.turn (h : Settling q ids u (e :: rest)) (hq : Good q)
    (hnodup : e.timer ∉ rest.map Entry.timer)
    (hheap : ∀ a, a ≠ e.timer → u'.heap a = u.heap a)
    (htimers : ∀ e, e ∈ u.timers → e ∈ u'.timers)
    (hcanceling : u'.cancelingTimers = u.cancelingTimers) (hsettled : Settled q ids u' e) :
    Settling q ids u' rest := by
  have hedue := (h.ahead e List.mem_cons_self).1
  have hne : ∀ e' ∈ q.timers, e' ≠ e → e'.timer ≠ e.timer := fun e' he' hne haddr =>
    hne (hq.entry_eq he' (mem_due.mp hedue).1 haddr)
  refine ⟨fun e' he' => ?_, fun e' he' hrest => ?_, fun e' he' => ?_, fun e' he' hdue hid => ?_⟩
  · obtain ⟨hdue, heq⟩ := h.ahead e' (List.mem_cons_of_mem _ he')
    refine ⟨hdue, (hheap _ fun haddr => hnodup ?_).trans heq⟩
    exact haddr ▸ List.mem_map_of_mem he'
  · by_cases hee : e' = e
    · exact hee ▸ hsettled
    · refine (h.behind e' he' ?_).frame (hheap _ (hne e' (mem_due.mp he').1 hee)) htimers
      exact List.not_mem_cons_of_ne_of_not_mem hee hrest
  · rw [hcanceling]
    exact h.noted e' he'
  · obtain ⟨hmem, heq⟩ := h.others e' he' hdue hid
    refine ⟨htimers _ hmem, (hheap _ (hne e' he' fun hee => hdue (hee ▸ hedue))).trans heq⟩

theorem Settling.restarted (h : Settling q ids u (e :: rest)) (hq : Good q)
    (hnodup : e.timer ∉ rest.map Entry.timer) (ht : u.heap e.timer = some t)
    (hc : t.repeats = true ∧ ⟨e.timer, t.sequence⟩ ∉ u.cancelingTimers) :
    Settling q ids (u.restarted e.timer t q.clock) rest := by
  obtain ⟨hedue, heq⟩ := h.ahead e List.mem_cons_self
  have hid : q.idOf e = ⟨e.timer, t.sequence⟩ := idOf_eq (heq ▸ ht)
  refine h.turn hq hnodup (fun a ha => Function.update_of_ne ha ..)
    (fun e' he' => OrderedSet.mem_insert.mpr (.inr he')) rfl fun t' ht' => ?_
  cases (heq.symm.trans ht).symm.trans ht'
  rw [if_pos ⟨hc.1, fun hmem => hc.2 (hid ▸ (h.noted e hedue).mpr hmem)⟩]
  exact ⟨Function.update_self .., OrderedSet.mem_insert.mpr (.inl rfl)⟩

theorem Settling.dropped (h : Settling q ids u (e :: rest)) (hq : Good q)
    (hnodup : e.timer ∉ rest.map Entry.timer) (ht : u.heap e.timer = some t)
    (hc : ¬(t.repeats = true ∧ ⟨e.timer, t.sequence⟩ ∉ u.cancelingTimers)) :
    Settling q ids (u.dropped e.timer t) rest := by
  obtain ⟨hedue, heq⟩ := h.ahead e List.mem_cons_self
  have hid : q.idOf e = ⟨e.timer, t.sequence⟩ := idOf_eq (heq ▸ ht)
  refine h.turn hq hnodup (fun a ha => Function.update_of_ne ha ..) (fun _ he' => he') rfl
    fun t' ht' => ?_
  cases (heq.symm.trans ht).symm.trans ht'
  rw [← hid, h.noted e hedue] at hc
  rw [if_neg hc]
  exact Function.update_self ..

/-- What a call of `handleRead` that began in `q` has done when it returns in `q'`, where `ids`
are the ids that its callbacks have cancelled. -/
structure Served (q : TimerQueue) (ids : List ActiveTimer) (q' : TimerQueue) : Prop where
  idle : q'.batch = none
  /-- the callbacks of the due timers have been started, each once and in their order -/
  started : q'.started = (q.due.map q.idOf).reverse ++ q.started
  periodic : ∀ e ∈ q.due, ∀ t, q.heap e.timer = some t → t.repeats = true → q.idOf e ∉ ids →
    ⟨q.clock + t.interval.micros, e.timer⟩ ∈ q'.timers ∧
      q'.heap e.timer = some { t with expiration := q.clock + t.interval.micros }
  gone : ∀ e ∈ q.due, ∀ t, q.heap e.timer = some t → t.repeats = false ∨ q.idOf e ∈ ids →
    q'.heap e.timer = none ∧ ∀ e' ∈ q'.timers, e'.timer ≠ e.timer
  others : ∀ e ∈ q.timers, e ∉ q.due → q.idOf e ∉ ids →
    e ∈ q'.timers ∧ q'.heap e.timer = q.heap e.timer

theorem Serving.finish (h : Serving q acts u) (hq : Good q) (hu : Good u)
    (hall : runs acts = q.due.length) :
    ∃ q', step u .finish = some (.ok q') ∧ Good q' ∧ Served q (cancels acts) q' := by
  obtain ⟨hp, hi⟩ := h
  have hb : u.batch = some ⟨q.clock, q.due, []⟩ := by
    rw [hp.batch, hall, List.take_length, List.drop_length]
  obtain ⟨q', hfinish, hnext, hgood⟩ := hu.finish hb
  refine ⟨q', ?_, hgood, ?_⟩
  · rw [step, hb]
    exact congrArg some hfinish
  obtain ⟨v, hreset, -, hsettling, hstarted⟩ := (hu.beforeReset hb).reset_eq q.clock
    (R := fun v rest => Settling q (cancels acts) v rest ∧ v.started = u.started)
    (fun v e rest t hinv ht hR hc => ⟨hR.1.restarted hq
      (List.nodup_cons.mp hinv.owned.held_nodup).1 ht hc, hR.2⟩)
    (fun v e rest t hinv ht hR hc => ⟨hR.1.dropped hq
      (List.nodup_cons.mp hinv.owned.held_nodup).1 ht hc, hR.2⟩)
    ⟨⟨fun e he => ⟨he, hi.held e he⟩, fun e he hnot => absurd he hnot, hi.noted, hi.others⟩, rfl⟩
  obtain rfl : q' = { v.rearmed with batch := none } := by
    have heq := hfinish
    rw [TimerQueue.finish, hreset, ok_bind] at heq
    exact (Except.ok.inj heq).symm
  refine ⟨rfl, ?_, fun e he t ht hrep hid => ?_, fun e he t ht hcase => ?_, hsettling.others⟩
  · rw [show ({ v.rearmed with batch := none } : TimerQueue).started = u.started from hstarted,
      hp.started, hall, List.take_length]
  · have hsettled := hsettling.behind e he List.not_mem_nil t ht
    rw [if_pos ⟨hrep, hid⟩, Timer.restart, if_pos hrep] at hsettled
    exact hsettled.symm
  · have hsettled := hsettling.behind e he List.not_mem_nil t ht
    rw [if_neg (by rintro ⟨hrep, hid⟩; exact hcase.elim (by simp [hrep]) hid)] at hsettled
    refine ⟨hsettled, fun e' he' haddr => ?_⟩
    obtain ⟨t', ht'⟩ := hgood.live he'
    rw [haddr] at ht'
    cases hsettled.symm.trans ht'

/-- Everything that happens between the beginning of a call and its end. -/
theorem Serving.exec (hq : Good q) {done : List Action} (h : Serving q done u) (hu : Good u)
    (hacts : Action.finish ∉ acts) {p : Except Fault TimerQueue}
    (hp : exec (faulting step) (.ok u) acts = some p) :
    ∃ v, p = .ok v ∧ Good v ∧ Serving q (done ++ acts) v := by
  induction acts generalizing done u with
  | nil =>
    cases hp
    exact ⟨u, rfl, hu, by rwa [List.append_nil]⟩
  | cons a acts ih =>
    obtain ⟨ha, hacts⟩ := List.ne_and_not_mem_of_not_mem_cons hacts
    rw [Foundations.exec, List.foldlM_cons] at hp
    obtain ⟨m, hm, hp⟩ := Option.bind_eq_some_iff.mp hp
    obtain ⟨u', rfl, hnext, hu'⟩ := hu.next hm
    obtain ⟨v, hv, hgood, hserving⟩ := ih (h.next hq hu ha.symm hnext) hu' hacts hp
    refine ⟨v, hv, hgood, ?_⟩
    rwa [List.append_assoc] at hserving

/-- From any consistent state, `handleRead` starts the callbacks of exactly the timers whose
time has come, one after another in the order of their expirations. Whatever its callbacks add
and cancel: as long as not all have run the next one can be started, and then the call returns
with the periodic timers back in `timers_`, the others of the batch deleted, and every other
timer where it was. -/
theorem handleRead_serves_due_timers (hq : Good q) (hidle : q.batch = none) :
    (∃ u, step q .handleRead = some (.ok u)) ∧
    (q.due.Pairwise fun a b => a.expiration ≤ b.expiration) ∧
    ∀ acts, .finish ∉ acts → ∀ p, exec (faulting step) (.ok q) (.handleRead :: acts) = some p →
      ∃ u, p = .ok u ∧ u.started = ((q.due.take (runs acts)).map q.idOf).reverse ++ q.started ∧
        runs acts ≤ q.due.length ∧
        (runs acts < q.due.length → ∃ v, step u .run = some (.ok v)) ∧
        (runs acts = q.due.length →
          ∃ q', step u .finish = some (.ok q') ∧ Served q (cancels acts) q') := by
  have hinv := hq.inv
  rw [TimerQueue.batchTimers, hidle, Option.elim_none] at hinv
  obtain ⟨activeTimers, heq, -⟩ := hinv.handleRead_eq
  have hstep : step q .handleRead = some (.ok (q.expiring activeTimers)) := by
    rw [step, if_pos hidle, heq]
  refine ⟨⟨_, hstep⟩, due_sorted q, fun acts hacts p hp => ?_⟩
  obtain ⟨_, hu, -, hgood⟩ := hq.next hstep
  cases hu
  rw [exec, List.foldlM_cons] at hp
  obtain ⟨m, hm, hp⟩ := Option.bind_eq_some_iff.mp hp
  cases hstep.symm.trans hm
  obtain ⟨u, rfl, hu, hserving⟩ := (Serving.begin hq activeTimers).exec hq hgood hacts hp
  rw [List.nil_append] at hserving
  refine ⟨u, rfl, hserving.progress.started, hserving.progress.le, fun hlt => ?_, fun hall => ?_⟩
  · have hb := hserving.progress.batch
    rw [List.drop_eq_getElem_cons hlt] at hb
    obtain ⟨v, hv, -⟩ := hu.run hb
    refine ⟨v, ?_⟩
    rw [step, hb]
    exact congrArg some hv
  · obtain ⟨q', hfinish, -, hserved⟩ := hserving.finish hq hu hall
    exact ⟨q', hfinish, hserved⟩

/-- A one-shot timer and two periodic ones fire together, a fourth is not due. The callbacks add
a timer that is due already, cancel the fourth, and the last one cancels its own timer. -/
theorem handleRead_serves_due_timers_of_three : ∃ q u q',
    Run step (fun _ _ => True) Started (.ok q) ∧
    exec (faulting step) (.ok q) [.handleRead, .run, .create 80 2100 ⟨false, 0, by decide⟩,
      .addTimerInLoop 80, .run, .cancelInLoop ⟨64, 4⟩, .run, .cancelInLoop ⟨48, 3⟩] =
        some (.ok u) ∧
    step u .finish = some (.ok q') ∧ q'.started = [⟨48, 3⟩, ⟨32, 2⟩, ⟨16, 1⟩] ∧
    Served q [⟨64, 4⟩, ⟨48, 3⟩] q' := by
  obtain ⟨q, hq, hcheck⟩ := exists_of_seen (show seen (exec (faulting step) (.ok (.initial 1000))
      [.create 16 2000 ⟨false, 0, by decide⟩, .addTimerInLoop 16,
        .create 32 2500 ⟨true, 700, by decide⟩, .addTimerInLoop 32,
        .create 48 2600 ⟨true, 700, by decide⟩, .addTimerInLoop 48,
        .create 64 9000 ⟨false, 0, by decide⟩, .addTimerInLoop 64, .tick 3000])
      (fun q => q.batch = none ∧ q.started = [] ∧ q.due.map q.idOf = [⟨16, 1⟩, ⟨32, 2⟩, ⟨48, 3⟩] ∧
        seen (exec (faulting step) (.ok q) [.handleRead, .run,
          .create 80 2100 ⟨false, 0, by decide⟩, .addTimerInLoop 80, .run,
          .cancelInLoop ⟨64, 4⟩, .run, .cancelInLoop ⟨48, 3⟩]) fun _ => true) = true by
    decide +kernel)
  obtain ⟨hidle, hstarted, hdue, hcheck⟩ := of_decide_eq_true hcheck
  obtain ⟨u, hu, -⟩ := exists_of_seen hcheck
  have hrun := Run.of_exec Started ⟨1000, by decide, rfl⟩ _ hq
  obtain ⟨_, hok, hgood⟩ := Run.good (fun q hq => hq.good) hrun
  cases hok
  obtain ⟨-, -, hserves⟩ := handleRead_serves_due_timers hgood hidle
  obtain ⟨_, hok, -, -, -, hfinish⟩ := hserves _ (by simp) _ hu
  cases hok
  have hthree : 3 = q.due.length := by
    rw [← List.length_map q.idOf, hdue]
    rfl
  obtain ⟨q', hq', hserved⟩ := hfinish hthree
  refine ⟨q, u, q', hrun, hu, hq', ?_, hserved⟩
  rw [hserved.started, hdue, hstarted]
  rfl

end DbdkyGcc.Timers
