import DbdkyGcc.Polling.Intervals
import DbdkyGcc.Polling.Pollable
import DbdkyGcc.Timers.Rate

/-!
# The gateway

The loaded configuration, the timer queue and the polls as one system. `start` makes a timer for
each unit of a port; the loop runs the callbacks of the timers that have expired, one after the
other, and a callback is a whole `onQueryDataTimer`: the loop goes on when it has returned. The
threads of the ports work at the same time.

As long as the wall clock is not set back, queries to a unit come no faster than its interval
allows. If nothing is amiss with the unit, every callback sends its query: none is lost and none is
sent twice.
-/

namespace DbdkyGcc.Polling

open Foundations Codec Port Device

variable {F : Type}

/-- The gateway. `callback` is a callback that has been started and has not looked for its unit yet:
the port and the argument of `onQueryDataTimer`. -/
structure Gateway (F : Type) where
  timed : Timers.Timed
  system : System F
  /-- the timers in the order in which they were made, each with its port -/
  made : List (String × PollTimer)
  callback : Option (String × String)

inductive Event
  /-- the turn of `startTimers` for one unit -/
  | startTimer (port key : String) (timer : Nat)
  /-- a step of the timer queue -/
  | queue (a : Timers.Action)
  /-- a step of a poll or of `listen` -/
  | polling (a : Action)

namespace Gateway

/-- The ports are loaded and none is started. -/
def start (libraries : Std.ExtTreeMap String CodecKind) (clock : Int) : Gateway F where
  timed := ⟨.initial clock, ⟨fun _ => none, []⟩⟩
  system := .start libraries
  made := []
  callback := none

/-- What the callback of a timer is bound to, by its sequence number. The numbers count from one. -/
def boundTo (made : List (String × PollTimer)) : Nat → Option (String × String)
  | 0 => none
  | n + 1 => made[n]?.map fun m => (m.1, m.2.monitorUnitKeyName)

/-- The poll that has been started and has not returned. -/
def current (s : Gateway F) : Option (String × String) := s.callback.or s.system.timer.poll

/-- Time passes at any moment. The rest is done by the loop, which waits for a callback to return.
`startTimers` makes the timers, and nothing is ever entered in `timers_` for `cancelTimers`. -/
def Enabled (s : Gateway F) : Timers.Action → Prop
  | .tick _ => True
  | .create _ _ _ | .cancelInLoop _ => False
  | _ => s.current = none

instance (s : Gateway F) (a : Timers.Action) : Decidable (s.Enabled a) := by
  cases a <;> unfold Enabled <;> infer_instance

/-- The callback after a step that leads to the queue `q`. -/
def called (s : Gateway F) (q : Timers.TimerQueue) : Timers.Action → Option (String × String)
  | .run => q.started.head?.bind fun id => boundTo s.made id.sequence
  | _ => s.callback

/-- A port is started once, and `startTimers` comes to each of its units once. -/
def startTimer (rt : CRuntime F) (fp : Doubles) (ports : PortList) (s : Gateway F)
    (port key : String) (timer : Nat) : Option (Except Timers.Fault (Gateway F)) := do
  let p ← ports[port]?
  let unit ← p.monitorUnitList[key]?
  let t ← Polling.startTimer rt.toLexicalCastInt fp s.timed.queue.clock timer key unit
  if (port, key) ∈ s.made.map (fun m => (m.1, m.2.key)) then none
  else (s.timed.step t.action).map fun m => do
    let timed ← m
    pure { s with timed, made := s.made ++ [(port, t)] }

/-- A callback begins with `getCodec`, for the unit that it is bound to. -/
def polling (rt : CRuntime F) (ports : PortList) (s : Gateway F) (a : Action) :
    Option (Gateway F) :=
  match a with
  | .getCodec port key =>
    if s.callback = some (port, key) then
      (Polling.step rt ports s.system (.getCodec port key)).map fun system =>
        { s with system, callback := none }
    else none
  | a => (Polling.step rt ports s.system a).map fun system => { s with system }

def step (rt : CRuntime F) (fp : Doubles) (ports : PortList) (s : Gateway F) :
    Event → Option (Except Timers.Fault (Gateway F))
  | .startTimer port key timer => s.startTimer rt fp ports port key timer
  | .queue a =>
    if s.Enabled a then (s.timed.step a).map fun m => do
      let timed ← m
      pure { s with timed, callback := s.called timed.queue a }
    else none
  | .polling a => (s.polling rt ports a).map .ok

/-- The wall clock is not set back. -/
def NotSetBack (s : Gateway F) : Event → Prop
  | .queue a => Timers.NotSetBack s.timed.queue a
  | _ => True

instance (s : Gateway F) (e : Event) : Decidable (s.NotSetBack e) := by
  cases e <;> unfold NotSetBack <;> infer_instance

/-- How often a unit has been asked on its port. -/
def polled (s : Gateway F) (unit : String × String) : Nat :=
  s.system.polls.countP fun poll => (poll.1, keyName poll.2.unit) = unit

/-- How often the callback for a unit has been started. -/
def fired (s : Gateway F) (unit : String × String) : Nat :=
  s.timed.history.fired.countP fun f => boundTo s.made f.1 = some unit

/-- One while a callback for the unit runs. -/
def underway (s : Gateway F) (unit : String × String) : Nat :=
  if s.current = some unit then 1 else 0

end Gateway

-- ════════════════════════════════════════════════════════════════════════
-- The invariant
-- ════════════════════════════════════════════════════════════════════════

namespace Gateway

variable {libraries : Std.ExtTreeMap String CodecKind} {fp : Doubles} {ports : PortList}
  {clock₀ : Int} {rt : CRuntime F} {s t : Gateway F}

/-- No query is sent without a callback, and for a unit that can be polled each callback sends
one. -/
structure Counted (rt : CRuntime F) (libraries : Std.ExtTreeMap String CodecKind)
    (ports : PortList) (s : Gateway F) : Prop where
  le : ∀ c, s.polled c + s.underway c ≤ s.fired c
  ge : ∀ port key unit, polledUnit ports port key = some unit → Pollable rt libraries unit →
    s.fired (port, key) ≤ s.polled (port, key) + s.underway (port, key)

/-- A step that starts the callbacks `d`. -/
theorem Counted.start (h : Counted rt libraries ports s) (d : String × String → Nat)
    (hfired : ∀ c, t.fired c = s.fired c + d c)
    (hsum : ∀ c, t.polled c + t.underway c = s.polled c + s.underway c + d c) :
    Counted rt libraries ports t := by
  refine ⟨fun c => ?_, fun port key unit hunit hpollable => ?_⟩
  · rw [hfired, hsum]
    exact Nat.add_le_add_right (h.le c) _
  · rw [hfired, hsum]
    exact Nat.add_le_add_right (h.ge port key unit hunit hpollable) _

/-- A callback returns without a query. -/
theorem Counted.give (h : Counted rt libraries ports s) {c : String × String}
    (hcurrent : s.current = some c) (hidle : t.current = none)
    (hnot : ∀ unit, polledUnit ports c.1 c.2 = some unit → ¬Pollable rt libraries unit)
    (hfired : t.fired = s.fired) (hpolled : t.polled = s.polled) :
    Counted rt libraries ports t := by
  have hnone : ∀ c, t.underway c = 0 := fun c => by rw [underway, hidle, if_neg nofun]
  refine ⟨fun c => ?_, fun port key unit hunit hpollable => ?_⟩
  · have hle := h.le c
    rw [hnone, hfired, hpolled]
    omega
  · have hge := h.ge port key unit hunit hpollable
    have hother : s.underway (port, key) = 0 := by
      rw [underway, hcurrent, if_neg]
      intro heq
      cases heq
      exact hnot unit hunit hpollable
    rwa [hnone, hfired, hpolled, ← hother]

/-- What a timer was made from: a unit of the port, and the time at which it was made. -/
structure MadeFor (rt : CRuntime F) (fp : Doubles) (ports : PortList)
    (m : String × PollTimer) (created : Option (Int × Timers.Interval)) : Prop where
  name : m.2.monitorUnitKeyName = m.2.key
  schedule : ∃ unit ms began, polledUnit ports m.1 m.2.key = some unit ∧
    rt.lexicalCastInt unit.interval = some ms ∧
    created = some (addTime fp began (fp.ofInt (ms.tdiv 1000)),
      intervalOf fp (fp.ofInt (ms.tdiv 1000)))

structure Driven (rt : CRuntime F) (libraries : Std.ExtTreeMap String CodecKind) (fp : Doubles)
    (ports : PortList) (s : Gateway F) : Prop where
  paced : s.timed.Paced
  numbered : s.timed.queue.numCreated = s.made.length
  apart : (s.made.map fun m => (m.1, m.2.key)).Nodup
  made : ∀ i m, s.made[i]? = some m → MadeFor rt fp ports m (s.timed.history.created (i + 1))
  addressed : AllAddressed rt ports s.system
  pollable : AllPollable rt libraries s.system
  single : s.callback ≠ none → s.system.timer.poll = none
  counted : Counted rt libraries ports s

/-- What holds too while the clock is not set back: it shows a time after the start and after every
callback, and a timer was made, for the time one interval later, between the start and now. -/
structure Since (clock₀ : Int) (s : Timers.Timed) : Prop where
  onTime : s.OnTime
  since : clock₀ ≤ s.queue.clock
  past : ∀ f ∈ s.history.fired, f.2 ≤ s.queue.clock
  made : ∀ n when interval, s.history.created n = some (when, interval) →
    clock₀ + interval.micros ≤ when ∧ when ≤ s.queue.clock + interval.micros

theorem started_start (hclock : 0 < clock₀) :
    (start libraries clock₀ : Gateway F).timed.Started := ⟨⟨clock₀, hclock, rfl⟩, rfl⟩

theorem driven_start (hclock : 0 < clock₀) :
    Driven rt libraries fp ports (start libraries clock₀ : Gateway F) :=
  ⟨(started_start hclock).paced, rfl, List.nodup_nil, nofun, ⟨trivial, nofun⟩, allPollable_start,
    fun _ => rfl, ⟨fun _ => le_rfl, fun _ _ _ _ _ => Nat.zero_le _⟩⟩

theorem since_start (hclock : 0 < clock₀) :
    Since clock₀ (start libraries clock₀ : Gateway F).timed :=
  ⟨(started_start hclock).onTime, le_rfl, nofun, nofun⟩

theorem Since.next {s : Timers.Timed} {a : Timers.Action} {q : Timers.TimerQueue}
    (h : Since clock₀ s) (hp : s.Paced) (ha : Timers.NotSetBack s.queue a)
    (hn : Timers.Next s.queue a q)
    (hwhen : ∀ timer when interval, a = .create timer when interval →
      when = s.queue.clock + interval.micros) :
    Since clock₀ ⟨q, Timers.Timed.record s.history q a⟩ := by
  have hclock := Timers.Timed.clock_le_of_next hp.good hn ha
  refine ⟨h.onTime.next hp ha hn, h.since.trans hclock, fun f hf => ?_,
    fun n when interval hcreated => ?_⟩
  · rcases Timers.Timed.mem_fired_record hf with hold | hnow
    · exact (h.past f hold).trans hclock
    · exact hnow.le
  · rcases Timers.Timed.created_record hcreated with hold | ⟨timer, rfl⟩
    · obtain ⟨hsince, hle⟩ := h.made n when interval hold
      exact ⟨hsince, hle.trans (by dsimp only; omega)⟩
    · have hnow := hwhen timer when interval rfl
      have hsince := h.since
      dsimp only
      omega

theorem boundTo_append (made : List (String × PollTimer)) (m : String × PollTimer) {n : Nat}
    (h : n ≤ made.length) : boundTo (made ++ [m]) n = boundTo made n := by
  cases n with
  | zero => rfl
  | succ n => rw [boundTo, boundTo, List.getElem?_append_left h]

theorem Driven.startTimer {catalogue : Option XmlDocument} {docs : List (Option XmlDocument)}
    (hload : loadDocuments catalogue docs = .ok ports) (h : Driven rt libraries fp ports s)
    {port key : String} {timer : Nat} {m : Except Timers.Fault (Gateway F)}
    (hs : s.startTimer rt fp ports port key timer = some m) :
    ∃ t, m = .ok t ∧ Driven rt libraries fp ports t := by
  simp only [Gateway.startTimer, Option.bind_eq_bind, Option.bind_eq_some_iff] at hs
  obtain ⟨p, hp, unit, hunit, pt, hpt, hs⟩ := hs
  split at hs
  · cases hs
  next hnew =>
  obtain ⟨r, hr, rfl⟩ := Option.map_eq_some_iff.mp hs
  obtain ⟨ms, hms, rfl⟩ := Option.map_eq_some_iff.mp hpt
  obtain ⟨q, rfl, hnext, hpaced⟩ := h.paced.next_of_step hr
  cases hnext with
  | create hdead =>
  have hfound := polledUnit_of_loaded hload hp hunit
  have hkey := key_of_loaded hload hfound
  refine ⟨_, rfl, hpaced, ?_, ?_, fun i m hm => ?_, h.addressed, h.pollable, h.single,
    h.counted.start (fun _ => 0) (fun c => ?_) fun c => rfl⟩
  · show s.timed.queue.numCreated + 1 = _
    rw [h.numbered, List.length_append, List.length_singleton]
  · rw [List.map_append, List.nodup_append]
    refine ⟨h.apart, List.nodup_singleton _, fun c hc d hd => ?_⟩
    rw [List.map_singleton, List.mem_singleton] at hd
    subst hd
    rintro rfl
    exact hnew hc
  · rcases getElem?_concat_cases hm with hold | ⟨rfl, rfl⟩
    · have hlt : i < s.made.length := (List.getElem?_eq_some_iff.mp hold).1
      show MadeFor rt fp ports m
        (Function.update s.timed.history.created (s.timed.queue.numCreated + 1) _ (i + 1))
      rw [h.numbered, Function.update_of_ne (by omega)]
      exact h.made i m hold
    · refine ⟨hkey.symm, unit, ms, s.timed.queue.clock, hfound, hms, ?_⟩
      show Function.update s.timed.history.created (s.timed.queue.numCreated + 1) _ _ = _
      rw [h.numbered, Function.update_self]
  · refine List.countP_congr fun f hf => ?_
    have hle : f.1 ≤ s.made.length := h.numbered ▸ h.paced.fired_le hf
    rw [boundTo_append _ _ hle]

/-- A step of the queue that starts no callback. -/
theorem Driven.quiet (h : Driven rt libraries fp ports s) {q : Timers.TimerQueue}
    (hpaced : Timers.Timed.Paced ⟨q, s.timed.history⟩)
    (hnum : q.numCreated = s.timed.queue.numCreated) :
    Driven rt libraries fp ports { s with timed := ⟨q, s.timed.history⟩ } where
  paced := hpaced
  numbered := hnum.trans h.numbered
  apart := h.apart
  made := h.made
  addressed := h.addressed
  pollable := h.pollable
  single := h.single
  counted := h.counted.start (fun _ => 0) (fun _ => rfl) fun _ => rfl

theorem current_eq_none_iff : s.current = none ↔ s.callback = none ∧ s.system.timer.poll = none :=
  Option.or_eq_none_iff

/-- The start of a callback. -/
theorem Driven.fire (h : Driven rt libraries fp ports s) {q : Timers.TimerQueue} {n : Nat}
    (hpaced : Timers.Timed.Paced ⟨q, s.timed.history.fire n q.clock⟩)
    (hnum : q.numCreated = s.timed.queue.numCreated) (hcurrent : s.current = none) :
    Driven rt libraries fp ports { s with
      timed := ⟨q, s.timed.history.fire n q.clock⟩
      callback := boundTo s.made n } := by
  obtain ⟨-, hidle⟩ := current_eq_none_iff.mp hcurrent
  refine ⟨hpaced, hnum.trans h.numbered, h.apart, h.made, h.addressed, h.pollable, fun _ => hidle,
    h.counted.start (fun c => if boundTo s.made n = some c then 1 else 0) (fun c => ?_) fun c => ?_⟩
  · show List.countP _ (s.timed.history.fired ++ [(n, q.clock)]) = _
    rw [List.countP_append, List.countP_singleton]
    simp only [fired, decide_eq_true_eq]
  · have hbefore : s.underway c = 0 := by rw [underway, hcurrent, if_neg nofun]
    have hafter : underway { s with
        timed := ⟨q, s.timed.history.fire n q.clock⟩
        callback := boundTo s.made n } c = if boundTo s.made n = some c then 1 else 0 := by
      rw [underway, current, hidle, Option.or_none]
    rw [hbefore, hafter]
    rfl

theorem Driven.queue (h : Driven rt libraries fp ports s) {a : Timers.Action}
    (ha : s.Enabled a) {m : Except Timers.Fault Timers.Timed} (hs : s.timed.step a = some m) :
    ∃ timed, m = .ok timed ∧ Driven rt libraries fp ports
      { s with timed, callback := s.called timed.queue a } := by
  obtain ⟨q, rfl, hnext, hpaced⟩ := h.paced.next_of_step hs
  refine ⟨_, rfl, ?_⟩
  have hquiet : (∀ timer when interval, a ≠ .create timer when interval) →
      Timers.Timed.record s.timed.history q a = s.timed.history → s.called q a = s.callback →
      Driven rt libraries fp ports { s with
        timed := ⟨q, Timers.Timed.record s.timed.history q a⟩
        callback := s.called q a } := by
    intro hcreate hrecord hcalled
    have hnum := Timers.Timed.numCreated_of_next h.paced.good hnext hcreate
    rw [hrecord] at hpaced ⊢
    rw [hcalled]
    exact h.quiet hpaced hnum
  cases a with
  | tick now => exact hquiet nofun rfl rfl
  | create timer when interval => exact ha.elim
  | addTimerInLoop timer => exact hquiet nofun rfl rfl
  | cancelInLoop timerId => exact ha.elim
  | handleRead => exact hquiet nofun rfl rfl
  | finish => exact hquiet nofun rfl rfl
  | run =>
    cases hnext with
    | run hb ht => exact h.fire hpaced rfl ha

/-- In a poll, the callback has begun. -/
theorem Driven.callback_eq (h : Driven rt libraries fp ports s) {c : String × String}
    (hpoll : s.system.timer.poll = some c) : s.callback = none := by
  by_contra hne
  have hnone := h.single hne
  rw [hpoll] at hnone
  cases hnone

theorem Driven.current_eq (h : Driven rt libraries fp ports s) {c : String × String}
    (hpoll : s.system.timer.poll = some c) : s.current = some c := by
  rw [current, h.callback_eq hpoll, Option.none_or, hpoll]

/-- A step of a poll after `getCodec`, or of another thread. -/
theorem Driven.turn {catalogue : Option XmlDocument} {docs : List (Option XmlDocument)}
    (hload : loadDocuments catalogue docs = .ok ports) (h : Driven rt libraries fp ports s)
    {system : System F} (haddressed : AllAddressed rt ports system)
    (hpollable : AllPollable rt libraries system) (hturn : Turn rt libraries s.system system) :
    Driven rt libraries fp ports { s with system } := by
  have hnext : (s.callback ≠ none → system.timer.poll = none) →
      Counted rt libraries ports { s with system } →
      Driven rt libraries fp ports { s with system } := fun hsingle hcounted =>
    ⟨h.paced, h.numbered, h.apart, h.made, haddressed, hpollable, hsingle, hcounted⟩
  cases hturn with
  | stays hpoll hpolls =>
    refine hnext (fun hne => hpoll.trans (h.single hne))
      (h.counted.start (fun _ => 0) (fun _ => rfl) fun c => ?_)
    rw [polled, underway, current, hpolls, hpoll]
    rfl
  | @writes port w hbuilt hidle hpolls =>
    have hpoll : s.system.timer.poll = some (port, keyName w.unit) := by rw [hbuilt]; rfl
    have hpoll' : system.timer.poll = none := by rw [hidle]; rfl
    refine hnext (fun _ => hpoll') (h.counted.start (fun _ => 0) (fun _ => rfl) fun c => ?_)
    -- The callback that was running is now a query.
    rw [polled, underway, current, hpolls, hpoll', h.callback_eq hpoll, Option.none_or,
      if_neg nofun, List.countP_append, List.countP_singleton, underway, h.current_eq hpoll, polled]
    simp only [decide_eq_true_eq, Option.some.injEq]
  | @gives port unit hunit hidle hpolls hnot =>
    have hpoll : s.system.timer.poll = some (port, keyName unit) := by
      rcases hunit with hunit | hunit
      · rw [hunit]; rfl
      · rw [hunit]; rfl
    have hpoll' : system.timer.poll = none := by rw [hidle]; rfl
    obtain ⟨key, hkey⟩ : ∃ key, polledUnit ports port key = some unit := by
      rcases hunit with hunit | hunit
      · exact h.addressed.timer_eq hunit
      · exact h.addressed.timer_eq hunit
    refine hnext (fun _ => hpoll') (h.counted.give (h.current_eq hpoll) ?_ (fun u hu => ?_) rfl ?_)
    · rw [current, hpoll', h.callback_eq hpoll]
      rfl
    · rw [key_of_loaded hload hkey] at hkey
      obtain rfl : unit = u := Option.some.inj (hkey.symm.trans hu)
      exact hnot
    · funext c
      rw [polled, hpolls]
      rfl

/-- A callback begins. -/
theorem Driven.getCodec {catalogue : Option XmlDocument} {docs : List (Option XmlDocument)}
    (hload : loadDocuments catalogue docs = .ok ports) (h : Driven rt libraries fp ports s)
    {port key : String} (hcallback : s.callback = some (port, key)) {system : System F}
    (hs : s.system.getCodec ports port key = some system) :
    Driven rt libraries fp ports { s with system, callback := none } := by
  obtain ⟨hpollable, hpolls, hends⟩ := h.pollable.getCodec hs
  have hcurrent : s.current = some (port, key) := by rw [current, hcallback]; rfl
  have hpolled : polled { s with system, callback := none } = s.polled := by
    funext c
    rw [polled, hpolls]
    rfl
  refine ⟨h.paced, h.numbered, h.apart, h.made, h.addressed.getCodec hs, hpollable,
    fun hne => absurd rfl hne, ?_⟩
  rcases hends with ⟨unit, hunit, htimer⟩ | ⟨htimer, hnot⟩
  · refine h.counted.start (fun _ => 0) (fun _ => rfl) fun c => ?_
    have hafter : current { s with system, callback := none } = some (port, key) := by
      rw [current, htimer, key_of_loaded hload hunit]
      rfl
    rw [hpolled, underway, underway, hafter, hcurrent]
    rfl
  · refine h.counted.give hcurrent ?_ hnot rfl hpolled
    rw [current, htimer]
    rfl

theorem Driven.polling {catalogue : Option XmlDocument} {docs : List (Option XmlDocument)}
    (hload : loadDocuments catalogue docs = .ok ports) (h : Driven rt libraries fp ports s)
    {a : Action} (hs : s.polling rt ports a = some t) :
    Driven rt libraries fp ports t := by
  have hrest : (∀ port key, a ≠ .getCodec port key) →
      (Polling.step rt ports s.system a).map (fun system => { s with system }) = some t →
      Driven rt libraries fp ports t := by
    intro ha hs
    obtain ⟨system, hsystem, rfl⟩ := Option.map_eq_some_iff.mp hs
    obtain ⟨hpollable, hturn⟩ := h.pollable.step ha hsystem
    exact h.turn hload (h.addressed.step hsystem) hpollable hturn
  cases a with
  | getCodec port key =>
    rw [Gateway.polling, Option.ite_none_right_eq_some] at hs
    obtain ⟨hcallback, hs⟩ := hs
    obtain ⟨system, hsystem, rfl⟩ := Option.map_eq_some_iff.mp hs
    exact h.getCodec hload hcallback hsystem
  | setConfig => exact hrest nofun hs
  | makeQueryCmd codedata => exact hrest nofun hs
  | write => exact hrest nofun hs
  | read port i id regs => exact hrest nofun hs
  | fetch port => exact hrest nofun hs
  | parse port stack => exact hrest nofun hs

/-- A poll does nothing to the timers. -/
theorem polling_timed {a : Action} (hs : s.polling rt ports a = some t) : t.timed = s.timed := by
  cases a with
  | getCodec port key =>
    rw [Gateway.polling, Option.ite_none_right_eq_some] at hs
    obtain ⟨system, -, rfl⟩ := Option.map_eq_some_iff.mp hs.2
    rfl
  | _ =>
    obtain ⟨system, -, rfl⟩ := Option.map_eq_some_iff.mp hs
    rfl

theorem Driven.step {catalogue : Option XmlDocument} {docs : List (Option XmlDocument)}
    (hload : loadDocuments catalogue docs = .ok ports) (h : Driven rt libraries fp ports s)
    {e : Event} {m : Except Timers.Fault (Gateway F)}
    (hs : s.step rt fp ports e = some m) :
    ∃ t, m = .ok t ∧ Driven rt libraries fp ports t := by
  cases e with
  | startTimer port key timer => exact h.startTimer hload hs
  | queue a =>
    rw [Gateway.step, Option.ite_none_right_eq_some] at hs
    obtain ⟨ha, hs⟩ := hs
    obtain ⟨r, hr, rfl⟩ := Option.map_eq_some_iff.mp hs
    obtain ⟨timed, rfl, ht⟩ := h.queue ha hr
    exact ⟨_, rfl, ht⟩
  | polling a =>
    obtain ⟨t, ht, rfl⟩ := Option.map_eq_some_iff.mp hs
    exact ⟨t, rfl, h.polling hload ht⟩

theorem Driven.since_step (h : Driven rt libraries fp ports s) (hsince : Since clock₀ s.timed)
    {e : Event} (he : s.NotSetBack e) (hs : s.step rt fp ports e = some (.ok t)) :
    Since clock₀ t.timed := by
  cases e with
  | startTimer port key timer =>
    simp only [Gateway.step, Gateway.startTimer, Option.bind_eq_bind, Option.bind_eq_some_iff] at hs
    obtain ⟨p, hp, unit, hunit, pt, hpt, hs⟩ := hs
    split at hs
    · cases hs
    obtain ⟨r, hr, ht⟩ := Option.map_eq_some_iff.mp hs
    obtain ⟨ms, hms, rfl⟩ := Option.map_eq_some_iff.mp hpt
    obtain ⟨q, rfl, hnext, -⟩ := h.paced.next_of_step hr
    cases ht
    refine hsince.next h.paced trivial hnext fun timer' when interval heq => ?_
    cases heq
    rfl
  | queue a =>
    rw [Gateway.step, Option.ite_none_right_eq_some] at hs
    obtain ⟨ha, hs⟩ := hs
    obtain ⟨r, hr, ht⟩ := Option.map_eq_some_iff.mp hs
    obtain ⟨q, rfl, hnext, -⟩ := h.paced.next_of_step hr
    cases ht
    refine hsince.next h.paced he hnext fun timer when interval heq => ?_
    subst heq
    exact ha.elim
  | polling a =>
    obtain ⟨u, hu, ht⟩ := Option.map_eq_some_iff.mp hs
    cases ht
    rwa [polling_timed hu]

-- ════════════════════════════════════════════════════════════════════════
-- What every run keeps
-- ════════════════════════════════════════════════════════════════════════

theorem Driven.of_boundTo (h : Driven rt libraries fp ports s) {n : Nat} {c : String × String}
    (hbound : boundTo s.made n = some c) :
    ∃ i m, n = i + 1 ∧ s.made[i]? = some m ∧ (m.1, m.2.key) = c := by
  cases n with
  | zero => cases hbound
  | succ i =>
    obtain ⟨m, hm, heq⟩ := Option.map_eq_some_iff.mp hbound
    rw [(h.made i m hm).name] at heq
    exact ⟨i, m, rfl, hm, heq⟩

/-- The callbacks for a unit are the starts of the one timer that is bound to it. -/
theorem Driven.fired_eq (h : Driven rt libraries fp ports s) {i : Nat} {m : String × PollTimer}
    (hm : s.made[i]? = some m) :
    s.fired (m.1, m.2.key) = (s.timed.history.times (i + 1)).length := by
  rw [fired, Timers.History.times, List.length_map, ← List.countP_eq_length_filter]
  refine List.countP_congr fun f _ => ?_
  rw [decide_eq_true_eq, decide_eq_true_eq]
  constructor
  · intro hbound
    obtain ⟨j, m', hj, hm', heq⟩ := h.of_boundTo hbound
    have hsame : (s.made.map fun m => (m.1, m.2.key))[j]? =
        (s.made.map fun m => (m.1, m.2.key))[i]? := by
      rw [List.getElem?_map, List.getElem?_map, hm', hm, Option.map_some, Option.map_some, heq]
    have hlt : j < (s.made.map fun m => (m.1, m.2.key)).length := by
      rw [List.length_map]
      exact (List.getElem?_eq_some_iff.mp hm').1
    rw [hj, (List.getElem?_inj hlt h.apart).mp hsame]
  · intro hf
    rw [hf, boundTo, hm, Option.map_some, (h.made i m hm).name]

/-- A unit without a timer has no callbacks. -/
theorem Driven.fired_eq_zero (h : Driven rt libraries fp ports s) {c : String × String}
    (hc : ¬∃ (i : Nat) (m : String × PollTimer), s.made[i]? = some m ∧ (m.1, m.2.key) = c) :
    s.fired c = 0 := by
  rw [fired, List.countP_eq_zero]
  intro f _ hbound
  obtain ⟨i, m, -, hm, heq⟩ := h.of_boundTo (of_decide_eq_true hbound)
  exact hc ⟨i, m, hm, heq⟩

/-- The callbacks of a unit with an interval of `ms` milliseconds. -/
theorem Driven.fired_le (h : Driven rt libraries fp ports s) (hs : Since clock₀ s.timed)
    {port key : String} {unit : MonitorUnit} (hunit : polledUnit ports port key = some unit)
    {ms : Int} (hms : rt.lexicalCastInt unit.interval = some ms) (hpos : 0 < ms) :
    s.fired (port, key) * (ms / 1000 * 1000000) ≤ s.timed.queue.clock - clock₀ ∧
      (ms < 1000 → s.fired (port, key) ≤ 1) := by
  by_cases hmade : ∃ (i : Nat) (m : String × PollTimer),
      s.made[i]? = some m ∧ (m.1, m.2.key) = (port, key)
  swap
  · rw [h.fired_eq_zero hmade]
    have hsince := hs.since
    exact ⟨by push_cast; omega, fun _ => Nat.zero_le 1⟩
  obtain ⟨i, m, hm, hkey⟩ := hmade
  obtain ⟨-, u, ms', began, hu, hms', hcreated⟩ := h.made i m hm
  obtain ⟨rfl, rfl⟩ := Prod.mk.inj hkey
  obtain rfl : unit = u := Option.some.inj (hunit.symm.trans hu)
  obtain rfl : ms = ms' := Option.some.inj (hms.symm.trans hms')
  obtain ⟨hpositive, hmicros⟩ := intervalOf_tdiv fp hpos (rt.lexicalCastInt_range _ _ hms).2
  have hschedule : Timers.History.OnSchedule
      (began + (intervalOf fp (fp.ofInt (ms.tdiv 1000))).micros)
      (intervalOf fp (fp.ofInt (ms.tdiv 1000))) (s.timed.history.times (i + 1)) :=
    hs.onTime.starts _ _ _ hcreated
  obtain ⟨hsince, hbegan⟩ : clock₀ ≤ began ∧ began ≤ s.timed.queue.clock := by
    obtain ⟨hsince, hbegan⟩ := hs.made _ _ _ hcreated
    exact ⟨le_of_add_le_add_right hsince, le_of_add_le_add_right hbegan⟩
  have hpast : ∀ x ∈ s.timed.history.times (i + 1), x ≤ s.timed.queue.clock := by
    intro x hx
    obtain ⟨f, hf, rfl⟩ := List.mem_map.mp hx
    exact hs.past f (List.mem_filter.mp hf).1
  have hle := hschedule.length_mul_le hpast hbegan
  rw [h.fired_eq hm]
  refine ⟨?_, fun hsmall => hschedule.once ?_⟩
  · rw [← hmicros]
    exact hle.trans (by omega)
  · rw [hpositive, decide_eq_false_iff_not]
    omega

/-- A unit that cannot be polled is not. -/
theorem Driven.polled_eq_zero {catalogue : Option XmlDocument} {docs : List (Option XmlDocument)}
    (hload : loadDocuments catalogue docs = .ok ports) (h : Driven rt libraries fp ports s)
    {port key : String} {unit : MonitorUnit} (hunit : polledUnit ports port key = some unit)
    (hnot : ¬Pollable rt libraries unit) : s.polled (port, key) = 0 := by
  rw [polled, List.countP_eq_zero]
  rintro ⟨port', w⟩ hpoll heq
  obtain ⟨rfl, hname⟩ := Prod.mk.inj (of_decide_eq_true heq)
  obtain ⟨⟨key', hkey⟩, -⟩ := h.addressed.polls _ hpoll
  rw [key_of_loaded hload hkey] at hkey
  rw [← hname] at hunit
  obtain rfl : unit = w.unit := Option.some.inj (hunit.symm.trans hkey)
  exact hnot (h.pollable.polls _ hpoll)

variable {catalogue : Option XmlDocument} {docs : List (Option XmlDocument)}

theorem driven_of_run (hload : loadDocuments catalogue docs = .ok ports) (hclock : 0 < clock₀)
    {p : Except Timers.Fault (Gateway F)}
    (h : Run (step rt fp ports) (fun _ _ => True) (fun s => s = start libraries clock₀) p) :
    ∃ s, p = .ok s ∧ Driven rt libraries fp ports s :=
  h.safe (fun _ hs => hs ▸ driven_start hclock) fun _ _ _ hs _ hstep => hs.step hload hstep

theorem since_of_run (hload : loadDocuments catalogue docs = .ok ports) (hclock : 0 < clock₀)
    {p : Except Timers.Fault (Gateway F)}
    (h : Run (step rt fp ports) NotSetBack (fun s => s = start libraries clock₀) p) :
    ∃ s, p = .ok s ∧ Driven rt libraries fp ports s ∧ Since clock₀ s.timed := by
  refine h.safe (I := fun s => Driven rt libraries fp ports s ∧ Since clock₀ s.timed) ?_ ?_
  · rintro s rfl
    exact ⟨driven_start hclock, since_start hclock⟩
  · rintro s e m ⟨hs, hsince⟩ he hstep
    obtain ⟨t, rfl, ht⟩ := hs.step hload hstep
    exact ⟨t, rfl, ht, hs.since_step hsince he hstep⟩

/-- The gateway with one arrester, polled every minute: whether the run of these events leads to a
state that passes the check. -/
def arresterSeen (events : List Event) (checkUnit : MonitorUnit → Bool)
    (check : Gateway Int → Bool) : Bool :=
  (loadDocuments none [some (com1Document "9600" "1")]).toOption.any fun ports =>
    (polledUnit ports "COM1" "ZSAR1").any checkUnit &&
      seen (exec (faulting (restrict NotSetBack (step CRuntime.whole .rational ports)))
        (.ok (start zsarLibrary 1000000)) events) check

theorem exists_of_arresterSeen {events : List Event} {checkUnit : MonitorUnit → Bool}
    {check : Gateway Int → Bool} (h : arresterSeen events checkUnit check = true) :
    ∃ ports, loadDocuments none [some (com1Document "9600" "1")] = .ok ports ∧
    (∃ unit, polledUnit ports "COM1" "ZSAR1" = some unit ∧ checkUnit unit = true) ∧
    ∃ s, Run (step CRuntime.whole .rational ports) NotSetBack
        (fun s => s = start zsarLibrary 1000000) (.ok s) ∧ check s = true := by
  obtain ⟨ports, hports, hrest⟩ := (Option.any_eq_true _ _).mp h
  obtain ⟨hunit, hseen⟩ := Bool.and_eq_true_iff.mp hrest
  obtain ⟨unit, hunit, hcheck⟩ := (Option.any_eq_true _ _).mp hunit
  obtain ⟨s, hs, hchecked⟩ := exists_of_seen hseen
  exact ⟨ports, eq_ok_of_toOption hports, ⟨unit, hunit, hcheck⟩, s,
    Run.exec _ (.start rfl) hs, hchecked⟩

/-- A timer is made and goes off after a minute, the arrester is asked, and the timer goes off
again. -/
def secondCallback : List Event :=
  [.startTimer "COM1" "ZSAR1" 16, .queue (.addTimerInLoop 16), .queue (.tick 61000000),
    .queue .handleRead, .queue .run] ++ (pollOf "ZSAR1").map .polling ++
  [.queue .finish, .queue (.tick 121500000), .queue .handleRead, .queue .run]

/-- In every run in which the clock is not set back, by any time, a unit with an interval of `ms`
milliseconds has been asked no more often than whole intervals have passed since the start, where
the interval counts in whole seconds; and a unit with an interval below a second has been asked once
at most. -/
theorem polled_no_faster_than_interval (hload : loadDocuments catalogue docs = .ok ports)
    (hclock : 0 < clock₀) {p : Except Timers.Fault (Gateway F)}
    (h : Run (step rt fp ports) NotSetBack (fun s => s = start libraries clock₀) p) :
    ∃ s, p = .ok s ∧ ∀ port key unit ms, polledUnit ports port key = some unit →
      rt.lexicalCastInt unit.interval = some ms → 0 < ms →
      s.polled (port, key) * (ms / 1000 * 1000000) ≤ s.timed.queue.clock - clock₀ ∧
        (ms < 1000 → s.polled (port, key) ≤ 1) := by
  obtain ⟨s, rfl, hs, hsince⟩ := since_of_run hload hclock h
  refine ⟨s, rfl, fun port key unit ms hunit hms hpos => ?_⟩
  obtain ⟨hpace, honce⟩ := hs.fired_le hsince hunit hms hpos
  have hle : s.polled (port, key) ≤ s.fired (port, key) :=
    (Nat.le_add_right _ _).trans (hs.counted.le (port, key))
  refine ⟨le_trans ?_ hpace, fun hsmall => hle.trans (honce hsmall)⟩
  exact mul_le_mul_of_nonneg_right (by exact_mod_cast hle) (by omega)

/-- The arrester has been asked twice in two minutes and a half second. -/
theorem polled_no_faster_than_a_minute : ∃ s : Gateway Int, s.timed.queue.clock = 121500000 ∧
    s.polled ("COM1", "ZSAR1") = 2 ∧
    (s.polled ("COM1", "ZSAR1") : Int) * 60000000 ≤ 121500000 - 1000000 := by
  obtain ⟨ports, hload, ⟨unit, hunit, hinterval⟩, s, hs, hcheck⟩ := exists_of_arresterSeen
    (show arresterSeen (secondCallback ++ (pollOf "ZSAR1").map .polling)
      (fun u => decide (u.interval = "60000"))
      (fun s => decide (s.timed.queue.clock = 121500000 ∧ s.polled ("COM1", "ZSAR1") = 2)) = true by
      decide +kernel)
  obtain ⟨hclock, hpolled⟩ := of_decide_eq_true hcheck
  obtain ⟨_, hok, hall⟩ := polled_no_faster_than_interval hload (by decide) hs
  cases hok
  have hms : CRuntime.whole.lexicalCastInt unit.interval = some 60000 := by
    rw [of_decide_eq_true hinterval]
    decide +kernel
  have hpace := (hall "COM1" "ZSAR1" unit 60000 hunit hms (by decide)).1
  rw [hclock] at hpace
  exact ⟨s, hclock, hpolled, by omega⟩

/-- In every run each callback for a unit that can be polled has made one `::write` of its query on
the port of the unit, or is about to; and a unit that cannot be polled is never asked. The code does
not look at what `::write` returns. -/
theorem query_for_each_callback (hload : loadDocuments catalogue docs = .ok ports)
    (hclock : 0 < clock₀) {p : Except Timers.Fault (Gateway F)}
    (h : Run (step rt fp ports) (fun _ _ => True) (fun s => s = start libraries clock₀) p) :
    ∃ s, p = .ok s ∧ ∀ port key unit, polledUnit ports port key = some unit →
      (Pollable rt libraries unit →
        s.polled (port, key) + s.underway (port, key) = s.fired (port, key)) ∧
      (¬Pollable rt libraries unit → s.polled (port, key) = 0) := by
  obtain ⟨s, rfl, hs⟩ := driven_of_run hload hclock h
  refine ⟨s, rfl, fun port key unit hunit => ⟨fun hpollable => ?_, hs.polled_eq_zero hload hunit⟩⟩
  exact le_antisymm (hs.counted.le _) (hs.counted.ge port key unit hunit hpollable)

/-- The second callback for the arrester is about to send its query. -/
theorem query_for_second_callback : ∃ s : Gateway Int, s.fired ("COM1", "ZSAR1") = 2 ∧
    s.polled ("COM1", "ZSAR1") = 1 ∧
    s.polled ("COM1", "ZSAR1") + s.underway ("COM1", "ZSAR1") = s.fired ("COM1", "ZSAR1") := by
  obtain ⟨ports, hload, ⟨unit, hunit, hpollable⟩, s, hs, hcheck⟩ := exists_of_arresterSeen
    (show arresterSeen secondCallback
      (fun u => decide ((lookup zsarLibrary u.protocolname).isSome ∧
        u.getFirstMeasurePoint.isSome ∧ (CRuntime.whole.lexicalCastInt u.mac).isSome))
      (fun s => decide (s.fired ("COM1", "ZSAR1") = 2 ∧ s.polled ("COM1", "ZSAR1") = 1)) = true by
      decide +kernel)
  obtain ⟨hfired, hpolled⟩ := of_decide_eq_true hcheck
  obtain ⟨hlibrary, hpoint, haddress⟩ := of_decide_eq_true hpollable
  obtain ⟨_, hok, hall⟩ := query_for_each_callback hload (by decide) (hs.mono fun _ _ _ => trivial)
  cases hok
  exact ⟨s, hfired, hpolled, (hall "COM1" "ZSAR1" unit hunit).1 ⟨hlibrary, hpoint, haddress⟩⟩

end Gateway

end DbdkyGcc.Polling
