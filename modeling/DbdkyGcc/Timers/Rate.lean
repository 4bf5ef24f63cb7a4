import DbdkyGcc.Foundations.Indexed
import DbdkyGcc.Timers.Consistent

/-!
# How often a timer fires

A timer that was added for a time and with an interval: as long as the wall clock is not set back,
its callback does not start before that time, not again before an interval later, and so on.
`restart` counts from the moment at which `handleRead` looked at the clock, so that lateness is
never made up for. A timer without an interval fires once.

`Timed` adds to the queue what each timer was created with and when its callback was started.
-/

namespace DbdkyGcc.Timers

open Foundations

/-- By sequence number, what the timers were created with; and the starts of callbacks, each with
the sequence number and the time. -/
structure History where
  created : Nat → Option (Int × Interval)
  fired : List (Nat × Int)

namespace History

variable (h : History)

/-- The times at which the callback of a timer was started. -/
def times (n : Nat) : List Int := (h.fired.filter fun f => f.1 = n).map Prod.snd

def create (n : Nat) (when : Int) (interval : Interval) : History :=
  { h with created := Function.update h.created n (some (when, interval)) }

def fire (n : Nat) (now : Int) : History := { h with fired := h.fired ++ [(n, now)] }

theorem times_fire_self (n : Nat) (now : Int) : (h.fire n now).times n = h.times n ++ [now] := by
  simp [times, fire]

theorem times_fire_of_ne {n m : Nat} (hne : n ≠ m) (now : Int) :
    (h.fire n now).times m = h.times m := by
  simp [times, fire, hne]

theorem created_create_of_ne {n m : Nat} (hne : m ≠ n) (when : Int) (interval : Interval) :
    (h.create n when interval).created m = h.created m := Function.update_of_ne hne _ _

theorem times_create (n m : Nat) (when : Int) (interval : Interval) :
    (h.create n when interval).times m = h.times m := rfl

/-- The next start of the timer is allowed from `x` on. -/
def Due (t : Timer) (x : Int) : Prop :=
  ∃ when, h.created t.sequence = some (when, t.interval) ∧
    when + (h.times t.sequence).length * t.interval.micros ≤ x ∧
    (t.repeats = false → h.times t.sequence = [])

/-- The last start of the timer was allowed at `now`. -/
def Served (t : Timer) (now : Int) : Prop :=
  ∃ when, h.created t.sequence = some (when, t.interval) ∧
    when + (h.times t.sequence).length * t.interval.micros ≤ now + t.interval.micros

/-- The starts of a timer that was created with this time and interval. -/
structure OnSchedule (when : Int) (interval : Interval) (times : List Int) : Prop where
  le : ∀ (k : Nat) (x : Int), times[k]? = some x → when + k * interval.micros ≤ x
  once : interval.positive = false → times.length ≤ 1

variable {h}

theorem Due.mono {t : Timer} {x y : Int} (hdue : h.Due t x) (hxy : x ≤ y) : h.Due t y := by
  obtain ⟨when, hcreated, hle, honce⟩ := hdue
  exact ⟨when, hcreated, hle.trans hxy, honce⟩

/-- `restart` allows for the interval. -/
theorem Served.restart {t : Timer} {now : Int} (hserved : h.Served t now)
    (hrepeats : t.repeats = true) : h.Due (t.restart now) (t.restart now).expiration := by
  obtain ⟨when, hcreated, hle⟩ := hserved
  refine ⟨when, hcreated, ?_, fun hno => ?_⟩
  · rw [Timer.restart, if_pos hrepeats]
    exact hle
  · have hsame : (t.restart now).repeats = t.repeats := rfl
    rw [hsame, hrepeats] at hno
    cases hno

/-- The start of a timer that is due. -/
theorem Due.fire {t : Timer} {now clock : Int} (hdue : h.Due t now) :
    (h.fire t.sequence clock).Served t now := by
  obtain ⟨when, hcreated, hle, -⟩ := hdue
  refine ⟨when, hcreated, ?_⟩
  rw [times_fire_self, List.length_append, List.length_singleton]
  push_cast
  rw [add_mul, one_mul]
  omega

theorem OnSchedule.snoc {when x : Int} {interval : Interval} {times : List Int}
    (hs : OnSchedule when interval times) (hle : when + times.length * interval.micros ≤ x)
    (honce : interval.positive = false → times = []) : OnSchedule when interval (times ++ [x]) := by
  refine ⟨fun k y hy => ?_, fun hno => ?_⟩
  · rcases getElem?_concat_cases hy with hold | ⟨rfl, rfl⟩
    · exact hs.le k y hold
    · exact hle
  · rw [honce hno]
    exact le_rfl

/-- The starts of a timer that is first due an interval after it was made take up no more time than
has passed since. -/
theorem OnSchedule.length_mul_le {began clock : Int} {interval : Interval} {times : List Int}
    (hs : OnSchedule (began + interval.micros) interval times) (hpast : ∀ x ∈ times, x ≤ clock)
    (hbegan : began ≤ clock) : times.length * interval.micros ≤ clock - began := by
  rcases List.eq_nil_or_concat times with rfl | ⟨before, x, rfl⟩
  · rw [List.length_nil, Nat.cast_zero, zero_mul]
    omega
  · rw [List.concat_eq_append] at hs hpast ⊢
    have hx : x ≤ clock := hpast x (List.mem_append_right _ (List.mem_singleton.mpr rfl))
    have hle := hs.le before.length x (by simp)
    rw [List.length_append, List.length_singleton]
    push_cast
    rw [add_mul, one_mul]
    omega

theorem Due.of_fire_ne {t : Timer} {x : Int} {n : Nat} {clock : Int} (hdue : h.Due t x)
    (hne : n ≠ t.sequence) : (h.fire n clock).Due t x := by
  unfold Due
  rw [times_fire_of_ne h hne]
  exact hdue

theorem Served.of_fire_ne {t : Timer} {now : Int} {n : Nat} {clock : Int}
    (hserved : h.Served t now) (hne : n ≠ t.sequence) : (h.fire n clock).Served t now := by
  unfold Served
  rw [times_fire_of_ne h hne]
  exact hserved

theorem Due.of_create_ne {t : Timer} {x when : Int} {n : Nat} {interval : Interval}
    (hdue : h.Due t x) (hne : t.sequence ≠ n) : (h.create n when interval).Due t x := by
  unfold Due
  rw [created_create_of_ne h hne, times_create]
  exact hdue

theorem Served.of_create_ne {t : Timer} {now when : Int} {n : Nat} {interval : Interval}
    (hserved : h.Served t now) (hne : t.sequence ≠ n) :
    (h.create n when interval).Served t now := by
  unfold Served
  rw [created_create_of_ne h hne, times_create]
  exact hserved

end History

/-- A queue with its history. -/
structure Timed where
  queue : TimerQueue
  history : History

namespace Timed

/-- What a step that leads to the queue `q` adds to the history. -/
def record (h : History) (q : TimerQueue) : Action → History
  | .create _ when interval => h.create q.numCreated when interval
  | .run => q.started.head?.elim h fun id => h.fire id.sequence q.clock
  | _ => h

theorem record_run_cases (h : History) (q : TimerQueue) :
    record h q .run = h ∨ ∃ n, record h q .run = h.fire n q.clock := by
  rw [record]
  cases q.started.head? with
  | none => exact .inl rfl
  | some id => exact .inr ⟨id.sequence, rfl⟩

theorem mem_fired_record {h : History} {q : TimerQueue} {a : Action} {f : Nat × Int}
    (hf : f ∈ (record h q a).fired) : f ∈ h.fired ∨ f.2 = q.clock := by
  cases a with
  | run =>
    rcases record_run_cases h q with heq | ⟨n, heq⟩
    · exact .inl (heq ▸ hf)
    · rw [heq] at hf
      rcases List.mem_append.mp hf with hold | hnew
      · exact .inl hold
      · exact .inr (congrArg Prod.snd (List.mem_singleton.mp hnew))
  | _ => exact .inl hf

theorem created_record {h : History} {q : TimerQueue} {a : Action} {n : Nat} {when : Int}
    {interval : Interval} (hn : (record h q a).created n = some (when, interval)) :
    h.created n = some (when, interval) ∨ ∃ timer, a = .create timer when interval := by
  cases a with
  | create timer w i =>
    by_cases hnew : n = q.numCreated
    · subst hnew
      cases (Function.update_self _ _ _).symm.trans hn
      exact .inr ⟨timer, rfl⟩
    · exact .inl ((Function.update_of_ne hnew _ _).symm.trans hn)
  | run =>
    rcases record_run_cases h q with heq | ⟨_, heq⟩
    · exact .inl (heq ▸ hn)
    · rw [heq] at hn
      exact .inl hn
  | _ => exact .inl hn

def step (s : Timed) (a : Action) : Option (Except Fault Timed) :=
  (Timers.step s.queue a).map fun m => do
    let q ← m
    pure ⟨q, record s.history q a⟩

def Started (s : Timed) : Prop := Timers.Started s.queue ∧ s.history = ⟨fun _ => none, []⟩

/-- The timers whose callback has been started by the running `handleRead`. -/
def ran (q : TimerQueue) : List Nat := q.batch.elim [] fun b => b.ran.map Entry.timer

/-- The invariant: a live timer that has been served in the running batch was due then, any other
one is due at its expiration, and what is to come in the batch has expired. -/
structure Paced (s : Timed) : Prop where
  good : Good s.queue
  due : ∀ a t, s.queue.heap a = some t → a ∉ ran s.queue → s.history.Due t t.expiration
  served : ∀ b, s.queue.batch = some b → ∀ e ∈ b.ran, ∀ t, s.queue.heap e.timer = some t →
    s.history.Served t b.now
  expired : ∀ b, s.queue.batch = some b →
    ∀ e ∈ b.todo, ∀ t, s.queue.heap e.timer = some t → t.expiration ≤ b.now
  unused : ∀ n, s.queue.numCreated < n → s.history.created n = none ∧ s.history.times n = []

/-- What holds too while the clock is not set back: a batch began before now, and every callback was
started on schedule. -/
structure OnTime (s : Timed) : Prop where
  began : ∀ b, s.queue.batch = some b → b.now ≤ s.queue.clock
  starts : ∀ n when interval, s.history.created n = some (when, interval) →
    History.OnSchedule when interval (s.history.times n)

variable {s : Timed} {q : TimerQueue}

theorem Started.paced (h : Started s) : Paced s := by
  obtain ⟨hq, hhistory⟩ := h
  have hgood := hq.good
  obtain ⟨clock, -, hq⟩ := hq
  refine ⟨hgood, fun a t ht => ?_, fun b hb => ?_, fun b hb => ?_, fun n _ => ?_⟩
  · rw [hq] at ht
    cases ht
  · rw [hq] at hb
    cases hb
  · rw [hq] at hb
    cases hb
  · rw [hhistory]
    exact ⟨rfl, rfl⟩

theorem Started.onTime (h : Started s) : OnTime s := by
  obtain ⟨⟨clock, -, hq⟩, hhistory⟩ := h
  refine ⟨fun b hb => ?_, fun n when interval hn => ?_⟩
  · rw [hq] at hb
    cases hb
  · rw [hhistory] at hn
    cases hn

/-- A step that starts no callback and creates no timer. -/
theorem Paced.quiet (h : Paced s) (hgood : Good q) (hbatch : q.batch = s.queue.batch)
    (hheap : ∀ a t, q.heap a = some t → s.queue.heap a = some t)
    (hnum : q.numCreated = s.queue.numCreated) : Paced ⟨q, s.history⟩ := by
  refine ⟨hgood, fun a t ht ha => h.due a t (hheap a t ht) ?_, ?_, ?_, ?_⟩
  · rwa [ran, ← hbatch]
  · intro b hb e he t ht
    exact h.served b (hbatch ▸ hb) e he t (hheap _ t ht)
  · intro b hb e he t ht
    exact h.expired b (hbatch ▸ hb) e he t (hheap _ t ht)
  · intro n hn
    exact h.unused n (hnum ▸ hn)

theorem OnTime.quiet (h : OnTime s) (hbatch : q.batch = s.queue.batch)
    (hclock : s.queue.clock ≤ q.clock) : OnTime ⟨q, s.history⟩ :=
  ⟨fun b hb => (h.began b (hbatch ▸ hb)).trans hclock, h.starts⟩

theorem Paced.create {timer : Nat} {when : Int} {interval : Interval} (h : Paced s)
    (hdead : s.queue.heap timer = none)
    (hgood : Good { s.queue with
      heap := Function.update s.queue.heap timer (some ⟨when, interval, s.queue.numCreated + 1⟩)
      numCreated := s.queue.numCreated + 1
      queued := insert timer s.queue.queued }) :
    Paced ⟨{ s.queue with
      heap := Function.update s.queue.heap timer (some ⟨when, interval, s.queue.numCreated + 1⟩)
      numCreated := s.queue.numCreated + 1
      queued := insert timer s.queue.queued },
      s.history.create (s.queue.numCreated + 1) when interval⟩ := by
  have hnew := h.unused (s.queue.numCreated + 1) (Nat.lt_succ_self _)
  -- The sequence number of a live timer is an older one.
  have hold : ∀ a t, s.queue.heap a = some t → t.sequence ≠ s.queue.numCreated + 1 := by
    intro a t ht
    have hle := h.good.inv.numbered.sequence_le a t ht
    omega
  have hne : ∀ {a t}, s.queue.heap a = some t → a ≠ timer := by
    rintro a t ht rfl
    rw [hdead] at ht
    cases ht
  have hheap : ∀ {a t}, a ≠ timer → Function.update s.queue.heap timer
      (some ⟨when, interval, s.queue.numCreated + 1⟩) a = some t → s.queue.heap a = some t := by
    intro a t ha ht
    rwa [Function.update_of_ne ha] at ht
  have hbatch : ∀ {e : Entry} {b : Batch}, s.queue.batch = some b → e ∈ b.ran ++ b.todo →
      e.timer ≠ timer := by
    intro e b hb he
    have hmem : e.timer ∈ s.queue.batchTimers := by
      rw [TimerQueue.batchTimers, hb, Option.elim_some]
      exact List.mem_map_of_mem he
    obtain ⟨t, ht⟩ := h.good.inv.owned.held_live _ hmem
    exact hne ht
  refine ⟨hgood, fun a t ht ha => ?_, fun b hb e he t ht => ?_, fun b hb e he t ht => ?_,
    fun n hn => ?_⟩
  · by_cases hat : a = timer
    · subst hat
      have ht : Function.update s.queue.heap a
          (some ⟨when, interval, s.queue.numCreated + 1⟩) a = some t := ht
      rw [Function.update_self] at ht
      cases ht
      refine ⟨when, Function.update_self .., ?_, fun _ => hnew.2⟩
      show when + ((s.history.times (s.queue.numCreated + 1)).length : Int) * _ ≤ when
      rw [hnew.2, List.length_nil]
      simp
    · have ht' := hheap hat ht
      exact (h.due a t ht' ha).of_create_ne (hold a t ht')
  · have ht' := hheap (hbatch hb (List.mem_append_left _ he)) ht
    exact (h.served b hb e he t ht').of_create_ne (hold _ t ht')
  · exact h.expired b hb e he t (hheap (hbatch hb (List.mem_append_right _ he)) ht)
  · have hn : s.queue.numCreated + 1 < n := hn
    have hold := h.unused n (by omega)
    refine ⟨?_, hold.2⟩
    show Function.update s.history.created (s.queue.numCreated + 1) _ n = none
    rw [Function.update_of_ne (by omega)]
    exact hold.1

theorem OnTime.create {when : Int} {interval : Interval} (h : OnTime s) (hp : Paced s)
    (hbatch : q.batch = s.queue.batch) (hclock : q.clock = s.queue.clock) :
    OnTime ⟨q, s.history.create (s.queue.numCreated + 1) when interval⟩ := by
  refine ⟨fun b hb => (h.began b (hbatch ▸ hb)).trans hclock.ge, fun n w i hn => ?_⟩
  by_cases hnn : n = s.queue.numCreated + 1
  · subst hnn
    show History.OnSchedule w i (s.history.times _)
    rw [(hp.unused _ (Nat.lt_succ_self _)).2]
    refine ⟨fun k x hx => ?_, fun _ => Nat.zero_le _⟩
    cases hx
  · have hcreated : s.history.created n = some (w, i) := by
      rw [← hn]
      exact (Function.update_of_ne hnn _ _).symm
    exact h.starts n w i hcreated

theorem Paced.handleRead {activeTimers : OrderedSet ActiveTimer} (h : Paced s)
    (hb : s.queue.batch = none) (hgood : Good (s.queue.expiring activeTimers)) :
    Paced ⟨s.queue.expiring activeTimers, s.history⟩ := by
  refine ⟨hgood, fun a t ht _ => h.due a t ht ?_, fun b hb' e he => ?_, fun b hb' e he t ht => ?_,
    h.unused⟩
  · rw [ran, hb]
    exact List.not_mem_nil
  · cases hb'
    cases he
  · cases hb'
    obtain ⟨hmem, hlt⟩ := OrderedSet.mem_below.mp he
    obtain ⟨u, hu, hexp⟩ := h.good.inv.sets.live e (.inl hmem)
    have htu : t = u := Option.some.inj (ht.symm.trans hu)
    rw [htu, hexp]
    rcases Entry.lt_iff.mp hlt with hlt | ⟨heq, -⟩
    · exact hlt.le
    · exact heq.le

/-- The timer whose turn it is in the batch. -/
theorem Paced.due_head {now : Int} {before todo : List Entry} {e : Entry} {t : Timer}
    (h : Paced s) (hb : s.queue.batch = some ⟨now, before, e :: todo⟩)
    (ht : s.queue.heap e.timer = some t) : s.history.Due t now := by
  -- A timer is in the batch once.
  have hnodup := h.good.inv.owned.held_nodup
  rw [TimerQueue.batchTimers, hb, Option.elim_some, List.map_append, List.map_cons] at hnodup
  have hnot : e.timer ∉ before.map Entry.timer := fun hmem =>
    (List.nodup_append.mp hnodup).2.2 _ hmem _ List.mem_cons_self rfl
  have hdue := h.due e.timer t ht (by rwa [ran, hb])
  exact hdue.mono (h.expired _ hb e List.mem_cons_self t ht)

theorem Paced.run {now : Int} {before todo : List Entry} {e : Entry} {t : Timer} (h : Paced s)
    (hb : s.queue.batch = some ⟨now, before, e :: todo⟩) (ht : s.queue.heap e.timer = some t)
    (hgood : Good { s.queue with
      started := ⟨e.timer, t.sequence⟩ :: s.queue.started
      batch := some ⟨now, before ++ [e], todo⟩ }) :
    Paced ⟨{ s.queue with
      started := ⟨e.timer, t.sequence⟩ :: s.queue.started
      batch := some ⟨now, before ++ [e], todo⟩ }, s.history.fire t.sequence s.queue.clock⟩ := by
  have hother : ∀ a u, s.queue.heap a = some u → a ≠ e.timer → t.sequence ≠ u.sequence :=
    fun a u hu ha hseq => ha (h.good.inv.numbered.sequence_inj a e.timer u t hu ht hseq.symm)
  refine ⟨hgood, fun a u hu ha => ?_, fun b hb' e' he' u hu => ?_, fun b hb' e' he' => ?_,
    fun n hn => ?_⟩
  · have ha : a ∉ (before ++ [e]).map Entry.timer := ha
    rw [List.map_append, List.mem_append, not_or] at ha
    have hne : a ≠ e.timer := fun heq => ha.2 (by simp [heq])
    exact (h.due a u hu (by rw [ran, hb]; exact ha.1)).of_fire_ne (hother a u hu hne)
  · cases hb'
    by_cases hsame : e'.timer = e.timer
    · have hut : u = t := Option.some.inj (hu.symm.trans (hsame ▸ ht))
      rw [hut]
      exact (h.due_head hb ht).fire
    · have hbefore : e' ∈ before := by
        rcases List.mem_append.mp he' with he' | he'
        · exact he'
        · exact absurd (congrArg Entry.timer (List.mem_singleton.mp he')) hsame
      exact (h.served _ hb e' hbefore u hu).of_fire_ne (hother _ u hu hsame)
  · cases hb'
    exact h.expired _ hb e' (List.mem_cons_of_mem _ he')
  · have hseq : t.sequence ≠ n := by
      have hle := h.good.inv.numbered.sequence_le e.timer t ht
      have hn : s.queue.numCreated < n := hn
      omega
    refine ⟨(h.unused n hn).1, ?_⟩
    show History.times _ _ = []
    rw [History.times_fire_of_ne _ hseq]
    exact (h.unused n hn).2

theorem OnTime.run {now : Int} {before todo : List Entry} {e : Entry} {t : Timer} (h : OnTime s)
    (hp : Paced s) (hb : s.queue.batch = some ⟨now, before, e :: todo⟩)
    (ht : s.queue.heap e.timer = some t) :
    OnTime ⟨{ s.queue with
      started := ⟨e.timer, t.sequence⟩ :: s.queue.started
      batch := some ⟨now, before ++ [e], todo⟩ }, s.history.fire t.sequence s.queue.clock⟩ := by
  have hnow : now ≤ s.queue.clock := h.began _ hb
  refine ⟨fun b hb' => ?_, fun n when interval hn => ?_⟩
  · cases hb'
    exact hnow
  · have hn : s.history.created n = some (when, interval) := hn
    show History.OnSchedule _ _ (History.times _ _)
    by_cases hseq : t.sequence = n
    · subst hseq
      obtain ⟨w, hw, hle, honce⟩ := hp.due_head hb ht
      rw [hw] at hn
      cases hn
      rw [History.times_fire_self]
      exact (h.starts _ _ _ hw).snoc (hle.trans hnow) honce
    · rw [History.times_fire_of_ne _ hseq]
      exact h.starts n when interval hn

/-- What the turns of `reset` keep: the timers whose turn is still to come have been served, and the
others are due at their expirations. -/
structure Resetting (h : History) (now : Int) (numCreated : Nat) (q : TimerQueue)
    (rest : List Entry) : Prop where
  due : ∀ a t, q.heap a = some t → a ∉ rest.map Entry.timer → h.Due t t.expiration
  served : ∀ e ∈ rest, ∀ t, q.heap e.timer = some t → h.Served t now
  num : q.numCreated = numCreated

theorem Resetting.restarted {h : History} {now : Int} {n : Nat} {e : Entry} {rest : List Entry}
    {t : Timer} (hr : Resetting h now n q (e :: rest)) (hinv : Inv q (e.timer :: rest.map Entry.timer))
    (ht : q.heap e.timer = some t) (hrepeats : t.repeats = true) :
    Resetting h now n (q.restarted e.timer t now) rest := by
  have hnot : e.timer ∉ rest.map Entry.timer := (List.nodup_cons.mp hinv.owned.held_nodup).1
  refine ⟨fun a u hu ha => ?_, fun e' he' u hu => ?_, hr.num⟩
  · by_cases hae : a = e.timer
    · subst hae
      have hu : Function.update q.heap e.timer (some (t.restart now)) e.timer = some u := hu
      rw [Function.update_self] at hu
      cases hu
      exact (hr.served e List.mem_cons_self t ht).restart hrepeats
    · have hu : Function.update q.heap e.timer (some (t.restart now)) a = some u := hu
      rw [Function.update_of_ne hae] at hu
      refine hr.due a u hu ?_
      rw [List.map_cons, List.mem_cons, not_or]
      exact ⟨hae, ha⟩
  · have hne : e'.timer ≠ e.timer := fun heq => hnot (heq ▸ List.mem_map_of_mem he')
    have hu : Function.update q.heap e.timer (some (t.restart now)) e'.timer = some u := hu
    rw [Function.update_of_ne hne] at hu
    exact hr.served e' (List.mem_cons_of_mem _ he') u hu

theorem Resetting.dropped {h : History} {now : Int} {n : Nat} {e : Entry} {rest : List Entry}
    {t : Timer} (hr : Resetting h now n q (e :: rest)) :
    Resetting h now n (q.dropped e.timer t) rest := by
  have hheap : ∀ {a u}, (q.dropped e.timer t).heap a = some u → a ≠ e.timer ∧ q.heap a = some u := by
    intro a u hu
    have hu : Function.update q.heap e.timer none a = some u := hu
    by_cases hae : a = e.timer
    · subst hae
      rw [Function.update_self] at hu
      cases hu
    · rw [Function.update_of_ne hae] at hu
      exact ⟨hae, hu⟩
  refine ⟨fun a u hu ha => ?_, fun e' he' u hu => ?_, hr.num⟩
  · obtain ⟨hae, hu⟩ := hheap hu
    refine hr.due a u hu ?_
    rw [List.map_cons, List.mem_cons, not_or]
    exact ⟨hae, ha⟩
  · exact hr.served e' (List.mem_cons_of_mem _ he') u (hheap hu).2

theorem Paced.finish {now : Int} {before : List Entry} {q' : TimerQueue} (h : Paced s)
    (hb : s.queue.batch = some ⟨now, before, []⟩)
    (hreset : { s.queue with callingExpiredTimers := false }.reset before now = .ok q')
    (hgood : Good { q' with batch := none }) : Paced ⟨{ q' with batch := none }, s.history⟩ := by
  have hbegin : Resetting s.history now s.queue.numCreated
      { s.queue with callingExpiredTimers := false } before := by
    refine ⟨fun a t ht ha => h.due a t ht ?_, h.served _ hb, rfl⟩
    rwa [ran, hb]
  obtain ⟨u, hu, -, hend⟩ := (h.good.beforeReset hb).reset_eq now
    (R := Resetting s.history now s.queue.numCreated)
    (fun _ _ _ _ hinv ht hr hc => hr.restarted hinv ht hc.1)
    (fun _ _ _ _ _ _ hr _ => hr.dropped) hbegin
  have hq' : q' = u.rearmed := Except.ok.inj (hreset.symm.trans hu)
  subst hq'
  refine ⟨hgood, fun a t ht _ => hend.due a t ht List.not_mem_nil, ?_, ?_, ?_⟩
  · intro b hb'
    cases hb'
  · intro b hb'
    cases hb'
  · intro n hn
    have hn : u.numCreated < n := hn
    rw [hend.num] at hn
    exact h.unused n hn

theorem Paced.next {a : Action} (h : Paced s) (hn : Next s.queue a q) (hgood : Good q) :
    Paced ⟨q, record s.history q a⟩ := by
  cases hn with
  | tick => exact h.quiet hgood rfl (fun _ _ ht => ht) rfl
  | create hdead => exact h.create hdead hgood
  | add hmem ht => exact h.quiet hgood rfl (fun _ _ ht => ht) rfl
  | @cancel timerId t ht hseq hmem =>
    refine h.quiet hgood rfl (fun a u hu => ?_) rfl
    have hu : Function.update s.queue.heap timerId.timer none a = some u := hu
    by_cases ha : a = timerId.timer
    · subst ha
      rw [Function.update_self] at hu
      cases hu
    · rwa [Function.update_of_ne ha] at hu
  | note hid => exact h.quiet hgood rfl (fun _ _ ht => ht) rfl
  | handleRead hb => exact h.handleRead hb hgood
  | run hb ht => exact h.run hb ht hgood
  | finish hb hreset => exact h.finish hb hreset hgood

theorem kept_of_reset {q' : TimerQueue} {now : Int} {before : List Entry} (hgood : Good q)
    (hb : q.batch = some ⟨now, before, []⟩)
    (hreset : { q with callingExpiredTimers := false }.reset before now = .ok q') :
    q'.clock = q.clock ∧ q'.numCreated = q.numCreated := by
  obtain ⟨u, hu, -, hkept⟩ := (hgood.beforeReset hb).reset_eq now
    (R := fun u _ => u.clock = q.clock ∧ u.numCreated = q.numCreated)
    (fun _ _ _ _ _ _ hR _ => hR) (fun _ _ _ _ _ _ hR _ => hR) ⟨rfl, rfl⟩
  cases hreset.symm.trans hu
  exact hkept

theorem clock_le_of_next {q' : TimerQueue} {a : Action} (hgood : Good q) (hn : Next q a q')
    (ha : NotSetBack q a) : q.clock ≤ q'.clock := by
  cases hn with
  | tick => exact ha
  | create _ => exact le_rfl
  | add _ _ => exact le_rfl
  | cancel _ _ _ => exact le_rfl
  | note _ => exact le_rfl
  | handleRead _ => exact le_rfl
  | run _ _ => exact le_rfl
  | finish hb hreset => exact (kept_of_reset hgood hb hreset).1.ge

/-- Only a creation is counted. -/
theorem numCreated_of_next {q' : TimerQueue} {a : Action} (hgood : Good q) (hn : Next q a q')
    (ha : ∀ timer when interval, a ≠ .create timer when interval) :
    q'.numCreated = q.numCreated := by
  cases hn with
  | tick => rfl
  | create _ => exact absurd rfl (ha _ _ _)
  | add _ _ => rfl
  | cancel _ _ _ => rfl
  | note _ => rfl
  | handleRead _ => rfl
  | run _ _ => rfl
  | finish hb hreset => exact (kept_of_reset hgood hb hreset).2

theorem OnTime.next {a : Action} (h : OnTime s) (hp : Paced s) (ha : NotSetBack s.queue a)
    (hn : Next s.queue a q) : OnTime ⟨q, record s.history q a⟩ := by
  have hclock := clock_le_of_next hp.good hn ha
  cases hn with
  | tick => exact h.quiet rfl hclock
  | create _ => exact h.create hp rfl rfl
  | add _ _ => exact h.quiet rfl hclock
  | cancel _ _ _ => exact h.quiet rfl hclock
  | note _ => exact h.quiet rfl hclock
  | handleRead _ =>
    refine ⟨fun b hb => ?_, h.starts⟩
    cases hb
    exact le_rfl
  | run hb ht => exact h.run hp hb ht
  | finish _ _ =>
    refine ⟨fun b hb => ?_, h.starts⟩
    cases hb

/-- A timer that was started has been created. -/
theorem Paced.fired_le (h : Paced s) {f : Nat × Int} (hf : f ∈ s.history.fired) :
    f.1 ≤ s.queue.numCreated := by
  by_contra hlt
  have htimes := (h.unused f.1 (not_le.mp hlt)).2
  have hmem : f.2 ∈ s.history.times f.1 :=
    List.mem_map_of_mem (List.mem_filter.mpr ⟨hf, decide_eq_true rfl⟩)
  rw [htimes] at hmem
  cases hmem

theorem Paced.next_of_step {a : Action} {m : Except Fault Timed} (h : Paced s)
    (hstep : s.step a = some m) : ∃ q, m = .ok ⟨q, record s.history q a⟩ ∧ Next s.queue a q ∧
      Paced ⟨q, record s.history q a⟩ := by
  obtain ⟨r, hr, rfl⟩ := Option.map_eq_some_iff.mp hstep
  obtain ⟨q, rfl, hnext, hgood⟩ := h.good.next hr
  exact ⟨q, rfl, hnext, h.next hnext hgood⟩

/-- In every run in which the clock is not set back, the callback of a timer is started for the
`k`-th time (counted from zero) no earlier than `k` intervals after the time for which it was added,
and a timer without an interval is started at most once. -/
theorem timer_never_early (p : Except Fault Timed)
    (h : Run step (fun s a => NotSetBack s.queue a) Started p) :
    ∃ s, p = .ok s ∧ ∀ n when interval, s.history.created n = some (when, interval) →
      (∀ (k : Nat) (x : Int), (s.history.times n)[k]? = some x →
        when + k * interval.micros ≤ x) ∧
      (interval.positive = false → (s.history.times n).length ≤ 1) := by
  have hstep : ∀ s a m, Paced s ∧ OnTime s → NotSetBack s.queue a → s.step a = some m →
      ∃ s', m = .ok s' ∧ Paced s' ∧ OnTime s' := by
    rintro s a m ⟨hs, htime⟩ ha hm
    obtain ⟨q, rfl, hnext, hq⟩ := hs.next_of_step hm
    exact ⟨_, rfl, hq, htime.next hs ha hnext⟩
  obtain ⟨s, rfl, -, htime⟩ :=
    h.safe (I := fun s => Paced s ∧ OnTime s) (fun s hs => ⟨hs.paced, hs.onTime⟩) hstep
  refine ⟨s, rfl, fun n when interval hn => ?_⟩
  have hschedule := htime.starts n when interval hn
  exact ⟨hschedule.le, hschedule.once⟩

/-- A timer for 2000 with an interval of 700 is served late, and then again. -/
theorem timer_never_early_twice : ∃ s : Timed, s.history.times 1 = [2500, 3300] ∧
    ∀ (k : Nat) (x : Int), (s.history.times 1)[k]? = some x → 2000 + (k : Int) * 700 ≤ x := by
  have hrun : seen (exec (faulting (restrict (fun s a => NotSetBack s.queue a) step))
      (.ok ⟨.initial 1000, ⟨fun _ => none, []⟩⟩)
      [.create 16 2000 ⟨true, 700, by decide⟩, .addTimerInLoop 16, .tick 2500, .handleRead, .run,
        .finish, .tick 3300, .handleRead, .run, .finish])
      (fun s => decide (s.history.times 1 = [2500, 3300]) &&
        decide (s.history.created 1 = some (2000, ⟨true, 700, by decide⟩))) = true := by
    decide +kernel
  obtain ⟨s, hs, hcheck⟩ := exists_of_seen hrun
  simp only [Bool.and_eq_true, decide_eq_true_eq] at hcheck
  obtain ⟨s', hs', hall⟩ := timer_never_early (.ok s)
    (Run.exec _ (.start ⟨⟨1000, by decide, rfl⟩, rfl⟩) hs)
  cases hs'
  exact ⟨s, hcheck.1, (hall 1 2000 _ hcheck.2).1⟩

end Timed

end DbdkyGcc.Timers
