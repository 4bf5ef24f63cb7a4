import DbdkyGcc.Timers.Consistent

/-!
# The timerfd is armed while timers are pending

The timerfd is set by `addTimerInLoop`, when the earliest expiration changes, and at the end of
`reset`. Between the two a batch is running and only the timers that callbacks add may be due at
once: a timer whose expiration is invalid is not armed for by `reset`, and had to be armed for
when it was added. The wall clock must not be set back: the timerfd counts from when it was set.
-/

namespace DbdkyGcc.Timers

open Foundations

variable {q q' : TimerQueue} {e : Entry}

/-- The delay that the timerfd is set to is the time to go, but at least 100 microseconds. -/
theorem resetTimerfd_timerfd (q : TimerQueue) (expiration : Int) :
    (q.resetTimerfd expiration).timerfd =
      some ⟨q.clock, max expiration (q.clock + 100)⟩ := by
  obtain ⟨m, hm⟩ : ∃ m, m = if expiration - q.clock < 100 then 100 else expiration - q.clock :=
    ⟨_, rfl⟩
  have hmax : q.clock + m = max expiration (q.clock + 100) := by
    rw [hm]
    split
    · omega
    · omega
  have hpos : 100 ≤ m := by
    rw [hm]
    split
    · omega
    · omega
  have hmicros : m / 1000000 * 1000000 + m % 1000000 * 1000 / 1000 = m := by omega
  have hnonzero : (⟨m / 1000000, m % 1000000 * 1000⟩ : Timespec) ≠ ⟨0, 0⟩ := by
    intro heq
    injection heq with hsec hnsec
    omega
  simp only [TimerQueue.resetTimerfd, TimerQueue.timerfdSettime, howMuchTimeFromNow, ← hm,
    if_neg hnonzero, hmicros, hmax]

/-- The timerfd fires in time for the expiration of an entry, or 100 microseconds after it was
set. -/
def ArmedFor (q : TimerQueue) (expiration : Int) : Prop :=
  ∃ arming, q.timerfd = some arming ∧ arming.settime ≤ q.clock ∧
    arming.deadline ≤ max expiration (arming.settime + 100)

theorem ArmedFor.mono {x y : Int} (h : ArmedFor q x) (hxy : x ≤ y) : ArmedFor q y := by
  obtain ⟨arming, harming, hset, hle⟩ := h
  exact ⟨arming, harming, hset, hle.trans (max_le_max_right _ hxy)⟩

theorem armedFor_of_reset (expiration : Int)
    (h : q.timerfd = some ⟨q.clock, max expiration (q.clock + 100)⟩) : ArmedFor q expiration :=
  ⟨_, h, le_rfl, le_rfl⟩

/-- The invariant of the timerfd. While a batch is running only invalid expirations are armed
for. -/
structure Armed (q : TimerQueue) : Prop where
  clock_pos : 0 < q.clock
  now_pos : ∀ b, q.batch = some b → 0 < b.now
  armed : ∀ e ∈ q.timers, q.batch = none ∨ e.expiration ≤ 0 → ArmedFor q e.expiration

theorem expiration_le_of_first {timers : OrderedSet Entry} {f : Entry} (hf : timers.first = some f)
    (he : e ∈ timers) : f.expiration ≤ e.expiration := by
  rcases Entry.le_iff.mp (OrderedSet.first_le hf he) with hlt | ⟨heq, -⟩
  · exact hlt.le
  · exact heq.le

/-- A new earliest timer sets the timerfd; any other is behind one that is armed for. -/
theorem Armed.add {timer : Nat} {t : Timer} (h : Armed q) :
    Armed { q.inserted timer t with
      queued := q.queued.erase timer
      timerfd :=
        if q.timers.first.all fun e => t.expiration < e.expiration
        then (q.resetTimerfd t.expiration).timerfd else q.timerfd } := by
  refine ⟨h.clock_pos, h.now_pos, fun e he hcond => ?_⟩
  have he := OrderedSet.mem_insert.mp he
  by_cases hc : (q.timers.first.all fun e => t.expiration < e.expiration) = true
  · have hnew : t.expiration ≤ e.expiration := by
      rcases he with rfl | he
      · exact le_rfl
      · cases hf : q.timers.first with
        | none => exact absurd he (OrderedSet.first_eq_none_iff.mp hf e)
        | some f =>
          rw [hf, Option.all_some, decide_eq_true_eq] at hc
          exact hc.le.trans (expiration_le_of_first hf he)
    refine ArmedFor.mono (armedFor_of_reset _ ?_) hnew
    rw [if_pos hc, resetTimerfd_timerfd]
    rfl
  · rw [if_neg hc]
    rcases he with rfl | he
    · obtain ⟨f, hf, hle⟩ : ∃ f, q.timers.first = some f ∧ f.expiration ≤ t.expiration := by
        cases hf : q.timers.first with
        | none => exact absurd (by rw [hf]; rfl) hc
        | some f =>
          rw [hf, Option.all_some, decide_eq_true_eq, not_lt] at hc
          exact ⟨f, rfl, hc⟩
      refine (h.armed f (OrderedSet.mem_of_first hf) ?_).mono hle
      exact hcond.imp_right hle.trans
    · exact h.armed e he hcond

/-- The end of `reset` arms for the earliest timer. An invalid one was added by a callback, which
has armed for it. -/
theorem ArmedFor.rearmed (h : ∀ e ∈ q.timers, e.expiration ≤ 0 → ArmedFor q e.expiration)
    (he : e ∈ q.timers) : ArmedFor q.rearmed e.expiration := by
  cases hf : q.timers.first with
  | none => exact absurd he (OrderedSet.first_eq_none_iff.mp hf e)
  | some f =>
    have hle := expiration_le_of_first hf he
    by_cases hpos : 0 < f.expiration
    · refine ArmedFor.mono (armedFor_of_reset _ ?_) hle
      rw [TimerQueue.rearmed, hf, Option.elim_some, if_pos hpos, resetTimerfd_timerfd]
    · obtain ⟨arming, harming, hrest⟩ :=
        (h f (OrderedSet.mem_of_first hf) (not_lt.mp hpos)).mono hle
      refine ⟨arming, ?_, hrest⟩
      rw [TimerQueue.rearmed, hf, Option.elim_some, if_neg hpos]
      exact harming

theorem Armed.next {a : Action} (h : Armed q) (hq : Good q) (ha : NotSetBack q a)
    (hn : Next q a q') : Armed q' := by
  cases hn with
  | tick =>
    have hclock : q.clock ≤ _ := ha
    refine ⟨h.clock_pos.trans_le hclock, h.now_pos, fun e he hcond => ?_⟩
    obtain ⟨arming, harming, hset, hle⟩ := h.armed e he hcond
    exact ⟨arming, harming, hset.trans hclock, hle⟩
  | create _ => exact ⟨h.clock_pos, h.now_pos, h.armed⟩
  | add _ _ => exact h.add
  | cancel _ _ _ =>
    refine ⟨h.clock_pos, h.now_pos, fun e he hcond => ?_⟩
    exact h.armed e (OrderedSet.mem_erase.mp he).2 hcond
  | note _ => exact ⟨h.clock_pos, h.now_pos, h.armed⟩
  | handleRead hb =>
    refine ⟨h.clock_pos, fun b hb' => ?_, fun e he hcond => ?_⟩
    · cases hb'
      exact h.clock_pos
    · -- what is left in the set expires later than now
      have hlater := (getExpired_eq hq.inv.sets hq.inv.numbered.address_lt q.clock).1 e he
      have hle : e.expiration ≤ 0 := hcond.resolve_left (by rintro ⟨⟩)
      exact absurd (h.clock_pos.trans hlater) hle.not_gt
  | run hb _ =>
    refine ⟨h.clock_pos, fun b hb' => ?_, fun e he hcond => ?_⟩
    · cases hb'
      have hnow := h.now_pos _ hb
      exact hnow
    · exact h.armed e he (.inr (hcond.resolve_left (by rintro ⟨⟩)))
  | @finish now ran q' hb hreset =>
    have hnow : 0 < now := h.now_pos _ hb
    -- reset only puts back timers that expire after the batch was taken
    have hkeep : ∀ u : TimerQueue, ∀ e : Entry, ∀ t : Timer, t.repeats = true →
        (∀ e ∈ u.timers, e.expiration ≤ 0 → e ∈ q.timers) →
        ∀ e' ∈ (u.restarted e.timer t now).timers, e'.expiration ≤ 0 → e' ∈ q.timers := by
      intro u e t hrep hold e' he' hle
      rcases OrderedSet.mem_insert.mp he' with rfl | he'
      · have hmicros := t.interval.micros_nonneg hrep
        rw [Timer.restart, if_pos hrep] at hle
        dsimp only at hle
        omega
      · exact hold e' he' hle
    obtain ⟨u, hu, -, hold, hfd, hclock⟩ := (hq.beforeReset hb).reset_eq now
      (R := fun u _ => (∀ e ∈ u.timers, e.expiration ≤ 0 → e ∈ q.timers) ∧
        u.timerfd = q.timerfd ∧ u.clock = q.clock)
      (fun u e _ t _ _ hR hc => ⟨hkeep u e t hc.1 hR.1, hR.2⟩) (fun _ _ _ _ _ _ hR _ => hR)
      ⟨fun e he _ => he, rfl, rfl⟩
    cases hreset.symm.trans hu
    refine ⟨?_, fun b hb' => ?_, fun e he _ => ?_⟩
    · exact hclock ▸ h.clock_pos
    · cases hb'
    · refine ArmedFor.rearmed (fun e he hle => ?_) he
      obtain ⟨arming, harming, hset, hle⟩ := h.armed e (hold e he hle) (.inr hle)
      exact ⟨arming, hfd ▸ harming, hclock ▸ hset, hle⟩

theorem Started.armed (h : Started q) : Armed q := by
  obtain ⟨clock, hclock, rfl⟩ := h
  refine ⟨hclock, fun b hb => ?_, fun e he => absurd he (OrderedSet.not_mem_empty e)⟩
  cases hb

/-- When the clock is not set back: outside `handleRead`, as long as a timer is pending, the timerfd
is set to fire no later than the earliest expiration, or 100 microseconds after it was set. -/
theorem timerfd_armed {p : Except Fault TimerQueue} (h : Run step NotSetBack Started p) :
    ∃ q, p = .ok q ∧ (q.batch = none → ∀ e, q.timers.first = some e →
      ∃ arming, q.timerfd = some arming ∧ arming.settime ≤ q.clock ∧
        arming.deadline ≤ max e.expiration (arming.settime + 100)) := by
  have hstep : ∀ q a m, Good q ∧ Armed q → NotSetBack q a → step q a = some m →
      ∃ q', m = .ok q' ∧ Good q' ∧ Armed q' := by
    rintro q a m ⟨hq, harmed⟩ ha hstep
    obtain ⟨q', hm, hnext, hq'⟩ := hq.next hstep
    exact ⟨q', hm, hq', harmed.next hq ha hnext⟩
  obtain ⟨q, rfl, hq, harmed⟩ :=
    h.safe (I := fun q => Good q ∧ Armed q) (fun q hq => ⟨hq.good, hq.armed⟩) hstep
  exact ⟨q, rfl, fun hb e he => harmed.armed e (OrderedSet.mem_of_first he) (.inl hb)⟩

/-- A periodic timer and a later one, after the first batch: armed for the next turn of the
periodic one. -/
theorem timerfd_armed_after_batch : ∃ q e,
    exec (faulting (restrict NotSetBack step)) (.ok (.initial 1000))
      [.create 16 2000 ⟨true, 700, by decide⟩, .addTimerInLoop 16,
        .create 32 9000 ⟨false, 0, by decide⟩, .addTimerInLoop 32, .tick 3000, .handleRead, .run,
        .finish] = some (.ok q) ∧ q.timers.first = some e ∧ e.expiration = 3700 ∧
    ∃ arming, q.timerfd = some arming ∧ arming.deadline ≤ max 3700 (arming.settime + 100) := by
  obtain ⟨q, hq, hcheck⟩ := exists_of_seen (show seen
      (exec (faulting (restrict NotSetBack step)) (.ok (.initial 1000))
        [.create 16 2000 ⟨true, 700, by decide⟩, .addTimerInLoop 16,
          .create 32 9000 ⟨false, 0, by decide⟩, .addTimerInLoop 32, .tick 3000, .handleRead, .run,
          .finish]) (fun q => q.batch = none ∧ q.timers.first = some ⟨3700, 16⟩) = true by
    decide +kernel)
  obtain ⟨hb, hfirst⟩ := of_decide_eq_true hcheck
  obtain ⟨_, hok, harmed⟩ := timerfd_armed (Run.exec _ (.start ⟨1000, by decide, rfl⟩) hq)
  cases hok
  obtain ⟨arming, harming, -, hle⟩ := harmed hb _ hfirst
  exact ⟨q, _, hq, hfirst, rfl, arming, harming, hle⟩

end DbdkyGcc.Timers
