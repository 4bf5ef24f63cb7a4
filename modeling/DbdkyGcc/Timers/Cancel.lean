import DbdkyGcc.Timers.Consistent

/-!
# When a cancelled timer stays quiet

`cancelInLoop` deletes a timer that is in the two sets, and takes a note of one that is in a
batch. The note is read by `reset` only: a timer of the batch whose turn has not come is run all
the same. Nor is there anything to delete while the insertion of a timer is still on its way to
the loop. A cancel that comes at any other moment is final.
-/

namespace DbdkyGcc.Timers

open Foundations

variable {q q' : TimerQueue} {id : ActiveTimer}

/-- The callback of the timer is still ahead although it is in neither set: its insertion is on
its way to the loop, or its turn in the batch is still to come. -/
def TimerQueue.waits (q : TimerQueue) (id : ActiveTimer) : Prop :=
  Names q.heap id ∧
    (id.timer ∈ q.queued ∨ id.timer ∈ q.batch.elim [] fun b => b.todo.map Entry.timer)

instance : Decidable (q.waits id) := inferInstanceAs (Decidable (_ ∧ _))

/-- No timer is cancelled while it waits. -/
def InTime (q : TimerQueue) : Action → Prop
  | .cancelInLoop id => ¬q.waits id
  | _ => True

instance (q : TimerQueue) : ∀ a, Decidable (InTime q a)
  | .cancelInLoop id => inferInstanceAs (Decidable (¬q.waits id))
  | .tick _ => .isTrue trivial
  | .create _ _ _ => .isTrue trivial
  | .addTimerInLoop _ => .isTrue trivial
  | .handleRead => .isTrue trivial
  | .run => .isTrue trivial
  | .finish => .isTrue trivial

/-- The timer is gone, or it has had its turn in the batch and is noted as cancelled. -/
structure Cancelled (q : TimerQueue) (id : ActiveTimer) : Prop where
  issued : id.sequence ≤ q.numCreated
  noted : Names q.heap id →
    ∃ b, q.batch = some b ∧ id.timer ∈ b.ran.map Entry.timer ∧ id ∈ q.cancelingTimers

/-- A cancelled timer is in neither set. -/
theorem Cancelled.not_in_timers (h : Cancelled q id) (hq : Good q) :
    ∀ e ∈ q.timers, e.timer = id.timer → ¬Names q.heap id := by
  intro e he heq hnames
  obtain ⟨b, hb, hran, -⟩ := h.noted hnames
  refine hq.inv.owned.held_timers id.timer ?_ e he heq
  rw [TimerQueue.batchTimers, hb, Option.elim_some, List.map_append]
  exact List.mem_append_left _ hran

/-- A cancel in time has its effect at once. -/
theorem Cancelled.of_cancel (hq : Good q) (hid : id.sequence ≤ q.numCreated) (hin : ¬q.waits id)
    (h : Next q (.cancelInLoop id) q') : Cancelled q' id := by
  cases h with
  | cancel ht hseq hmem =>
    refine ⟨hid, fun hnames => ?_⟩
    cases (names_update_self none).mp hnames
  | note hnot =>
    refine ⟨hid, fun hnames => ?_⟩
    obtain ⟨t, ht, hseq⟩ := names_iff.mp hnames
    rcases hq.inv.owned.owner id.timer t ht with hqueued | hheld | ⟨e, he, heq⟩
    · exact absurd ⟨hnames, .inl hqueued⟩ hin
    · -- held by a batch: the turn has come, so the note is what is needed
      cases hb : q.batch with
      | none =>
        rw [TimerQueue.batchTimers, hb] at hheld
        exact absurd hheld List.not_mem_nil
      | some b =>
        rw [TimerQueue.batchTimers, hb, Option.elim_some, List.map_append] at hheld
        rcases List.mem_append.mp hheld with hran | htodo
        · have hcalling : q.callingExpiredTimers = true := by rw [hq.calling, hb]; rfl
          refine ⟨b, rfl, hran, ?_⟩
          rw [if_pos hcalling]
          exact OrderedSet.mem_insert.mpr (.inl rfl)
        · refine absurd ⟨hnames, .inr ?_⟩ hin
          rwa [hb, Option.elim_some]
    · -- in the sets: then it is found
      obtain ⟨u, hu, hexp⟩ := hq.inv.sets.live e (.inl he)
      rw [heq, ht] at hu
      cases hu
      refine absurd ((hq.inv.sets.active id).mpr ⟨t, ht, hseq, .inl ?_⟩) hnot
      rw [hexp, ← heq]
      exact he

/-- The part of `Cancelled` that the loop of `reset` keeps, with the timers still to come. -/
def Resetting (id : ActiveTimer) (q : TimerQueue) (rest : List Entry) : Prop :=
  Names q.heap id → id.timer ∈ rest.map Entry.timer ∧ id ∈ q.cancelingTimers

theorem Resetting.tail {e : Entry} {rest : List Entry} (h : Resetting id q (e :: rest))
    (hne : id.timer ≠ e.timer) (hnames : Names q.heap id) :
    id.timer ∈ rest.map Entry.timer ∧ id ∈ q.cancelingTimers :=
  (h hnames).imp_left fun hmem => (List.mem_cons.mp hmem).resolve_left hne

theorem Resetting.restarted {e : Entry} {rest : List Entry} {t : Timer} (now : Int)
    (h : Resetting id q (e :: rest)) (ht : q.heap e.timer = some t)
    (hnot : ⟨e.timer, t.sequence⟩ ∉ q.cancelingTimers) :
    Resetting id (q.restarted e.timer t now) rest := by
  intro hnames
  by_cases he : id.timer = e.timer
  · -- the restarted timer is the named one, and so it was noted
    have hseq : some t.sequence = some id.sequence := by
      change Names (Function.update q.heap e.timer _) id at hnames
      rwa [← he, names_update_self] at hnames
    have hid : (⟨e.timer, t.sequence⟩ : ActiveTimer) = id := by
      rw [← he, Option.some.inj hseq]
    refine absurd (h ?_).2 (hid ▸ hnot)
    rw [Names, he, ht]
    exact hseq
  · exact h.tail he ((names_update_of_ne he _).mp hnames)

theorem Resetting.dropped {e : Entry} {rest : List Entry} {t : Timer}
    (h : Resetting id q (e :: rest)) : Resetting id (q.dropped e.timer t) rest := by
  intro hnames
  by_cases he : id.timer = e.timer
  · change Names (Function.update q.heap e.timer none) id at hnames
    rw [← he, names_update_self] at hnames
    cases hnames
  · exact h.tail he ((names_update_of_ne he _).mp hnames)

/-- No step starts a cancelled timer or undoes the cancel. -/
theorem Cancelled.next {a : Action} (h : Cancelled q id) (hq : Good q) (hn : Next q a q') :
    Cancelled q' id ∧ q'.started.count id = q.started.count id := by
  cases hn with
  | tick => exact ⟨⟨h.issued, h.noted⟩, rfl⟩
  | @create timer when interval hdead =>
    refine ⟨⟨h.issued.trans (Nat.le_succ _), fun hnames => ?_⟩, rfl⟩
    by_cases ht : id.timer = timer
    · -- the new timer has a number of its own
      change Names (Function.update q.heap timer _) id at hnames
      rw [← ht, names_update_self, Option.map_some, Option.some_inj] at hnames
      have hissued := h.issued
      dsimp only at hnames
      omega
    · exact h.noted ((names_update_of_ne ht _).mp hnames)
  | add _ _ => exact ⟨⟨h.issued, h.noted⟩, rfl⟩
  | @cancel timerId t ht _ _ =>
    refine ⟨⟨h.issued, fun hnames => ?_⟩, rfl⟩
    by_cases ht : id.timer = timerId.timer
    · change Names (Function.update q.heap timerId.timer none) id at hnames
      rw [← ht, names_update_self] at hnames
      cases hnames
    · exact h.noted ((names_update_of_ne ht _).mp hnames)
  | note _ =>
    refine ⟨⟨h.issued, fun hnames => ?_⟩, rfl⟩
    obtain ⟨b, hb, hran, hmem⟩ := h.noted hnames
    refine ⟨b, hb, hran, ?_⟩
    dsimp only
    split
    · exact OrderedSet.mem_insert.mpr (.inr hmem)
    · exact hmem
  | handleRead hb =>
    refine ⟨⟨h.issued, fun hnames => ?_⟩, rfl⟩
    obtain ⟨b, hb', -⟩ := h.noted hnames
    rw [hb] at hb'
    cases hb'
  | @run now ran todo e t hb ht =>
    refine ⟨⟨h.issued, fun hnames => ?_⟩, ?_⟩
    · obtain ⟨b, hb', hran, hmem⟩ := h.noted hnames
      rw [hb] at hb'
      cases hb'
      refine ⟨_, rfl, ?_, hmem⟩
      rw [List.map_append]
      exact List.mem_append_left _ hran
    · -- a timer that has had its turn has no second one in the same batch
      refine List.count_cons_of_ne fun heq => ?_
      rw [← heq] at h
      obtain ⟨b, hb', hran, -⟩ := h.noted (names_iff.mpr ⟨t, ht, rfl⟩)
      rw [hb] at hb'
      cases hb'
      have hnodup := hq.inv.owned.held_nodup
      rw [TimerQueue.batchTimers, hb, Option.elim_some, List.map_append] at hnodup
      exact List.disjoint_of_nodup_append hnodup hran List.mem_cons_self
  | @finish now ran q' hb hreset =>
    have hstart : Resetting id { q with callingExpiredTimers := false } ran := by
      intro hnames
      obtain ⟨b, hb', hran, hmem⟩ := h.noted hnames
      rw [hb] at hb'
      cases hb'
      exact ⟨hran, hmem⟩
    obtain ⟨u, hu, -, hend, hnum, hstarted⟩ := (hq.beforeReset hb).reset_eq now
      (R := fun u rest => Resetting id u rest ∧ u.numCreated = q.numCreated ∧ u.started = q.started)
      (fun u e rest t _ ht hR hc => ⟨hR.1.restarted now ht hc.2, hR.2⟩)
      (fun u e rest t _ _ hR _ => ⟨hR.1.dropped, hR.2⟩) ⟨hstart, rfl, rfl⟩
    cases hreset.symm.trans hu
    refine ⟨⟨hnum ▸ h.issued, fun hnames => ?_⟩, ?_⟩
    · exact absurd (hend hnames).1 List.not_mem_nil
    · exact congrArg (List.count id) hstarted

/-- A cancel in time is final, in every run and whatever happens later: the callback of the
timer is not started again, and the timer is not put back into `timers_`. -/
theorem cancel_is_final {p : Except Fault TimerQueue}
    (hrun : Run step (fun _ _ => True) Started (.ok q)) (hid : id.sequence ≤ q.numCreated)
    (hin : InTime q (.cancelInLoop id)) (hcancel : step q (.cancelInLoop id) = some (.ok q'))
    (hlater : Run step (fun _ _ => True) (· = q') p) :
    ∃ u, p = .ok u ∧ u.started.count id = q'.started.count id ∧
      ∀ e ∈ u.timers, e.timer = id.timer → ¬Names u.heap id := by
  obtain ⟨_, hq, hgood⟩ := Run.good (fun q hq => hq.good) hrun
  cases hq
  obtain ⟨_, hq', hnext, hgood'⟩ := hgood.next hcancel
  cases hq'
  have hcancelled := Cancelled.of_cancel hgood hid hin hnext
  obtain ⟨u, rfl, hu, hcu, hcount⟩ := hlater.safe
    (I := fun u => Good u ∧ Cancelled u id ∧ u.started.count id = q'.started.count id)
    (fun u hu => by rw [hu]; exact ⟨hgood', hcancelled, rfl⟩) (fun u a m hu _ hstep => by
      obtain ⟨hgu, hcu, hcount⟩ := hu
      obtain ⟨u', hm, hnext, hgu'⟩ := hgu.next hstep
      obtain ⟨hcu', hcount'⟩ := hcu.next hgu hnext
      exact ⟨u', hm, hgu', hcu', hcount'.trans hcount⟩)
  exact ⟨u, rfl, hcount, hcu.not_in_timers hu⟩

/-- A periodic timer that cancels itself from its own callback. -/
theorem cancel_is_final_for_running_timer : ∃ q q' u,
    Run step (fun _ _ => True) Started (.ok q) ∧ step q (.cancelInLoop ⟨32, 1⟩) = some (.ok q') ∧
    Run step (fun _ _ => True) (· = q') (.ok u) ∧ q'.started = [⟨32, 1⟩] ∧
    u.started.count ⟨32, 1⟩ = 1 ∧ u.clock = 9000 := by
  obtain ⟨q, hq, hcheck⟩ := exists_of_seen (show seen (exec (faulting step) (.ok (.initial 1000))
      [.create 32 2000 ⟨true, 700, by decide⟩, .addTimerInLoop 32, .tick 3000, .handleRead, .run])
      (fun q => q.numCreated = 1 ∧ InTime q (.cancelInLoop ⟨32, 1⟩) ∧
        seen (step q (.cancelInLoop ⟨32, 1⟩)) fun q' => q'.started = [⟨32, 1⟩] ∧
          seen (exec (faulting step) (.ok q') [.finish, .tick 9000, .handleRead, .finish])
            fun u => u.clock = 9000) = true by decide +kernel)
  obtain ⟨hnum, hin, hcheck⟩ := of_decide_eq_true hcheck
  obtain ⟨q', hq', hcheck⟩ := exists_of_seen hcheck
  obtain ⟨hstarted, hcheck⟩ := of_decide_eq_true hcheck
  obtain ⟨u, hu, hclock⟩ := exists_of_seen hcheck
  have hrun := Run.of_exec Started ⟨1000, by decide, rfl⟩ _ hq
  have hlater := Run.of_exec (· = q') rfl _ hu
  obtain ⟨_, hok, hcount, -⟩ := cancel_is_final hrun (by rw [hnum]) hin hq' hlater
  cases hok
  refine ⟨q, q', u, hrun, hq', hlater, hstarted, ?_, of_decide_eq_true hclock⟩
  rw [hcount, hstarted]
  rfl

/-- Two timers fire together, and the callback of the first cancels the second. -/
theorem cancel_before_its_turn_not_final : ∃ q q' u,
    Run step (fun _ _ => True) Started (.ok q) ∧ step q (.cancelInLoop ⟨32, 2⟩) = some (.ok q') ∧
    Run step (fun _ _ => True) (· = q') (.ok u) ∧
    q'.started.count ⟨32, 2⟩ = 0 ∧ u.started.count ⟨32, 2⟩ = 1 := by
  obtain ⟨q, hq, hcheck⟩ := exists_of_seen (show seen (exec (faulting step) (.ok (.initial 1000))
      [.create 16 2000 ⟨false, 0, by decide⟩, .addTimerInLoop 16,
        .create 32 2000 ⟨false, 0, by decide⟩, .addTimerInLoop 32, .tick 3000, .handleRead, .run])
      (fun q => seen (step q (.cancelInLoop ⟨32, 2⟩)) fun q' => q'.started.count ⟨32, 2⟩ = 0 ∧
        seen (exec (faulting step) (.ok q') [.run]) fun u => u.started.count ⟨32, 2⟩ = 1) = true by
    decide +kernel)
  obtain ⟨q', hq', hcheck⟩ := exists_of_seen hcheck
  obtain ⟨hzero, hcheck⟩ := of_decide_eq_true hcheck
  obtain ⟨u, hu, hone⟩ := exists_of_seen hcheck
  exact ⟨q, q', u, Run.of_exec Started ⟨1000, by decide, rfl⟩ _ hq, hq',
    Run.of_exec (· = q') rfl _ hu, hzero, of_decide_eq_true hone⟩

end DbdkyGcc.Timers
