import DbdkyGcc.Threads.Monitor

/-!
# Waiting threads

Left to themselves the threads in the functions of an object come to rest: a thread that is notified
looks at the data again at most once for each body that is still to come. At rest every thread is
outside or waits for a condition, and the question is whether one of them waits for nothing.

There are two rules for a condition on which no wake-up is lost. With `Supplied` each waiter needs
one unit of something, and a body notifies once for each unit it adds. With `Announced` all waiters
wait for the same thing, and the body that brings it about notifies all of them.
-/

namespace DbdkyGcc.Threads

open Foundations

namespace Pc

variable {C κ ρ : Type}

/-- Whether the body of the thread's call is still to come. -/
def todo : Pc C κ ρ → ℕ
  | .outside | .signalling _ _ | .unlocking _ => 0
  | _ => 1

/-- How many steps a notification can bring about, with `n` threads. -/
def cost (n : ℕ) : Signal C → ℕ
  | .notify _ => 6
  | .notifyAll _ => 5 * n + 1

/-- How many steps are left until the thread waits, is outside or has performed its body, those of
the threads that it wakes included. -/
def work (n : ℕ) : Pc C κ ρ → ℕ
  | .outside | .waiting _ _ => 0
  | .locking _ | .woken _ => 5
  | .acquired _ => 4
  | .testing _ => 3
  | .unassigning _ _ | .running _ => 2
  | .entering _ _ => 1
  | .signalling signals _ => (signals.map (cost n)).sum + 2
  | .unlocking _ => 1

section Wake

variable [DecidableEq C]

@[simp] theorem todo_wake (c : C) (p : Pc C κ ρ) : (p.wake c).todo = p.todo := by
  cases p with
  | waiting k c' => rw [wake]; split <;> rfl
  | _ => rfl

theorem work_wake_le (n : ℕ) (c : C) (p : Pc C κ ρ) : (p.wake c).work n ≤ p.work n + 5 := by
  cases p with
  | waiting k c' => rw [wake]; split <;> simp [work]
  | _ => exact Nat.le_add_right _ _

end Wake

end Pc

namespace Execution

variable {T σ C κ ρ : Type} [DecidableEq T] [Fintype T] [DecidableEq C]
variable {M : Monitor σ C κ ρ} {s s' : Execution T σ C κ ρ} {t : T} {d : σ}

section Termination

/-- A body to come is performed, or none is and there is less to do. -/
def Descends (s s' : Execution T σ C κ ρ) : Prop :=
  total Pc.todo s'.pc < total Pc.todo s.pc ∨
    total Pc.todo s'.pc = total Pc.todo s.pc ∧
      total (Pc.work (Fintype.card T)) s'.pc < total (Pc.work (Fintype.card T)) s.pc

omit [DecidableEq C] in
theorem descends_goto {p : Pc C κ ρ} (htodo : p.todo = (s.pc t).todo)
    (hwork : p.work (Fintype.card T) < (s.pc t).work (Fintype.card T))
    (hpc : s'.pc = Function.update s.pc t p) : Descends s s' := by
  refine .inr ?_
  rw [hpc]
  exact ⟨total_update_eq htodo, total_update_lt hwork⟩

theorem Moves.descends (h : Moves M s t s') : Descends s s' := by
  cases h with
  | @lock k hp hfree =>
    rcases hp with hp | hp <;>
      exact descends_goto (p := .acquired k) (by rw [hp]; rfl) (by simp [hp, Pc.work]) rfl
  | @assign k hp =>
    exact descends_goto (p := .testing k) (by rw [hp]; rfl) (by simp [hp, Pc.work]) rfl
  | @leave k hp hloop =>
    exact descends_goto (p := .running k) (by rw [hp]; rfl) (by simp [hp, Pc.work]) rfl
  | @wait k c hp hloop =>
    exact descends_goto (p := .unassigning k c) (by rw [hp]; rfl) (by simp [hp, Pc.work]) rfl
  | @unassign k c hp =>
    exact descends_goto (p := .entering k c) (by rw [hp]; rfl) (by simp [hp, Pc.work]) rfl
  | @sleep k c hp =>
    exact descends_goto (p := .waiting k c) (by rw [hp]; rfl) (by simp [hp, Pc.work]) rfl
  | perform hp hbody => exact .inl (total_update_lt (by simp [hp, Pc.todo]))
  | @skip c signals r hp hnone =>
    refine descends_goto (p := .signalling signals r) (by rw [hp]; rfl) ?_ rfl
    rw [hp]
    simp only [Pc.work, List.map_cons, List.sum_cons, Pc.cost]
    omega
  | @notify c signals r v k hp hv =>
    have hvt : t ≠ v := by
      rintro rfl
      rw [hp] at hv
      cases hv
    have hpt : Function.update s.pc v (.woken k) t = .signalling (.notify c :: signals) r := by
      rw [Function.update_of_ne hvt, hp]
    have htodo : total Pc.todo (Function.update s.pc v (.woken k)) = total Pc.todo s.pc :=
      total_update_eq (by rw [hv]; rfl)
    have htodo' := total_update_eq (w := Pc.todo) (a := .signalling signals r)
      (show Pc.todo _ = Pc.todo (Function.update s.pc v (.woken k) t) by rw [hpt]; rfl)
    refine .inr ⟨htodo'.trans htodo, ?_⟩
    -- One thread has five steps more, and the notification was worth six.
    have hwoken := total_update (Pc.work (Fintype.card T)) s.pc v (.woken k)
    have hrest := total_update (Pc.work (Fintype.card T)) (Function.update s.pc v (.woken k)) t
      (.signalling signals r)
    rw [hv] at hwoken
    rw [hpt] at hrest
    simp only [Pc.work, List.map_cons, List.sum_cons, Pc.cost] at hwoken hrest
    show total (Pc.work (Fintype.card T))
      (Function.update (Function.update s.pc v (.woken k)) t (.signalling signals r)) < _
    omega
  | @notifyAll c signals r hp =>
    have hpt : (s.pc t).wake c = .signalling (.notifyAll c :: signals) r := by
      rw [hp]
      rfl
    have htodo : total Pc.todo (fun v => (s.pc v).wake c) = total Pc.todo s.pc :=
      total_congr fun v => Pc.todo_wake c _
    have htodo' := total_update_eq (w := Pc.todo) (f := fun v => (s.pc v).wake c)
      (a := .signalling signals r) (show Pc.todo _ = Pc.todo ((s.pc t).wake c) by rw [hpt]; rfl)
    refine .inr ⟨htodo'.trans htodo, ?_⟩
    have hwoken : total (Pc.work (Fintype.card T)) (fun v => (s.pc v).wake c) ≤
        total (Pc.work (Fintype.card T)) s.pc + Fintype.card T * 5 :=
      total_le_add fun v => Pc.work_wake_le _ c _
    have hrest := total_update (Pc.work (Fintype.card T)) (fun v => (s.pc v).wake c) t
      (.signalling signals r)
    rw [hpt] at hrest
    simp only [Pc.work, List.map_cons, List.sum_cons, Pc.cost] at hrest
    show total (Pc.work (Fintype.card T))
      (Function.update (fun v => (s.pc v).wake c) t (.signalling signals r)) < _
    omega
  | @unlock r hp =>
    exact descends_goto (p := .unlocking r) (by rw [hp]; rfl) (by simp [hp, Pc.work]) rfl
  | @ret r hp =>
    exact descends_goto (p := .outside) (by rw [hp]; rfl) (by simp [hp, Pc.work]) rfl

/-- Without new calls and spurious wake-ups the threads come to rest. -/
theorem moves_wellFounded (M : Monitor σ C κ ρ) :
    WellFounded fun s' s : Execution T σ C κ ρ => ∃ t, Moves M s t s' := by
  refine Subrelation.wf (r := InvImage (Prod.Lex (· < ·) (· < ·)) fun s =>
    (total Pc.todo s.pc, total (Pc.work (Fintype.card T)) s.pc)) ?_
    (InvImage.wf _ (WellFounded.prod_lex Nat.lt_wfRel.wf Nat.lt_wfRel.wf))
  rintro s' s ⟨t, hmove⟩
  exact Prod.lex_def.mpr hmove.descends

/-- There is no endless run of the threads in the functions. -/
theorem not_endless (M : Monitor σ C κ ρ) (f : ℕ → Execution T σ C κ ρ) :
    ¬ ∀ i, ∃ t chosen, step M (f i) (.proceed t chosen) = some (.ok (f (i + 1))) := by
  intro h
  have := IsWellFounded.mk (moves_wellFounded (T := T) M)
  obtain ⟨i, hi⟩ := WellFounded.not_rel_apply_succ
    (r := fun s' s : Execution T σ C κ ρ => ∃ t, Moves M s t s') f
  obtain ⟨t, chosen, hstep⟩ := h i
  exact hi ⟨t, .of_proceed hstep⟩

end Termination

section Rest

/-- No thread in a function can go on. -/
def Stuck (M : Monitor σ C κ ρ) (s : Execution T σ C κ ρ) : Prop :=
  ∀ t chosen, step M s (.proceed t chosen) = none

/-- Every thread is outside or waits. -/
def Quiet (s : Execution T σ C κ ρ) : Prop :=
  ∀ t, s.pc t = .outside ∨ ∃ k c, s.pc t = .waiting k c

/-- The thread with the mutex can always go on. -/
theorem proceed_of_owns (ht : (s.pc t).owns = true) :
    ∃ chosen m, step M s (.proceed t chosen) = some m := by
  simp only [step]
  cases hp : s.pc t with
  | outside => simp [hp, Pc.owns] at ht
  | locking k => simp [hp, Pc.owns] at ht
  | waiting k c => simp [hp, Pc.owns] at ht
  | woken k => simp [hp, Pc.owns] at ht
  | signalling signals r =>
    rcases signals with _ | ⟨c | c, signals⟩
    · exact ⟨none, _, rfl⟩
    · -- `notify()` wakes a waiting thread if there is one.
      by_cases hnone : ∀ v, (s.pc v).waitsFor c = false
      · exact ⟨none, _, by rw [proceed, notify, if_pos hnone]; rfl⟩
      · obtain ⟨v, hv⟩ := not_forall.mp hnone
        refine ⟨some v, .ok ((s.wakeOne c v).goto t (.signalling signals r)), ?_⟩
        rw [proceed, notify, if_pos (Bool.not_eq_false _ ▸ hv)]
        rfl
    · exact ⟨none, _, rfl⟩
  | _ => exact ⟨none, _, rfl⟩

/-- At rest nobody is under way: whoever has the mutex can go on, and if nobody has it, everybody
who needs it can get it. -/
theorem Exclusive.quiet (h : Exclusive M s) (hstuck : Stuck M s) : Quiet s := by
  have hfree : s.lock.mutex = none := by
    by_contra hsome
    obtain ⟨t, ht⟩ := Option.ne_none_iff_exists'.mp hsome
    obtain ⟨chosen, m, hm⟩ := proceed_of_owns (M := M) ((h.owner t).mpr ht)
    rw [hstuck t chosen] at hm
    cases hm
  intro t
  have hout : (s.pc t).owns = false := by
    by_contra howns
    have ht := (h.owner t).mp (Bool.not_eq_false _ ▸ howns)
    rw [hfree] at ht
    cases ht
  have hnone := hstuck t none
  rw [Execution.step] at hnone
  cases hp : s.pc t with
  | outside => exact .inl rfl
  | waiting k c => exact .inr ⟨k, c, rfl⟩
  | locking k =>
    rw [hp, proceed, if_pos hfree] at hnone
    cases hnone
  | woken k =>
    rw [hp, proceed, if_pos hfree] at hnone
    cases hnone
  | _ => simp [hp, Pc.owns] at hout

end Rest

/-- Some thread waits for the condition. -/
def Awaited (c : C) (f : T → Pc C κ ρ) : Prop := ∃ t, (f t).waitsFor c = true

omit [Fintype T] in
theorem Awaited.of_update {c : C} {f : T → Pc C κ ρ} {p : Pc C κ ρ}
    (h : Awaited c (Function.update f t p)) (hp : p.waitsFor c = false) : Awaited c f := by
  obtain ⟨u, hu⟩ := h
  by_cases hut : u = t
  · subst hut
    rw [Function.update_self, hp] at hu
    cases hu
  · rw [Function.update_of_ne hut] at hu
    exact ⟨u, hu⟩

omit [DecidableEq T] [Fintype T] in
theorem Awaited.of_wake {c c' : C} {f : T → Pc C κ ρ}
    (h : Awaited c fun v => (f v).wake c') : Awaited c f ∧ c' ≠ c := by
  obtain ⟨u, hu⟩ := h
  obtain ⟨k, hk : (f u).wake c' = _⟩ := Pc.waitsFor_iff.mp hu
  have hp : f u = .waiting k c ∧ c' ≠ c := by
    cases hf : f u with
    | waiting k' c'' =>
      rw [hf, Pc.wake] at hk
      split at hk
      · cases hk
      · rename_i hne
        cases hk
        exact ⟨rfl, Ne.symm hne⟩
    | _ => simp [hf, Pc.wake] at hk
  exact ⟨⟨u, Pc.waitsFor_iff.mpr ⟨k, hp.1⟩⟩, hp.2⟩

end Execution

/-! ### One unit for each waiter -/

/-- A condition for one unit of what the data offers: those who wait for it found nothing, and a
body that adds units or that ends a call which would use one notifies for the difference. -/
structure Supplied {σ C κ ρ : Type} [DecidableEq C] (M : Monitor σ C κ ρ) (c : C) where
  units : σ → ℕ
  /-- The calls that take a unit, and wait for the condition when there is none. -/
  uses : κ → Bool
  uses_iff : ∀ {k d c'}, M.loop k d = some c' → (uses k = true ↔ c' = c)
  units_eq_zero : ∀ {k d}, M.loop k d = some c → units d = 0
  units_le : ∀ {k d done}, M.loop k d = none → M.body k d = .ok done →
    units done.data + (uses k).toNat ≤ units d + done.signals.count (.notify c)

namespace Supplied

open Execution

variable {T σ C κ ρ : Type} [DecidableEq T] [Fintype T] [DecidableEq C]
variable {M : Monitor σ C κ ρ} {c : C} {s s' : Execution T σ C κ ρ} {t : T} {d : σ}

/-- The units that a thread is going to take, or for which it is going to notify. -/
def promised (S : Supplied M c) : Pc C κ ρ → ℕ
  | .locking k | .acquired k | .testing k | .woken k | .running k => (S.uses k).toNat
  | .signalling signals _ => signals.count (.notify c)
  | _ => 0

/-- While somebody waits, others are under way to all units there are. -/
def Balanced (S : Supplied M c) (s : Execution T σ C κ ρ) : Prop :=
  Awaited c s.pc → S.units s.data ≤ total S.promised s.pc

variable {S : Supplied M c}

theorem promised_le_wake (S : Supplied M c) (c' : C) (p : Pc C κ ρ) :
    S.promised p ≤ S.promised (p.wake c') := by
  cases p with
  | waiting k c'' => exact Nat.zero_le _
  | _ => exact le_rfl

theorem balanced_goto (h : S.Balanced s) {p : Pc C κ ρ} (hp : p.waitsFor c = false)
    (hle : S.promised (s.pc t) ≤ S.promised p) (hpc : s'.pc = Function.update s.pc t p)
    (hdata : s'.data = s.data) : S.Balanced s' := by
  intro hwait
  rw [hpc] at hwait ⊢
  rw [hdata]
  exact (h (hwait.of_update hp)).trans (total_le_update hle)

omit [DecidableEq T] in
/-- Nothing is left for those who wait. -/
theorem balanced_of_zero (h : S.units s.data = 0) : S.Balanced s := by
  intro _
  omega

theorem balanced_perform {k : κ} {done : Section σ C ρ} (h : S.Balanced s)
    (hp : s.pc t = .running k) (hloop : M.loop k s.data = none)
    (hbody : M.body k s.data = .ok done) :
    S.Balanced ({ s with data := done.data }.goto t (.signalling done.signals done.result)) := by
  intro hwait
  have hbefore := h (Awaited.of_update hwait rfl)
  have hunits := S.units_le hloop hbody
  have hsum := total_update S.promised s.pc t (.signalling done.signals done.result)
  rw [hp] at hsum
  simp only [promised] at hsum
  show S.units done.data ≤ total S.promised (Function.update s.pc t _)
  omega

theorem balanced_notify {c' : C} {signals : List (Signal C)} {r : ρ} {v : T} {k : κ}
    (h : S.Balanced s) (hex : Exclusive M s) (hp : s.pc t = .signalling (.notify c' :: signals) r)
    (hv : s.pc v = .waiting k c') :
    S.Balanced ((s.goto v (.woken k)).goto t (.signalling signals r)) := by
  intro hwait
  have hbefore := h ((hwait.of_update rfl).of_update rfl)
  have hvt : t ≠ v := by
    rintro rfl
    rw [hp] at hv
    cases hv
  obtain ⟨d', hd'⟩ : ∃ d', M.loop k d' = some c' := by
    have hagrees := hex.agrees v
    rwa [hv] at hagrees
  have hwoken := total_update S.promised s.pc v (.woken k)
  have hrest := total_update S.promised (Function.update s.pc v (.woken k)) t
    (.signalling signals r)
  rw [Function.update_of_ne hvt, hp] at hrest
  rw [hv] at hwoken
  simp only [promised, List.count_cons] at hwoken hrest
  show S.units s.data ≤
    total S.promised (Function.update (Function.update s.pc v (.woken k)) t (.signalling signals r))
  by_cases hc : c' = c
  · -- The woken thread is the one that was promised the unit.
    have huses : (S.uses k).toNat = 1 := by rw [(S.uses_iff hd').mpr hc]; rfl
    have hone : (if (Signal.notify c' == Signal.notify c) = true then 1 else 0) = 1 := by
      rw [hc]
      simp
    omega
  · have hzero : (if (Signal.notify c' == Signal.notify c) = true then 1 else 0) = 0 := by
      simp [hc]
    omega

theorem balanced_moves (h : S.Balanced s) (hex : Exclusive M s) (hmove : Moves M s t s') :
    S.Balanced s' := by
  cases hmove with
  | @lock k hp hfree =>
    rcases hp with hp | hp <;>
      exact balanced_goto h (p := .acquired k) rfl (by rw [hp]; rfl) rfl rfl
  | @assign k hp => exact balanced_goto h (p := .testing k) rfl (by rw [hp]; rfl) rfl rfl
  | @leave k hp hloop => exact balanced_goto h (p := .running k) rfl (by rw [hp]; rfl) rfl rfl
  | @wait k c' hp hloop =>
    by_cases hc : c' = c
    · subst hc
      exact balanced_of_zero (S.units_eq_zero hloop)
    · have huses : S.uses k = false := by
        rw [← Bool.not_eq_true, S.uses_iff hloop]
        exact hc
      exact balanced_goto h (p := .unassigning k c') rfl (by simp [hp, promised, huses]) rfl rfl
  | @unassign k c' hp =>
    exact balanced_goto h (p := .entering k c') rfl (by rw [hp]; rfl) rfl rfl
  | @sleep k c' hp =>
    by_cases hc : c' = c
    · subst hc
      have hloop := hex.agrees t
      rw [hp] at hloop
      exact balanced_of_zero (S.units_eq_zero hloop)
    · exact balanced_goto h (p := .waiting k c') (by simp [Pc.waitsFor, hc]) (by rw [hp]; rfl)
        rfl rfl
  | @perform k done hp hbody =>
    have hloop := hex.agrees t
    rw [hp] at hloop
    exact balanced_perform h hp hloop hbody
  | @skip c' signals r hp hnone =>
    by_cases hc : c' = c
    · intro hwait
      obtain ⟨v, hv⟩ := hwait.of_update rfl
      rw [← hc, hnone v] at hv
      cases hv
    · refine balanced_goto h (p := .signalling signals r) rfl ?_ rfl rfl
      rw [hp]
      simp [promised, hc]
  | notify hp hv => exact balanced_notify h hex hp hv
  | @notifyAll c' signals r hp =>
    intro hwait
    have hbefore := h (hwait.of_update rfl).of_wake.1
    have hwoken : total S.promised s.pc ≤ total S.promised fun v => (s.pc v).wake c' :=
      total_mono fun v => S.promised_le_wake c' _
    have hrest : total S.promised (fun v => (s.pc v).wake c') ≤
        total S.promised (Function.update (fun v => (s.pc v).wake c') t (.signalling signals r)) := by
      refine total_le_update ?_
      rw [hp]
      simp [promised, Pc.wake]
    exact hbefore.trans (hwoken.trans hrest)
  | @unlock r hp => exact balanced_goto h (p := .unlocking r) rfl (by rw [hp]; rfl) rfl rfl
  | @ret r hp => exact balanced_goto h (p := .outside) rfl (by rw [hp]; rfl) rfl rfl

theorem balanced_step {a : Action T κ} (h : S.Balanced s) (hex : Exclusive M s)
    (hstep : step M s a = some (.ok s')) : S.Balanced s' := by
  obtain ⟨t, hmove⟩ | ⟨t, k, hp, rfl⟩ | ⟨t, k, c', hp, rfl⟩ := step_cases hstep
  · exact balanced_moves h hex hmove
  · exact balanced_goto h (p := .locking k) rfl (by rw [hp]; exact Nat.zero_le _) rfl rfl
  · exact balanced_goto h (p := .woken k) rfl (by rw [hp]; exact Nat.zero_le _) rfl rfl

theorem balanced_of_runs (h : Runs M d (.ok s)) : S.Balanced s := by
  have hboth : Exclusive M s ∧ S.Balanced s := by
    refine Run.invariant (I := fun s => Exclusive M s ∧ S.Balanced s) ?_
      (fun s a s' hs _ hstep => ⟨hs.1.step hstep, balanced_step hs.2 hs.1 hstep⟩) h s rfl
    rintro s rfl
    refine ⟨exclusive_init M d, ?_⟩
    rintro ⟨t, ht⟩
    cases ht
  exact hboth.2

/-- At rest whoever waits for the condition waits because there is nothing to take. -/
theorem units_eq_zero_of_stuck (S : Supplied M c) (h : Runs M d (.ok s)) (hstuck : Stuck M s)
    {k : κ} (ht : s.pc t = .waiting k c) : S.units s.data = 0 := by
  have hquiet := h.exclusive.quiet hstuck
  have hzero : total S.promised s.pc = 0 := by
    refine total_eq_zero fun u => ?_
    rcases hquiet u with hu | ⟨k', c', hu⟩ <;> rw [hu] <;> rfl
  have hle := balanced_of_runs (S := S) h ⟨t, Pc.waitsFor_iff.mpr ⟨k, ht⟩⟩
  omega

end Supplied

/-! ### One event for all waiters -/

/-- A condition for one event: those who wait for it found that it had not happened, and the body
that brings it about notifies all. -/
structure Announced {σ C κ ρ : Type} (M : Monitor σ C κ ρ) (c : C) where
  happened : σ → Prop
  not_happened : ∀ {k d}, M.loop k d = some c → ¬ happened d
  announce : ∀ {k d done}, M.loop k d = none → M.body k d = .ok done → ¬ happened d →
    happened done.data → .notifyAll c ∈ done.signals

namespace Announced

open Execution

variable {T σ C κ ρ : Type} [DecidableEq T] [Fintype T] [DecidableEq C]
variable {M : Monitor σ C κ ρ} {c : C} {s s' : Execution T σ C κ ρ} {t : T} {d : σ}

/-- The thread is going to notify all that wait for the condition. -/
def announces (c : C) : Pc C κ ρ → Prop
  | .signalling signals _ => .notifyAll c ∈ signals
  | _ => False

/-- While somebody waits although the event has happened, it is about to be announced. -/
def Pending (E : Announced M c) (s : Execution T σ C κ ρ) : Prop :=
  Awaited c s.pc → E.happened s.data → ∃ t, announces c (s.pc t)

variable {E : Announced M c}

omit [Fintype T] [DecidableEq C] in
theorem announces_update {f : T → Pc C κ ρ} {p : Pc C κ ρ} (h : ∃ u, announces c (f u))
    (hp : announces c (f t) → announces c p) : ∃ u, announces c (Function.update f t p u) := by
  obtain ⟨u, hu⟩ := h
  by_cases hut : u = t
  · subst hut
    exact ⟨u, by rw [Function.update_self]; exact hp hu⟩
  · exact ⟨u, by rwa [Function.update_of_ne hut]⟩

omit [Fintype T] in
theorem pending_goto (h : E.Pending s) {p : Pc C κ ρ} (hp : p.waitsFor c = false)
    (hannounces : announces c (s.pc t) → announces c p)
    (hpc : s'.pc = Function.update s.pc t p) (hdata : s'.data = s.data) : E.Pending s' := by
  intro hwait hhappened
  rw [hpc] at hwait ⊢
  rw [hdata] at hhappened
  exact announces_update (h (hwait.of_update hp) hhappened) hannounces

omit [Fintype T] in
theorem pending_moves (h : E.Pending s) (hex : Exclusive M s) (hmove : Moves M s t s') :
    E.Pending s' := by
  cases hmove with
  | @lock k hp hfree =>
    rcases hp with hp | hp <;>
      exact pending_goto h (p := .acquired k) rfl (by rw [hp]; exact False.elim) rfl rfl
  | @assign k hp =>
    exact pending_goto h (p := .testing k) rfl (by rw [hp]; exact False.elim) rfl rfl
  | @leave k hp hloop =>
    exact pending_goto h (p := .running k) rfl (by rw [hp]; exact False.elim) rfl rfl
  | @wait k c' hp hloop =>
    exact pending_goto h (p := .unassigning k c') rfl (by rw [hp]; exact False.elim) rfl rfl
  | @unassign k c' hp =>
    exact pending_goto h (p := .entering k c') rfl (by rw [hp]; exact False.elim) rfl rfl
  | @sleep k c' hp =>
    by_cases hc : c' = c
    · subst hc
      have hloop := hex.agrees t
      rw [hp] at hloop
      exact fun _ hhappened => absurd hhappened (E.not_happened hloop)
    · exact pending_goto h (p := .waiting k c') (by simp [Pc.waitsFor, hc])
        (by rw [hp]; exact False.elim) rfl rfl
  | @perform k done hp hbody =>
    intro hwait hhappened
    have hloop := hex.agrees t
    rw [hp] at hloop
    by_cases hbefore : E.happened s.data
    · exact announces_update (h (hwait.of_update rfl) hbefore) (by rw [hp]; exact False.elim)
    · refine ⟨t, ?_⟩
      show announces c (Function.update s.pc t _ t)
      rw [Function.update_self]
      exact E.announce hloop hbody hbefore hhappened
  | @skip c' signals r hp hnone =>
    refine pending_goto h (p := .signalling signals r) rfl ?_ rfl rfl
    rw [hp]
    simp [announces]
  | @notify c' signals r v k hp hv =>
    have hvt : t ≠ v := by
      rintro rfl
      rw [hp] at hv
      cases hv
    have hwoken : E.Pending (s.goto v (.woken k)) :=
      pending_goto h (p := .woken k) rfl (by rw [hv]; exact False.elim) rfl rfl
    refine pending_goto hwoken (p := .signalling signals r) rfl ?_ rfl rfl
    show announces c (Function.update s.pc v _ t) → _
    rw [Function.update_of_ne hvt, hp]
    simp [announces]
  | @notifyAll c' signals r hp =>
    intro hwait hhappened
    obtain ⟨hbefore, hc⟩ := (hwait.of_update rfl).of_wake
    obtain ⟨u, hu⟩ := h hbefore hhappened
    refine announces_update (f := fun v => (s.pc v).wake c') ⟨u, ?_⟩ ?_
    · cases hp : s.pc u <;> simp_all [announces, Pc.wake]
    · rw [hp]
      simp [announces, Pc.wake, Ne.symm hc]
  | @unlock r hp =>
    exact pending_goto h (p := .unlocking r) rfl (by rw [hp]; simp [announces]) rfl rfl
  | @ret r hp => exact pending_goto h (p := .outside) rfl (by rw [hp]; exact False.elim) rfl rfl

theorem pending_step {a : Action T κ} (h : E.Pending s) (hex : Exclusive M s)
    (hstep : step M s a = some (.ok s')) : E.Pending s' := by
  obtain ⟨t, hmove⟩ | ⟨t, k, hp, rfl⟩ | ⟨t, k, c', hp, rfl⟩ := step_cases hstep
  · exact pending_moves h hex hmove
  · exact pending_goto h (p := .locking k) rfl (by rw [hp]; exact False.elim) rfl rfl
  · exact pending_goto h (p := .woken k) rfl (by rw [hp]; exact False.elim) rfl rfl

theorem pending_of_runs (h : Runs M d (.ok s)) : E.Pending s := by
  have hboth : Exclusive M s ∧ E.Pending s := by
    refine Run.invariant (I := fun s => Exclusive M s ∧ E.Pending s) ?_
      (fun s a s' hs _ hstep => ⟨hs.1.step hstep, pending_step hs.2 hs.1 hstep⟩) h s rfl
    rintro s rfl
    refine ⟨exclusive_init M d, ?_⟩
    rintro ⟨t, ht⟩
    cases ht
  exact hboth.2

/-- At rest nobody waits for an event that has happened. -/
theorem not_happened_of_stuck (E : Announced M c) (h : Runs M d (.ok s)) (hstuck : Stuck M s)
    {k : κ} (ht : s.pc t = .waiting k c) : ¬ E.happened s.data := by
  intro hhappened
  obtain ⟨u, hu⟩ := pending_of_runs (E := E) h ⟨t, Pc.waitsFor_iff.mpr ⟨k, ht⟩⟩ hhappened
  rcases h.exclusive.quiet hstuck u with hp | ⟨k', c', hp⟩ <;> rw [hp] at hu <;> exact hu

end Announced

end DbdkyGcc.Threads
