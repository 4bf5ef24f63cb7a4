import DbdkyGcc.Foundations.MachineInt
import DbdkyGcc.Threads.Waiting

/-!
# The latch

`CountDownLatch` as a monitor. It is a gate: no `wait()` returns before `countDown()` has been called
as often as the latch was made for, and once it has been, every `wait()` returns. Only the call that
brings the count to zero notifies, and it notifies all.
-/

namespace DbdkyGcc.Threads

open Foundations

inductive LatchCall
  | wait
  | countDown
  | getCount
  deriving DecidableEq, Repr

inductive LatchResult
  | waited
  | counted
  | count (n : ℤ)
  deriving DecidableEq, Repr

/-- `CountDownLatch` with `count_`. -/
def countDownLatch : Monitor ℤ Unit LatchCall LatchResult where
  loop
    | .wait, count => if 0 < count then some () else none
    | .countDown, _ | .getCount, _ => none
  body
    | .wait, count => .ok ⟨count, [], .waited⟩
    | .countDown, count => do
      ensure .overflow (Fits 32 (count - 1))
      .ok ⟨count - 1, if count - 1 = 0 then [.notifyAll ()] else [], .counted⟩
    | .getCount, count => .ok ⟨count, [], .count count⟩

theorem countDownLatch_loop_eq_some {k : LatchCall} {count : ℤ}
    (h : countDownLatch.loop k count = some ()) : k = .wait ∧ 0 < count := by
  cases k with
  | wait => exact ⟨rfl, (Option.ite_none_right_eq_some.mp h).1⟩
  | countDown => cases h
  | getCount => cases h

/-- What a body does, by the function. -/
theorem countDownLatch_body_cases {k : LatchCall} {count : ℤ} {done : Section ℤ Unit LatchResult}
    (hloop : countDownLatch.loop k count = none) (h : countDownLatch.body k count = .ok done) :
    (k = .wait ∧ count ≤ 0 ∧ done = ⟨count, [], .waited⟩) ∨
    (k = .countDown ∧
      done = ⟨count - 1, if count - 1 = 0 then [.notifyAll ()] else [], .counted⟩) ∨
    k = .getCount ∧ done = ⟨count, [], .count count⟩ := by
  cases k with
  | wait =>
    cases h
    refine .inl ⟨rfl, ?_, rfl⟩
    by_contra hpos
    simp [countDownLatch, not_le.mp hpos] at hloop
  | countDown =>
    obtain ⟨-, h⟩ := ensure_bind_eq_ok_iff.mp h
    cases h
    exact .inr (.inl ⟨rfl, rfl⟩)
  | getCount =>
    cases h
    exact .inr (.inr ⟨rfl, rfl⟩)

/-- What the waiters wait for is that nothing is left to count. -/
def countDownLatchOpens : Announced countDownLatch () where
  happened count := count ≤ 0
  not_happened h := not_le.mpr (countDownLatch_loop_eq_some h).2
  announce {k count done} hloop hbody hbefore hafter := by
    obtain ⟨-, -, rfl⟩ | ⟨-, rfl⟩ | ⟨-, rfl⟩ := countDownLatch_body_cases hloop hbody
    · exact absurd hafter hbefore
    · have hzero : count - 1 = 0 := by
        simp only at hafter
        omega
      simp [hzero]
    · exact absurd hafter hbefore

/-! ### What the callers see -/

section Calls

variable {T : Type}

def Event.isCountDown : Event T LatchCall LatchResult → Bool
  | .call _ .countDown => true
  | _ => false

/-- How often `countDown()` has been called. -/
def countDowns (events : List (Event T LatchCall LatchResult)) : ℕ := events.countP Event.isCountDown

/-- A call of `countDown()` that has not taken effect. -/
def Stage.counting : Stage LatchCall LatchResult → ℕ
  | .called .countDown => 1
  | _ => 0

variable [DecidableEq T] [Fintype T]

/-- What is left to count, by the calls that have been made. -/
structure Counts (n : ℤ) (a : Atomic T ℤ LatchCall LatchResult) : Prop where
  calls : (countDowns a.events : ℤ) = n - a.data + total Stage.counting a.stage
  open_of_finished : ∀ t, a.stage t = .finished .waited → a.data ≤ 0
  le_of_returned : ∀ e₁ t e₂, a.events = e₁ ++ .ret t .waited :: e₂ → n ≤ countDowns e₁

variable {n : ℤ} {a a' : Atomic T ℤ LatchCall LatchResult} {t : T}

omit [Fintype T] in
/-- A thread that comes to a stage, with the data as it then is. -/
theorem open_update {f : T → Stage LatchCall LatchResult} {d d' : ℤ} {p : Stage LatchCall LatchResult}
    (h : ∀ u, f u = .finished .waited → d ≤ 0) (hd : d ≤ 0 → d' ≤ 0)
    (hp : p = .finished .waited → d' ≤ 0) (u : T)
    (hu : Function.update f t p u = .finished .waited) : d' ≤ 0 := by
  by_cases hut : u = t
  · subst hut
    rw [Function.update_self] at hu
    exact hp hu
  · rw [Function.update_of_ne hut] at hu
    exact hd (h u hu)

omit [DecidableEq T] [Fintype T] in
/-- An event that is not the return of a `wait()` adds nothing to what has to be shown. -/
theorem le_of_returned_snoc {events : List (Event T LatchCall LatchResult)}
    {e : Event T LatchCall LatchResult}
    (h : ∀ e₁ t e₂, events = e₁ ++ .ret t .waited :: e₂ → n ≤ countDowns e₁)
    (he : ∀ t, e = .ret t .waited → n ≤ countDowns events) (e₁ : List (Event T LatchCall LatchResult))
    (t : T) (e₂ : List (Event T LatchCall LatchResult))
    (heq : events ++ [e] = e₁ ++ .ret t .waited :: e₂) : n ≤ countDowns e₁ := by
  rcases List.eq_nil_or_concat e₂ with rfl | ⟨e₂, x, rfl⟩
  · obtain ⟨rfl, hlast⟩ := List.append_inj' heq rfl
    exact he t (List.singleton_inj.mp hlast)
  · rw [List.concat_eq_append, ← List.cons_append, ← List.append_assoc] at heq
    exact h e₁ t e₂ (List.append_inj' heq rfl).1

theorem Counts.call (h : Counts n a) (hout : a.stage t = .outside) (k : LatchCall) :
    Counts n (a.call t k) := by
  refine ⟨?_, open_update h.open_of_finished id nofun, ?_⟩
  · have hsum := total_update Stage.counting a.stage t (.called k)
    have hcalls := h.calls
    rw [hout] at hsum
    have hevents : countDowns (a.call t k).events = countDowns a.events +
        Stage.counting (.called k) := by
      show List.countP _ (a.events ++ [_]) = List.countP _ a.events + _
      rw [List.countP_append]
      cases k <;> rfl
    have hzero : Stage.counting .outside = 0 := rfl
    rw [hevents]
    show _ = n - a.data + (total Stage.counting (Function.update a.stage t (.called k)) : ℤ)
    omega
  · exact le_of_returned_snoc h.le_of_returned nofun

theorem Counts.ret {r : LatchResult} (h : Counts n a) (hfin : a.stage t = .finished r) :
    Counts n (a.ret t r) := by
  refine ⟨?_, open_update h.open_of_finished id nofun, ?_⟩
  · have hsum : total Stage.counting (Function.update a.stage t .outside) =
        total Stage.counting a.stage := total_update_eq (by rw [hfin]; rfl)
    have hevents : countDowns (a.ret t r).events = countDowns a.events := by
      show List.countP _ (a.events ++ [_]) = List.countP _ a.events
      rw [List.countP_append]
      rfl
    rw [hevents]
    show _ = n - a.data + (total Stage.counting (Function.update a.stage t .outside) : ℤ)
    rw [hsum]
    exact h.calls
  · refine le_of_returned_snoc h.le_of_returned ?_
    rintro u heq
    cases heq
    have hopen := h.open_of_finished t hfin
    have hcalls := h.calls
    omega

theorem Counts.finish {k : LatchCall} {done : Section ℤ Unit LatchResult} (h : Counts n a)
    (hcalled : a.stage t = .called k) (hloop : countDownLatch.loop k a.data = none)
    (hbody : countDownLatch.body k a.data = .ok done) : Counts n (a.finish t k done) := by
  have hsum := total_update Stage.counting a.stage t (.finished done.result)
  have hcalls := h.calls
  have hzero : Stage.counting (.finished done.result) = 0 := rfl
  rw [hcalled] at hsum
  obtain ⟨rfl, hopen, rfl⟩ | ⟨rfl, rfl⟩ | ⟨rfl, rfl⟩ := countDownLatch_body_cases hloop hbody
  · refine ⟨?_, open_update h.open_of_finished id fun _ => hopen, h.le_of_returned⟩
    have hwait : Stage.counting (.called .wait) = 0 := rfl
    show (countDowns a.events : ℤ) = n - a.data + (total _ (Function.update a.stage t _) : ℤ)
    omega
  · have hstays : a.data ≤ 0 → a.data - 1 ≤ 0 := fun hd => by omega
    refine ⟨?_, open_update h.open_of_finished hstays nofun, h.le_of_returned⟩
    have hone : Stage.counting (.called .countDown) = 1 := rfl
    show (countDowns a.events : ℤ) = n - (a.data - 1) + (total _ (Function.update a.stage t _) : ℤ)
    omega
  · refine ⟨?_, open_update h.open_of_finished id nofun, h.le_of_returned⟩
    have hget : Stage.counting (.called .getCount) = 0 := rfl
    show (countDowns a.events : ℤ) = n - a.data + (total _ (Function.update a.stage t _) : ℤ)
    omega

theorem counts_of_runs (h : Atomic.Runs countDownLatch n (.ok a)) : Counts n a := by
  refine Run.invariant ?_ (fun a act a' ha _ hact => ?_) h a rfl
  · rintro a rfl
    refine ⟨?_, nofun, fun e₁ t e₂ heq => ?_⟩
    · have hzero : total Stage.counting
          (Atomic.init n : Atomic T ℤ LatchCall LatchResult).stage = 0 := total_eq_zero fun t => rfl
      rw [hzero]
      simp [Atomic.init, countDowns]
    · have hlength := congrArg List.length heq
      simp [Atomic.init] at hlength
  · obtain ⟨t, k, hout, rfl⟩ | ⟨t, r, hfin, rfl⟩ | ⟨t, k, done, hcalled, hloop, hbody, rfl⟩ :=
      Atomic.step_cases hact
    · exact ha.call hout k
    · exact ha.ret hfin
    · exact ha.finish hcalled hloop hbody

/-- A latch made for `n` lets nobody through before `countDown()` has been called `n` times. After
that the threads that wait come to rest outside. -/
theorem countDownLatch_gate (n : ℤ) (s : Execution T ℤ Unit LatchCall LatchResult)
    (h : Execution.Runs countDownLatch n (.ok s)) :
    (∀ e₁ t e₂, s.events = e₁ ++ .ret t .waited :: e₂ → n ≤ countDowns e₁) ∧
    (∀ f : ℕ → Execution T ℤ Unit LatchCall LatchResult, f 0 = s → ¬ ∀ i, ∃ t chosen,
      (f i).step countDownLatch (.proceed t chosen) = some (.ok (f (i + 1)))) ∧
    (s.Stuck countDownLatch → n ≤ countDowns s.events → ∀ t, s.pc t = .outside) := by
  obtain ⟨a, ha, hrep⟩ := linearizable h
  have hcounts := counts_of_runs ha
  have hreturned := hcounts.le_of_returned
  rw [hrep.events] at hreturned
  refine ⟨hreturned, fun f _ => Execution.not_endless _ f, fun hstuck hcalled t => ?_⟩
  have hwaits : ∀ u, s.pc u = .outside ∨ s.pc u = .waiting .wait () := by
    intro u
    obtain hout | ⟨k, c, hwait⟩ := h.exclusive.quiet hstuck u
    · exact .inl hout
    · have hagrees := h.exclusive.agrees u
      rw [hwait] at hagrees
      obtain ⟨d', hd'⟩ := hagrees
      obtain ⟨rfl, -⟩ := countDownLatch_loop_eq_some hd'
      exact .inr hwait
  -- Nothing is under way any more, so that every call has been counted.
  have hzero : total Stage.counting a.stage = 0 := by
    refine total_eq_zero fun u => ?_
    rw [hrep.stage u]
    rcases hwaits u with hu | hu <;> rw [hu] <;> rfl
  have hcalls := hcounts.calls
  rw [hzero, hrep.events, hrep.data] at hcalls
  rcases hwaits t with hout | hwait
  · exact hout
  · have hclosed := countDownLatchOpens.not_happened_of_stuck h hstuck hwait
    simp only [countDownLatchOpens] at hclosed
    omega

/-- Two threads wait for a third one. -/
theorem countDownLatch_gate_three : ∃ s : Execution (Fin 3) ℤ Unit LatchCall LatchResult,
    (s.Stuck countDownLatch ∧ countDowns s.events = 1) ∧
    (∀ e₁ t e₂, s.events = e₁ ++ .ret t .waited :: e₂ → 1 ≤ countDowns e₁) ∧
    ∀ t, s.pc t = .outside := by
  have hrun : seen (exec (faulting (Execution.step countDownLatch))
      (.ok (Execution.init (T := Fin 3) 1))
      (List.flatten [.call 0 .wait :: List.replicate 5 (.proceed 0 none),
        .call 1 .wait :: List.replicate 5 (.proceed 1 none),
        .call 2 .countDown :: List.replicate 7 (.proceed 2 none),
        List.replicate 6 (.proceed 0 none), List.replicate 6 (.proceed 1 none)]))
      (fun s => decide (∀ t chosen,
        (s.step countDownLatch (.proceed t chosen)).isNone = true) &&
          decide (countDowns s.events = 1)) = true := by decide +kernel
  obtain ⟨s, hs, hcheck⟩ := exists_of_seen hrun
  obtain ⟨hnone, hcount⟩ := (Bool.and_eq_true _ _).mp hcheck
  have hstuck : s.Stuck countDownLatch := fun t chosen =>
    Option.isNone_iff_eq_none.mp (of_decide_eq_true hnone t chosen)
  have hcount : countDowns s.events = 1 := of_decide_eq_true hcount
  have hgate := countDownLatch_gate 1 s (.of_exec _ hs)
  refine ⟨s, ⟨hstuck, hcount⟩, fun e₁ t e₂ heq => ?_, hgate.2.2 hstuck (by omega)⟩
  exact_mod_cast hgate.1 e₁ t e₂ heq

end Calls

end DbdkyGcc.Threads
