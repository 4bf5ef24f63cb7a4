import DbdkyGcc.Foundations.Runs

/-!
# The event loop and its functors

`EventLoop` polls, handles the active channels and runs the functors that have been queued, in
this order and until `quit_` is set. Any thread may queue functors and call `quit`; what a call
does after its first write is a step of its own, and the steps of all threads interleave. The
functors are values of an arbitrary type.
-/

namespace DbdkyGcc.Loop

open Foundations

/-- The loop's own thread, or another one. -/
inductive Caller
  | loop
  | other (thread : Nat)
deriving DecidableEq

inductive Method
  | queueInLoop
  | quit
deriving DecidableEq

/-- A call that has written its member and has not returned. -/
structure Call where
  caller : Caller
  method : Method
deriving DecidableEq

/-- Where the loop thread is. -/
inductive Point (F : Type)
  /-- not in `loop()` -/
  | outside
  /-- in `loop()`, before `quit_ = false` -/
  | entering
  /-- before the test of `quit_` -/
  | test
  | poll
  /-- among the active channels; `wakeup` when the turn of `wakeupChannel_` is still to come -/
  | handling (wakeup : Bool)
  /-- in `doPendingFunctors`, before the swap -/
  | swapping
  /-- in `doPendingFunctors`, with the functors that are still to be run -/
  | calling (functors : List F)
deriving DecidableEq

/-- The members of `EventLoop` that these steps use, with the value of the eventfd. The fields
`pushed` and `ran` are history. -/
structure EventLoop (F : Type) where
  looping : Bool
  quit : Bool
  callingPendingFunctors : Bool
  wakeupFd : Nat
  pendingFunctors : List F
  point : Point F
  calls : List Call
  pushed : List F
  ran : List F

/-- A write that would take the eventfd beyond this value fails. -/
def EVENTFD_MAX : Nat := 2 ^ 64 - 2

variable {F : Type}

/-- The callbacks of channels and functors run in the loop thread, and so does what comes before
and after `loop()`. -/
def Point.runsCallbacks : Point F → Bool
  | .outside => true
  | .handling _ => true
  | .calling _ => true
  | _ => false

namespace EventLoop

variable (s : EventLoop F)

/-- No call of the thread is in progress. -/
def idle (caller : Caller) : Prop := ∀ call ∈ s.calls, call.caller ≠ caller

instance (caller : Caller) : Decidable (s.idle caller) := inferInstanceAs (Decidable (∀ _ ∈ _, _))

def mayCall (caller : Caller) : Prop :=
  s.idle caller ∧ (caller = .loop → s.point.runsCallbacks = true)

instance (caller : Caller) : Decidable (s.mayCall caller) := inferInstanceAs (Decidable (_ ∧ _))

def wakeup : EventLoop F :=
  { s with wakeupFd := if s.wakeupFd < EVENTFD_MAX then s.wakeupFd + 1 else s.wakeupFd }

/-- The rest of a call. -/
def returns (call : Call) : EventLoop F :=
  { s with
    calls := s.calls.erase call
    wakeupFd :=
      if call.caller ≠ .loop ∨ call.method = .queueInLoop ∧ s.callingPendingFunctors = true
      then s.wakeup.wakeupFd else s.wakeupFd }

end EventLoop

inductive LoopAction
  /-- `loop()` is called, and sets `looping_` -/
  | enter
  | clearQuit
  | test
  /-- `poll` returns, with `wakeupChannel_` among the active channels or without it -/
  | poll (wakeup : Bool)
  | handleRead
  /-- the active channels have been handled, and `callingPendingFunctors_` is set -/
  | doPendingFunctors
  | swap
  /-- the next functor is run -/
  | run
  /-- `callingPendingFunctors_` is cleared -/
  | finish

inductive Action (F : Type)
  | queueInLoop (caller : Caller) (f : F)
  | quit (caller : Caller)
  | returns (call : Call)
  | loop (a : LoopAction)

/-- The steps of the loop thread in `loop()`. A descriptor that `poll` reports is readable. -/
def loopStep (s : EventLoop F) (a : LoopAction) : Option (EventLoop F) :=
  match a, s.point with
  | .enter, .outside => some { s with looping := true, point := .entering }
  | .clearQuit, .entering => some { s with quit := false, point := .test }
  | .test, .test =>
    some (if s.quit then { s with looping := false, point := .outside } else { s with point := .poll })
  | .poll wakeup, .poll =>
    if wakeup = true → 0 < s.wakeupFd then some { s with point := .handling wakeup } else none
  | .handleRead, .handling true => some { s with wakeupFd := 0, point := .handling false }
  | .doPendingFunctors, .handling false =>
    some { s with callingPendingFunctors := true, point := .swapping }
  | .swap, .swapping => some { s with pendingFunctors := [], point := .calling s.pendingFunctors }
  | .run, .calling (f :: functors) => some { s with ran := s.ran ++ [f], point := .calling functors }
  | .finish, .calling [] => some { s with callingPendingFunctors := false, point := .test }
  | _, _ => none

def step (s : EventLoop F) : Action F → Option (EventLoop F)
  | .queueInLoop caller f =>
    if s.mayCall caller then
      some { s with
        pendingFunctors := s.pendingFunctors ++ [f]
        pushed := s.pushed ++ [f]
        calls := ⟨caller, .queueInLoop⟩ :: s.calls }
    else none
  | .quit caller =>
    if s.mayCall caller then some { s with quit := true, calls := ⟨caller, .quit⟩ :: s.calls }
    else none
  | .returns call => if call ∈ s.calls then some (s.returns call) else none
  | .loop a => if s.idle .loop then loopStep s a else none

/-- A new loop. -/
def EventLoop.new : EventLoop F := ⟨false, false, false, 0, [], .outside, [], [], []⟩

/-- `wakeupFd_` is readable, or a thread has pushed a functor and its call has not returned. -/
def EventLoop.WakeupDue (s : EventLoop F) : Prop :=
  0 < s.wakeupFd ∨ ∃ call ∈ s.calls, call.method = .queueInLoop

instance (s : EventLoop F) : Decidable s.WakeupDue := inferInstanceAs (Decidable (_ ∨ _))

/-- The loop does not sleep on queued functors. -/
def Attentive (s : EventLoop F) : Prop :=
  s.point = .poll → s.pendingFunctors ≠ [] → s.WakeupDue

instance [DecidableEq F] (s : EventLoop F) : Decidable (Attentive s) :=
  inferInstanceAs (Decidable (_ → _ → _))

/-- Outside `loop()` the loop thread queues functors only when a wakeup is due anyway. -/
def Announced (s : EventLoop F) : Action F → Prop
  | .queueInLoop .loop _ => s.looping = false → s.WakeupDue
  | _ => True

instance (s : EventLoop F) : ∀ a, Decidable (Announced s a)
  | .queueInLoop .loop _ => inferInstanceAs (Decidable (_ → _))
  | .queueInLoop (.other _) _ => .isTrue trivial
  | .quit _ => .isTrue trivial
  | .returns _ => .isTrue trivial
  | .loop _ => .isTrue trivial

/-! ## What the steps do -/

variable {s t : EventLoop F}

inductive LoopNext (s : EventLoop F) : LoopAction → EventLoop F → Prop
  | enter (hp : s.point = .outside) :
    LoopNext s .enter { s with looping := true, point := .entering }
  | clearQuit (hp : s.point = .entering) :
    LoopNext s .clearQuit { s with quit := false, point := .test }
  | exit (hp : s.point = .test) (hquit : s.quit = true) :
    LoopNext s .test { s with looping := false, point := .outside }
  | again (hp : s.point = .test) (hquit : s.quit = false) : LoopNext s .test { s with point := .poll }
  | poll {wakeup : Bool} (hp : s.point = .poll) :
    LoopNext s (.poll wakeup) { s with point := .handling wakeup }
  | handleRead (hp : s.point = .handling true) :
    LoopNext s .handleRead { s with wakeupFd := 0, point := .handling false }
  | doPendingFunctors (hp : s.point = .handling false) :
    LoopNext s .doPendingFunctors { s with callingPendingFunctors := true, point := .swapping }
  | swap (hp : s.point = .swapping) :
    LoopNext s .swap { s with pendingFunctors := [], point := .calling s.pendingFunctors }
  | run {f : F} {functors : List F} (hp : s.point = .calling (f :: functors)) :
    LoopNext s .run { s with ran := s.ran ++ [f], point := .calling functors }
  | finish (hp : s.point = .calling []) :
    LoopNext s .finish { s with callingPendingFunctors := false, point := .test }

theorem LoopNext.of_step {a : LoopAction} (h : loopStep s a = some t) : LoopNext s a t := by
  unfold loopStep at h
  split at h
  · next hp =>
    cases h
    exact .enter hp
  · next hp =>
    cases h
    exact .clearQuit hp
  · next hp =>
    cases h
    split
    · next hquit => exact .exit hp hquit
    · next hquit => exact .again hp (Bool.eq_false_of_not_eq_true hquit)
  · next hp =>
    rw [Option.ite_none_right_eq_some] at h
    cases h.2
    exact .poll hp
  · next hp =>
    cases h
    exact .handleRead hp
  · next hp =>
    cases h
    exact .doPendingFunctors hp
  · next hp =>
    cases h
    exact .swap hp
  · next hp =>
    cases h
    exact .run hp
  · next hp =>
    cases h
    exact .finish hp
  · cases h

inductive Next (s : EventLoop F) : Action F → EventLoop F → Prop
  | queueInLoop {caller : Caller} {f : F} (hcaller : s.mayCall caller) :
    Next s (.queueInLoop caller f) { s with
      pendingFunctors := s.pendingFunctors ++ [f]
      pushed := s.pushed ++ [f]
      calls := ⟨caller, .queueInLoop⟩ :: s.calls }
  | quit {caller : Caller} (hcaller : s.mayCall caller) :
    Next s (.quit caller) { s with quit := true, calls := ⟨caller, .quit⟩ :: s.calls }
  | returns {call : Call} (hcall : call ∈ s.calls) : Next s (.returns call) (s.returns call)
  | loop {a : LoopAction} {t : EventLoop F} (hidle : s.idle .loop) (h : LoopNext s a t) :
    Next s (.loop a) t

theorem Next.of_step {a : Action F} (h : step s a = some t) : Next s a t := by
  cases a with
  | queueInLoop caller f =>
    rw [step, Option.ite_none_right_eq_some] at h
    obtain ⟨hcaller, h⟩ := h
    cases h
    exact .queueInLoop hcaller
  | quit caller =>
    rw [step, Option.ite_none_right_eq_some] at h
    obtain ⟨hcaller, h⟩ := h
    cases h
    exact .quit hcaller
  | returns call =>
    rw [step, Option.ite_none_right_eq_some] at h
    obtain ⟨hcall, h⟩ := h
    cases h
    exact .returns hcall
  | loop a =>
    rw [step, Option.ite_none_right_eq_some] at h
    exact .loop h.1 (.of_step h.2)

/-! ## The invariant -/

/-- The functors that `doPendingFunctors` has taken and not run. -/
def Point.functors : Point F → List F
  | .calling functors => functors
  | _ => []

/-- In `doPendingFunctors`. -/
def Point.inPending : Point F → Bool
  | .swapping => true
  | .calling _ => true
  | _ => false

/-- The functors are taken before the loop polls again. -/
def Point.drains : Point F → Bool
  | .handling _ => true
  | .swapping => true
  | _ => false

/-- `wakeupFd_` is readable, or will be when a call returns. -/
def EventLoop.Woken (s : EventLoop F) : Prop :=
  0 < s.wakeupFd ∨ ∃ call ∈ s.calls, call.method = .queueInLoop ∧
    (call.caller = .loop → s.callingPendingFunctors = true)

structure Inv (s : EventLoop F) : Prop where
  order : s.pushed = s.ran ++ s.point.functors ++ s.pendingFunctors
  calling : s.callingPendingFunctors = s.point.inPending
  looping : s.looping = false ↔ s.point = .outside
  woken : s.point.drains = false → s.pendingFunctors ≠ [] → s.Woken

theorem Inv.new : Inv (.new : EventLoop F) :=
  ⟨rfl, rfl, ⟨fun _ => rfl, fun _ => rfl⟩, fun _ h => absurd rfl h⟩

theorem EventLoop.wakeup_pos (s : EventLoop F) : 0 < s.wakeup.wakeupFd := by
  simp only [EventLoop.wakeup]
  split
  · exact Nat.succ_pos _
  · next h => exact Nat.lt_of_lt_of_le (by decide) (Nat.not_lt.mp h)

/-- A return wakes the loop up unless the call was not needed for that. -/
theorem EventLoop.Woken.returns (h : s.Woken) (call : Call) : (s.returns call).Woken := by
  by_cases hwakes : call.caller ≠ .loop ∨ call.method = .queueInLoop ∧ s.callingPendingFunctors = true
  · left
    rw [EventLoop.returns, if_pos hwakes]
    exact s.wakeup_pos
  · rw [EventLoop.Woken, EventLoop.returns, if_neg hwakes]
    refine h.imp_right fun ⟨c, hc, hmethod, hcaller⟩ => ⟨c, ?_, hmethod, hcaller⟩
    refine (List.mem_erase_of_ne ?_).mpr hc
    rintro rfl
    by_cases hloop : c.caller = .loop
    · exact hwakes (.inr ⟨hmethod, hcaller hloop⟩)
    · exact hwakes (.inl hloop)

theorem EventLoop.Woken.wakeupDue (h : s.Woken) : s.WakeupDue :=
  h.imp_right fun ⟨call, hcall, hmethod, _⟩ => ⟨call, hcall, hmethod⟩

theorem EventLoop.WakeupDue.woken (h : s.WakeupDue) (hidle : s.idle .loop) : s.Woken :=
  h.imp_right fun ⟨call, hcall, hmethod⟩ =>
    ⟨call, hcall, hmethod, fun hloop => absurd hloop (hidle call hcall)⟩

/-- A push leaves the loop woken. -/
theorem Inv.queueInLoop_woken (h : Inv s) {caller : Caller} {f : F} (hcaller : s.mayCall caller)
    (ha : Announced s (.queueInLoop caller f)) (hpoint : s.point.drains = false) :
    EventLoop.Woken { s with
      pendingFunctors := s.pendingFunctors ++ [f]
      pushed := s.pushed ++ [f]
      calls := ⟨caller, .queueInLoop⟩ :: s.calls } := by
  cases caller with
  | other n => exact .inr ⟨_, List.mem_cons_self, rfl, nofun⟩
  | loop =>
    have hruns := hcaller.2 rfl
    cases hp : s.point with
    | outside =>
      -- no wakeup is made here, so one must be due already
      have hdue := (ha (h.looping.mpr hp)).woken hcaller.1
      exact hdue.imp_right fun ⟨call, hcall, hrest⟩ => ⟨call, List.mem_cons_of_mem _ hcall, hrest⟩
    | calling functors =>
      refine .inr ⟨_, List.mem_cons_self, rfl, fun _ => ?_⟩
      rw [h.calling, hp]
      rfl
    | handling wakeup =>
      rw [hp] at hpoint
      cases hpoint
    | _ =>
      rw [hp] at hruns
      cases hruns

theorem Inv.loop {a : LoopAction} (h : Inv s) (hidle : s.idle .loop) (hn : LoopNext s a t) :
    Inv t := by
  obtain ⟨horder, hcalling, hlooping, hwoken⟩ := h
  cases hn with
  | enter hp =>
    rw [hp] at horder hcalling hwoken
    exact ⟨horder, hcalling, by simp, hwoken⟩
  | clearQuit hp =>
    rw [hp] at horder hcalling hlooping hwoken
    exact ⟨horder, hcalling, by simpa using hlooping, hwoken⟩
  | exit hp _ =>
    rw [hp] at horder hcalling hwoken
    exact ⟨horder, hcalling, by simp, hwoken⟩
  | again hp _ =>
    rw [hp] at horder hcalling hlooping hwoken
    exact ⟨horder, hcalling, by simpa using hlooping, hwoken⟩
  | poll hp =>
    rw [hp] at horder hcalling hlooping
    exact ⟨horder, hcalling, by simpa using hlooping, nofun⟩
  | handleRead hp =>
    rw [hp] at horder hcalling hlooping
    exact ⟨horder, hcalling, by simpa using hlooping, nofun⟩
  | doPendingFunctors hp =>
    rw [hp] at horder hlooping
    exact ⟨horder, rfl, by simpa using hlooping, nofun⟩
  | swap hp =>
    rw [hp] at horder hcalling hlooping
    refine ⟨?_, hcalling, by simpa using hlooping, fun _ hne => absurd rfl hne⟩
    simpa [Point.functors] using horder
  | run hp =>
    rw [hp] at horder hcalling hlooping hwoken
    refine ⟨?_, hcalling, by simpa using hlooping, hwoken⟩
    simpa [Point.functors] using horder
  | finish hp =>
    rw [hp] at horder hlooping hwoken
    refine ⟨horder, rfl, by simpa using hlooping, fun _ hne => ?_⟩
    -- the loop thread is in no call, so another one has to wake it up
    exact (hwoken rfl hne).wakeupDue.woken (s := { s with callingPendingFunctors := false }) hidle

theorem Inv.next {a : Action F} (h : Inv s) (ha : Announced s a) (hn : Next s a t) : Inv t := by
  cases hn with
  | queueInLoop hcaller =>
    refine ⟨?_, h.calling, h.looping, fun hpoint _ => h.queueInLoop_woken hcaller ha hpoint⟩
    rw [h.order, List.append_assoc]
  | quit hcaller =>
    refine ⟨h.order, h.calling, h.looping, fun hpoint hne => ?_⟩
    exact (h.woken hpoint hne).imp_right
      fun ⟨call, hcall, hrest⟩ => ⟨call, List.mem_cons_of_mem _ hcall, hrest⟩
  | @returns call hcall =>
    exact ⟨h.order, h.calling, h.looping, fun hpoint hne => (h.woken hpoint hne).returns call⟩
  | loop hidle hn => exact h.loop hidle hn

/-! ## Every run -/

theorem Inv.attentive (h : Inv s) : Attentive s := by
  intro hp hne
  refine (h.woken ?_ hne).wakeupDue
  rw [hp]
  rfl

theorem Inv.of_reached (h : Inv s) (hr : Reached step Announced (· = s) t) : Inv t := by
  refine hr.invariant (I := Inv) ?_ fun s a t hs ha hstep => hs.next ha (.of_step hstep)
  rintro _ rfl
  exact h

theorem step_enter (hidle : s.idle .loop) (hp : s.point = .outside) :
    step s (.loop .enter) = some { s with looping := true, point := .entering } := by
  rw [step, if_pos hidle, loopStep]
  exact hp

theorem step_clearQuit (hidle : s.idle .loop) (hp : s.point = .entering) :
    step s (.loop .clearQuit) = some { s with quit := false, point := .test } := by
  rw [step, if_pos hidle, loopStep]
  exact hp

theorem step_test (hidle : s.idle .loop) (hp : s.point = .test) (hquit : s.quit = false) :
    step s (.loop .test) = some { s with point := .poll } := by
  rw [step, if_pos hidle, loopStep, hquit]
  · rfl
  · exact hp

/-- After a push that nobody announces, the loop thread goes to sleep on it. -/
theorem Inv.sleeps {f : F} (h : Inv s) (hcaller : s.mayCall .loop) (hlooping : s.looping = false)
    (hdue : ¬s.WakeupDue) (hstep : step s (.queueInLoop .loop f) = some t) :
    ∃ u, Reached step Announced (· = t) u ∧ ¬Attentive u := by
  have hp := h.looping.mp hlooping
  have hcalling : s.callingPendingFunctors = false := by
    rw [h.calling, hp]
    rfl
  have hquiet : t.returns ⟨.loop, .queueInLoop⟩ = { s with
      pendingFunctors := s.pendingFunctors ++ [f], pushed := s.pushed ++ [f] } := by
    rw [step, if_pos hcaller] at hstep
    cases hstep
    simp [EventLoop.returns, hcalling]
  have hreturns : step t (.returns ⟨.loop, .queueInLoop⟩) = some { s with
      pendingFunctors := s.pendingFunctors ++ [f], pushed := s.pushed ++ [f] } := by
    rw [← hquiet, step, if_pos]
    rw [step, if_pos hcaller] at hstep
    cases hstep
    exact List.mem_cons_self
  have hidle := hcaller.1
  have hcalled : Reached step Announced (· = t) _ := .next (.returns _) (.start rfl) trivial hreturns
  have hentered := Reached.next (Action.loop .enter) hcalled trivial (step_enter hidle hp)
  have hcleared := Reached.next (Action.loop .clearQuit) hentered trivial (step_clearQuit hidle rfl)
  have htested := Reached.next (Action.loop .test) hcleared trivial (step_test hidle rfl rfl)
  refine ⟨_, htested, fun hattentive => hdue ?_⟩
  exact hattentive rfl (List.append_ne_nil_of_right_ne_nil _ (List.cons_ne_nil _ _))

/-- As long as the loop thread announces what it queues outside `loop()`, functors run in the
order of their pushes and none runs twice, and the loop never polls with functors that nobody
will wake it up for. The first push that is not announced lets it do so. -/
theorem loop_attends_to_functors (h : Reached step Announced (· = EventLoop.new) s) :
    s.ran <+: s.pushed ∧ Attentive s ∧ ∀ a t, step s a = some t →
      (Announced s a ↔ ∀ u, Reached step Announced (· = t) u → Attentive u) := by
  have hs : Inv s := Inv.new.of_reached h
  refine ⟨⟨s.point.functors ++ s.pendingFunctors, ?_⟩, hs.attentive, fun a t hstep => ?_⟩
  · rw [hs.order, List.append_assoc]
  constructor
  · exact fun ha u hu => ((hs.next ha (.of_step hstep)).of_reached hu).attentive
  · intro hlater
    cases a with
    | queueInLoop caller f =>
      cases caller with
      | other n => trivial
      | loop =>
        intro hlooping
        by_contra hdue
        obtain ⟨hcaller, -⟩ := Option.ite_none_right_eq_some.mp hstep
        obtain ⟨u, hu, hsleeps⟩ := hs.sleeps hcaller hlooping hdue hstep
        exact hsleeps (hlater u hu)
    | _ => trivial

/-- Functors that are queued by another thread before `loop()`, by a channel's callback and by a
functor. -/
theorem loop_attends_to_functors_of_all_callers : ∃ s : EventLoop Nat,
    Reached step Announced (· = .new) s ∧ s.point = .poll ∧ s.ran = [10, 20] ∧
      s.pendingFunctors = [30] ∧ s.WakeupDue := by
  have hrun : ((exec (restrict Announced step) .new
      [.queueInLoop (.other 1) 10, .loop .enter, .loop .clearQuit, .loop .test,
        .returns ⟨.other 1, .queueInLoop⟩, .loop (.poll true), .queueInLoop .loop 20,
        .returns ⟨.loop, .queueInLoop⟩, .loop .handleRead, .loop .doPendingFunctors, .loop .swap,
        .loop .run, .loop .run, .queueInLoop .loop 30, .returns ⟨.loop, .queueInLoop⟩,
        .loop .finish, .loop .test]).any fun s : EventLoop Nat =>
      s.point = .poll ∧ s.ran = [10, 20] ∧ s.pendingFunctors = [30]) = true := by decide +kernel
  obtain ⟨s, hs, hcheck⟩ := (Option.any_eq_true _ _).mp hrun
  obtain ⟨hpoint, hran, hpending⟩ := of_decide_eq_true hcheck
  have hstart : Reached step Announced (· = (EventLoop.new : EventLoop Nat)) .new := .start rfl
  have hreached := hstart.exec _ hs
  obtain ⟨-, hattentive, -⟩ := loop_attends_to_functors hreached
  refine ⟨s, hreached, hpoint, hran, hpending, hattentive hpoint ?_⟩
  rw [hpending]
  exact List.cons_ne_nil _ _

/-- The loop thread queues a functor, enters `loop()` and polls. -/
theorem loop_sleeps_on_functor_queued_before : ∃ s : EventLoop Nat,
    Reached step (fun _ _ => True) (· = .new) s ∧ s.point = .poll ∧ s.pendingFunctors = [10] ∧
      ¬s.WakeupDue := by
  have hrun : ((exec step .new
      [.queueInLoop .loop 10, .returns ⟨.loop, .queueInLoop⟩, .loop .enter, .loop .clearQuit,
        .loop .test]).any fun s : EventLoop Nat =>
      s.point = .poll ∧ s.pendingFunctors = [10] ∧ ¬s.WakeupDue) = true := by decide +kernel
  obtain ⟨s, hs, hcheck⟩ := (Option.any_eq_true _ _).mp hrun
  exact ⟨s, .of_exec _ (fun _ _ _ => trivial) (.start rfl) hs, of_decide_eq_true hcheck⟩

end DbdkyGcc.Loop
