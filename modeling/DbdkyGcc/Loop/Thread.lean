import DbdkyGcc.Loop.EventLoop

/-!
# A loop in a thread of its own

`EventLoopThread` runs `threadFunc` in a new thread: it makes an `EventLoop` there, publishes its
address to `startLoop`, and calls `loop()`. The destructor of the owner calls `quit()` through
that address and joins the thread. The steps of both interleave with those of the loop and with
calls from any other thread.
-/

namespace DbdkyGcc.Loop

open Foundations

/-- Where `threadFunc` is. -/
inductive ThreadPoint
  | notStarted
  /-- the loop has been made, and `callback_` may run -/
  | starting
  /-- `loop_` has been set -/
  | published
  /-- `loop()` has been called -/
  | looping
  /-- `loop()` has returned, and the loop is destroyed -/
  | finished
deriving DecidableEq

/-- `loop_ != NULL` -/
def ThreadPoint.isPublished : ThreadPoint → Bool
  | .notStarted => false
  | .starting => false
  | _ => true

/-- Where the owner is. -/
inductive OwnerPoint
  | constructed
  /-- in `startLoop` -/
  | waiting
  | started
  /-- in the destructor, with `quit_` written -/
  | quitting
  | joined
deriving DecidableEq

/-- `quit()` has been called. -/
def OwnerPoint.hasQuit : OwnerPoint → Bool
  | .quitting => true
  | .joined => true
  | _ => false

structure EventLoopThread (F : Type) where
  loop : EventLoop F
  thread : ThreadPoint
  owner : OwnerPoint

inductive ThreadFault
  | nullLoop
  | destroyedLoop
deriving DecidableEq

inductive ThreadAction (F : Type)
  /-- `startLoop` starts the thread -/
  | startLoop
  | publish
  | startLoopReturns
  /-- the destructor writes `quit_` -/
  | destruct
  /-- `threadFunc` calls `loop()` -/
  | enter
  /-- any other step on the loop -/
  | loop (a : Action F)
  | finish
  | join

variable {F : Type}

def ownerThread : Caller := .other 0

/-- Not in `loop()`. -/
def Point.isOutside : Point F → Bool
  | .outside => true
  | _ => false

/-- Inside the while loop of `loop()`. -/
def Point.inWhile : Point F → Bool
  | .outside => false
  | .entering => false
  | _ => true

/-- Nobody else calls `quit()`, and `threadFunc` runs callbacks before it publishes the loop and
in `loop()` only. -/
def ThreadPoint.allows (thread : ThreadPoint) : Action F → Bool
  | .queueInLoop caller _ => caller = .loop → thread = .starting ∨ thread = .looping
  | .quit _ => false
  | .loop .enter => false
  | _ => true

def threadStep (s : EventLoopThread F) :
    ThreadAction F → Option (Except ThreadFault (EventLoopThread F))
  | .startLoop =>
    if s.owner = .constructed then some (.ok { s with thread := .starting, owner := .waiting })
    else none
  | .publish =>
    if s.thread = .starting ∧ s.loop.idle .loop then some (.ok { s with thread := .published })
    else none
  | .startLoopReturns =>
    if s.owner = .waiting ∧ s.thread.isPublished = true then some (.ok { s with owner := .started })
    else none
  | .destruct =>
    if s.owner = .constructed then some (.error .nullLoop)
    else if s.owner = .started then
      if s.thread = .finished then some (.error .destroyedLoop)
      else (step s.loop (.quit ownerThread)).map fun l => .ok { s with loop := l, owner := .quitting }
    else none
  | .enter =>
    if s.thread = .published then
      (step s.loop (.loop .enter)).map fun l => .ok { s with loop := l, thread := .looping }
    else none
  | .loop a =>
    if s.thread = .notStarted ∨ s.thread.allows a = false then none
    else (step s.loop a).map fun l =>
      if s.thread = .finished then .error .destroyedLoop else .ok { s with loop := l }
  | .finish =>
    if s.thread = .looping ∧ s.loop.point.isOutside = true ∧ s.loop.idle .loop then
      some (.ok { s with thread := .finished })
    else none
  | .join =>
    if s.owner = .quitting ∧ s.thread = .finished ∧ s.loop.idle ownerThread then
      some (.ok { s with owner := .joined })
    else none

/-- A new object. -/
def EventLoopThread.new : EventLoopThread F := ⟨.new, .notStarted, .constructed⟩

/-- The thread is not in the while loop with `quit_` false once `quit()` has been called. -/
def QuitKept (s : EventLoopThread F) : Prop :=
  s.owner.hasQuit = true → s.loop.point.inWhile = true → s.loop.quit = true

/-- The destructor runs when the thread has reached the while loop. -/
def Entered (s : EventLoopThread F) : ThreadAction F → Prop
  | .destruct => s.loop.point.inWhile = true
  | _ => True

instance (s : EventLoopThread F) : ∀ a, Decidable (Entered s a)
  | .destruct => inferInstanceAs (Decidable (_ = _))
  | .startLoop => .isTrue trivial
  | .publish => .isTrue trivial
  | .startLoopReturns => .isTrue trivial
  | .enter => .isTrue trivial
  | .loop _ => .isTrue trivial
  | .finish => .isTrue trivial
  | .join => .isTrue trivial

/-! ## What the steps do -/

variable {s t : EventLoopThread F} {l l' : EventLoop F}

inductive ThreadNext (s : EventLoopThread F) : ThreadAction F → EventLoopThread F → Prop
  | startLoop (ho : s.owner = .constructed) :
    ThreadNext s .startLoop { s with thread := .starting, owner := .waiting }
  | publish (ht : s.thread = .starting) (hidle : s.loop.idle .loop) :
    ThreadNext s .publish { s with thread := .published }
  | startLoopReturns (ho : s.owner = .waiting) (ht : s.thread.isPublished = true) :
    ThreadNext s .startLoopReturns { s with owner := .started }
  | destruct {l : EventLoop F} (ho : s.owner = .started) (hl : Next s.loop (.quit ownerThread) l) :
    ThreadNext s .destruct { s with loop := l, owner := .quitting }
  | enter {l : EventLoop F} (ht : s.thread = .published) (hl : Next s.loop (.loop .enter) l) :
    ThreadNext s .enter { s with loop := l, thread := .looping }
  | loop {a : Action F} {l : EventLoop F} (ht : s.thread ≠ .finished)
    (hallows : s.thread.allows a = true) (hl : Next s.loop a l) :
    ThreadNext s (.loop a) { s with loop := l }
  | finish (ht : s.thread = .looping) (hp : s.loop.point.isOutside = true) :
    ThreadNext s .finish { s with thread := .finished }
  | join (ho : s.owner = .quitting) : ThreadNext s .join { s with owner := .joined }

theorem ThreadNext.of_step {a : ThreadAction F} (h : threadStep s a = some (.ok t)) :
    ThreadNext s a t := by
  cases a with
  | startLoop =>
    obtain ⟨ho, h⟩ := Option.ite_none_right_eq_some.mp h
    cases h
    exact .startLoop ho
  | publish =>
    obtain ⟨⟨ht, hidle⟩, h⟩ := Option.ite_none_right_eq_some.mp h
    cases h
    exact .publish ht hidle
  | startLoopReturns =>
    obtain ⟨⟨ho, ht⟩, h⟩ := Option.ite_none_right_eq_some.mp h
    cases h
    exact .startLoopReturns ho ht
  | destruct =>
    rw [threadStep] at h
    split at h
    · cases h
    · obtain ⟨ho, h⟩ := Option.ite_none_right_eq_some.mp h
      split at h
      · cases h
      · obtain ⟨l, hl, h⟩ := Option.map_eq_some_iff.mp h
        cases h
        exact .destruct ho (.of_step hl)
  | enter =>
    obtain ⟨ht, h⟩ := Option.ite_none_right_eq_some.mp h
    obtain ⟨l, hl, h⟩ := Option.map_eq_some_iff.mp h
    cases h
    exact .enter ht (.of_step hl)
  | loop a =>
    obtain ⟨hmay, h⟩ := Option.ite_none_left_eq_some.mp h
    obtain ⟨l, hl, h⟩ := Option.map_eq_some_iff.mp h
    rw [not_or, Bool.not_eq_false] at hmay
    split at h
    · cases h
    · next ht =>
      cases h
      exact .loop ht hmay.2 (.of_step hl)
  | finish =>
    obtain ⟨⟨ht, hp, -⟩, h⟩ := Option.ite_none_right_eq_some.mp h
    cases h
    exact .finish ht hp
  | join =>
    obtain ⟨⟨ho, -⟩, h⟩ := Option.ite_none_right_eq_some.mp h
    cases h
    exact .join ho

/-- What a step of the loop other than `quit()` and `enter` does to the loop's point and
`quit_`. -/
structure Moves (l l' : EventLoop F) : Prop where
  quit : l.point ≠ .entering → l'.quit = l.quit
  cleared : l.quit = false → l'.quit = false
  outside : l.point = .outside → l'.point = .outside
  entering : l'.point = .entering → l.point = .entering
  exits : l'.point = .outside → l.point = .outside ∨ l.quit = true

theorem Moves.of_next {a : Action F} {thread : ThreadPoint} (hallows : thread.allows a = true)
    (h : Next l a l') : Moves l l' := by
  cases h with
  | queueInLoop _ => exact ⟨fun _ => rfl, id, id, id, .inl⟩
  | quit _ => cases hallows
  | returns _ => exact ⟨fun _ => rfl, id, id, id, .inl⟩
  | loop _ h =>
    cases h with
    | enter _ => cases hallows
    | clearQuit hp => exact ⟨fun hne => absurd hp hne, fun _ => rfl, by simp [hp], nofun, nofun⟩
    | exit hp hquit => exact ⟨fun _ => rfl, id, by simp [hp], nofun, fun _ => .inr hquit⟩
    | _ hp => exact ⟨fun _ => rfl, id, by simp [hp], nofun, nofun⟩

/-- The loop thread is in no call unless it begins one. -/
theorem Next.idle {a : Action F} (h : Next l a l') (hidle : l.idle .loop)
    (hqueue : ∀ f, a ≠ .queueInLoop .loop f) (hquit : a ≠ .quit .loop) : l'.idle .loop := by
  cases h with
  | @queueInLoop caller f _ =>
    refine List.forall_mem_cons.mpr ⟨fun heq => hqueue f ?_, hidle⟩
    rw [← heq]
  | @quit caller _ =>
    refine List.forall_mem_cons.mpr ⟨fun heq => hquit ?_, hidle⟩
    rw [← heq]
  | returns _ => exact fun call hcall => hidle call (List.mem_of_mem_erase hcall)
  | loop _ h =>
    cases h with
    | _ => exact hidle

/-! ## The invariant -/

/-- How far the two threads and the loop can be apart, whenever the destructor runs. -/
structure Staged (s : EventLoopThread F) : Prop where
  constructed : s.owner = .constructed → s.thread = .notStarted
  started : s.owner = .started → s.thread.isPublished = true
  early : s.thread ≠ .looping → s.thread ≠ .finished → s.loop.point = .outside
  idle : s.thread = .published ∨ s.loop.point = .entering → s.loop.idle .loop
  running : s.owner.hasQuit = false → s.loop.quit = false ∧ s.thread ≠ .finished ∧
    (s.thread = .looping → s.loop.point ≠ .outside)

theorem Staged.new : Staged (.new : EventLoopThread F) :=
  ⟨fun _ => rfl, nofun, fun _ _ => rfl, nofun, fun _ => ⟨rfl, nofun, nofun⟩⟩

theorem Staged.not_constructed (h : Staged s) (ht : s.thread ≠ .notStarted) :
    s.owner ≠ .constructed :=
  fun ho => ht (h.constructed ho)

/-- A step of the loop in its thread. -/
theorem Staged.loop {a : Action F} (h : Staged s) (ht : s.thread ≠ .finished)
    (hallows : s.thread.allows a = true) (hl : Next s.loop a l) : Staged { s with loop := l } := by
  have hmoves := Moves.of_next hallows hl
  refine ⟨h.constructed, h.started, fun h₁ h₂ => hmoves.outside (h.early h₁ h₂), fun hp => ?_,
    fun howner => ?_⟩
  · have hpoint : s.thread = .published ∨ s.loop.point = .entering := hp.imp_right hmoves.entering
    refine hl.idle (h.idle hpoint) ?_ ?_
    · rintro f rfl
      rcases hpoint with hpublished | hentering
      · rw [hpublished] at hallows
        cases hallows
      · cases hl with
        | queueInLoop hcaller =>
          have hruns := hcaller.2 rfl
          rw [hentering] at hruns
          cases hruns
    · rintro rfl
      cases hallows
  · obtain ⟨hquit, -, hinside⟩ := h.running howner
    refine ⟨hmoves.cleared hquit, ht, fun hlooping hout => ?_⟩
    rcases hmoves.exits hout with hp | htrue
    · exact hinside hlooping hp
    · exact absurd (hquit.symm.trans htrue) Bool.false_ne_true

theorem Staged.next {a : ThreadAction F} (h : Staged s) (hn : ThreadNext s a t) : Staged t := by
  cases hn with
  | startLoop ho =>
    have hthread := h.constructed ho
    have hearly := h.early (by rw [hthread]; decide) (by rw [hthread]; decide)
    have hrunning := h.running (by rw [ho]; rfl)
    exact ⟨nofun, nofun, fun _ _ => hearly, fun hp => h.idle (.inr (hp.resolve_left nofun)),
      fun _ => ⟨hrunning.1, nofun, nofun⟩⟩
  | publish ht hidle =>
    have hearly := h.early (by rw [ht]; decide) (by rw [ht]; decide)
    have hnot := h.not_constructed (by rw [ht]; decide)
    exact ⟨fun ho => absurd ho hnot, fun _ => rfl, fun _ _ => hearly, fun _ => hidle,
      fun howner => ⟨(h.running howner).1, nofun, nofun⟩⟩
  | startLoopReturns ho ht =>
    exact ⟨nofun, fun _ => ht, h.early, h.idle, fun _ => h.running (by rw [ho]; rfl)⟩
  | @destruct l ho hl =>
    cases hl with
    | quit hcaller =>
      refine ⟨nofun, nofun, h.early, fun hp => ?_, nofun⟩
      exact List.forall_mem_cons.mpr ⟨by decide, h.idle hp⟩
  | @enter l ht hl =>
    cases hl with
    | loop hidle hl =>
      cases hl with
      | enter hp =>
        have hnot := h.not_constructed (by rw [ht]; decide)
        exact ⟨fun ho => absurd ho hnot, fun _ => rfl, fun hne => absurd rfl hne, fun _ => hidle,
          fun howner => ⟨(h.running howner).1, nofun, fun _ => nofun⟩⟩
  | loop ht hallows hl => exact h.loop ht hallows hl
  | finish ht hp =>
    have hout : s.loop.point = .outside := by
      cases hpoint : s.loop.point with
      | outside => rfl
      | _ =>
        rw [hpoint] at hp
        cases hp
    have hnot := h.not_constructed (by rw [ht]; decide)
    exact ⟨fun ho => absurd ho hnot, fun _ => rfl, fun _ hne => absurd rfl hne,
      fun hp => h.idle (.inr (hp.resolve_left nofun)),
      fun howner => absurd hout ((h.running howner).2.2 ht)⟩
  | join ho => exact ⟨nofun, nofun, h.early, h.idle, nofun⟩

/-- After a quit in time the loop is not entered any more, and nothing clears `quit_`. -/
structure Quit (s : EventLoopThread F) : Prop where
  quit : s.loop.quit = true
  thread : s.thread = .looping ∨ s.thread = .finished
  entered : s.loop.point ≠ .entering

theorem Quit.next {a : ThreadAction F} (h : Quit s) (hn : ThreadNext s a t)
    (howner : s.owner.hasQuit = true) : Quit t := by
  cases hn with
  | startLoop ho =>
    rw [ho] at howner
    cases howner
  | publish ht _ => rcases h.thread with hthread | hthread <;> cases ht.symm.trans hthread
  | startLoopReturns ho _ =>
    rw [ho] at howner
    cases howner
  | destruct ho _ =>
    rw [ho] at howner
    cases howner
  | enter ht _ => rcases h.thread with hthread | hthread <;> cases ht.symm.trans hthread
  | loop _ hallows hl =>
    have hmoves := Moves.of_next hallows hl
    exact ⟨(hmoves.quit h.entered).trans h.quit, h.thread, fun hp => h.entered (hmoves.entering hp)⟩
  | finish _ _ => exact ⟨h.quit, .inr rfl, h.entered⟩
  | join _ => exact ⟨h.quit, h.thread, h.entered⟩

/-- The destructor in time. -/
theorem Staged.destruct (h : Staged s) (hn : ThreadNext s .destruct t)
    (hin : s.loop.point.inWhile = true) : Quit t := by
  have hentered : s.loop.point ≠ .entering := by
    intro hp
    rw [hp] at hin
    cases hin
  have hthread : s.thread = .looping ∨ s.thread = .finished := by
    by_contra hnot
    rw [not_or] at hnot
    rw [h.early hnot.1 hnot.2] at hin
    cases hin
  cases hn with
  | destruct _ hl =>
    cases hl with
    | quit _ => exact ⟨rfl, hthread, hentered⟩

/-- The invariant of the runs in which the destructor is in time. -/
def Timely (s : EventLoopThread F) : Prop := Staged s ∧ (s.owner.hasQuit = true → Quit s)

theorem Timely.next {a : ThreadAction F} (h : Timely s) (ha : Entered s a) (hn : ThreadNext s a t) :
    Timely t := by
  refine ⟨h.1.next hn, fun howner => ?_⟩
  by_cases hquit : s.owner.hasQuit = true
  · exact (h.2 hquit).next hn hquit
  · cases hn with
    | startLoop _ => cases howner
    | startLoopReturns _ _ => cases howner
    | destruct ho hl => exact h.1.destruct (.destruct ho hl) ha
    | join ho => exact absurd (by rw [ho]; rfl) hquit
    | _ => exact absurd howner hquit

theorem Timely.of_run (h : Timely s) (hrun : Run threadStep Entered (· = s) (.ok t)) : Timely t := by
  refine Run.invariant (I := Timely) ?_ (fun s a t hs ha hstep => hs.next ha (.of_step hstep))
    hrun t rfl
  rintro _ rfl
  exact h

theorem Timely.quitKept (h : Timely s) : QuitKept s := fun howner _ => (h.2 howner).quit

/-- The steps of `threadFunc` up to the while loop, with `quit_` cleared on the way. -/
theorem exists_run_to_while (hthread : s.thread = .published ∧ s.loop.point = .outside ∨
      s.thread = .looping ∧ s.loop.point = .entering) (hidle : s.loop.idle .loop) :
    ∃ u, Run threadStep Entered (· = s) (.ok u) ∧ u.owner = s.owner ∧
      u.loop.point = .test ∧ u.loop.quit = false := by
  have hclear : ∀ v : EventLoopThread F, v.thread = .looping → v.loop.point = .entering →
      v.loop.idle .loop → threadStep v (.loop (.loop .clearQuit)) =
        some (.ok { v with loop := { v.loop with quit := false, point := .test } }) := by
    intro v ht hp hidle
    rw [threadStep, ht, if_neg (by simp [ThreadPoint.allows]), step_clearQuit hidle hp]
    rfl
  have hstart : Run threadStep Entered (· = s) (.ok s) := Run.start rfl
  rcases hthread with ⟨ht, hp⟩ | ⟨ht, hp⟩
  · have henter : threadStep s .enter = some (.ok { s with
        loop := { s.loop with looping := true, point := .entering }, thread := .looping }) := by
      rw [threadStep, if_pos ht, step_enter hidle hp]
      rfl
    have hentered := hstart.next .enter trivial henter
    have hcleared := hentered.next (.loop (.loop .clearQuit)) trivial (hclear _ rfl rfl hidle)
    exact ⟨_, hcleared, rfl, rfl, rfl⟩
  · exact ⟨_, hstart.next (.loop (.loop .clearQuit)) trivial (hclear s ht hp hidle), rfl, rfl, rfl⟩

/-- A destructor that runs before the while loop has its quit overwritten. -/
theorem Staged.loses_quit (h : Staged s) (hn : ThreadNext s .destruct t)
    (hin : ¬s.loop.point.inWhile = true) :
    ∃ u, Run threadStep Entered (· = t) (.ok u) ∧ ¬QuitKept u := by
  cases hn with
  | destruct ho hl =>
    cases hl with
    | quit hcaller =>
      obtain ⟨-, hlive, hinside⟩ := h.running (by rw [ho]; rfl)
      have hpublished := h.started ho
      have hplace : s.thread = .published ∧ s.loop.point = .outside ∨
          s.thread = .looping ∧ s.loop.point = .entering := by
        cases hthread : s.thread with
        | published => exact .inl ⟨rfl, h.early (by rw [hthread]; decide) hlive⟩
        | looping =>
          refine .inr ⟨rfl, ?_⟩
          cases hp : s.loop.point with
          | outside => exact absurd hp (hinside hthread)
          | entering => rfl
          | _ =>
            rw [hp] at hin
            exact absurd rfl hin
        | finished => exact absurd hthread hlive
        | _ =>
          rw [hthread] at hpublished
          cases hpublished
      have hidle := h.idle (hplace.imp And.left And.right)
      obtain ⟨u, hrun, howner, hpoint, hquit⟩ := exists_run_to_while
        (s := { s with
          loop := { s.loop with quit := true, calls := ⟨ownerThread, .quit⟩ :: s.loop.calls }
          owner := .quitting }) hplace (List.forall_mem_cons.mpr ⟨by decide, hidle⟩)
      refine ⟨u, hrun, fun hkept => ?_⟩
      have htrue := hkept (by rw [howner]; rfl) (by rw [hpoint]; rfl)
      exact absurd (hquit.symm.trans htrue) Bool.false_ne_true

/-- A quit is kept in every run in which the destructor does not run before the thread has
reached the while loop of `loop()`. One that runs before can be lost. -/
theorem quit_is_kept (h : Run threadStep Entered (· = EventLoopThread.new) (.ok s)) :
    QuitKept s ∧ ∀ a t, threadStep s a = some (.ok t) →
      (Entered s a ↔ ∀ u, Run threadStep Entered (· = t) (.ok u) → QuitKept u) := by
  have hs : Timely s := Timely.of_run ⟨.new, nofun⟩ h
  refine ⟨hs.quitKept, fun a t hstep => ?_⟩
  constructor
  · exact fun ha u hu => ((hs.next ha (.of_step hstep)).of_run hu).quitKept
  · intro hlater
    cases a with
    | destruct =>
      by_contra hin
      obtain ⟨u, hu, hlost⟩ := hs.1.loses_quit (.of_step hstep) hin
      exact hlost (hlater u hu)
    | _ => trivial

/-- The destructor runs while the loop polls, and the thread leaves the loop. -/
theorem quit_is_kept_while_polling : ∃ s : EventLoopThread Nat,
    Run threadStep Entered (· = EventLoopThread.new) (.ok s) ∧ s.owner = .quitting ∧
      s.loop.point = .test ∧ s.loop.quit = true := by
  obtain ⟨s, hs, hcheck⟩ := exists_of_seen (show seen
      (exec (faulting (restrict Entered threadStep)) (.ok (EventLoopThread.new : EventLoopThread Nat))
        [.startLoop, .publish, .startLoopReturns, .enter, .loop (.loop .clearQuit),
          .loop (.loop .test), .destruct, .loop (.returns ⟨ownerThread, .quit⟩),
          .loop (.loop (.poll true)), .loop (.loop .handleRead), .loop (.loop .doPendingFunctors),
          .loop (.loop .swap), .loop (.loop .finish)])
      (fun s => s.owner = .quitting ∧ s.loop.point = .test) = true by decide +kernel)
  obtain ⟨howner, hpoint⟩ := of_decide_eq_true hcheck
  have hstart : Run threadStep Entered (· = (EventLoopThread.new : EventLoopThread Nat)) (.ok .new) :=
    Run.start rfl
  have hrun := hstart.exec _ hs
  obtain ⟨hkept, -⟩ := quit_is_kept hrun
  exact ⟨s, hrun, howner, hpoint, hkept (by rw [howner]; rfl) (by rw [hpoint]; rfl)⟩

/-- The destructor runs between the publication of the loop and `loop()`. -/
theorem quit_is_lost_before_loop : ∃ s : EventLoopThread Nat,
    Run threadStep (fun _ _ => True) (· = EventLoopThread.new) (.ok s) ∧ s.owner = .quitting ∧
      s.loop.point = .poll ∧ s.loop.quit = false := by
  obtain ⟨s, hs, hcheck⟩ := exists_of_seen (show seen
      (exec (faulting threadStep) (.ok (EventLoopThread.new : EventLoopThread Nat))
        [.startLoop, .publish, .startLoopReturns, .destruct,
          .loop (.returns ⟨ownerThread, .quit⟩), .enter, .loop (.loop .clearQuit),
          .loop (.loop .test)])
      (fun s => s.owner = .quitting ∧ s.loop.point = .poll ∧ s.loop.quit = false) = true by
    decide +kernel)
  exact ⟨s, Run.of_exec (· = .new) rfl _ hs, of_decide_eq_true hcheck⟩

end DbdkyGcc.Loop
