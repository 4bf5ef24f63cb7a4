import DbdkyGcc.Foundations.Places
import DbdkyGcc.Foundations.Runs

/-!
# Locks and conditions

A class guarded by a `MutexLock` has functions of one shape: a `MutexLockGuard`, a loop that waits
on a `Condition` while some test of the data holds, a body, notifications, and the return that lets
the guard go. `Monitor` holds what differs between such classes, and `Execution` is any number of
threads that call the functions of one object, step by step: the mutex and `holder_` change at
different moments, a waiting thread may wake up for no reason, and one that was notified has to get
the mutex again before it looks at the data.

The threads keep out of each other's way (`Exclusive`), so each call takes effect as a whole at some
moment between its start and its return: every run has the calls and returns of a run of `Atomic`.
-/

namespace DbdkyGcc.Threads

open Foundations

/-- `notify()` or `notifyAll()` of a condition. -/
inductive Signal (C : Type)
  | notify (c : C)
  | notifyAll (c : C)
  deriving DecidableEq, Repr

/-- What a function does once its loop is left: the new data, the notifications and the result. -/
structure Section (σ C ρ : Type) where
  data : σ
  signals : List (Signal C)
  result : ρ

/-- How a body fails. -/
inductive Failure
  | assertion
  | overflow
  deriving DecidableEq, Repr

/-- A class with one mutex, by its data, conditions, calls and results. -/
structure Monitor (σ C κ ρ : Type) where
  /-- The condition that the loop of a call waits for, while its test holds. -/
  loop : κ → σ → Option C
  body : κ → σ → Except Failure (Section σ C ρ)

/-- The members of a `MutexLock`: the thread that has the pthread mutex, and `holder_`. -/
structure MutexLock (T : Type) where
  mutex : Option T
  holder : Option T

namespace MutexLock

variable {T : Type}

def isLockedByThisThread (m : MutexLock T) (t : T) : Prop := m.holder = some t

def assignHolder (m : MutexLock T) (t : T) : MutexLock T := { m with holder := some t }

def unassignHolder (m : MutexLock T) : MutexLock T := { m with holder := none }

/-- `pthread_mutex_lock` returns. -/
def acquire (m : MutexLock T) (t : T) : MutexLock T := { m with mutex := some t }

/-- `pthread_mutex_unlock`, and what `pthread_cond_wait` begins with. -/
def release (m : MutexLock T) : MutexLock T := { m with mutex := none }

end MutexLock

/-- Where a thread is in a call: before the mutex of `lock()`; with it, before `assignHolder()`; at
the test of the loop; in `wait()` before `UnassignGuard` and behind it; asleep in
`pthread_cond_wait`, or woken there and without the mutex; before the body; before the rest of the
notifications; in `unlock()`, before the mutex is released. -/
inductive Pc (C κ ρ : Type)
  | outside
  | locking (k : κ)
  | acquired (k : κ)
  | testing (k : κ)
  | unassigning (k : κ) (c : C)
  | entering (k : κ) (c : C)
  | waiting (k : κ) (c : C)
  | woken (k : κ)
  | running (k : κ)
  | signalling (signals : List (Signal C)) (r : ρ)
  | unlocking (r : ρ)

namespace Pc

variable {σ C κ ρ : Type}

/-- Whether the thread has the mutex. -/
def owns : Pc C κ ρ → Bool
  | .outside | .locking _ | .waiting _ _ | .woken _ => false
  | _ => true

/-- Whether `holder_` names the thread. -/
def assigned : Pc C κ ρ → Bool
  | .testing _ | .unassigning _ _ | .running _ | .signalling _ _ => true
  | _ => false

section Waiting

variable [DecidableEq C]

def waitsFor (c : C) : Pc C κ ρ → Bool
  | .waiting _ c' => c' = c
  | _ => false

/-- What becomes of a thread when the condition is notified and it is chosen. -/
def wake (c : C) : Pc C κ ρ → Pc C κ ρ
  | .waiting k c' => if c' = c then .woken k else .waiting k c'
  | p => p

theorem waitsFor_iff {c : C} {p : Pc C κ ρ} : p.waitsFor c = true ↔ ∃ k, p = .waiting k c := by
  cases p <;> simp [waitsFor]

@[simp] theorem wake_waiting (c : C) (k : κ) :
    (Pc.waiting k c : Pc C κ ρ).wake c = .woken k := if_pos rfl

@[simp] theorem owns_wake (c : C) (p : Pc C κ ρ) : (p.wake c).owns = p.owns := by
  cases p with
  | waiting k c' => rw [wake]; split <;> rfl
  | _ => rfl

@[simp] theorem assigned_wake (c : C) (p : Pc C κ ρ) : (p.wake c).assigned = p.assigned := by
  cases p with
  | waiting k c' => rw [wake]; split <;> rfl
  | _ => rfl

end Waiting

/-- What a thread has found out about the data, and still may rely on. -/
def Agrees (M : Monitor σ C κ ρ) (d : σ) : Pc C κ ρ → Prop
  | .running k => M.loop k d = none
  | .unassigning k c | .entering k c => M.loop k d = some c
  | .waiting k c => ∃ d', M.loop k d' = some c
  | _ => True

/-- Without the mutex a thread relies on nothing that another one can change. -/
theorem Agrees.of_not_owns {M : Monitor σ C κ ρ} {d d' : σ} {p : Pc C κ ρ} (h : p.Agrees M d)
    (hp : p.owns = false) : p.Agrees M d' := by
  cases p <;> first | exact h | cases hp

theorem Agrees.wake [DecidableEq C] {M : Monitor σ C κ ρ} {d : σ} {p : Pc C κ ρ} (c : C)
    (h : p.Agrees M d) : (p.wake c).Agrees M d := by
  cases p with
  | waiting k c' =>
    rw [Pc.wake]
    split
    · trivial
    · exact h
  | _ => exact h

end Pc

/-- A call or a return, as the threads see it. -/
inductive Event (T κ ρ : Type)
  | call (t : T) (k : κ)
  | ret (t : T) (r : ρ)
  deriving DecidableEq

/-- An object with its lock, the threads that use it, and the calls and returns so far. -/
structure Execution (T σ C κ ρ : Type) where
  data : σ
  lock : MutexLock T
  pc : T → Pc C κ ρ
  events : List (Event T κ ρ)

inductive Action (T κ : Type)
  | call (t : T) (k : κ)
  /-- The next step of a thread; if that is `notify()`, the thread that is woken. -/
  | proceed (t : T) (chosen : Option T)
  /-- A thread wakes up without a notification. -/
  | spurious (t : T)

namespace Execution

variable {T σ C κ ρ : Type} [DecidableEq T]

/-- A new object, with no thread in any of its functions. -/
def init (d : σ) : Execution T σ C κ ρ := ⟨d, ⟨none, none⟩, fun _ => .outside, []⟩

def goto (s : Execution T σ C κ ρ) (t : T) (p : Pc C κ ρ) : Execution T σ C κ ρ :=
  { s with pc := Function.update s.pc t p }

def setLock (s : Execution T σ C κ ρ) (m : MutexLock T) : Execution T σ C κ ρ := { s with lock := m }

def record (s : Execution T σ C κ ρ) (e : Event T κ ρ) : Execution T σ C κ ρ :=
  { s with events := s.events ++ [e] }

section Step

variable [DecidableEq C]

/-- `notify()` that wakes `v`. -/
def wakeOne (s : Execution T σ C κ ρ) (c : C) (v : T) : Execution T σ C κ ρ :=
  s.goto v ((s.pc v).wake c)

omit [DecidableEq T] in
/-- `notifyAll()`. -/
def wakeAll (s : Execution T σ C κ ρ) (c : C) : Execution T σ C κ ρ :=
  { s with pc := fun v => (s.pc v).wake c }

variable [Fintype T]

/-- `pthread_cond_signal` wakes one of the threads that wait, whichever, if there is one. -/
def notify (s : Execution T σ C κ ρ) (c : C) : Option T → Option (Execution T σ C κ ρ)
  | none => if ∀ v, (s.pc v).waitsFor c = false then some s else none
  | some v => if (s.pc v).waitsFor c = true then some (s.wakeOne c v) else none

/-- The body of a call. -/
def perform (M : Monitor σ C κ ρ) (s : Execution T σ C κ ρ) (t : T) (k : κ) :
    Except Failure (Execution T σ C κ ρ) := do
  let done ← M.body k s.data
  .ok ({ s with data := done.data }.goto t (.signalling done.signals done.result))

/-- The next step of a thread that is at `p`. -/
def proceed (M : Monitor σ C κ ρ) (s : Execution T σ C κ ρ) (t : T) (chosen : Option T) :
    Pc C κ ρ → Option (Except Failure (Execution T σ C κ ρ))
  | .outside => none
  | .locking k | .woken k =>
    if s.lock.mutex = none then some (.ok ((s.setLock (s.lock.acquire t)).goto t (.acquired k)))
    else none
  | .acquired k => some (.ok ((s.setLock (s.lock.assignHolder t)).goto t (.testing k)))
  | .testing k =>
    some (.ok (s.goto t ((M.loop k s.data).elim (.running k) (.unassigning k))))
  | .unassigning k c => some (.ok ((s.setLock s.lock.unassignHolder).goto t (.entering k c)))
  | .entering k c => some (.ok ((s.setLock s.lock.release).goto t (.waiting k c)))
  | .waiting _ _ => none
  | .running k => some (s.perform M t k)
  | .signalling (.notify c :: signals) r =>
    (s.notify c chosen).map fun s => .ok (s.goto t (.signalling signals r))
  | .signalling (.notifyAll c :: signals) r =>
    some (.ok ((s.wakeAll c).goto t (.signalling signals r)))
  | .signalling [] r => some (.ok ((s.setLock s.lock.unassignHolder).goto t (.unlocking r)))
  | .unlocking r => some (.ok (((s.setLock s.lock.release).goto t .outside).record (.ret t r)))

omit [DecidableEq C] [Fintype T] in
/-- A thread calls a function. -/
def call (s : Execution T σ C κ ρ) (t : T) (k : κ) : Pc C κ ρ → Option (Execution T σ C κ ρ)
  | .outside => some ((s.goto t (.locking k)).record (.call t k))
  | _ => none

omit [DecidableEq C] [Fintype T] in
def spurious (s : Execution T σ C κ ρ) (t : T) : Pc C κ ρ → Option (Execution T σ C κ ρ)
  | .waiting k _ => some (s.goto t (.woken k))
  | _ => none

def step (M : Monitor σ C κ ρ) (s : Execution T σ C κ ρ) :
    Action T κ → Option (Except Failure (Execution T σ C κ ρ))
  | .call t k => (s.call t k (s.pc t)).map .ok
  | .proceed t chosen => s.proceed M t chosen (s.pc t)
  | .spurious t => (s.spurious t (s.pc t)).map .ok

end Step

/-- The runs of the threads on an object that begins with the data `d`. -/
def Runs [DecidableEq C] [Fintype T] (M : Monitor σ C κ ρ) (d : σ) :
    Except Failure (Execution T σ C κ ρ) → Prop :=
  Run (step M) (fun _ _ => True) (· = init d)

theorem Runs.of_exec [DecidableEq C] [Fintype T] {M : Monitor σ C κ ρ} {d : σ}
    {p : Except Failure (Execution T σ C κ ρ)} (acts : List (Action T κ))
    (h : exec (faulting (step M)) (.ok (init d)) acts = some p) : Runs M d p :=
  Run.of_exec (· = init d) rfl acts h

/-- What a thread can do by itself, and what then becomes of the system. -/
inductive Moves [DecidableEq C] (M : Monitor σ C κ ρ) (s : Execution T σ C κ ρ) (t : T) :
    Execution T σ C κ ρ → Prop
  | lock {k : κ} (h : s.pc t = .locking k ∨ s.pc t = .woken k) (hfree : s.lock.mutex = none) :
      Moves M s t ((s.setLock (s.lock.acquire t)).goto t (.acquired k))
  | assign {k : κ} (h : s.pc t = .acquired k) :
      Moves M s t ((s.setLock (s.lock.assignHolder t)).goto t (.testing k))
  | leave {k : κ} (h : s.pc t = .testing k) (hloop : M.loop k s.data = none) :
      Moves M s t (s.goto t (.running k))
  | wait {k : κ} {c : C} (h : s.pc t = .testing k) (hloop : M.loop k s.data = some c) :
      Moves M s t (s.goto t (.unassigning k c))
  | unassign {k : κ} {c : C} (h : s.pc t = .unassigning k c) :
      Moves M s t ((s.setLock s.lock.unassignHolder).goto t (.entering k c))
  | sleep {k : κ} {c : C} (h : s.pc t = .entering k c) :
      Moves M s t ((s.setLock s.lock.release).goto t (.waiting k c))
  | perform {k : κ} {done : Section σ C ρ} (h : s.pc t = .running k)
      (hbody : M.body k s.data = .ok done) :
      Moves M s t ({ s with data := done.data }.goto t (.signalling done.signals done.result))
  | skip {c : C} {signals : List (Signal C)} {r : ρ}
      (h : s.pc t = .signalling (.notify c :: signals) r)
      (hnone : ∀ v, (s.pc v).waitsFor c = false) :
      Moves M s t (s.goto t (.signalling signals r))
  | notify {c : C} {signals : List (Signal C)} {r : ρ} {v : T} {k : κ}
      (h : s.pc t = .signalling (.notify c :: signals) r) (hv : s.pc v = .waiting k c) :
      Moves M s t ((s.goto v (.woken k)).goto t (.signalling signals r))
  | notifyAll {c : C} {signals : List (Signal C)} {r : ρ}
      (h : s.pc t = .signalling (.notifyAll c :: signals) r) :
      Moves M s t ((s.wakeAll c).goto t (.signalling signals r))
  | unlock {r : ρ} (h : s.pc t = .signalling [] r) :
      Moves M s t ((s.setLock s.lock.unassignHolder).goto t (.unlocking r))
  | ret {r : ρ} (h : s.pc t = .unlocking r) :
      Moves M s t (((s.setLock s.lock.release).goto t .outside).record (.ret t r))

section Inversion

variable [DecidableEq C] [Fintype T] {M : Monitor σ C κ ρ} {s s' : Execution T σ C κ ρ} {t : T}

theorem Moves.of_proceed {chosen : Option T}
    (h : step M s (.proceed t chosen) = some (.ok s')) : Moves M s t s' := by
  rw [step] at h
  cases hp : s.pc t with
  | outside => simp [hp, proceed] at h
  | waiting k c => simp [hp, proceed] at h
  | locking k =>
    simp only [hp, proceed, Option.ite_none_right_eq_some, Option.some.injEq,
      Except.ok.injEq] at h
    exact h.2 ▸ .lock (.inl hp) h.1
  | woken k =>
    simp only [hp, proceed, Option.ite_none_right_eq_some, Option.some.injEq,
      Except.ok.injEq] at h
    exact h.2 ▸ .lock (.inr hp) h.1
  | acquired k =>
    simp only [hp, proceed, Option.some.injEq, Except.ok.injEq] at h
    exact h ▸ .assign hp
  | testing k =>
    simp only [hp, proceed, Option.some.injEq, Except.ok.injEq] at h
    cases hloop : M.loop k s.data with
    | none => exact h ▸ hloop ▸ .leave hp hloop
    | some c => exact h ▸ hloop ▸ .wait hp hloop
  | unassigning k c =>
    simp only [hp, proceed, Option.some.injEq, Except.ok.injEq] at h
    exact h ▸ .unassign hp
  | entering k c =>
    simp only [hp, proceed, Option.some.injEq, Except.ok.injEq] at h
    exact h ▸ .sleep hp
  | running k =>
    simp only [hp, proceed, Option.some.injEq] at h
    obtain ⟨done, hbody, h⟩ := bind_eq_ok_iff.mp h
    cases h
    exact .perform hp hbody
  | signalling signals r =>
    rcases signals with _ | ⟨c | c, signals⟩
    · simp only [hp, proceed, Option.some.injEq, Except.ok.injEq] at h
      exact h ▸ .unlock hp
    · simp only [hp, proceed, Option.map_eq_some_iff, Except.ok.injEq] at h
      obtain ⟨s₁, hs₁, rfl⟩ := h
      cases chosen with
      | none =>
        obtain ⟨hnone, hs₁⟩ := Option.ite_none_right_eq_some.mp hs₁
        cases hs₁
        exact .skip hp hnone
      | some v =>
        obtain ⟨hv, hs₁⟩ := Option.ite_none_right_eq_some.mp hs₁
        cases hs₁
        obtain ⟨k, hv⟩ := Pc.waitsFor_iff.mp hv
        rw [wakeOne, hv, Pc.wake_waiting]
        exact .notify hp hv
    · simp only [hp, proceed, Option.some.injEq, Except.ok.injEq] at h
      exact h ▸ .notifyAll hp
  | unlocking r =>
    simp only [hp, proceed, Option.some.injEq, Except.ok.injEq] at h
    exact h ▸ .ret hp

/-- Everything that a step can do. -/
theorem step_cases {a : Action T κ} (h : step M s a = some (.ok s')) :
    (∃ t, Moves M s t s') ∨
    (∃ t k, s.pc t = .outside ∧ s' = (s.goto t (.locking k)).record (.call t k)) ∨
    ∃ t k c, s.pc t = .waiting k c ∧ s' = s.goto t (.woken k) := by
  cases a with
  | proceed t chosen => exact .inl ⟨t, .of_proceed h⟩
  | call t k =>
    rw [step] at h
    cases hp : s.pc t <;> simp [hp, call] at h
    exact .inr (.inl ⟨t, k, hp, h.symm⟩)
  | spurious t =>
    rw [step] at h
    cases hp : s.pc t <;> simp [hp, spurious] at h
    exact .inr (.inr ⟨t, _, _, hp, h.symm⟩)

end Inversion

/-- The mutex and `holder_` name the thread that is in the places for it, and what a thread has
found out about the data is still so. -/
structure Exclusive (M : Monitor σ C κ ρ) (s : Execution T σ C κ ρ) : Prop where
  owner : Marks Pc.owns s.pc s.lock.mutex
  holder : Marks Pc.assigned s.pc s.lock.holder
  agrees : ∀ t, (s.pc t).Agrees M s.data

section Exclusion

variable {M : Monitor σ C κ ρ} {s s' : Execution T σ C κ ρ} {t : T} {d : σ}

omit [DecidableEq T] in
theorem exclusive_init (M : Monitor σ C κ ρ) (d : σ) :
    Exclusive M (init d : Execution T σ C κ ρ) := by
  refine ⟨fun t => ?_, fun t => ?_, fun t => trivial⟩
  · exact iff_of_false Bool.false_ne_true (Option.some_ne_none t).symm
  · exact iff_of_false Bool.false_ne_true (Option.some_ne_none t).symm

theorem agrees_update {f : T → Pc C κ ρ} (h : ∀ u, (f u).Agrees M d) {p : Pc C κ ρ}
    (hp : p.Agrees M d) (u : T) : (Function.update f t p u).Agrees M d := by
  by_cases hu : u = t
  · subst hu
    rwa [Function.update_self]
  · rw [Function.update_of_ne hu]
    exact h u

omit [DecidableEq T] in
theorem Exclusive.not_owns_of_ne (h : Exclusive M s) (ht : (s.pc t).owns = true) {u : T}
    (hu : u ≠ t) : (s.pc u).owns = false := by
  by_contra howns
  have heq : some u = some t :=
    ((h.owner u).mp (Bool.not_eq_false _ ▸ howns)).symm.trans ((h.owner t).mp ht)
  exact hu (Option.some.inj heq)

/-- The thread with the mutex changes the data: nobody else relies on it. -/
theorem Exclusive.agrees_perform (h : Exclusive M s) (ht : (s.pc t).owns = true) {p : Pc C κ ρ}
    (hp : p.Agrees M d) (u : T) : (Function.update s.pc t p u).Agrees M d := by
  by_cases hu : u = t
  · subst hu
    rwa [Function.update_self]
  · rw [Function.update_of_ne hu]
    exact (h.agrees u).of_not_owns (h.not_owns_of_ne ht hu)

theorem Exclusive.moves [DecidableEq C] (h : Exclusive M s) (hmove : Moves M s t s') :
    Exclusive M s' := by
  obtain ⟨howner, hholder, hagrees⟩ := id h
  cases hmove with
  | lock hp hfree =>
    rw [hfree] at howner
    refine ⟨howner.enter rfl, ?_, agrees_update hagrees trivial⟩
    rcases hp with hp | hp <;> exact hholder.stay (by rw [hp]; rfl)
  | assign hp =>
    -- Nobody else is named by `holder_`: whoever is has the mutex.
    have hfree : Marks Pc.assigned s.pc none := by
      intro u
      refine iff_of_false (fun hu => ?_) (Option.some_ne_none u).symm
      have howns : (s.pc u).owns = true := by
        cases hq : s.pc u <;> simp_all [Pc.assigned, Pc.owns]
      by_cases hut : u = t
      · subst hut
        rw [hp] at hu
        cases hu
      · rw [h.not_owns_of_ne (by rw [hp]; rfl) hut] at howns
        cases howns
    exact ⟨howner.stay (by rw [hp]; rfl), hfree.enter rfl, agrees_update hagrees trivial⟩
  | leave hp hloop =>
    exact ⟨howner.stay (by rw [hp]; rfl), hholder.stay (by rw [hp]; rfl),
      agrees_update hagrees hloop⟩
  | wait hp hloop =>
    exact ⟨howner.stay (by rw [hp]; rfl), hholder.stay (by rw [hp]; rfl),
      agrees_update hagrees hloop⟩
  | unassign hp =>
    have hloop := hagrees t
    rw [hp] at hloop
    exact ⟨howner.stay (by rw [hp]; rfl), hholder.leave (by rw [hp]; rfl) rfl,
      agrees_update hagrees hloop⟩
  | sleep hp =>
    have hloop := hagrees t
    rw [hp] at hloop
    exact ⟨howner.leave (by rw [hp]; rfl) rfl, hholder.stay (by rw [hp]; rfl),
      agrees_update hagrees ⟨_, hloop⟩⟩
  | perform hp hbody =>
    exact ⟨howner.stay (by rw [hp]; rfl), hholder.stay (by rw [hp]; rfl),
      h.agrees_perform (by rw [hp]; rfl) trivial⟩
  | skip hp hnone =>
    exact ⟨howner.stay (by rw [hp]; rfl), hholder.stay (by rw [hp]; rfl),
      agrees_update hagrees trivial⟩
  | @notify c signals r v k hp hv =>
    have hvt : t ≠ v := by
      rintro rfl
      rw [hp] at hv
      cases hv
    have howner' : Marks Pc.owns (Function.update s.pc v (.woken k)) s.lock.mutex :=
      howner.stay (by rw [hv]; rfl)
    have hholder' : Marks Pc.assigned (Function.update s.pc v (.woken k)) s.lock.holder :=
      hholder.stay (by rw [hv]; rfl)
    have hpt : Function.update s.pc v (.woken k) t = .signalling (.notify c :: signals) r := by
      rw [Function.update_of_ne hvt, hp]
    have hagrees' : ∀ u, (Function.update s.pc v (.woken k) u).Agrees M s.data :=
      agrees_update hagrees trivial
    exact ⟨howner'.stay (by rw [hpt]; rfl), hholder'.stay (by rw [hpt]; rfl),
      agrees_update hagrees' trivial⟩
  | @notifyAll c signals r hp =>
    have howner' : Marks Pc.owns (s.wakeAll c).pc s.lock.mutex :=
      howner.congr fun u => Pc.owns_wake c _
    have hholder' : Marks Pc.assigned (s.wakeAll c).pc s.lock.holder :=
      hholder.congr fun u => Pc.assigned_wake c _
    have hpt : (s.wakeAll c).pc t = .signalling (.notifyAll c :: signals) r := by
      show (s.pc t).wake c = _
      rw [hp]
      rfl
    exact ⟨howner'.stay (by rw [hpt]; rfl), hholder'.stay (by rw [hpt]; rfl),
      agrees_update (fun u => (hagrees u).wake c) trivial⟩
  | unlock hp =>
    exact ⟨howner.stay (by rw [hp]; rfl), hholder.leave (by rw [hp]; rfl) rfl,
      agrees_update hagrees trivial⟩
  | ret hp =>
    exact ⟨howner.leave (by rw [hp]; rfl) rfl, hholder.stay (by rw [hp]; rfl),
      agrees_update hagrees trivial⟩

variable [DecidableEq C] [Fintype T]

theorem Exclusive.step {a : Action T κ} (h : Exclusive M s) (hstep : step M s a = some (.ok s')) :
    Exclusive M s' := by
  obtain ⟨t, hmove⟩ | ⟨t, k, hp, rfl⟩ | ⟨t, k, c, hp, rfl⟩ := step_cases hstep
  · exact h.moves hmove
  · exact ⟨h.owner.stay (by rw [hp]; rfl), h.holder.stay (by rw [hp]; rfl),
      agrees_update h.agrees trivial⟩
  · exact ⟨h.owner.stay (by rw [hp]; rfl), h.holder.stay (by rw [hp]; rfl),
      agrees_update h.agrees trivial⟩

theorem Runs.exclusive (h : Runs M d (.ok s)) : Exclusive M s := by
  refine Run.invariant ?_ (fun s a t hs _ hstep => hs.step hstep) h s rfl
  rintro s rfl
  exact exclusive_init M d

/-- At most one thread is between `lock()` and `unlock()`, `isLockedByThisThread()` holds for
exactly the thread that is in code the mutex protects, and with nobody there the lock can be
destroyed. -/
theorem mutual_exclusion (M : Monitor σ C κ ρ) (d : σ) (s : Execution T σ C κ ρ)
    (h : Runs M d (.ok s)) :
    (∀ t u, (s.pc t).owns = true → (s.pc u).owns = true → t = u) ∧
    (∀ t, s.lock.isLockedByThisThread t ↔ (s.pc t).assigned = true) ∧
    ((∀ t, (s.pc t).owns = false) → s.lock.mutex = none ∧ s.lock.holder = none) := by
  have hex := h.exclusive
  refine ⟨fun t u ht hu => ?_, fun t => (hex.holder t).symm, fun hall => ⟨?_, ?_⟩⟩
  · by_contra hne
    rw [hex.not_owns_of_ne hu hne] at ht
    cases ht
  · by_contra hsome
    obtain ⟨t, ht⟩ := Option.ne_none_iff_exists'.mp hsome
    have howns := (hex.owner t).mpr ht
    rw [hall t] at howns
    cases howns
  · by_contra hsome
    obtain ⟨t, ht⟩ := Option.ne_none_iff_exists'.mp hsome
    have hassigned := (hex.holder t).mpr ht
    have howns := hall t
    cases hp : s.pc t <;> simp_all [Pc.assigned, Pc.owns]

/-- In a class with one function that changes nothing, a thread has come to the test of its loop
and another one is in the function, too. -/
theorem mutual_exclusion_two : ∃ s : Execution (Fin 2) ℕ Unit Unit Unit,
    ((s.pc 0).assigned = true ∧ s.events = [.call 0 (), .call 1 ()]) ∧
    (∀ t u, (s.pc t).owns = true → (s.pc u).owns = true → t = u) ∧
    (∀ t, s.lock.isLockedByThisThread t ↔ (s.pc t).assigned = true) ∧
    ((∀ t, (s.pc t).owns = false) → s.lock.mutex = none ∧ s.lock.holder = none) := by
  have hrun : seen (exec (faulting (step (T := Fin 2)
      (⟨fun _ _ => none, fun _ d => .ok ⟨d, [], ()⟩⟩ : Monitor ℕ Unit Unit Unit))) (.ok (init 0))
      [.call 0 (), .call 1 (), .proceed 0 none, .proceed 0 none])
      (fun s => (s.pc 0).assigned && decide (s.events = [.call 0 (), .call 1 ()])) = true := by
    decide +kernel
  obtain ⟨s, hs, hcheck⟩ := exists_of_seen hrun
  obtain ⟨hassigned, hevents⟩ := (Bool.and_eq_true _ _).mp hcheck
  exact ⟨s, ⟨hassigned, of_decide_eq_true hevents⟩, mutual_exclusion _ 0 s (.of_exec _ hs)⟩

omit [DecidableEq C] [Fintype T] in
/-- A thread that gets as far as its body does what the body says. -/
theorem Exclusive.perform_ok (h : Exclusive M s)
    (hbody : ∀ k d, M.loop k d = none → ∃ done, M.body k d = .ok done) {k : κ}
    (hp : s.pc t = .running k) : ∃ s', s.perform M t k = .ok s' := by
  have hloop := h.agrees t
  rw [hp] at hloop
  obtain ⟨done, hdone⟩ := hbody k s.data hloop
  exact ⟨_, bind_eq_ok_iff.mpr ⟨done, hdone, rfl⟩⟩

/-- When no body fails behind its loop, no run does. -/
theorem Runs.safe (hbody : ∀ k d, M.loop k d = none → ∃ done, M.body k d = .ok done)
    {p : Except Failure (Execution T σ C κ ρ)} (h : Runs M d p) : ∃ s, p = .ok s ∧ Exclusive M s := by
  refine Run.safe ?_ (fun s a m hs _ hstep => ?_) h
  · rintro s rfl
    exact exclusive_init M d
  · cases m with
    | ok s' => exact ⟨s', rfl, hs.step hstep⟩
    | error e =>
      exfalso
      cases a with
      | call t k => simp [Execution.step] at hstep
      | spurious t => simp [Execution.step] at hstep
      | proceed t chosen =>
        rw [Execution.step] at hstep
        cases hp : s.pc t with
        | running k =>
          obtain ⟨s', hs'⟩ := hs.perform_ok hbody hp
          rw [hp, proceed, hs'] at hstep
          cases hstep
        | signalling signals r =>
          rcases signals with _ | ⟨c | c, signals⟩ <;> simp [hp, proceed] at hstep
        | _ => simp [hp, proceed] at hstep

end Exclusion

end Execution

/-! ### Calls that take effect at once -/

/-- How far a call is, when its body is all that counts. -/
inductive Stage (κ ρ : Type)
  | outside
  | called (k : κ)
  | finished (r : ρ)

/-- An object whose calls take effect in one step, with the calls in the order in which they did. -/
structure Atomic (T σ κ ρ : Type) where
  data : σ
  stage : T → Stage κ ρ
  performed : List (T × κ × ρ)
  events : List (Event T κ ρ)

namespace Atomic

variable {T σ C κ ρ : Type} [DecidableEq T]

inductive Action (T κ : Type)
  | call (t : T) (k : κ)
  | perform (t : T)
  | ret (t : T)

omit [DecidableEq T] in
def init (d : σ) : Atomic T σ κ ρ := ⟨d, fun _ => .outside, [], []⟩

def call (a : Atomic T σ κ ρ) (t : T) (k : κ) : Atomic T σ κ ρ :=
  { a with stage := Function.update a.stage t (.called k), events := a.events ++ [.call t k] }

def finish (a : Atomic T σ κ ρ) (t : T) (k : κ) (done : Section σ C ρ) : Atomic T σ κ ρ :=
  { a with data := done.data, stage := Function.update a.stage t (.finished done.result),
           performed := a.performed ++ [(t, k, done.result)] }

def ret (a : Atomic T σ κ ρ) (t : T) (r : ρ) : Atomic T σ κ ρ :=
  { a with stage := Function.update a.stage t .outside, events := a.events ++ [.ret t r] }

/-- The step of a call that is in its second stage, when its loop would not wait. -/
def perform (M : Monitor σ C κ ρ) (a : Atomic T σ κ ρ) (t : T) :
    Stage κ ρ → Option (Except Failure (Atomic T σ κ ρ))
  | .called k =>
    if (M.loop k a.data).isNone then some (do let done ← M.body k a.data; .ok (a.finish t k done))
    else none
  | _ => none

def step (M : Monitor σ C κ ρ) (a : Atomic T σ κ ρ) :
    Action T κ → Option (Except Failure (Atomic T σ κ ρ))
  | .call t k =>
    match a.stage t with
    | .outside => some (.ok (a.call t k))
    | _ => none
  | .perform t => a.perform M t (a.stage t)
  | .ret t =>
    match a.stage t with
    | .finished r => some (.ok (a.ret t r))
    | _ => none

def Runs (M : Monitor σ C κ ρ) (d : σ) : Except Failure (Atomic T σ κ ρ) → Prop :=
  Run (step M) (fun _ _ => True) (· = init d)

variable {M : Monitor σ C κ ρ} {d : σ} {a a' : Atomic T σ κ ρ}

/-- Everything that a step can do. -/
theorem step_cases {act : Action T κ} (h : step M a act = some (.ok a')) :
    (∃ t k, a.stage t = .outside ∧ a' = a.call t k) ∨
    (∃ t r, a.stage t = .finished r ∧ a' = a.ret t r) ∨
    ∃ t k done, a.stage t = .called k ∧ M.loop k a.data = none ∧ M.body k a.data = .ok done ∧
      a' = a.finish t k done := by
  cases act with
  | call t k =>
    rw [step] at h
    cases hs : a.stage t <;> simp [hs] at h
    exact .inl ⟨t, k, hs, h.symm⟩
  | ret t =>
    rw [step] at h
    cases hs : a.stage t <;> simp [hs] at h
    exact .inr (.inl ⟨t, _, hs, h.symm⟩)
  | perform t =>
    rw [step] at h
    cases hs : a.stage t with
    | called k =>
      rw [hs, perform] at h
      obtain ⟨hloop, h⟩ := Option.ite_none_right_eq_some.mp h
      obtain ⟨done, hbody, h⟩ := bind_eq_ok_iff.mp (Option.some.inj h)
      cases h
      exact .inr (.inr ⟨t, k, done, hs, Option.isNone_iff_eq_none.mp hloop, hbody, rfl⟩)
    | _ => simp [hs, perform] at h

/-- What the bodies keep, one after another, holds of the data and the calls that took effect. -/
theorem Runs.performed {I : σ → List (T × κ × ρ) → Prop} (hinit : I d [])
    (hstep : ∀ d l t k done, I d l → M.loop k d = none → M.body k d = .ok done →
      I done.data (l ++ [(t, k, done.result)]))
    (h : Runs M d (.ok a)) : I a.data a.performed := by
  refine Run.invariant (I := fun a => I a.data a.performed) ?_ (fun a act a' ha _ hact => ?_) h a rfl
  · rintro a rfl
    exact hinit
  · obtain ⟨t, k, -, rfl⟩ | ⟨t, r, -, rfl⟩ | ⟨t, k, done, -, hloop, hbody, rfl⟩ := step_cases hact
    · exact ha
    · exact ha
    · exact hstep _ _ t k done ha hloop hbody

end Atomic

section Linearization

variable {T σ C κ ρ : Type} [DecidableEq T]

/-- How far the call of a thread is, by the place of the thread. -/
def Pc.stage : Pc C κ ρ → Stage κ ρ
  | .outside => .outside
  | .locking k | .acquired k | .testing k | .unassigning k _ | .entering k _ | .waiting k _
  | .woken k | .running k => .called k
  | .signalling _ r | .unlocking r => .finished r

@[simp] theorem Pc.stage_wake [DecidableEq C] (c : C) (p : Pc C κ ρ) :
    (p.wake c).stage = p.stage := by
  cases p with
  | waiting k c' => rw [wake]; split <;> rfl
  | _ => rfl

/-- An object whose calls take effect at once, in the same situation. -/
structure Represents (s : Execution T σ C κ ρ) (a : Atomic T σ κ ρ) : Prop where
  data : a.data = s.data
  events : a.events = s.events
  stage : ∀ t, a.stage t = (s.pc t).stage

variable {M : Monitor σ C κ ρ} {s s' : Execution T σ C κ ρ} {a : Atomic T σ κ ρ} {t : T}

theorem stage_update {f : T → Pc C κ ρ} {g : T → Stage κ ρ} (h : ∀ u, g u = (f u).stage)
    (p : Pc C κ ρ) (u : T) :
    Function.update g t p.stage u = (Function.update f t p u).stage := by
  by_cases hu : u = t
  · subst hu
    rw [Function.update_self, Function.update_self]
  · rw [Function.update_of_ne hu, Function.update_of_ne hu]
    exact h u

/-- A thread that goes on within its stage. -/
theorem stage_stay {f : T → Pc C κ ρ} {g : T → Stage κ ρ} (h : ∀ u, g u = (f u).stage)
    {p : Pc C κ ρ} (hp : p.stage = (f t).stage) (u : T) :
    g u = (Function.update f t p u).stage := by
  have hupdate := stage_update (t := t) h p u
  rwa [hp, ← h t, Function.update_eq_self] at hupdate

/-- Only the body and the return of a thread show; each is one step of the other object. -/
theorem Represents.moves [DecidableEq C] (h : Represents s a) (hex : s.Exclusive M)
    (hmove : s.Moves M t s') :
    Represents s' a ∨ ∃ act a', Atomic.step M a act = some (.ok a') ∧ Represents s' a' := by
  obtain ⟨hdata, hevents, hstage⟩ := h
  cases hmove with
  | lock hp hfree =>
    rcases hp with hp | hp <;>
      exact .inl ⟨hdata, hevents, stage_stay hstage (by rw [hp]; rfl)⟩
  | assign hp => exact .inl ⟨hdata, hevents, stage_stay hstage (by rw [hp]; rfl)⟩
  | leave hp hloop => exact .inl ⟨hdata, hevents, stage_stay hstage (by rw [hp]; rfl)⟩
  | wait hp hloop => exact .inl ⟨hdata, hevents, stage_stay hstage (by rw [hp]; rfl)⟩
  | unassign hp => exact .inl ⟨hdata, hevents, stage_stay hstage (by rw [hp]; rfl)⟩
  | sleep hp => exact .inl ⟨hdata, hevents, stage_stay hstage (by rw [hp]; rfl)⟩
  | skip hp hnone => exact .inl ⟨hdata, hevents, stage_stay hstage (by rw [hp]; rfl)⟩
  | @notify c signals r v k hp hv =>
    have hvt : t ≠ v := by
      rintro rfl
      rw [hp] at hv
      cases hv
    have hstage' : ∀ u, a.stage u = (Function.update s.pc v (.woken k) u).stage :=
      stage_stay hstage (by rw [hv]; rfl)
    exact .inl ⟨hdata, hevents, stage_stay hstage' (by rw [Function.update_of_ne hvt, hp]; rfl)⟩
  | @notifyAll c signals r hp =>
    have hstage' : ∀ u, a.stage u = ((s.pc u).wake c).stage := by
      intro u
      rw [Pc.stage_wake]
      exact hstage u
    refine .inl ⟨hdata, hevents, stage_stay hstage' ?_⟩
    rw [Pc.stage_wake, hp]
    rfl
  | unlock hp => exact .inl ⟨hdata, hevents, stage_stay hstage (by rw [hp]; rfl)⟩
  | @perform k done hp hbody =>
    have hloop := hex.agrees t
    rw [hp] at hloop
    have hcalled : a.stage t = .called k := by
      rw [hstage t, hp]
      rfl
    refine .inr ⟨.perform t, a.finish t k done, ?_, rfl, hevents,
      stage_update hstage (.signalling done.signals done.result)⟩
    rw [Atomic.step, hcalled, Atomic.perform, hdata, hloop, hbody]
    rfl
  | @ret r hp =>
    have hfinished : a.stage t = .finished r := by
      rw [hstage t, hp]
      rfl
    refine .inr ⟨.ret t, a.ret t r, ?_, hdata, ?_, stage_update hstage .outside⟩
    · rw [Atomic.step, hfinished]
    · exact congrArg (· ++ [Event.ret t r]) hevents

variable [DecidableEq C] [Fintype T] {d : σ}

theorem Represents.step {act : Action T κ} (h : Represents s a) (hex : s.Exclusive M)
    (hstep : Execution.step M s act = some (.ok s')) :
    Represents s' a ∨ ∃ b a', Atomic.step M a b = some (.ok a') ∧ Represents s' a' := by
  obtain ⟨t, hmove⟩ | ⟨t, k, hp, rfl⟩ | ⟨t, k, c, hp, rfl⟩ := Execution.step_cases hstep
  · exact h.moves hex hmove
  · have houtside : a.stage t = .outside := by
      rw [h.stage t, hp]
      rfl
    refine .inr ⟨.call t k, a.call t k, ?_, h.data, ?_, stage_update h.stage (.locking k)⟩
    · rw [Atomic.step, houtside]
    · exact congrArg (· ++ [Event.call t k]) h.events
  · exact .inl ⟨h.data, h.events, stage_stay h.stage (by rw [hp]; rfl)⟩

/-- Every run of the threads has the calls, the returns and the data of a run in which each call
takes effect at once, at a moment when its loop would not wait. -/
theorem linearizable (h : Execution.Runs M d (.ok s)) :
    ∃ a, Atomic.Runs M d (.ok a) ∧ Represents s a := by
  have hsim : ∃ a, Run (Atomic.step M) (fun _ _ => True) (· = Atomic.init d) (.ok a) ∧
      (Represents s a ∧ s.Exclusive M) := by
    refine Run.simulated (R := fun s a => Represents s a ∧ s.Exclusive M) ?_
      (fun s act s' a hR _ hstep => ?_) h
    · rintro s rfl
      exact ⟨_, rfl, ⟨rfl, rfl, fun t => rfl⟩, Execution.exclusive_init M d⟩
    · have hex := hR.2.step hstep
      obtain hsame | ⟨b, a', hb, ha'⟩ := hR.1.step hR.2 hstep
      · exact .inl ⟨hsame, hex⟩
      · exact .inr ⟨b, a', trivial, hb, ha', hex⟩
  obtain ⟨a, ha, hrep, -⟩ := hsim
  exact ⟨a, ha, hrep⟩

end Linearization

end DbdkyGcc.Threads
