import DbdkyGcc.Foundations.Runs

/-!
# The connection to the database

`DBHelper` keeps a connection and a statement, a flag and the last error. `connect` asks the driver
for both and may be left by an exception at any of its calls; the handler sets the flag and the
error, and then the function goes on to return true.
-/

namespace DbdkyGcc.Database

open Foundations

/-- What a call of the driver comes to. -/
inductive Outcome (α : Type)
  | returns (value : α)
  | throws
  deriving DecidableEq, Repr

/-- An object of the driver. -/
abbrev Handle := ℕ

inductive StateE
  | kNoErr
  | kConnectErr
  | kStateErr
  | kQueryErr
  | kUnknownErr
  deriving DecidableEq, Repr

/-- A pointer that is dereferenced is null. -/
inductive Fault
  | nullStatement
  deriving DecidableEq, Repr

structure DBHelper where
  isConnected : Bool
  error : StateE
  conn : Option Handle
  statement : Option Handle
  deriving DecidableEq, Repr

/-- What the driver does in a `connect`, as far as it gets. -/
structure DriverCalls where
  connect : Outcome (Option Handle)
  createStatement : Outcome (Option Handle)
  execute : Outcome Unit
  deriving DecidableEq, Repr

/-- One of the calls that are made throws; each is made if the one before it gave an object. -/
def DriverCalls.throws (d : DriverCalls) : Bool :=
  match d.connect with
  | .throws => true
  | .returns none => false
  | .returns (some _) =>
    match d.createStatement with
    | .throws => true
    | .returns none => false
    | .returns (some _) => d.execute = .throws

/-- How the `try` block of `connect` is left. -/
inductive Exit
  | returned (value : Bool)
  | finished
  | thrown
  deriving DecidableEq, Repr

/-- The helper after a `connect`, and what that returned. -/
structure Connected where
  helper : DBHelper
  result : Bool
  deriving DecidableEq, Repr

structure Queried where
  helper : DBHelper
  result : Option Handle
  deriving DecidableEq, Repr

namespace DBHelper

/-- The constructor. -/
def new : DBHelper :=
  { isConnected := false, error := .kNoErr, conn := none, statement := none }

/-- The `try` block of `connect`. -/
def tryConnect (s : DBHelper) (d : DriverCalls) : DBHelper × Exit :=
  match d.connect with
  | .throws => (s, .thrown)
  | .returns none => ({ s with conn := none, error := .kConnectErr }, .returned false)
  | .returns (some conn) =>
    match d.createStatement with
    | .throws => ({ s with conn := some conn }, .thrown)
    | .returns none =>
      ({ s with conn := some conn, statement := none, error := .kStateErr }, .returned false)
    | .returns (some statement) =>
      match d.execute with
      | .throws => ({ s with conn := some conn, statement := some statement }, .thrown)
      | .returns _ =>
        ({ isConnected := true, error := .kNoErr, conn := some conn, statement := some statement },
          .finished)

def connect (s : DBHelper) (d : DriverCalls) : Connected :=
  if s.isConnected then ⟨s, true⟩
  else
    let left := s.tryConnect d
    match left.2 with
    | .returned value => ⟨left.1, value⟩
    | .finished => ⟨left.1, true⟩
    | .thrown => ⟨{ left.1 with isConnected := false, error := .kUnknownErr }, true⟩

/-- What `query` makes of its call of the driver. -/
def queried (s : DBHelper) : Outcome (Option Handle) → Queried
  | .returns result => ⟨{ s with error := .kNoErr }, result⟩
  | .throws => ⟨{ s with error := .kQueryErr }, none⟩

def query (s : DBHelper) (executeQuery : Outcome (Option Handle)) : Except Fault Queried := do
  let _ ← require .nullStatement s.statement
  .ok (s.queried executeQuery)

end DBHelper

/-- The calls of a user, with what the driver does in them. -/
inductive Call
  | connect (d : DriverCalls)
  | query (executeQuery : Outcome (Option Handle))
  deriving DecidableEq, Repr

/-- A helper and what its user has seen: whether a `connect` has returned true, and what the last
call has returned if it was one. -/
structure Session where
  helper : DBHelper
  told : Bool
  last : Option Bool
  deriving DecidableEq, Repr

namespace Session

def start : Session := { helper := .new, told := false, last := none }

/-- A call; a session ends with a fault. -/
def step (s : Session) : Call → Option Session
  | .connect d => some
    { helper := (s.helper.connect d).helper
      told := s.told || (s.helper.connect d).result
      last := some (s.helper.connect d).result }
  | .query executeQuery => (s.helper.query executeQuery).toOption.map fun queried =>
    { helper := queried.helper, told := s.told, last := none }

/-- A `connect` that has returned true has connected, without an error and with a statement. -/
def Promised (s : Session) : Prop :=
  s.last = some true →
    s.helper.isConnected = true ∧ s.helper.error = .kNoErr ∧ s.helper.statement.isSome = true

/-- Who has been told that there is a connection can query. -/
def Answered (s : Session) : Prop :=
  s.told = true → ∀ executeQuery, ∃ queried, s.helper.query executeQuery = .ok queried

/-- No call of the driver throws in a `connect` that makes one, and the last query before one that
makes none did not. -/
def Undisturbed (s : Session) : Call → Prop
  | .connect d =>
    if s.helper.isConnected then s.helper.error ≠ .kQueryErr else d.throws = false
  | .query _ => True

end Session

section Calls

variable {s : DBHelper} {d : DriverCalls}

theorem connect_of_connected (h : s.isConnected = true) : s.connect d = ⟨s, true⟩ := if_pos h

/-- What a `connect` without a connection comes to: an exception, after which it returns true and
there is none; everything has been set up; or a call of the driver has given nothing. -/
theorem connect_cases (h : s.isConnected = false) (d : DriverCalls) :
    (d.throws = true ∧ (s.connect d).result = true ∧ (s.connect d).helper.isConnected = false) ∨
    (d.throws = false ∧ (s.connect d).result = true ∧ (s.connect d).helper.isConnected = true ∧
      (s.connect d).helper.error = .kNoErr ∧ (s.connect d).helper.statement.isSome = true) ∨
    (d.throws = false ∧ (s.connect d).result = false ∧
      (s.connect d).helper.isConnected = false) := by
  obtain ⟨hconnect, hcreate, hexecute⟩ := d
  rw [DBHelper.connect, if_neg (by rw [h]; decide)]
  rcases hconnect with (_ | c) | _
  · exact .inr (.inr ⟨rfl, rfl, h⟩)
  · rcases hcreate with (_ | st) | _
    · exact .inr (.inr ⟨rfl, rfl, h⟩)
    · rcases hexecute with _ | _
      · exact .inr (.inl ⟨rfl, rfl, rfl, rfl, rfl⟩)
      · exact .inl ⟨rfl, rfl, rfl⟩
    · exact .inl ⟨rfl, rfl, rfl⟩
  · exact .inl ⟨rfl, rfl, rfl⟩

theorem query_eq (h : s.statement.isSome = true) (executeQuery : Outcome (Option Handle)) :
    s.query executeQuery = .ok (s.queried executeQuery) := by
  obtain ⟨st, hst⟩ := Option.isSome_iff_exists.mp h
  rw [DBHelper.query, hst]
  rfl

/-- A query that is answered has changed the error only. -/
theorem query_keeps {executeQuery : Outcome (Option Handle)} {q : Queried}
    (h : s.query executeQuery = .ok q) :
    q.helper.isConnected = s.isConnected ∧ q.helper.statement = s.statement ∧
      (q.helper.error = .kNoErr ∨ q.helper.error = .kQueryErr) := by
  obtain ⟨st, -, hq⟩ := bind_eq_ok_iff.mp h
  obtain rfl := Except.ok.inj hq
  cases executeQuery with
  | returns result => exact ⟨rfl, rfl, .inl rfl⟩
  | throws => exact ⟨rfl, rfl, .inr rfl⟩

end Calls

namespace Session

variable {s t : Session}

/-- A helper that is connected has a statement, and only a query can have failed since. -/
def Sound (s : Session) : Prop :=
  s.helper.isConnected = true → s.helper.statement.isSome = true ∧
    (s.helper.error = .kNoErr ∨ s.helper.error = .kQueryErr)

theorem step_query {executeQuery : Outcome (Option Handle)}
    (h : s.step (.query executeQuery) = some t) : ∃ q, s.helper.query executeQuery = .ok q ∧
      t = { helper := q.helper, told := s.told, last := none } := by
  obtain ⟨q, hq, ht⟩ := Option.map_eq_some_iff.mp h
  exact ⟨q, eq_ok_of_toOption hq, ht.symm⟩

theorem Sound.step {a : Call} (h : s.Sound) (ht : s.step a = some t) : t.Sound := by
  cases a with
  | connect d =>
    obtain rfl := Option.some.inj ht
    intro hconnected
    cases hs : s.helper.isConnected with
    | true =>
      simp only [connect_of_connected hs]
      exact h hs
    | false =>
      rcases connect_cases hs d with ⟨-, -, hnot⟩ | ⟨-, -, -, herror, hstatement⟩ | ⟨-, -, hnot⟩
      · exact absurd (hnot.symm.trans hconnected) (by decide)
      · exact ⟨hstatement, .inl herror⟩
      · exact absurd (hnot.symm.trans hconnected) (by decide)
  | query executeQuery =>
    obtain ⟨q, hq, rfl⟩ := step_query ht
    obtain ⟨hconnected, hstatement, herror⟩ := query_keeps hq
    intro hq'
    refine ⟨?_, herror⟩
    rw [hstatement]
    exact (h (hconnected.symm.trans hq')).1

theorem undisturbed_of_connected {d : DriverCalls} (h : s.helper.isConnected = true) :
    s.Undisturbed (.connect d) ↔ s.helper.error ≠ .kQueryErr := by
  rw [Undisturbed, if_pos h]

theorem undisturbed_of_not_connected {d : DriverCalls} (h : s.helper.isConnected = false) :
    s.Undisturbed (.connect d) ↔ d.throws = false := by
  rw [Undisturbed, if_neg (by rw [h]; decide)]

/-- A call keeps the promise exactly if it is undisturbed. -/
theorem promised_iff {a : Call} (h : s.Sound) (ht : s.step a = some t) :
    t.Promised ↔ s.Undisturbed a := by
  cases a with
  | connect d =>
    obtain rfl := Option.some.inj ht
    cases hs : s.helper.isConnected with
    | true =>
      -- Nothing is done, and the error of the last query stays.
      obtain ⟨hstatement, herror⟩ := h hs
      simp only [Promised, undisturbed_of_connected hs, connect_of_connected hs, hs, hstatement,
        true_and, and_true, forall_const]
      rcases herror with herror | herror <;> rw [herror] <;> decide
    | false =>
      rw [undisturbed_of_not_connected hs]
      rcases connect_cases hs d with ⟨hd, hresult, hnot⟩ | ⟨hd, -, hready⟩ | ⟨hd, hresult, -⟩
      · rw [hd]
        refine iff_of_false (fun hpromised => ?_) (by decide)
        have hconnected := (hpromised (congrArg some hresult)).1
        exact absurd (hnot.symm.trans hconnected) (by decide)
      · exact iff_of_true (fun _ => hready) hd
      · refine iff_of_true (fun hlast => ?_) hd
        exact absurd (hresult.symm.trans (Option.some.inj hlast)) (by decide)
  | query executeQuery =>
    obtain ⟨q, hq, rfl⟩ := step_query ht
    exact iff_of_true (fun hlast => by cases hlast) trivial

/-- As long as no call is disturbed, who has been told of a connection has one. -/
theorem told_step {a : Call} (h : s.told = true → s.helper.isConnected = true)
    (ha : s.Undisturbed a) (ht : s.step a = some t) :
    t.told = true → t.helper.isConnected = true := by
  cases a with
  | connect d =>
    obtain rfl := Option.some.inj ht
    intro htold
    cases hs : s.helper.isConnected with
    | true =>
      simp only [connect_of_connected hs]
      exact hs
    | false =>
      rcases connect_cases hs d with ⟨hd, -⟩ | ⟨-, -, hconnected, -⟩ | ⟨-, hresult, -⟩
      · have hcalls := (undisturbed_of_not_connected hs).mp ha
        exact absurd (hd.symm.trans hcalls) (by decide)
      · exact hconnected
      · -- The user has not been told before either.
        have htold' : s.told = true := by
          simp only [hresult, Bool.or_false] at htold
          exact htold
        exact absurd (hs.symm.trans (h htold')) (by decide)
  | query executeQuery =>
    obtain ⟨q, hq, rfl⟩ := step_query ht
    intro htold
    rw [(query_keeps hq).1]
    exact h htold

end Session

/-- Whatever the calls and whatever the driver does in them: each `connect` that returns true has
connected, without an error and with a statement, and who has been told so can query, exactly if no
call of the driver throws in a `connect` and none follows on a query that has failed. -/
theorem connect_promise_iff (calls : List Call) :
    (Always Session.step Session.Promised .start calls ∧
      Always Session.step Session.Answered .start calls) ↔
    Meets Session.step Session.Undisturbed .start calls := by
  have hsound : Session.start.Sound := fun h => by cases h
  have hpromised : Session.start.Promised := fun h => by cases h
  have hnone : ∀ (s : Session) (a : Call), s.Sound → s.step a = none → s.Undisturbed a := by
    intro s a _ hnone
    cases a with
    | connect d => cases hnone
    | query executeQuery => trivial
  have hiff : Always Session.step Session.Promised .start calls ↔
      Meets Session.step Session.Undisturbed .start calls :=
    always_iff_meets (fun s a t h ht => Session.Sound.step h ht)
      (fun s a t h _ ht => Session.promised_iff h ht) hnone calls hsound hpromised
  constructor
  · exact fun h => hiff.mp h.1
  · intro h
    refine ⟨hiff.mpr h, ?_⟩
    refine h.always (I := fun s => s.Sound ∧ (s.told = true → s.helper.isConnected = true)) ?_ ?_
      ⟨hsound, fun htold => by cases htold⟩
    · rintro s a t ⟨hs, htold⟩ ha ht
      exact ⟨hs.step ht, Session.told_step htold ha ht⟩
    · rintro s ⟨hs, htold⟩ htrue executeQuery
      exact ⟨_, query_eq (hs (htold htrue)).1 executeQuery⟩

/-- The first call of the driver throws, `connect` returns true, and the next query dereferences a
null pointer. A query fails, and `connect` returns true with its error. -/
theorem connect_breaks_promise :
    (DBHelper.new.connect ⟨.throws, .throws, .throws⟩ =
        ⟨{ isConnected := false, error := .kUnknownErr, conn := none, statement := none }, true⟩ ∧
      (DBHelper.new.connect ⟨.throws, .throws, .throws⟩).helper.query (.returns none) =
        .error .nullStatement) ∧
    ∃ s, exec Session.step .start [.connect ⟨.returns (some 1), .returns (some 2), .returns ()⟩,
        .query .throws, .connect ⟨.throws, .throws, .throws⟩] = some s ∧
      s.last = some true ∧ s.helper.error = .kQueryErr :=
  ⟨⟨rfl, rfl⟩, _, rfl, rfl, rfl⟩

end DbdkyGcc.Database
