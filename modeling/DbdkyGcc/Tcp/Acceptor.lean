import DbdkyGcc.Foundations.Indexed
import DbdkyGcc.Foundations.Runs

/-!
# Accepting connections

`Acceptor::handleRead` accepts one connection and `TcpServer::newConnection` gives it to the next loop
of the pool. When the process has no descriptor left, `handleRead` gives up a spare one, takes
the connection with it, closes the connection and opens the spare one again. Other threads open and
close descriptors at any time, also between these four calls.

`open` and `accept` answer with the lowest descriptor that is free, and fail with `EMFILE` when there
is none below the limit of the process. They may fail for other reasons as well, which `handleRead`
drops without a word, apart from those for which `sockets::accept` ends the process.
-/

namespace DbdkyGcc.Tcp

open Foundations

/-- What a descriptor of the process was opened for. -/
inductive Owner
  /-- for `idleFd_` -/
  | spare
  | connection
  /-- everything else, the listening socket included -/
  | rest
deriving DecidableEq

structure Descriptors where
  limit : ℕ
  owner : ℕ → Option Owner

namespace Descriptors

variable (d : Descriptors)

/-- The lowest free descriptor. -/
def lowest : Option ℕ := (List.range d.limit).find? fun fd => (d.owner fd).isNone

def assign (fd : ℕ) (o : Owner) : Descriptors :=
  { d with owner := Function.update d.owner fd (some o) }

def free (fd : ℕ) : Descriptors := { d with owner := Function.update d.owner fd none }

end Descriptors

inductive AcceptFault
  /-- somebody else's descriptor is closed, or none at all -/
  | badDescriptor
  /-- `loops_[next_]` behind the end -/
  | badLoop
deriving DecidableEq

/-- The loops of the pool are numbered. -/
structure EventLoopThreadPool where
  loops : ℕ
  next : ℕ

/-- `getNextLoop`; the loop of the acceptor is `none`. -/
def EventLoopThreadPool.getNextLoop (p : EventLoopThreadPool) :
    Except AcceptFault (Option ℕ × EventLoopThreadPool) :=
  if p.loops = 0 then .ok (none, p)
  else do
    ensure .badLoop (p.next < p.loops)
    let next := p.next + 1
    pure (some p.next, { p with next := if next ≥ p.loops then 0 else next })

/-- The errors of `accept` other than `EMFILE`. -/
inductive AcceptError
  /-- `EAGAIN`, `ECONNABORTED`, `EINTR`, `EPROTO` and `EPERM` -/
  | passing
  /-- all others: `LOG_FATAL` -/
  | fatal
deriving DecidableEq

/-- A call of `accept` or `open` that fails although there is a descriptor for it. A failed `accept`
may have cost the connection. -/
structure Failure where
  error : AcceptError
  gone : Bool
deriving DecidableEq

/-- Where `handleRead` stands. -/
inductive AcceptPc
  /-- it is not running -/
  | ready
  /-- `accept` has failed with `EMFILE` -/
  | full
  /-- `idleFd_` is closed -/
  | freed
  /-- the connection is in `idleFd_` -/
  | taken
  /-- the connection is closed -/
  | closed
  /-- `LOG_FATAL` has ended the process -/
  | aborted
deriving DecidableEq

/-- `idleFd_` is a descriptor that is open, if it is one at all. -/
def AcceptPc.holds : AcceptPc → Bool
  | .ready | .full | .taken | .aborted => true
  | .freed | .closed => false

/-- `handleRead` has found no descriptor for a connection and not taken it yet. -/
def AcceptPc.waits : AcceptPc → Bool
  | .full | .freed => true
  | .ready | .taken | .closed | .aborted => false

/-- A server that listens. `pending` are the connections in the queue of the kernel; `arrived`,
`rounds`, `loopsOf`, `refused` and `failed` are history: the connections so far, the calls of
`handleRead`, the loops of the connections that were given to the server, the number of those that
were closed, by the acceptor or by the kernel with a failed `accept`, and the calls in which an
`accept` failed, not for want of a descriptor, and cost no connection. -/
structure Acceptor where
  descriptors : Descriptors
  /-- `none` is `-1` -/
  idleFd : Option ℕ
  pc : AcceptPc
  pending : ℕ
  pool : EventLoopThreadPool
  /-- `newConnectionCallback_` is set -/
  callback : Bool
  arrived : ℕ
  rounds : ℕ
  loopsOf : List (Option ℕ)
  refused : ℕ
  failed : ℕ

namespace Acceptor

variable (s : Acceptor)

/-- `::close(idleFd_)` -/
def closeIdle : Except AcceptFault Acceptor :=
  match s.idleFd with
  | none => .ok s
  | some fd => do
    ensure .badDescriptor (s.descriptors.owner fd = some .spare)
    pure { s with descriptors := s.descriptors.free fd }

/-- `newConnection(connfd, peerAddr)`, or the closing of a connection that nobody wants. -/
def newConnection (connfd : ℕ) : Except AcceptFault Acceptor :=
  if s.callback then do
    let (ioLoop, pool) ← s.pool.getNextLoop
    pure { s with
      descriptors := s.descriptors.assign connfd .connection
      pool := pool
      loopsOf := s.loopsOf ++ [ioLoop] }
  else .ok { s with refused := s.refused + 1 }

/-- An `accept` that fails, with `EMFILE` aside. -/
def acceptFails (gone : Bool) : Acceptor :=
  if gone ∧ 0 < s.pending then { s with pending := s.pending - 1, refused := s.refused + 1 }
  else { s with failed := s.failed + 1 }

/-- The first `accept` of `handleRead`, with what `sockets::accept` does about its errors. Without a
connection it fails with `EAGAIN`. -/
def handleRead (failure : Option Failure) : Except AcceptFault Acceptor :=
  let s := { s with rounds := s.rounds + 1 }
  match failure with
  | some ⟨.passing, gone⟩ => .ok (s.acceptFails gone)
  | some ⟨.fatal, gone⟩ => .ok { s.acceptFails gone with pc := .aborted }
  | none =>
    match s.descriptors.lowest with
    | some connfd =>
      if s.pending = 0 then .ok (s.acceptFails false)
      else { s with pending := s.pending - 1 }.newConnection connfd
    | none => .ok { s with pc := .full }

/-- The second one, into `idleFd_`. Its errors are not looked at. -/
def acceptIdle (failure : Option Failure) : Acceptor :=
  match failure with
  | some failure => { s.acceptFails failure.gone with idleFd := none }
  | none =>
    match s.descriptors.lowest with
    | some fd =>
      if s.pending = 0 then { s.acceptFails false with idleFd := none }
      else { s with
        descriptors := s.descriptors.assign fd .spare
        idleFd := some fd
        pending := s.pending - 1
        refused := s.refused + 1 }
    | none => { s with idleFd := none }

/-- `open("/dev/null")` into `idleFd_` -/
def reopen (failure : Option Failure) : Acceptor :=
  match failure with
  | some _ => { s with idleFd := none }
  | none =>
    match s.descriptors.lowest with
    | some fd => { s with descriptors := s.descriptors.assign fd .spare, idleFd := some fd }
    | none => { s with idleFd := none }

inductive Action
  | connect
  | handleRead (failure : Option Failure)
  /-- the next call of a `handleRead` that has met `EMFILE` -/
  | next (failure : Option Failure)
  | closeConnection (fd : ℕ)
  | openRest
  | closeRest (fd : ℕ)

/-- A step of a process that has not ended. -/
def step (a : Action) : Option (Except AcceptFault Acceptor) :=
  if s.pc = .aborted then none
  else match a with
  | .connect => some (.ok { s with pending := s.pending + 1, arrived := s.arrived + 1 })
  | .handleRead failure => if s.pc = .ready then some (s.handleRead failure) else none
  | .next failure =>
    match s.pc with
    | .ready | .aborted => none
    | .full => some (s.closeIdle.map fun s => { s with pc := .freed })
    | .freed => some (.ok { s.acceptIdle failure with pc := .taken })
    | .taken => some (s.closeIdle.map fun s => { s with pc := .closed })
    | .closed => some (.ok { s.reopen failure with pc := .ready })
  | .closeConnection fd =>
    if s.descriptors.owner fd = some .connection then
      some (.ok { s with descriptors := s.descriptors.free fd })
    else none
  | .openRest =>
    s.descriptors.lowest.map fun fd => .ok { s with descriptors := s.descriptors.assign fd .rest }
  | .closeRest fd =>
    if s.descriptors.owner fd = some .rest then
      some (.ok { s with descriptors := s.descriptors.free fd })
    else none

/-- The descriptor that belongs to `idleFd_`. -/
def held : Option ℕ := if s.pc.holds then s.idleFd else none

/-- After the constructor: the spare descriptor is open, and nothing has been accepted. -/
structure Fresh : Prop where
  limit : ∀ fd o, s.descriptors.owner fd = some o → fd < s.descriptors.limit
  spare : ∀ fd, s.descriptors.owner fd = some .spare ↔ s.idleFd = some fd
  idleFd : s.idleFd ≠ none
  pc : s.pc = .ready
  next : s.pool.next = 0
  arrived : s.arrived = s.pending
  rounds : s.rounds = 0
  loopsOf : s.loopsOf = []
  refused : s.refused = 0
  failed : s.failed = 0

end Acceptor

namespace Descriptors

variable {d : Descriptors} {fd : ℕ} {o : Owner}

theorem of_lowest (h : d.lowest = some fd) : fd < d.limit ∧ d.owner fd = none := by
  have hmem := List.mem_of_find?_eq_some h
  have hnone := List.find?_some h
  exact ⟨List.mem_range.mp hmem, Option.isNone_iff_eq_none.mp hnone⟩

theorem owner_assign_self (d : Descriptors) (fd : ℕ) (o : Owner) :
    (d.assign fd o).owner fd = some o := Function.update_self ..

theorem owner_assign_of_ne (d : Descriptors) {fd x : ℕ} (hx : x ≠ fd) (o : Owner) :
    (d.assign fd o).owner x = d.owner x := Function.update_of_ne hx _ _

theorem owner_free_self (d : Descriptors) (fd : ℕ) : (d.free fd).owner fd = none :=
  Function.update_self ..

theorem owner_free_of_ne (d : Descriptors) {fd x : ℕ} (hx : x ≠ fd) :
    (d.free fd).owner x = d.owner x := Function.update_of_ne hx _ _

theorem lowest_ne_none (hfd : fd < d.limit) (h : d.owner fd = none) : d.lowest ≠ none := by
  intro hnone
  have hall := List.find?_eq_none.mp hnone fd (List.mem_range.mpr hfd)
  rw [h] at hall
  exact hall rfl

theorem lowest_free_ne_none (h : d.lowest ≠ none) : (d.free fd).lowest ≠ none := by
  obtain ⟨x, hx⟩ := Option.ne_none_iff_exists'.mp h
  obtain ⟨hlt, hnone⟩ := of_lowest hx
  refine lowest_ne_none hlt ?_
  by_cases hxfd : x = fd
  · rw [hxfd, owner_free_self]
  · rw [owner_free_of_ne d hxfd, hnone]

/-- All descriptors are below the limit, and the one in `idleFd_` is the only spare one. -/
structure Ledger (d : Descriptors) (held : Option ℕ) : Prop where
  limit : ∀ fd o, d.owner fd = some o → fd < d.limit
  spare : ∀ fd, d.owner fd = some .spare ↔ held = some fd

variable {held : Option ℕ}

theorem Ledger.assign_limit (h : d.Ledger held) (hfd : d.lowest = some fd) :
    ∀ x o', (d.assign fd o).owner x = some o' → x < d.limit := by
  intro x o' hx
  by_cases hxfd : x = fd
  · rw [hxfd]
    exact (of_lowest hfd).1
  · rw [owner_assign_of_ne d hxfd] at hx
    exact h.limit x o' hx

theorem Ledger.assign_other (h : d.Ledger held) (hfd : d.lowest = some fd) (ho : o ≠ .spare) :
    (d.assign fd o).Ledger held := by
  refine ⟨h.assign_limit hfd, fun x => ?_⟩
  by_cases hxfd : x = fd
  · rw [hxfd, owner_assign_self, ← h.spare, (of_lowest hfd).2]
    exact iff_of_false (fun heq => ho (Option.some.inj heq)) nofun
  · rw [owner_assign_of_ne d hxfd]
    exact h.spare x

theorem Ledger.assign_spare (h : d.Ledger none) (hfd : d.lowest = some fd) :
    (d.assign fd .spare).Ledger (some fd) := by
  refine ⟨h.assign_limit hfd, fun x => ?_⟩
  by_cases hxfd : x = fd
  · rw [hxfd, owner_assign_self]
    exact iff_of_true rfl rfl
  · rw [owner_assign_of_ne d hxfd, h.spare]
    exact iff_of_false nofun fun heq => hxfd (Option.some.inj heq).symm

theorem Ledger.free_limit (h : d.Ledger held) :
    ∀ x o, (d.free fd).owner x = some o → x < d.limit := by
  intro x o hx
  by_cases hxfd : x = fd
  · rw [hxfd, owner_free_self] at hx
    cases hx
  · rw [owner_free_of_ne d hxfd] at hx
    exact h.limit x o hx

theorem Ledger.free_other (h : d.Ledger held) (hfd : d.owner fd = some o) (ho : o ≠ .spare) :
    (d.free fd).Ledger held := by
  refine ⟨h.free_limit, fun x => ?_⟩
  by_cases hxfd : x = fd
  · rw [hxfd, owner_free_self, ← h.spare, hfd]
    exact iff_of_false nofun fun heq => ho (Option.some.inj heq)
  · rw [owner_free_of_ne d hxfd]
    exact h.spare x

theorem Ledger.free_spare (h : d.Ledger (some fd)) : (d.free fd).Ledger none := by
  refine ⟨h.free_limit, fun x => iff_of_false ?_ nofun⟩
  by_cases hxfd : x = fd
  · rw [hxfd, owner_free_self]
    exact nofun
  · rw [owner_free_of_ne d hxfd, h.spare]
    exact fun heq => hxfd (Option.some.inj heq).symm

end Descriptors

namespace Acceptor

variable {s t : Acceptor}

/-- What holds between any two steps of any threads. -/
structure Kept (s : Acceptor) : Prop where
  ledger : s.descriptors.Ledger s.held
  /-- no connection is lost or counted twice -/
  arrived : s.arrived = s.pending + s.loopsOf.length + s.refused
  next : s.pool.loops ≠ 0 → s.pool.next = s.loopsOf.length % s.pool.loops
  /-- the connections go round the loops -/
  loopsOf : ∀ (k : ℕ) loop, s.loopsOf[k]? = some loop →
    loop = if s.pool.loops = 0 then none else some (k % s.pool.loops)

theorem Fresh.kept (h : s.Fresh) : s.Kept where
  ledger := by
    rw [held, h.pc]
    exact ⟨h.limit, h.spare⟩
  arrived := by
    rw [h.arrived, h.loopsOf, h.refused]
    rfl
  next _ := by
    rw [h.next, h.loopsOf]
    rfl
  loopsOf k loop hk := by
    rw [h.loopsOf] at hk
    cases hk

/-- `getNextLoop` goes round. -/
theorem Kept.getNextLoop (h : s.Kept) : ∃ pool, s.pool.getNextLoop =
      .ok (if s.pool.loops = 0 then none else some (s.loopsOf.length % s.pool.loops), pool) ∧
    pool.loops = s.pool.loops ∧
    (pool.loops ≠ 0 → pool.next = (s.loopsOf.length + 1) % pool.loops) := by
  by_cases hloops : s.pool.loops = 0
  · rw [EventLoopThreadPool.getNextLoop, if_pos hloops, if_pos hloops]
    exact ⟨s.pool, rfl, rfl, fun hne => absurd hloops hne⟩
  · have hnext := h.next hloops
    have hlt : s.pool.next < s.pool.loops := by
      rw [hnext]
      exact Nat.mod_lt _ (Nat.pos_of_ne_zero hloops)
    rw [EventLoopThreadPool.getNextLoop, if_neg hloops, if_neg hloops, ensure_eq_ok hlt, ok_bind,
      ← hnext]
    refine ⟨_, rfl, rfl, fun _ => ?_⟩
    show (if s.pool.next + 1 ≥ s.pool.loops then 0 else s.pool.next + 1) =
      (s.loopsOf.length + 1) % s.pool.loops
    rw [← Nat.mod_add_mod, ← hnext]
    split
    · next hlast =>
      rw [show s.pool.next + 1 = s.pool.loops by omega, Nat.mod_self]
    · next hlast => exact (Nat.mod_eq_of_lt (not_le.mp hlast)).symm

/-- What holds besides when nobody else opens descriptors while `handleRead` runs and `open` fails for
want of descriptors only: the spare one is there, or room for it, and every round disposes of one
connection or has met another error of `accept`. -/
structure Reserve (s : Acceptor) : Prop where
  idle : s.pc = .ready ∨ s.pc = .full → s.idleFd ≠ none
  room : s.pc = .freed ∨ s.pc = .taken ∨ s.pc = .closed →
    s.held ≠ none ∨ s.descriptors.lowest ≠ none
  rounds : s.rounds = s.loopsOf.length + s.refused + s.failed + s.pc.waits.toNat

theorem Fresh.reserve (h : s.Fresh) : s.Reserve where
  idle _ := h.idleFd
  room := by
    rw [h.pc]
    rintro (hpc | hpc | hpc) <;> cases hpc
  rounds := by
    rw [h.rounds, h.loopsOf, h.refused, h.failed, h.pc]
    rfl

/-- Other threads open descriptors only while `handleRead` does not run, and its `open` fails for want
of a descriptor only. -/
def Alone (s : Acceptor) : Action → Prop
  | .openRest => s.pc = .ready
  | .next failure => s.pc = .closed → failure = none
  | _ => True

instance (s : Acceptor) (a : Action) : Decidable (s.Alone a) :=
  match a with
  | .openRest => inferInstanceAs (Decidable (s.pc = .ready))
  | .next failure => inferInstanceAs (Decidable (s.pc = .closed → failure = none))
  | .connect | .handleRead _ | .closeConnection _ | .closeRest _ => inferInstanceAs (Decidable True)

/-- The connection of a failed `accept` is closed, or still waiting. -/
theorem Kept.acceptFails (h : s.Kept) (gone : Bool) :
    ∃ pending refused failed, s.acceptFails gone =
        { s with pending := pending, refused := refused, failed := failed } ∧
      s.arrived = pending + s.loopsOf.length + refused ∧
      refused + failed = s.refused + s.failed + 1 := by
  have harrived := h.arrived
  rw [Acceptor.acceptFails]
  split
  · next hgone => exact ⟨_, _, _, rfl, by omega, by omega⟩
  · exact ⟨_, _, _, rfl, harrived, by omega⟩

/-- A connection that is accepted at once. -/
theorem Kept.newConnection (h : s.Kept) (hpc : s.pc = .ready) (hpending : 0 < s.pending) {fd : ℕ}
    (hfd : s.descriptors.lowest = some fd) :
    ∃ t, newConnection { s with rounds := s.rounds + 1, pending := s.pending - 1 } fd = .ok t ∧
      t.Kept ∧ (s.Reserve → t.Reserve) := by
  have hready : ∀ t : Acceptor, t.pc = s.pc →
      t.pc = .freed ∨ t.pc = .taken ∨ t.pc = .closed → False := by
    intro t ht
    rw [ht, hpc]
    rintro (h | h | h) <;> cases h
  rw [Acceptor.newConnection]
  split
  · obtain ⟨pool, hnext, hloops, hround⟩ := h.getNextLoop
    rw [hnext, ok_bind]
    refine ⟨_, rfl, ⟨?_, ?_, ?_, ?_⟩, fun hr => ⟨hr.idle, fun hpc' => (hready _ rfl hpc').elim, ?_⟩⟩
    · exact h.ledger.assign_other hfd (by decide)
    · show s.arrived = s.pending - 1 + (s.loopsOf ++ [_]).length + s.refused
      rw [h.arrived, List.length_append, List.length_singleton]
      omega
    · show pool.loops ≠ 0 → pool.next = (s.loopsOf ++ [_]).length % pool.loops
      rw [List.length_append, List.length_singleton]
      exact hround
    · intro k loop hk
      show loop = if pool.loops = 0 then none else some (k % pool.loops)
      rw [hloops]
      rcases getElem?_concat_cases hk with hold | ⟨rfl, rfl⟩
      · exact h.loopsOf k loop hold
      · rfl
    · show s.rounds + 1 = (s.loopsOf ++ [_]).length + s.refused + s.failed + s.pc.waits.toNat
      have hrounds := hr.rounds
      rw [List.length_append, List.length_singleton]
      omega
  · refine ⟨_, rfl, ⟨h.ledger, ?_, h.next, h.loopsOf⟩,
      fun hr => ⟨hr.idle, fun hpc' => (hready _ rfl hpc').elim, ?_⟩⟩
    · show s.arrived = s.pending - 1 + s.loopsOf.length + (s.refused + 1)
      rw [h.arrived]
      omega
    · show s.rounds + 1 = s.loopsOf.length + (s.refused + 1) + s.failed + s.pc.waits.toNat
      have hrounds := hr.rounds
      omega

/-- A round whose `accept` fails, with `EMFILE` aside; the process may have ended with it. -/
theorem Kept.round_fails (h : s.Kept) (hpc : s.pc = .ready) (gone : Bool) {pc : AcceptPc}
    (hpc' : pc = .ready ∨ pc = .aborted) :
    let t := { Acceptor.acceptFails { s with rounds := s.rounds + 1 } gone with pc := pc }
    t.Kept ∧ (s.Reserve → t.Reserve) := by
  have hround : Kept { s with rounds := s.rounds + 1 } := ⟨h.ledger, h.arrived, h.next, h.loopsOf⟩
  obtain ⟨pending, refused, failed, heq, harrived, hsum⟩ := hround.acceptFails gone
  have hheld : s.held = s.idleFd := by rw [held, hpc]; rfl
  have hledger := h.ledger
  rw [hheld] at hledger
  rw [heq]
  refine ⟨⟨?_, harrived, h.next, h.loopsOf⟩, fun hr => ⟨fun _ => hr.idle (.inl hpc), ?_, ?_⟩⟩
  · rcases hpc' with rfl | rfl <;> exact hledger
  · rcases hpc' with rfl | rfl <;> rintro (h | h | h) <;> cases h
  · have hrounds := hr.rounds
    have hsum : refused + failed = s.refused + s.failed + 1 := hsum
    have hwaits : pc.waits.toNat = 0 := by rcases hpc' with rfl | rfl <;> rfl
    show s.rounds + 1 = s.loopsOf.length + refused + failed + pc.waits.toNat
    rw [hpc] at hrounds
    rw [hrounds, hwaits]
    show s.loopsOf.length + s.refused + s.failed + 0 + 1 = _
    omega

theorem Kept.handleRead (h : s.Kept) (hpc : s.pc = .ready) (failure : Option Failure) :
    ∃ t, s.handleRead failure = .ok t ∧ t.Kept ∧ (s.Reserve → t.Reserve) := by
  -- the process goes on, with the same program counter
  have hfails (gone : Bool) : ∃ t, (Except.ok
      (Acceptor.acceptFails { s with rounds := s.rounds + 1 } gone) : Except AcceptFault Acceptor) =
      .ok t ∧ t.Kept ∧ (s.Reserve → t.Reserve) := by
    have hround := h.round_fails hpc gone (.inl rfl)
    have hsame : { Acceptor.acceptFails { s with rounds := s.rounds + 1 } gone with pc := .ready } =
        Acceptor.acceptFails { s with rounds := s.rounds + 1 } gone := by
      rw [Acceptor.acceptFails, ← hpc]
      split <;> rfl
    rw [hsame] at hround
    exact ⟨_, rfl, hround⟩
  cases failure with
  | some failure =>
    obtain ⟨error, gone⟩ := failure
    cases error with
    | passing => exact hfails gone
    | fatal => exact ⟨_, rfl, h.round_fails hpc gone (.inr rfl)⟩
  | none =>
    rw [Acceptor.handleRead]
    cases hlowest : s.descriptors.lowest with
    | some fd =>
      simp only
      by_cases hpending : s.pending = 0
      · rw [if_pos hpending]
        exact hfails false
      · rw [if_neg hpending]
        exact h.newConnection hpc (Nat.pos_of_ne_zero hpending) hlowest
    | none =>
      simp only
      have hheld : s.held = s.idleFd := by rw [held, hpc]; rfl
      refine ⟨_, rfl, ⟨?_, h.arrived, h.next, h.loopsOf⟩, fun hr => ⟨?_, ?_, ?_⟩⟩
      · show s.descriptors.Ledger s.idleFd
        rw [← hheld]
        exact h.ledger
      · exact fun _ => hr.idle (.inl hpc)
      · rintro (h | h | h) <;> cases h
      · show s.rounds + 1 = s.loopsOf.length + s.refused + s.failed + 1
        have hrounds := hr.rounds
        rw [hpc] at hrounds
        exact congrArg (· + 1) hrounds

theorem closeIdle_none (h : s.idleFd = none) : s.closeIdle = .ok s := by
  rw [closeIdle]
  split
  · rfl
  · next fd hfd =>
    rw [h] at hfd
    cases hfd

theorem closeIdle_some {fd : ℕ} (h : s.idleFd = some fd)
    (hspare : s.descriptors.owner fd = some .spare) :
    s.closeIdle = .ok { s with descriptors := s.descriptors.free fd } := by
  rw [closeIdle]
  split
  · next hnone =>
    rw [h] at hnone
    cases hnone
  · next fd' hfd =>
    obtain rfl := Option.some.inj (h.symm.trans hfd)
    rw [ensure_eq_ok hspare]
    rfl

/-- `close(idleFd_)` leaves room for another descriptor. -/
theorem Kept.closeIdle (h : s.Kept) (hheld : s.held = s.idleFd) :
    ∃ d, s.closeIdle = .ok { s with descriptors := d } ∧ d.Ledger none ∧
      (s.idleFd ≠ none ∨ s.descriptors.lowest ≠ none → d.lowest ≠ none) := by
  have hledger := h.ledger
  rw [hheld] at hledger
  rcases Option.eq_none_or_eq_some s.idleFd with hidle | ⟨fd, hidle⟩
  · rw [hidle] at hledger
    refine ⟨s.descriptors, closeIdle_none hidle, hledger, ?_⟩
    rintro (hne | hlowest)
    · exact absurd hidle hne
    · exact hlowest
  · rw [hidle] at hledger
    have hspare := (hledger.spare fd).mpr rfl
    refine ⟨s.descriptors.free fd, closeIdle_some hidle hspare, hledger.free_spare, fun _ => ?_⟩
    exact Descriptors.lowest_ne_none (hledger.limit fd _ hspare) (s.descriptors.owner_free_self fd)

theorem Kept.next_full (h : s.Kept) (hpc : s.pc = .full) :
    ∃ t, (s.closeIdle.map fun s => { s with pc := .freed }) = .ok t ∧ t.Kept ∧
      (s.Reserve → t.Reserve) := by
  obtain ⟨d, hclose, hledger, hroom⟩ := h.closeIdle (by rw [held, hpc]; rfl)
  rw [hclose]
  refine ⟨_, rfl, ⟨hledger, h.arrived, h.next, h.loopsOf⟩, fun hr => ⟨?_, fun _ => .inr ?_, ?_⟩⟩
  · rintro (h | h) <;> cases h
  · exact hroom (.inl (hr.idle (.inr hpc)))
  · have hrounds := hr.rounds
    rwa [hpc] at hrounds

theorem Kept.next_taken (h : s.Kept) (hpc : s.pc = .taken) :
    ∃ t, (s.closeIdle.map fun s => { s with pc := .closed }) = .ok t ∧ t.Kept ∧
      (s.Reserve → t.Reserve) := by
  have hheld : s.held = s.idleFd := by rw [held, hpc]; rfl
  obtain ⟨d, hclose, hledger, hroom⟩ := h.closeIdle hheld
  rw [hclose]
  refine ⟨_, rfl, ⟨hledger, h.arrived, h.next, h.loopsOf⟩, fun hr => ⟨?_, fun _ => .inr ?_, ?_⟩⟩
  · rintro (h | h) <;> cases h
  · have hr := hr.room (.inr (.inl hpc))
    rw [hheld] at hr
    exact hroom hr
  · have hrounds := hr.rounds
    rwa [hpc] at hrounds

/-- With room for a descriptor the connection is taken, if there is one. -/
theorem Kept.next_freed (h : s.Kept) (hpc : s.pc = .freed) (failure : Option Failure) :
    Kept { s.acceptIdle failure with pc := .taken } ∧
      (s.Reserve → Reserve { s.acceptIdle failure with pc := .taken }) := by
  have hheld : s.held = none := by rw [held, hpc]; rfl
  have hledger := h.ledger
  rw [hheld] at hledger
  have hroom (hr : s.Reserve) : s.descriptors.lowest ≠ none :=
    (hr.room (.inl hpc)).resolve_left fun hne => hne hheld
  -- another error: `idleFd_` is `-1` now
  have hfails (gone : Bool) : Kept { s.acceptFails gone with idleFd := none, pc := .taken } ∧
      (s.Reserve → Reserve { s.acceptFails gone with idleFd := none, pc := .taken }) := by
    obtain ⟨pending, refused, failed, heq, harrived, hsum⟩ := h.acceptFails gone
    rw [heq]
    refine ⟨⟨hledger, harrived, h.next, h.loopsOf⟩, fun hr => ⟨?_, fun _ => .inr (hroom hr), ?_⟩⟩
    · rintro (h | h) <;> cases h
    · have hrounds := hr.rounds
      rw [hpc] at hrounds
      have hrounds : s.rounds = s.loopsOf.length + s.refused + s.failed + 1 := hrounds
      show s.rounds = s.loopsOf.length + refused + failed
      omega
  cases failure with
  | some failure => exact hfails failure.gone
  | none =>
    rw [acceptIdle]
    cases hlowest : s.descriptors.lowest with
    | none =>
      refine ⟨⟨hledger, h.arrived, h.next, h.loopsOf⟩, fun hr => ?_⟩
      exact absurd hlowest (hroom hr)
    | some fd =>
      simp only
      by_cases hpending : s.pending = 0
      · rw [if_pos hpending]
        exact hfails false
      · rw [if_neg hpending]
        have harrived := h.arrived
        refine ⟨⟨hledger.assign_spare hlowest, ?_, h.next, h.loopsOf⟩, fun hr => ⟨?_, ?_, ?_⟩⟩
        · show s.arrived = s.pending - 1 + s.loopsOf.length + (s.refused + 1)
          omega
        · rintro (h | h) <;> cases h
        · exact fun _ => .inl nofun
        · have hrounds := hr.rounds
          rw [hpc] at hrounds
          have hrounds : s.rounds = s.loopsOf.length + s.refused + s.failed + 1 := hrounds
          show s.rounds = s.loopsOf.length + (s.refused + 1) + s.failed
          omega

theorem Kept.next_closed (h : s.Kept) (hpc : s.pc = .closed) (failure : Option Failure) :
    Kept { s.reopen failure with pc := .ready } ∧
      (s.Reserve → failure = none → Reserve { s.reopen failure with pc := .ready }) := by
  have hheld : s.held = none := by rw [held, hpc]; rfl
  have hledger := h.ledger
  rw [hheld] at hledger
  cases failure with
  | some failure => exact ⟨⟨hledger, h.arrived, h.next, h.loopsOf⟩, fun _ hnone => nomatch hnone⟩
  | none =>
    rw [reopen]
    cases hlowest : s.descriptors.lowest with
    | none =>
      refine ⟨⟨hledger, h.arrived, h.next, h.loopsOf⟩, fun hr _ => absurd hlowest ?_⟩
      exact (hr.room (.inr (.inr hpc))).resolve_left fun hne => hne hheld
    | some fd =>
      refine ⟨⟨hledger.assign_spare hlowest, h.arrived, h.next, h.loopsOf⟩,
        fun hr _ => ⟨fun _ => nofun, ?_, ?_⟩⟩
      · rintro (h | h | h) <;> cases h
      · have hrounds := hr.rounds
        rwa [hpc] at hrounds

/-- Descriptors of others come and go. -/
theorem Kept.setDescriptors (h : s.Kept) {d : Descriptors} (hd : d.Ledger s.held) :
    Kept { s with descriptors := d } :=
  ⟨hd, h.arrived, h.next, h.loopsOf⟩

theorem Kept.closeOther (h : s.Kept) {fd : ℕ} {o : Owner} (hfd : s.descriptors.owner fd = some o)
    (ho : o ≠ .spare) : Kept { s with descriptors := s.descriptors.free fd } ∧
      (s.Reserve → Reserve { s with descriptors := s.descriptors.free fd }) :=
  ⟨h.setDescriptors (h.ledger.free_other hfd ho),
    fun hr => ⟨hr.idle,
      fun hpc => (hr.room hpc).imp_right Descriptors.lowest_free_ne_none, hr.rounds⟩⟩

theorem Kept.step (h : s.Kept) {a : Action} {m : Except AcceptFault Acceptor}
    (hm : s.step a = some m) : ∃ t, m = .ok t ∧ t.Kept ∧ (s.Reserve → s.Alone a → t.Reserve) := by
  unfold Acceptor.step at hm
  obtain ⟨-, hm⟩ := Option.ite_none_left_eq_some.mp hm
  cases a with
  | connect =>
    cases hm
    refine ⟨_, rfl, ⟨h.ledger, ?_, h.next, h.loopsOf⟩, fun hr _ => ⟨hr.idle, hr.room, hr.rounds⟩⟩
    show s.arrived + 1 = s.pending + 1 + s.loopsOf.length + s.refused
    rw [h.arrived]
    omega
  | handleRead failure =>
    obtain ⟨hpc, hm⟩ := Option.ite_none_right_eq_some.mp hm
    cases hm
    obtain ⟨t, ht, hkept, hr⟩ := h.handleRead hpc failure
    exact ⟨t, ht, hkept, fun hs _ => hr hs⟩
  | next failure =>
    simp only at hm
    split at hm
    · cases hm
    · cases hm
    · next hpc =>
      cases hm
      obtain ⟨t, ht, hkept, hr⟩ := h.next_full hpc
      exact ⟨t, ht, hkept, fun hs _ => hr hs⟩
    · next hpc =>
      cases hm
      exact ⟨_, rfl, (h.next_freed hpc failure).1, fun hs _ => (h.next_freed hpc failure).2 hs⟩
    · next hpc =>
      cases hm
      obtain ⟨t, ht, hkept, hr⟩ := h.next_taken hpc
      exact ⟨t, ht, hkept, fun hs _ => hr hs⟩
    · next hpc =>
      cases hm
      have hclosed := h.next_closed hpc failure
      exact ⟨_, rfl, hclosed.1, fun hs halone => hclosed.2 hs (halone hpc)⟩
  | closeConnection fd =>
    obtain ⟨hfd, hm⟩ := Option.ite_none_right_eq_some.mp hm
    cases hm
    have hclose := h.closeOther hfd (by decide)
    exact ⟨_, rfl, hclose.1, fun hs _ => hclose.2 hs⟩
  | openRest =>
    obtain ⟨fd, hfd, rfl⟩ := Option.map_eq_some_iff.mp hm
    refine ⟨_, rfl, h.setDescriptors (h.ledger.assign_other hfd (by decide)), fun hr hready => ?_⟩
    refine ⟨hr.idle, fun hpc => ?_, hr.rounds⟩
    have hpc : s.pc = .freed ∨ s.pc = .taken ∨ s.pc = .closed := hpc
    rw [show s.pc = .ready from hready] at hpc
    rcases hpc with hpc | hpc | hpc <;> cases hpc
  | closeRest fd =>
    obtain ⟨hfd, hm⟩ := Option.ite_none_right_eq_some.mp hm
    cases hm
    have hclose := h.closeOther hfd (by decide)
    exact ⟨_, rfl, hclose.1, fun hs _ => hclose.2 hs⟩

theorem Kept.loopsOf_eq (h : s.Kept) (hloops : s.pool.loops ≠ 0) :
    s.loopsOf = (List.range s.loopsOf.length).map fun k => some (k % s.pool.loops) := by
  refine List.ext_getElem? fun k => ?_
  rw [List.getElem?_map]
  rcases Nat.lt_or_ge k s.loopsOf.length with hk | hk
  · have hloop := h.loopsOf k s.loopsOf[k] (List.getElem?_eq_getElem hk)
    rw [if_neg hloops] at hloop
    rw [List.getElem?_eq_getElem hk, List.getElem?_range hk, Option.map_some, hloop]
  · rw [List.getElem?_eq_none hk, List.getElem?_eq_none (by rwa [List.length_range]), Option.map_none]

/-- Each loop has its share of the connections. -/
theorem Kept.count_loopsOf (h : s.Kept) {i : ℕ} (hi : i < s.pool.loops) :
    s.loopsOf.count (some i) = s.loopsOf.length / s.pool.loops +
      if i < s.loopsOf.length % s.pool.loops then 1 else 0 := by
  have hpos : 0 < s.pool.loops := Nat.zero_lt_of_lt hi
  have hcount := Nat.count_modEq_card s.loopsOf.length hpos i
  rw [Nat.mod_eq_of_lt hi] at hcount
  rw [← hcount, Nat.count]
  conv_lhs => rw [h.loopsOf_eq (Nat.ne_of_gt hpos), List.count, List.countP_map]
  refine List.countP_congr fun k _ => ?_
  simp [Nat.ModEq, Nat.mod_eq_of_lt hi]

/-- A process with three descriptors, of which one is in use and one is the spare one. -/
def crowded : Acceptor where
  descriptors := ⟨3, fun fd => if fd = 0 then some .rest else if fd = 1 then some .spare else none⟩
  idleFd := some 1
  pc := .ready
  pending := 0
  pool := ⟨2, 0⟩
  callback := true
  arrived := 0
  rounds := 0
  loopsOf := []
  refused := 0
  failed := 0

theorem fresh_crowded : crowded.Fresh := by
  refine ⟨fun fd o hfd => ?_, fun fd => ?_, nofun, rfl, rfl, rfl, rfl, rfl, rfl, rfl⟩
  · have hfd : (if fd = 0 then some Owner.rest else if fd = 1 then some .spare else none) = some o :=
      hfd
    show fd < 3
    split at hfd
    · omega
    · split at hfd
      · omega
      · cases hfd
  · show (if fd = 0 then some Owner.rest else if fd = 1 then some .spare else none) = some .spare ↔
      some 1 = some fd
    by_cases h0 : fd = 0
    · simp [h0]
    · by_cases h1 : fd = 1
      · simp [h1]
      · simp [h0, h1, Ne.symm h1]

/-- Whatever other threads open and close meanwhile: no call is made on a descriptor that is not the
acceptor's, the only spare descriptor is the one in `idleFd_`, every connection that has arrived is
waiting, given to the server or closed, and the loops take turns. -/
theorem server_accepts (p : Except AcceptFault Acceptor)
    (h : Run step (fun _ _ => True) Fresh p) : ∃ s, p = .ok s ∧
      (∀ fd, s.descriptors.owner fd = some .spare ↔ s.held = some fd) ∧
      s.arrived = s.pending + s.loopsOf.length + s.refused ∧
      (∀ (k : ℕ) loop, s.loopsOf[k]? = some loop →
        loop = if s.pool.loops = 0 then none else some (k % s.pool.loops)) ∧
      ∀ i, i < s.pool.loops → s.loopsOf.count (some i) = s.loopsOf.length / s.pool.loops +
        if i < s.loopsOf.length % s.pool.loops then 1 else 0 := by
  obtain ⟨s, rfl, hs⟩ := h.safe (fun s hs => hs.kept) fun s a m hs _ hm => by
    obtain ⟨t, rfl, ht, -⟩ := hs.step hm
    exact ⟨t, rfl, ht⟩
  exact ⟨s, rfl, hs.ledger.spare, hs.arrived, hs.loopsOf, fun i hi => hs.count_loopsOf hi⟩

/-- Three connections with room for one: the second is closed, and the third accepted when the first
has ended. Two loops take turns. -/
theorem server_accepts_three : ∃ s : Acceptor, s.loopsOf = [some 0, some 1] ∧ s.refused = 1 ∧
    s.arrived = s.pending + s.loopsOf.length + s.refused := by
  have hex : seen (exec (faulting step) (.ok crowded)
      [.connect, .connect, .connect, .handleRead none, .handleRead none, .next none, .next none,
        .next none, .next none, .closeConnection 2, .handleRead none])
      (fun s => decide (s.loopsOf = [some 0, some 1]) && decide (s.refused = 1)) = true := by
    decide +kernel
  obtain ⟨s, hs, hcheck⟩ := exists_of_seen hex
  simp only [Bool.and_eq_true, decide_eq_true_eq] at hcheck
  obtain ⟨s', hs', -, harrived, -⟩ := server_accepts (.ok s) (Run.of_exec Fresh fresh_crowded _ hs)
  cases hs'
  exact ⟨s, hcheck.1, hcheck.2, harrived⟩

/-- When nobody else opens a descriptor while `handleRead` runs and its `open` fails for want of
descriptors only, there is always a spare one for the next round. Every round has disposed of one
connection, also with all descriptors in use, except for those in which an `accept` failed for
another reason: they are the only ones that can make the loop spin. -/
theorem acceptor_never_spins (p : Except AcceptFault Acceptor) (h : Run step Alone Fresh p) :
    ∃ s, p = .ok s ∧ (s.pc = .ready →
      s.idleFd ≠ none ∧ s.rounds = s.loopsOf.length + s.refused + s.failed) := by
  obtain ⟨s, rfl, hs, hr⟩ := Run.safe (I := fun s => s.Kept ∧ s.Reserve)
    (fun s hs => ⟨hs.kept, hs.reserve⟩) (fun s a m hs ha hm => by
      obtain ⟨t, rfl, ht, hr⟩ := hs.1.step hm
      exact ⟨t, rfl, ht, hr hs.2 ha⟩) h
  refine ⟨s, rfl, fun hpc => ⟨hr.idle (.inl hpc), ?_⟩⟩
  have hrounds := hr.rounds
  rwa [hpc] at hrounds

/-- A call that is interrupted, one that accepts, and the round in which the second of three
connections is closed. -/
theorem acceptor_never_spins_crowded : ∃ s : Acceptor, s.pc = .ready ∧ s.rounds = 3 ∧
    s.failed = 1 ∧ s.idleFd ≠ none ∧ s.rounds = s.loopsOf.length + s.refused + s.failed := by
  have hex : seen (exec (faulting (restrict Alone step)) (.ok crowded)
      [.openRest, .closeRest 2, .connect, .connect, .connect, .handleRead (some ⟨.passing, false⟩),
        .handleRead none, .handleRead none, .next none, .next none, .next none, .next none])
      (fun s => decide (s.pc = .ready) && decide (s.rounds = 3) && decide (s.failed = 1)) = true := by
    decide +kernel
  obtain ⟨s, hs, hcheck⟩ := exists_of_seen hex
  simp only [Bool.and_eq_true, decide_eq_true_eq] at hcheck
  have hrun : Run step Alone Fresh (.ok s) := (Run.start fresh_crowded).exec _ hs
  obtain ⟨s', hs', hready⟩ := acceptor_never_spins (.ok s) hrun
  cases hs'
  exact ⟨s, hcheck.1.1, hcheck.1.2, hcheck.2, hready hcheck.1.1⟩

/-- Another thread takes the descriptor that was given up: there is no spare one any more, and
the next round changes nothing. -/
example : seen (exec (faulting step) (.ok crowded)
    [.connect, .connect, .handleRead none, .handleRead none, .next none, .openRest, .next none,
      .next none, .next none, .handleRead none, .next none, .next none, .next none, .next none])
    (fun s => decide (s.pc = .ready) && s.idleFd.isNone && decide (s.rounds = 3) &&
      decide (s.loopsOf.length + s.refused + s.failed = 1)) = true := by
  decide +kernel

end Acceptor

end DbdkyGcc.Tcp
