import DbdkyGcc.Foundations.Runs
import DbdkyGcc.Foundations.Text

/-!
# The names of a server's connections

`TcpServer` keeps its connections in a map under their names. A name consists of
the server's name and of `":%s#%d"` with the listen address and a counter, cut
off to 31 characters by `snprintf`. As long as the address leaves room for all
digits of the counter, the names of live connections differ; otherwise two of
them coincide once the counter is large enough.
-/

namespace DbdkyGcc.Tcp

open Foundations

/-- An IPv4 address and a port. -/
structure InetAddress where
  a : UInt8
  b : UInt8
  c : UInt8
  d : UInt8
  port : UInt16

namespace InetAddress

/-- `inet_ntop`. -/
def toIp (addr : InetAddress) : List Char :=
  decimal addr.a.toNat ++ '.' :: decimal addr.b.toNat ++ '.' :: decimal addr.c.toNat ++
    '.' :: decimal addr.d.toNat

def toIpPort (addr : InetAddress) : List Char :=
  snprintf 32 (addr.toIp ++ ':' :: decimal addr.port.toNat)

end InetAddress

/-- A connection: the value of the counter when it was accepted, and its name. -/
structure Accepted where
  id : Nat
  name : List Char
  deriving DecidableEq

/-- The server, and the connections that have been accepted and not yet removed. -/
structure TcpServer where
  nextConnId : Nat
  connections : List Char → Option Nat
  live : List Accepted

namespace TcpServer

/-- What newly constructed servers have. -/
def new : TcpServer := { nextConnId := 1, connections := fun _ => none, live := [] }

inductive Fault
  | removeConnectionInLoop
  deriving DecidableEq, Repr

section Functions

variable (addr : InetAddress) (name : List Char) (s : TcpServer)

/-- The name of the connection with the number `id`. -/
def connName (id : Nat) : List Char :=
  name ++ snprintf 32 (':' :: addr.toIpPort ++ '#' :: decimal id)

def newConnection : TcpServer :=
  let conn : Accepted := { id := s.nextConnId, name := connName addr name s.nextConnId }
  { nextConnId := s.nextConnId + 1
    connections := Function.update s.connections conn.name (some conn.id)
    live := s.live ++ [conn] }

/-- `erase` returns how many entries there were. -/
def removeConnectionInLoop (conn : Accepted) : Except Fault TcpServer := do
  let n := if (s.connections conn.name).isSome then 1 else 0
  ensure .removeConnectionInLoop (n = 1)
  pure
    { s with
      connections := Function.update s.connections conn.name none
      live := s.live.filter fun other => other.id ≠ conn.id }

inductive Action
  | newConnection
  | removeConnection (id : Nat)

/-- A connection is accepted as long as the counter is below `2 ^ 31`, and a live one is
removed. -/
def step : Action → Option (Except Fault TcpServer)
  | .newConnection =>
    if s.nextConnId < 2 ^ 31 then some (pure (s.newConnection addr name)) else none
  | .removeConnection id =>
    match s.live.find? fun conn => conn.id = id with
    | some conn => some (s.removeConnectionInLoop conn)
    | none => none

end Functions

variable {addr : InetAddress} {name : List Char} {s : TcpServer}

/-- The live connections have different names, and the map has each of them. -/
structure Keeps (s : TcpServer) : Prop where
  names : (s.live.map Accepted.name).Nodup
  mapped : ∀ conn ∈ s.live, s.connections conn.name = some conn.id

theorem step_newConnection (h : s.nextConnId < 2 ^ 31) :
    step addr name s .newConnection = some (.ok (s.newConnection addr name)) := if_pos h

theorem removeConnectionInLoop_of_mapped {conn : Accepted} {id : Nat}
    (h : s.connections conn.name = some id) :
    s.removeConnectionInLoop conn = .ok
      { s with
        connections := Function.update s.connections conn.name none
        live := s.live.filter fun other => other.id ≠ conn.id } := by
  have hone : (if (s.connections conn.name).isSome then 1 else 0) = 1 := by
    rw [h]
    rfl
  rw [removeConnectionInLoop, ensure_eq_ok hone]
  rfl

theorem removeConnectionInLoop_of_unmapped {conn : Accepted} (h : s.connections conn.name = none) :
    s.removeConnectionInLoop conn = .error .removeConnectionInLoop := by
  have hzero : ¬(if (s.connections conn.name).isSome then 1 else 0) = 1 := by
    rw [h]
    exact Nat.zero_ne_one
  rw [removeConnectionInLoop, ensure, if_neg hzero]
  rfl

/-- Where the address is short enough, the buffer holds every digit of the counter. -/
theorem connName_inj (haddr : addr.toIpPort.length ≤ 19) {i j : Nat} (hi : i < 2 ^ 31)
    (hj : j < 2 ^ 31) (h : connName addr name i = connName addr name j) : i = j := by
  have hall : ∀ k, k < 2 ^ 31 →
      snprintf 32 (':' :: addr.toIpPort ++ '#' :: decimal k) =
        ':' :: addr.toIpPort ++ '#' :: decimal k := by
    intro k hk
    have hdigits : (decimal k).length ≤ 10 := length_decimal_le (by decide) (by omega)
    apply List.take_of_length_le
    simp only [List.length_append, List.length_cons]
    omega
  have htext := List.append_cancel_left h
  rw [hall i hi, hall j hj] at htext
  have htail := List.append_cancel_left htext
  exact decimal_injective (List.cons.inj htail).2

/-- The invariant: a live connection has the name of its number, and stands in the map. -/
structure Numbered (addr : InetAddress) (name : List Char) (s : TcpServer) : Prop where
  nodup : (s.live.map Accepted.id).Nodup
  below : ∀ conn ∈ s.live, conn.id < s.nextConnId
  name_eq : ∀ conn ∈ s.live, conn.name = connName addr name conn.id
  mapped : ∀ conn ∈ s.live, s.connections conn.name = some conn.id
  counter : s.nextConnId ≤ 2 ^ 31

namespace Numbered

theorem new (addr : InetAddress) (name : List Char) : Numbered addr name TcpServer.new where
  nodup := List.nodup_nil
  below := fun _ h => absurd h List.not_mem_nil
  name_eq := fun _ h => absurd h List.not_mem_nil
  mapped := fun _ h => absurd h List.not_mem_nil
  counter := by decide

variable (h : Numbered addr name s) (haddr : addr.toIpPort.length ≤ 19)

include h haddr

/-- Live connections with one name are the same. -/
theorem eq_of_name_eq {x y : Accepted} (hx : x ∈ s.live) (hy : y ∈ s.live)
    (hxy : x.name = y.name) : x = y := by
  have hcounter := h.counter
  have hxb := h.below x hx
  have hyb := h.below y hy
  rw [h.name_eq x hx, h.name_eq y hy] at hxy
  have hid := connName_inj haddr (by omega) (by omega) hxy
  exact List.inj_on_of_nodup_map h.nodup hx hy hid

theorem keeps : s.Keeps := by
  refine ⟨List.Nodup.map_on ?_ h.nodup.of_map, h.mapped⟩
  intro x hx y hy hxy
  exact h.eq_of_name_eq haddr hx hy hxy

theorem newConnection (hid : s.nextConnId < 2 ^ 31) :
    Numbered addr name (s.newConnection addr name) := by
  have hmem : ∀ conn ∈ (s.newConnection addr name).live, conn ∈ s.live ∨
      conn = { id := s.nextConnId, name := connName addr name s.nextConnId } := by
    intro conn hconn
    exact (List.mem_append.mp hconn).imp_right List.mem_singleton.mp
  constructor
  · change ((s.live ++ [_]).map Accepted.id).Nodup
    rw [List.map_append, List.nodup_append]
    refine ⟨h.nodup, List.nodup_singleton _, ?_⟩
    intro i hi j hj
    obtain ⟨conn, hconn, rfl⟩ := List.mem_map.mp hi
    rw [List.map_singleton, List.mem_singleton] at hj
    subst hj
    exact Nat.ne_of_lt (h.below conn hconn)
  · intro conn hconn
    change conn.id < s.nextConnId + 1
    rcases hmem conn hconn with hold | rfl
    · exact Nat.lt_succ_of_lt (h.below conn hold)
    · exact Nat.lt_succ_self _
  · intro conn hconn
    rcases hmem conn hconn with hold | rfl
    · exact h.name_eq conn hold
    · rfl
  · intro conn hconn
    change Function.update s.connections (connName addr name s.nextConnId) (some s.nextConnId)
      conn.name = some conn.id
    rcases hmem conn hconn with hold | rfl
    · have hne : conn.name ≠ connName addr name s.nextConnId := by
        intro heq
        rw [h.name_eq conn hold] at heq
        have hlt := h.below conn hold
        have := connName_inj haddr (by omega) hid heq
        omega
      rw [Function.update_of_ne hne]
      exact h.mapped conn hold
    · exact Function.update_self _ _ _
  · exact hid

theorem removeConnectionInLoop {conn : Accepted} (hconn : conn ∈ s.live) :
    ∃ t, s.removeConnectionInLoop conn = .ok t ∧ Numbered addr name t := by
  rw [removeConnectionInLoop_of_mapped (h.mapped conn hconn)]
  have hsub : (s.live.filter fun other => other.id ≠ conn.id).Sublist s.live :=
    List.filter_sublist
  refine ⟨_, rfl, ?_⟩
  constructor
  · exact h.nodup.sublist (hsub.map _)
  · exact fun other hother => h.below other (hsub.subset hother)
  · exact fun other hother => h.name_eq other (hsub.subset hother)
  · intro other hother
    change Function.update s.connections conn.name none other.name = some other.id
    obtain ⟨hlive, hne⟩ := List.mem_filter.mp hother
    have hname : other.name ≠ conn.name := by
      intro heq
      rw [h.eq_of_name_eq haddr hlive hconn heq] at hne
      simp at hne
    rw [Function.update_of_ne hname]
    exact h.mapped other hlive
  · exact h.counter

theorem step {a : Action} {m : Except Fault TcpServer} (hm : step addr name s a = some m) :
    ∃ t, m = .ok t ∧ Numbered addr name t := by
  cases a with
  | newConnection =>
    obtain ⟨hid, hm⟩ := Option.ite_none_right_eq_some.mp hm
    cases hm
    exact ⟨_, rfl, h.newConnection haddr hid⟩
  | removeConnection id =>
    simp only [TcpServer.step] at hm
    split at hm
    · next conn hfind =>
      cases hm
      exact h.removeConnectionInLoop haddr (List.mem_of_find?_eq_some hfind)
    · cases hm

end Numbered

/-- A server that has accepted and removed connections one after the other. -/
def idle (n : Nat) : TcpServer := { nextConnId := n, connections := fun _ => none, live := [] }

/-- Every value of the counter is reached without a live connection. -/
theorem run_idle (addr : InetAddress) (name : List Char) {n : Nat} (hn : 1 ≤ n)
    (hmax : n ≤ 2 ^ 31) : Run (step addr name) (fun _ _ => True) (· = new) (.ok (idle n)) := by
  induction n, hn using Nat.le_induction with
  | base => exact Run.start rfl
  | succ n hn ih =>
    have hbelow : (idle n).nextConnId < 2 ^ 31 := by
      change n < 2 ^ 31
      omega
    have hrun := (ih (by omega)).next .newConnection trivial (step_newConnection hbelow)
    refine hrun.next (.removeConnection n) trivial ?_
    -- the only live connection is the new one
    have hfind : ((idle n).newConnection addr name).live.find? (fun conn => conn.id = n) =
        some { id := n, name := connName addr name n } := by
      simp [newConnection, idle]
    have hmapped : ((idle n).newConnection addr name).connections (connName addr name n) =
        some n := Function.update_self _ _ _
    have hback : Function.update (Function.update (fun _ => none) (connName addr name n) (some n))
        (connName addr name n) none = fun _ => (none : Option Nat) := by
      funext key
      rw [Function.update_idem]
      by_cases hkey : key = connName addr name n
      · rw [hkey, Function.update_self]
      · rw [Function.update_of_ne hkey]
    simp only [step, hfind]
    rw [removeConnectionInLoop_of_mapped hmapped]
    simp [newConnection, idle, hback]

/-- The digits that are left of two large numbers agree. -/
theorem snprintf_clash {text : List Char} (h : 22 ≤ text.length) :
    snprintf 32 (text ++ decimal (10 ^ 9)) = snprintf 32 (text ++ decimal (10 ^ 9 + 1)) := by
  have hdigits : (decimal (10 ^ 9)).take 9 = (decimal (10 ^ 9 + 1)).take 9 := by decide +kernel
  have hshort : (decimal (10 ^ 9)).take (31 - text.length) =
      (decimal (10 ^ 9 + 1)).take (31 - text.length) := by
    have hcut := congrArg (List.take (31 - text.length)) hdigits
    rwa [List.take_take, List.take_take, Nat.min_eq_left (by omega)] at hcut
  change (text ++ _).take 31 = (text ++ _).take 31
  rw [List.take_append, List.take_append, hshort]

theorem connName_clash (haddr : 20 ≤ addr.toIpPort.length) :
    connName addr name (10 ^ 9) = connName addr name (10 ^ 9 + 1) := by
  have htext : 22 ≤ (':' :: addr.toIpPort ++ ['#']).length := by
    simp only [List.length_append, List.length_cons, List.length_nil]
    omega
  have hclash := snprintf_clash htext
  simp only [List.append_assoc, List.singleton_append] at hclash
  rw [connName, connName]
  exact congrArg (name ++ ·) hclash

/-- Two connections accepted when the counter is `10 ^ 9` and `10 ^ 9 + 1`. -/
def two (addr : InetAddress) (name : List Char) : TcpServer :=
  ((idle (10 ^ 9)).newConnection addr name).newConnection addr name

theorem run_two (addr : InetAddress) (name : List Char) :
    Run (step addr name) (fun _ _ => True) (· = new) (.ok (two addr name)) := by
  have hidle := run_idle addr name (n := 10 ^ 9) (by decide) (by decide)
  have hfirst := hidle.next .newConnection trivial
    (step_newConnection (show 10 ^ 9 < 2 ^ 31 by decide))
  exact hfirst.next .newConnection trivial
    (step_newConnection (show 10 ^ 9 + 1 < 2 ^ 31 by decide))

/-- Where the names coincide, the later connection replaces the earlier one in the map. -/
theorem not_keeps_two (haddr : 20 ≤ addr.toIpPort.length) : ¬(two addr name).Keeps := by
  intro hkeeps
  have hnames : [connName addr name (10 ^ 9), connName addr name (10 ^ 9 + 1)].Nodup :=
    hkeeps.names
  rw [connName_clash haddr] at hnames
  simp at hnames

/-- The first of the two is removed, which takes the entry of the second out of the map. -/
theorem run_fault (haddr : 20 ≤ addr.toIpPort.length) :
    Run (step addr name) (fun _ _ => True) (· = new) (.error .removeConnectionInLoop) := by
  have hclash : connName addr name (10 ^ 9) = connName addr name (10 ^ 9 + 1) :=
    connName_clash haddr
  let first : Accepted := { id := 10 ^ 9, name := connName addr name (10 ^ 9) }
  let second : Accepted := { id := 10 ^ 9 + 1, name := connName addr name (10 ^ 9 + 1) }
  let rest : TcpServer :=
    { two addr name with
      connections := Function.update (two addr name).connections first.name none
      live := (two addr name).live.filter fun other => other.id ≠ first.id }
  have hfind : (two addr name).live.find? (fun conn => conn.id = 10 ^ 9) = some first := by
    simp [two, newConnection, idle, first]
  have hmapped : (two addr name).connections first.name = some (10 ^ 9 + 1) := by
    have hname : first.name = connName addr name (10 ^ 9 + 1) := hclash
    rw [hname]
    exact Function.update_self _ _ _
  have hremove : step addr name (two addr name) (.removeConnection (10 ^ 9)) =
      some (.ok rest) := by
    simp only [step, hfind]
    rw [removeConnectionInLoop_of_mapped hmapped]
  have hrun := (run_two addr name).next (.removeConnection (10 ^ 9)) trivial hremove
  have hnext : rest.live.find? (fun conn => conn.id = 10 ^ 9 + 1) = some second := by
    simp [rest, two, newConnection, idle, first, second]
  have hunmapped : rest.connections second.name = none := by
    have hname : second.name = first.name := hclash.symm
    rw [hname]
    exact Function.update_self _ _ _
  refine hrun.next (.removeConnection (10 ^ 9 + 1)) trivial ?_
  simp only [step, hnext]
  rw [removeConnectionInLoop_of_unmapped hunmapped]

/-- Every run keeps every live connection under its own name exactly when the text of the listen
address has at most 19 characters. -/
theorem keeps_connections_iff (addr : InetAddress) (name : List Char) :
    (∀ p, Run (step addr name) (fun _ _ => True) (· = new) p → ∃ s, p = .ok s ∧ s.Keeps) ↔
      addr.toIpPort.length ≤ 19 := by
  constructor
  · intro hall
    by_contra hlong
    obtain ⟨s, hs, hkeeps⟩ := hall _ (run_two addr name)
    cases hs
    exact not_keeps_two (by omega) hkeeps
  · intro haddr p hp
    obtain ⟨s, hs, hnumbered⟩ := hp.safe (I := Numbered addr name)
      (by rintro s rfl; exact Numbered.new addr name) fun s a m hs _ hm => hs.step haddr hm
    exact ⟨s, hs, hnumbered.keeps haddr⟩

/-- On a server that listens on 192.168.100.10:10000, the connections with the numbers `10 ^ 9` and
`10 ^ 9 + 1` have one name. When both are removed, the assertion fails. -/
theorem names_clash :
    Run (step ⟨192, 168, 100, 10, 10000⟩ ['s']) (fun _ _ => True) (· = new)
      (.error .removeConnectionInLoop) ∧
    ∃ s, Run (step ⟨192, 168, 100, 10, 10000⟩ ['s']) (fun _ _ => True) (· = new) (.ok s) ∧
      ¬s.Keeps := by
  have haddr : 20 ≤ (InetAddress.toIpPort ⟨192, 168, 100, 10, 10000⟩).length := by decide
  exact ⟨run_fault haddr, _, run_two _ _, not_keeps_two haddr⟩

end TcpServer

end DbdkyGcc.Tcp
