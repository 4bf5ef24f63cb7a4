import Mathlib

/-!
# Stretches of a block of memory, and integers in memory

A block of memory is a list. `slice` is the stretch between two positions and
`overwrite` a copy into it; `copyForward` is the element by element copy of a
stretch within one block, which agrees with `overwrite` as long as the target
does not lie behind the source. An integer of `k` bytes is written down with
`bigEndian`; `Endian` gives the layout that the machine itself uses and the
conversions between the two.
-/

namespace DbdkyGcc.Foundations

section Block

variable {α : Type}

/-- The stretch of `l` from position `i` up to position `j`. -/
def slice (l : List α) (i j : Nat) : List α := (l.take j).drop i

/-- `l` with `d` copied over it from position `i` on. -/
def overwrite (l : List α) (i : Nat) (d : List α) : List α :=
  l.take i ++ d ++ l.drop (i + d.length)

/-- The loop that copies `n` elements from `src` to `dst` within one block, first to last. -/
def copyForward (l : List α) (src dst : Nat) : Nat → List α
  | 0 => l
  | n + 1 =>
    match l[src]? with
    | some x => copyForward (l.set dst x) (src + 1) (dst + 1) n
    | none => l

variable {l d : List α} {i j k n : Nat}

theorem length_slice (hj : j ≤ l.length) : (slice l i j).length = j - i := by
  rw [slice, List.length_drop, List.length_take, Nat.min_eq_left hj]

theorem slice_self (l : List α) (i : Nat) : slice l i i = [] := by
  apply List.drop_eq_nil_of_le
  rw [List.length_take]
  omega

theorem slice_eq_take_drop (l : List α) (i n : Nat) : slice l i (i + n) = (l.drop i).take n := by
  rw [slice, List.drop_take, Nat.add_sub_cancel_left]

theorem drop_slice (l : List α) (i j n : Nat) : (slice l i j).drop n = slice l (i + n) j := by
  rw [slice, List.drop_drop, slice]

theorem take_slice (h : i + n ≤ j) : (slice l i j).take n = slice l i (i + n) := by
  obtain ⟨m, rfl⟩ := Nat.exists_eq_add_of_le (Nat.le_trans (Nat.le_add_right i n) h)
  rw [slice_eq_take_drop, slice_eq_take_drop, List.take_take, Nat.min_eq_left (by omega)]

/-- Two adjacent stretches. -/
theorem slice_append_slice (hij : i ≤ j) (hjk : j ≤ k) :
    slice l i j ++ slice l j k = slice l i k := by
  obtain ⟨m, rfl⟩ := Nat.exists_eq_add_of_le hij
  rw [← take_slice hjk, ← drop_slice]
  exact List.take_append_drop m (slice l i k)

theorem slice_append_left (h : j ≤ l.length) : slice (l ++ d) i j = slice l i j := by
  rw [slice, List.take_append_of_le_length h, slice]

theorem length_overwrite (h : i + d.length ≤ l.length) : (overwrite l i d).length = l.length := by
  simp only [overwrite, List.length_append, List.length_take, List.length_drop]
  omega

/-- What a copy wrote is read back. -/
theorem slice_overwrite_self (h : i + d.length ≤ l.length) :
    slice (overwrite l i d) i (i + d.length) = d := by
  have hi : (l.take i).length = i := by
    rw [List.length_take]
    omega
  rw [slice_eq_take_drop, overwrite, List.append_assoc, List.drop_left' hi, List.take_left]

/-- A copy leaves what lies before it. -/
theorem slice_overwrite_of_le (hk : j ≤ k) (h : k + d.length ≤ l.length) :
    slice (overwrite l k d) i j = slice l i j := by
  have hlen : j ≤ (l.take k).length := by
    rw [List.length_take]
    omega
  rw [overwrite, List.append_assoc, slice_append_left hlen, slice, List.take_take,
    Nat.min_eq_left hk, slice]

/-- A copy leaves what lies behind it. -/
theorem slice_overwrite_of_ge (hk : k + d.length ≤ i) (h : k + d.length ≤ l.length) :
    slice (overwrite l k d) i j = slice l i j := by
  have hlen : (l.take k ++ d).length = k + d.length := by
    rw [List.length_append, List.length_take]
    omega
  obtain ⟨m, rfl⟩ := Nat.exists_eq_add_of_le hk
  have hdrop : (overwrite l k d).drop (k + d.length + m) = l.drop (k + d.length + m) := by
    rw [← List.drop_drop, overwrite, List.drop_left' hlen, List.drop_drop]
  rw [slice, slice, List.drop_take, List.drop_take, hdrop]

/-- One element copied, then the rest. -/
theorem overwrite_set (x : α) (h : i < l.length) :
    overwrite (l.set i x) (i + 1) d = overwrite l i (x :: d) := by
  have htake : (l.set i x).take (i + 1) = l.take i ++ [x] := by
    rw [List.set_eq_take_append_cons_drop, if_pos h]
    have hi : (l.take i).length = i := by
      rw [List.length_take]
      omega
    rw [List.take_append, hi, List.take_of_length_le (by omega)]
    simp
  have hdrop : (l.set i x).drop (i + 1 + d.length) = l.drop (i + (d.length + 1)) := by
    rw [List.drop_set_of_lt (by omega), Nat.add_assoc, Nat.add_comm 1]
  rw [overwrite, overwrite, htake, hdrop, List.append_assoc (l.take i), List.length_cons]
  rfl

theorem length_take_append (h : i ≤ l.length) : (l.take i ++ d).length = i + d.length := by
  rw [List.length_append, List.length_take, Nat.min_eq_left h]

/-- What is written first comes behind what was there. -/
theorem take_overwrite {front back : List α} (h : i + (front ++ back).length ≤ l.length) :
    (overwrite l i (front ++ back)).take (i + front.length) = l.take i ++ front := by
  have hlen : (l.take i ++ front).length = i + front.length :=
    length_take_append (Nat.le_of_add_right_le h)
  rw [overwrite, ← List.append_assoc, List.append_assoc _ back, ← hlen, List.take_left]

/-- A copy directly behind another one. -/
theorem overwrite_overwrite {front back : List α} (h : i + (front ++ back).length ≤ l.length) :
    overwrite (overwrite l i front) (i + front.length) back = overwrite l i (front ++ back) := by
  have hlen : (l.take i ++ front).length = i + front.length :=
    length_take_append (Nat.le_of_add_right_le h)
  have hdrop : (overwrite l i front).drop (i + front.length + back.length) =
      l.drop (i + (front ++ back).length) := by
    rw [overwrite, ← hlen, List.drop_length_add_append, List.drop_drop, hlen, List.length_append,
      Nat.add_assoc]
  have htake : (overwrite l i front).take (i + front.length) = l.take i ++ front := by
    rw [overwrite, ← hlen, List.take_left]
  rw [overwrite, htake, hdrop, overwrite, List.append_assoc (l.take i)]

theorem slice_set (x : α) (h : k < i) : slice (l.set k x) i j = slice l i j := by
  rw [slice, slice, List.take_set, List.drop_set_of_lt h]

/-- The overlap does not matter to a copy towards the front: what it overwrites has been read. -/
theorem copyForward_eq_overwrite (n : Nat) {l : List α} {i k : Nat} (hk : k ≤ i)
    (h : i + n ≤ l.length) : copyForward l i k n = overwrite l k (slice l i (i + n)) := by
  -- the next source position lies behind the element that the iteration has written
  induction n generalizing l i k with
  | zero =>
    rw [Nat.add_zero, slice_self, copyForward, overwrite, List.append_nil]
    exact (List.take_append_drop k l).symm
  | succ n ih =>
    have hi : i < l.length := by omega
    have hcons : slice l i (i + (n + 1)) = l[i] :: slice l (i + 1) (i + 1 + n) := by
      rw [slice_eq_take_drop, slice_eq_take_drop, List.drop_eq_getElem_cons hi,
        List.take_succ_cons]
    rw [copyForward, List.getElem?_eq_getElem hi]
    change copyForward (l.set k l[i]) (i + 1) (k + 1) n = _
    rw [ih (by omega) (by rw [List.length_set]; omega), slice_set _ (by omega),
      overwrite_set _ (by omega), hcons]

end Block

section Integers

/-- The `k` bytes of `n`, the most significant one first. -/
def bigEndian : Nat → Nat → List UInt8
  | 0, _ => []
  | k + 1, n => bigEndian k (n / 256) ++ [UInt8.ofNat n]

/-- The number that a list of bytes stands for, the most significant one first. -/
def ofBigEndian (l : List UInt8) : Nat := l.foldl (fun n b => n * 256 + b.toNat) 0

@[simp] theorem length_bigEndian (k n : Nat) : (bigEndian k n).length = k := by
  induction k generalizing n with
  | zero => rfl
  | succ k ih => rw [bigEndian, List.length_append, ih, List.length_singleton]

theorem ofBigEndian_concat (l : List UInt8) (b : UInt8) :
    ofBigEndian (l ++ [b]) = ofBigEndian l * 256 + b.toNat := by
  rw [ofBigEndian, List.foldl_append]
  rfl

theorem ofBigEndian_bigEndian (k n : Nat) : ofBigEndian (bigEndian k n) = n % 256 ^ k := by
  induction k generalizing n with
  | zero => rw [pow_zero, Nat.mod_one]; rfl
  | succ k ih =>
    have hlow : (UInt8.ofNat n).toNat = n % 256 := rfl
    rw [bigEndian, ofBigEndian_concat, ih, hlow, pow_succ', Nat.mod_mul, Nat.mul_comm,
      Nat.add_comm]

theorem bigEndian_ofBigEndian (l : List UInt8) : bigEndian l.length (ofBigEndian l) = l := by
  induction l using List.reverseRecOn with
  | nil => rfl
  | append_singleton l b ih =>
    have hb : b.toNat < 256 := b.toNat_lt
    have hhigh : (ofBigEndian l * 256 + b.toNat) / 256 = ofBigEndian l := by omega
    have hlow : UInt8.ofNat (ofBigEndian l * 256 + b.toNat) = b := by
      apply UInt8.toNat_inj.mp
      change (ofBigEndian l * 256 + b.toNat) % 256 = b.toNat
      omega
    rw [List.length_append, List.length_singleton, bigEndian, ofBigEndian_concat, hhigh, hlow, ih]

/-- The order in which the machine keeps the bytes of an integer. -/
inductive Endian
  | little
  | big
  deriving DecidableEq, Repr

namespace Endian

/-- The bytes of a `k` byte integer as they stand in memory. -/
def toMemory (e : Endian) (k n : Nat) : List UInt8 :=
  match e with
  | little => (bigEndian k n).reverse
  | big => bigEndian k n

/-- The integer whose bytes stand in memory. -/
def ofMemory (e : Endian) (l : List UInt8) : Nat :=
  match e with
  | little => ofBigEndian l.reverse
  | big => ofBigEndian l

/-- `htobe16`, `htobe32`: the bytes are swapped where the machine is little-endian. -/
def htobe (e : Endian) (k n : Nat) : Nat :=
  match e with
  | little => ofBigEndian (bigEndian k n).reverse
  | big => n

/-- `be16toh`, `be32toh`. -/
def betoh (e : Endian) (k n : Nat) : Nat := htobe e k n

/-- What `htobe` gives stands in memory with the most significant byte first. -/
theorem toMemory_htobe (e : Endian) (k n : Nat) : e.toMemory k (e.htobe k n) = bigEndian k n := by
  cases e with
  | little =>
    have h := bigEndian_ofBigEndian (bigEndian k n).reverse
    rw [List.length_reverse, length_bigEndian] at h
    change (bigEndian k (ofBigEndian (bigEndian k n).reverse)).reverse = _
    rw [h, List.reverse_reverse]
  | big => rfl

/-- Read from memory and converted, big-endian bytes give the number they stand for. -/
theorem betoh_ofMemory (e : Endian) (l : List UInt8) :
    e.betoh l.length (e.ofMemory l) = ofBigEndian l := by
  cases e with
  | little =>
    have h := bigEndian_ofBigEndian l.reverse
    rw [List.length_reverse] at h
    change ofBigEndian (bigEndian l.length (ofBigEndian l.reverse)).reverse = _
    rw [h, List.reverse_reverse]
  | big => rfl

/-- A single byte stands in memory as it is. -/
theorem toMemory_one (e : Endian) (n : Nat) : e.toMemory 1 n = bigEndian 1 n := by
  cases e with
  | little => rfl
  | big => rfl

theorem ofMemory_singleton (e : Endian) (b : UInt8) : e.ofMemory [b] = ofBigEndian [b] := by
  cases e with
  | little => rfl
  | big => rfl

end Endian

end Integers

end DbdkyGcc.Foundations
