import DbdkyGcc.Foundations.Bytes
import DbdkyGcc.Foundations.Runs

/-!
# The buffer of a connection

`Buffer` is a vector with two positions: what lies between them is the content,
and the free space before and behind it serves `prepend` and `append`. The model
follows `Buffer.h` with its assertions and with `size_t` arithmetic that wraps
round at `2 ^ 64`; an access outside the vector is a fault of its own. A vector
does not grow beyond `maxSize`: it throws `std::length_error`.

`Buffer.Holds b l` says that the positions of `b` are in order and that its
content is `l`. Every operation has one specification in terms of it, and the
runs of a client with any number of buffers are compared with the same calls on
byte lists.
-/

namespace DbdkyGcc.Tcp

open Foundations

/-- What ends an operation: a failed assertion of the function named, an access outside the
vector, or the exception of a vector that cannot grow. -/
inductive BufferFault
  | retrieve
  | retrieveUntil
  | retrieveAsString
  | peekInt
  | prepend
  | ensureWritableBytes
  | makeSpace
  | overrun
  | lengthError
  deriving DecidableEq, Repr

/-- A sum of two `size_t`. -/
def sizeAdd (a b : Nat) : Nat := (a + b) % 2 ^ 64

/-- A difference of two `size_t`. -/
def sizeSub (a b : Nat) : Nat := (a + (2 ^ 64 - b)) % 2 ^ 64

theorem sizeAdd_eq {a b : Nat} (h : a + b < 2 ^ 64) : sizeAdd a b = a + b := Nat.mod_eq_of_lt h

theorem sizeSub_eq {a b : Nat} (hb : b ≤ a) (ha : a < 2 ^ 64) : sizeSub a b = a - b := by
  have h : a + (2 ^ 64 - b) = a - b + 2 ^ 64 := by omega
  rw [sizeSub, h, Nat.add_mod_right]
  exact Nat.mod_eq_of_lt (by omega)

/-- `std::vector<char>::max_size()`. -/
def maxSize : Nat := 2 ^ 63 - 1

/-- `resize` of a vector. -/
def resize (v : List UInt8) (n : Nat) : Except BufferFault (List UInt8) :=
  if n ≤ maxSize then .ok (v.take n ++ List.replicate (n - v.length) 0) else .error .lengthError

/-- The bytes of a vector from `i` up to `j`, read. -/
def load (v : List UInt8) (i j : Nat) : Except BufferFault (List UInt8) :=
  if i ≤ j ∧ j ≤ v.length then .ok (slice v i j) else .error .overrun

/-- `d` copied into a vector at `i`. -/
def store (v : List UInt8) (i : Nat) (d : List UInt8) : Except BufferFault (List UInt8) :=
  if i + d.length ≤ v.length then .ok (overwrite v i d) else .error .overrun

def kCheapPrepend : Nat := 8

def kInitialSize : Nat := 1024

structure Buffer where
  buffer : List UInt8
  readerIndex : Nat
  writerIndex : Nat
  deriving DecidableEq, Repr

namespace Buffer

/-- The constructor. -/
def new : Buffer :=
  { buffer := List.replicate (kCheapPrepend + kInitialSize) 0
    readerIndex := kCheapPrepend
    writerIndex := kCheapPrepend }

def readableBytes (b : Buffer) : Nat := sizeSub b.writerIndex b.readerIndex

def writableBytes (b : Buffer) : Nat := sizeSub b.buffer.length b.writerIndex

def prependableBytes (b : Buffer) : Nat := b.readerIndex

/-- The readable bytes, from `peek()` up to `beginWrite()`. -/
def content (b : Buffer) : List UInt8 := slice b.buffer b.readerIndex b.writerIndex

/-- Afterwards each of the two has what the other had. -/
def swap (b rhs : Buffer) : Buffer × Buffer :=
  ({ buffer := rhs.buffer, readerIndex := rhs.readerIndex, writerIndex := rhs.writerIndex },
    { buffer := b.buffer, readerIndex := b.readerIndex, writerIndex := b.writerIndex })

def retrieveAll (b : Buffer) : Buffer :=
  { b with readerIndex := kCheapPrepend, writerIndex := kCheapPrepend }

def retrieve (b : Buffer) (len : Nat) : Except BufferFault Buffer := do
  ensure .retrieve (len ≤ b.readableBytes)
  if len < b.readableBytes then
    pure { b with readerIndex := sizeAdd b.readerIndex len }
  else
    pure b.retrieveAll

/-- A pointer is its distance from `begin()`. -/
def retrieveUntil (b : Buffer) (stop : Int) : Except BufferFault Buffer := do
  ensure .retrieveUntil ((b.readerIndex : Int) ≤ stop)
  ensure .retrieveUntil (stop ≤ (b.writerIndex : Int))
  b.retrieve (stop - b.readerIndex).toNat

def retrieveAsString (b : Buffer) (len : Nat) : Except BufferFault (Buffer × List UInt8) := do
  ensure .retrieveAsString (len ≤ b.readableBytes)
  let result ← load b.buffer b.readerIndex (b.readerIndex + len)
  let b ← b.retrieve len
  pure (b, result)

def retrieveAllAsString (b : Buffer) : Except BufferFault (Buffer × List UInt8) :=
  b.retrieveAsString b.readableBytes

def hasWritten (b : Buffer) (len : Nat) : Buffer :=
  { b with writerIndex := sizeAdd b.writerIndex len }

/-- Grows the vector, or moves the content to the front where the free space of both sides is
enough. `std::copy` goes through the content from its first byte on. -/
def makeSpace (b : Buffer) (len : Nat) : Except BufferFault Buffer :=
  if sizeAdd b.writableBytes b.prependableBytes < sizeAdd len kCheapPrepend then do
    let buffer ← resize b.buffer (sizeAdd b.writerIndex len)
    pure { b with buffer }
  else do
    ensure .makeSpace (kCheapPrepend < b.readerIndex)
    let readable := b.readableBytes
    ensure .overrun (b.readerIndex ≤ b.writerIndex ∧ b.writerIndex ≤ b.buffer.length)
    let moved : Buffer :=
      { buffer := copyForward b.buffer b.readerIndex kCheapPrepend (b.writerIndex - b.readerIndex)
        readerIndex := kCheapPrepend
        writerIndex := sizeAdd kCheapPrepend readable }
    ensure .makeSpace (readable = moved.readableBytes)
    pure moved

def ensureWritableBytes (b : Buffer) (len : Nat) : Except BufferFault Buffer := do
  let b ← if b.writableBytes < len then b.makeSpace len else pure b
  ensure .ensureWritableBytes (len ≤ b.writableBytes)
  pure b

def append (b : Buffer) (data : List UInt8) : Except BufferFault Buffer := do
  let b ← b.ensureWritableBytes data.length
  let buffer ← store b.buffer b.writerIndex data
  pure (hasWritten { b with buffer } data.length)

def prepend (b : Buffer) (data : List UInt8) : Except BufferFault Buffer := do
  ensure .prepend (data.length ≤ b.prependableBytes)
  let readerIndex := sizeSub b.readerIndex data.length
  let buffer ← store b.buffer readerIndex data
  pure { b with buffer, readerIndex }

/-- What a client stores from `beginWrite()` on, before it calls `hasWritten`. -/
def fill (b : Buffer) (data : List UInt8) : Except BufferFault Buffer := do
  let buffer ← store b.buffer b.writerIndex data
  pure { b with buffer }

/-- The `int` that `toStringPiece` casts the length to, as the `size_t` that `append` gets. -/
def pieceSize (n : Nat) : Nat :=
  if n % 2 ^ 32 < 2 ^ 31 then n % 2 ^ 32 else n % 2 ^ 32 + (2 ^ 64 - 2 ^ 32)

def toStringPiece (b : Buffer) : Except BufferFault (List UInt8) :=
  load b.buffer b.readerIndex (b.readerIndex + pieceSize b.readableBytes)

/-- The content moves to a fresh buffer, and the two change places. -/
def shrink (b : Buffer) (reserve : Nat) : Except BufferFault Buffer := do
  let other ← new.ensureWritableBytes (sizeAdd b.readableBytes reserve)
  let piece ← b.toStringPiece
  let other ← other.append piece
  pure (b.swap other).1

/-- `readv` fills the writable space and then the extra buffer of 65536 bytes; `none` is its
failure. -/
def readFd (b : Buffer) : Option (List UInt8) → Except BufferFault Buffer
  | none => pure b
  | some data => do
    let writable := b.writableBytes
    let b ← b.fill (data.take writable)
    if data.length ≤ writable then
      pure { b with writerIndex := sizeAdd b.writerIndex data.length }
    else
      append { b with writerIndex := b.buffer.length } (data.drop writable)

end Buffer

/-- The integer types of the interface. -/
inductive Width
  | int8
  | int16
  | int32
  deriving DecidableEq, Repr

/-- `sizeof`. -/
def Width.bytes : Width → Nat
  | int8 => 1
  | int16 => 2
  | int32 => 4

/-- An integer of the type, in two's complement. -/
def Width.Value (w : Width) : Type := BitVec (8 * w.bytes)

instance (w : Width) : DecidableEq w.Value := inferInstanceAs (DecidableEq (BitVec (8 * w.bytes)))

namespace Buffer

variable (e : Endian)

/-- `hostToNetwork16`, `hostToNetwork32`: the bytes in memory of what they give. -/
def networkBytes (k : Nat) (x : BitVec (8 * k)) : List UInt8 := e.toMemory k (e.htobe k x.toNat)

def appendInt32 (b : Buffer) (x : BitVec 32) : Except BufferFault Buffer :=
  b.append (networkBytes e 4 x)

def appendInt16 (b : Buffer) (x : BitVec 16) : Except BufferFault Buffer :=
  b.append (networkBytes e 2 x)

def appendInt8 (b : Buffer) (x : BitVec 8) : Except BufferFault Buffer :=
  b.append (e.toMemory 1 x.toNat)

def prependInt32 (b : Buffer) (x : BitVec 32) : Except BufferFault Buffer :=
  b.prepend (networkBytes e 4 x)

def prependInt16 (b : Buffer) (x : BitVec 16) : Except BufferFault Buffer :=
  b.prepend (networkBytes e 2 x)

def prependInt8 (b : Buffer) (x : BitVec 8) : Except BufferFault Buffer :=
  b.prepend (e.toMemory 1 x.toNat)

/-- The first `k` readable bytes, copied into an integer. -/
def peekBytes (b : Buffer) (k : Nat) : Except BufferFault (List UInt8) := do
  ensure .peekInt (k ≤ b.readableBytes)
  load b.buffer b.readerIndex (b.readerIndex + k)

def peekInt32 (b : Buffer) : Except BufferFault (BitVec 32) := do
  let be32 ← b.peekBytes 4
  pure (BitVec.ofNat 32 (e.betoh 4 (e.ofMemory be32)))

def peekInt16 (b : Buffer) : Except BufferFault (BitVec 16) := do
  let be16 ← b.peekBytes 2
  pure (BitVec.ofNat 16 (e.betoh 2 (e.ofMemory be16)))

def peekInt8 (b : Buffer) : Except BufferFault (BitVec 8) := do
  let x ← b.peekBytes 1
  pure (BitVec.ofNat 8 (e.ofMemory x))

def readInt32 (b : Buffer) : Except BufferFault (Buffer × BitVec 32) := do
  let result ← b.peekInt32 e
  let b ← b.retrieve 4
  pure (b, result)

def readInt16 (b : Buffer) : Except BufferFault (Buffer × BitVec 16) := do
  let result ← b.peekInt16 e
  let b ← b.retrieve 2
  pure (b, result)

def readInt8 (b : Buffer) : Except BufferFault (Buffer × BitVec 8) := do
  let result ← b.peekInt8 e
  let b ← b.retrieve 1
  pure (b, result)

/-- The three functions `appendInt8`, `appendInt16` and `appendInt32`. -/
def appendInt (b : Buffer) : (w : Width) → w.Value → Except BufferFault Buffer
  | .int8, x => b.appendInt8 e x
  | .int16, x => b.appendInt16 e x
  | .int32, x => b.appendInt32 e x

def prependInt (b : Buffer) : (w : Width) → w.Value → Except BufferFault Buffer
  | .int8, x => b.prependInt8 e x
  | .int16, x => b.prependInt16 e x
  | .int32, x => b.prependInt32 e x

def readInt (b : Buffer) : (w : Width) → Except BufferFault (Buffer × w.Value)
  | .int8 => b.readInt8 e
  | .int16 => b.readInt16 e
  | .int32 => b.readInt32 e

end Buffer

namespace Buffer

/-- The positions of `b` are in order, and what lies between them is `l`. -/
structure Holds (b : Buffer) (l : List UInt8) : Prop where
  reader_le : b.readerIndex ≤ b.writerIndex
  writer_le : b.writerIndex ≤ b.buffer.length
  cheap_le : kCheapPrepend ≤ b.buffer.length
  size_le : b.buffer.length ≤ maxSize
  content_eq : b.content = l

theorem holds_new : new.Holds [] where
  reader_le := Nat.le_refl _
  writer_le := by rw [new, List.length_replicate]; decide
  cheap_le := by rw [new, List.length_replicate]; decide
  size_le := by rw [new, List.length_replicate]; decide
  content_eq := slice_self _ _

/-- Below `2 ^ 31` the cast to `int` keeps the length. -/
theorem pieceSize_of_lt {n : Nat} (h : n < 2 ^ 31) : pieceSize n = n := by
  have hsmall : n % 2 ^ 32 = n := Nat.mod_eq_of_lt (by omega)
  rw [pieceSize, hsmall, if_pos h]

namespace Holds

variable {b : Buffer} {l : List UInt8}

theorem content (h : b.Holds l) : slice b.buffer b.readerIndex b.writerIndex = l := h.content_eq

theorem size_lt (h : b.Holds l) : b.buffer.length < 2 ^ 63 := by
  have := h.size_le
  unfold maxSize at this
  omega

theorem length_eq (h : b.Holds l) : l.length = b.writerIndex - b.readerIndex := by
  rw [← h.content, length_slice h.writer_le]

theorem readableBytes_eq (h : b.Holds l) : b.readableBytes = l.length := by
  have := h.size_lt
  have := h.writer_le
  rw [readableBytes, sizeSub_eq h.reader_le (by omega), h.length_eq]

theorem writableBytes_eq (h : b.Holds l) :
    b.writableBytes = b.buffer.length - b.writerIndex := by
  have := h.size_lt
  rw [writableBytes, sizeSub_eq h.writer_le (by omega)]

/-- The first bytes of the content are those at the reader's position. -/
theorem load_eq (h : b.Holds l) {n : Nat} (hn : n ≤ l.length) :
    load b.buffer b.readerIndex (b.readerIndex + n) = .ok (l.take n) := by
  have hlen := h.length_eq
  have hle := h.reader_le
  have hwr := h.writer_le
  have hrange : b.readerIndex ≤ b.readerIndex + n ∧ b.readerIndex + n ≤ b.buffer.length := by
    omega
  rw [load, if_pos hrange, ← h.content, take_slice (by omega)]

theorem retrieveAll (h : b.Holds l) : b.retrieveAll.Holds [] where
  reader_le := Nat.le_refl _
  writer_le := h.cheap_le
  cheap_le := h.cheap_le
  size_le := h.size_le
  content_eq := slice_self _ _

theorem retrieve (h : b.Holds l) {len : Nat} (hlen : len ≤ l.length) :
    ∃ b', b.retrieve len = .ok b' ∧ b'.Holds (l.drop len) := by
  have hread := h.readableBytes_eq
  rw [Buffer.retrieve, ensure_eq_ok (by omega), ok_bind]
  split
  · next hlt =>
    have hcount := h.length_eq
    have hwr := h.writer_le
    have hsize := h.size_lt
    have hadd : sizeAdd b.readerIndex len = b.readerIndex + len := sizeAdd_eq (by omega)
    refine ⟨_, rfl, ?_⟩
    constructor
    · change sizeAdd b.readerIndex len ≤ b.writerIndex
      omega
    · exact h.writer_le
    · exact h.cheap_le
    · exact h.size_le
    · change slice b.buffer (sizeAdd b.readerIndex len) b.writerIndex = l.drop len
      rw [hadd, ← drop_slice, h.content]
  · next hlt =>
    -- everything is taken, and the positions go back to the front
    refine ⟨_, rfl, ?_⟩
    rw [List.drop_eq_nil_of_le (by omega)]
    exact h.retrieveAll

theorem retrieveUntil (h : b.Holds l) {off : Int} (h0 : 0 ≤ off) (hlen : off ≤ l.length) :
    ∃ b', b.retrieveUntil (b.readerIndex + off) = .ok b' ∧ b'.Holds (l.drop off.toNat) := by
  have hcount := h.length_eq
  have hle := h.reader_le
  have hback : ((b.readerIndex : Int) + off - b.readerIndex).toNat = off.toNat := by omega
  rw [Buffer.retrieveUntil, ensure_eq_ok (by omega), ok_bind, ensure_eq_ok (by omega), ok_bind,
    hback]
  exact h.retrieve (by omega)

theorem retrieveAsString (h : b.Holds l) {len : Nat} (hlen : len ≤ l.length) :
    ∃ b', b.retrieveAsString len = .ok (b', l.take len) ∧ b'.Holds (l.drop len) := by
  obtain ⟨b', hb', hdrop⟩ := h.retrieve hlen
  refine ⟨b', ?_, hdrop⟩
  rw [Buffer.retrieveAsString, ensure_eq_ok (h.readableBytes_eq ▸ hlen), ok_bind, h.load_eq hlen,
    ok_bind, hb', ok_bind]
  rfl

/-- Stores behind the content do not change it. -/
theorem fill (h : b.Holds l) {d : List UInt8}
    (hd : d.length ≤ b.buffer.length - b.writerIndex) :
    ∃ b', b.fill d = .ok b' ∧ b'.Holds l ∧ b'.writerIndex = b.writerIndex ∧
      b'.buffer.length = b.buffer.length ∧
      slice b'.buffer b.writerIndex (b.writerIndex + d.length) = d := by
  have hwr := h.writer_le
  have hroom : b.writerIndex + d.length ≤ b.buffer.length := by omega
  have hsize := length_overwrite hroom
  refine ⟨{ b with buffer := overwrite b.buffer b.writerIndex d }, ?_, ?_, rfl, hsize,
    slice_overwrite_self hroom⟩
  · rw [Buffer.fill, store, if_pos hroom]
    rfl
  · constructor
    · exact h.reader_le
    · exact hsize ▸ h.writer_le
    · exact hsize ▸ h.cheap_le
    · exact hsize ▸ h.size_le
    · exact (slice_overwrite_of_le (Nat.le_refl _) hroom).trans h.content

/-- What stands right behind the content joins it when the writer's position moves on. -/
theorem extend (h : b.Holds l) {d : List UInt8}
    (hroom : b.writerIndex + d.length ≤ b.buffer.length)
    (hd : slice b.buffer b.writerIndex (b.writerIndex + d.length) = d) :
    Holds { b with writerIndex := b.writerIndex + d.length } (l ++ d) where
  reader_le := Nat.le_trans h.reader_le (Nat.le_add_right _ _)
  writer_le := hroom
  cheap_le := h.cheap_le
  size_le := h.size_le
  content_eq := by
    have hjoin := slice_append_slice (l := b.buffer) h.reader_le
      (Nat.le_add_right b.writerIndex d.length)
    rw [h.content, hd] at hjoin
    exact hjoin.symm

/-- A caller's stores followed by `hasWritten`. -/
theorem fill_hasWritten (h : b.Holds l) {data : List UInt8}
    (hd : data.length ≤ b.buffer.length - b.writerIndex) :
    ∃ b', b.fill data = .ok b' ∧ (b'.hasWritten data.length).Holds (l ++ data) := by
  obtain ⟨b', hfill, hb', hw, hlen, hslice⟩ := h.fill hd
  have hwr := h.writer_le
  have hsize := h.size_lt
  refine ⟨b', hfill, ?_⟩
  rw [hasWritten, sizeAdd_eq (by omega)]
  apply hb'.extend
  · omega
  · rw [hw]
    exact hslice

/-- A larger vector with the same beginning. -/
theorem resize (h : b.Holds l) {n : Nat} (hn : b.buffer.length ≤ n) :
    Yields .lengthError (Tcp.resize b.buffer n) fun v =>
      Holds { b with buffer := v } l ∧ v.length = n := by
  rw [Tcp.resize]
  split
  · next hmax =>
    have hlen :
        (b.buffer.take n ++ List.replicate (n - b.buffer.length) (0 : UInt8)).length = n := by
      rw [List.length_append, List.length_take, List.length_replicate]
      omega
    have hle : b.buffer.length ≤
        (b.buffer.take n ++ List.replicate (n - b.buffer.length) (0 : UInt8)).length := by
      rw [hlen]
      exact hn
    refine .ok ⟨?_, hlen⟩
    constructor
    · exact h.reader_le
    · exact Nat.le_trans h.writer_le hle
    · exact Nat.le_trans h.cheap_le hle
    · exact hlen.symm ▸ hmax
    · change slice (b.buffer.take n ++ _) b.readerIndex b.writerIndex = l
      rw [List.take_of_length_le hn, slice_append_left h.writer_le, h.content]
  · exact .inr rfl

/-- The copy of `makeSpace` puts the content in its place at the front. -/
theorem copyForward_eq (h : b.Holds l) (hr : kCheapPrepend ≤ b.readerIndex) :
    copyForward b.buffer b.readerIndex kCheapPrepend (b.writerIndex - b.readerIndex) =
      overwrite b.buffer kCheapPrepend l := by
  have hwr := h.writer_le
  have hstop : b.readerIndex + (b.writerIndex - b.readerIndex) = b.writerIndex :=
    Nat.add_sub_of_le h.reader_le
  rw [copyForward_eq_overwrite _ hr (by omega), hstop, h.content]

theorem moved (h : b.Holds l) (hroom : kCheapPrepend + l.length ≤ b.buffer.length) :
    Holds
      { buffer := overwrite b.buffer kCheapPrepend l
        readerIndex := kCheapPrepend
        writerIndex := kCheapPrepend + l.length } l := by
  have hsize := length_overwrite hroom
  constructor
  · exact Nat.le_add_right _ _
  · exact hsize.symm ▸ hroom
  · exact hsize.symm ▸ h.cheap_le
  · exact hsize.symm ▸ h.size_le
  · exact slice_overwrite_self hroom

/-- `makeSpace` makes the space it is asked for. Its assertions hold because it is called only
when the space behind the content is too small: where the two free stretches together are large
enough, the one in front is larger than `kCheapPrepend`. -/
theorem makeSpace (h : b.Holds l) {len : Nat} (hlen : len < 2 ^ 63)
    (hsmall : b.buffer.length - b.writerIndex < len) :
    Yields .lengthError (b.makeSpace len) fun b' =>
      b'.Holds l ∧ len ≤ b'.buffer.length - b'.writerIndex := by
  have hcheap : kCheapPrepend = 8 := rfl
  have hle := h.reader_le
  have hwr := h.writer_le
  have hsize := h.size_lt
  have hcount := h.length_eq
  have hfree : sizeAdd b.writableBytes b.prependableBytes =
      b.buffer.length - b.writerIndex + b.readerIndex := by
    rw [h.writableBytes_eq, prependableBytes, sizeAdd_eq (by omega)]
  have hask : sizeAdd len kCheapPrepend = len + 8 := sizeAdd_eq (by omega)
  rw [Buffer.makeSpace, hfree, hask]
  split
  · next hgrow =>
    have hto : sizeAdd b.writerIndex len = b.writerIndex + len := sizeAdd_eq (by omega)
    rw [hto]
    apply (h.resize (n := b.writerIndex + len) (by omega)).bind
    rintro v ⟨hv, hvlen⟩
    refine .ok ⟨hv, ?_⟩
    change len ≤ v.length - b.writerIndex
    omega
  · next hslide =>
    have hroom : kCheapPrepend + l.length ≤ b.buffer.length := by omega
    have hmoved := h.moved hroom
    have hread : sizeAdd kCheapPrepend b.readableBytes = kCheapPrepend + l.length := by
      rw [h.readableBytes_eq, sizeAdd_eq (by omega)]
    apply Yields.ensure_bind (by omega)
    apply Yields.ensure_bind ⟨hle, hwr⟩
    simp only [hread, h.copyForward_eq (by omega)]
    apply Yields.ensure_bind (by rw [hmoved.readableBytes_eq, h.readableBytes_eq])
    refine .ok ⟨hmoved, ?_⟩
    change len ≤ (overwrite b.buffer kCheapPrepend l).length - (kCheapPrepend + l.length)
    rw [length_overwrite hroom]
    omega

theorem ensureWritableBytes (h : b.Holds l) {len : Nat} (hlen : len < 2 ^ 63) :
    Yields .lengthError (b.ensureWritableBytes len) fun b' =>
      b'.Holds l ∧ len ≤ b'.buffer.length - b'.writerIndex := by
  have hcheck : ∀ b' : Buffer, b'.Holds l ∧ len ≤ b'.buffer.length - b'.writerIndex →
      Yields BufferFault.lengthError
        (ensure .ensureWritableBytes (len ≤ b'.writableBytes) >>= fun _ => pure b')
        fun b' => b'.Holds l ∧ len ≤ b'.buffer.length - b'.writerIndex := by
    rintro b' ⟨hb', hroom⟩
    apply Yields.ensure_bind (hb'.writableBytes_eq ▸ hroom)
    exact .ok ⟨hb', hroom⟩
  have hspace := h.writableBytes_eq
  rw [Buffer.ensureWritableBytes]
  split
  · next hsmall => exact (h.makeSpace hlen (hspace ▸ hsmall)).bind hcheck
  · next hlarge => exact hcheck b ⟨h, hspace ▸ Nat.le_of_not_lt hlarge⟩

theorem append (h : b.Holds l) {d : List UInt8} (hd : d.length < 2 ^ 63) :
    Yields .lengthError (b.append d) fun b' => b'.Holds (l ++ d) := by
  rw [Buffer.append]
  apply (h.ensureWritableBytes hd).bind
  rintro b' ⟨hb', hroom⟩
  obtain ⟨b₂, hfill, hdone⟩ := hb'.fill_hasWritten hroom
  rw [Buffer.fill] at hfill
  obtain ⟨v, hv, hb₂⟩ := bind_eq_ok_iff.mp hfill
  rw [pure_eq_ok_iff] at hb₂
  rw [hv, ok_bind]
  exact .ok (hb₂ ▸ hdone)

theorem prepend (h : b.Holds l) {data : List UInt8} (hd : data.length ≤ b.prependableBytes) :
    ∃ b', b.prepend data = .ok b' ∧ b'.Holds (data ++ l) := by
  have hfront : data.length ≤ b.readerIndex := hd
  have hle := h.reader_le
  have hwr := h.writer_le
  have hlt := h.size_lt
  have hback : sizeSub b.readerIndex data.length = b.readerIndex - data.length :=
    sizeSub_eq hfront (by omega)
  have hstop : b.readerIndex - data.length + data.length = b.readerIndex := by omega
  have hroom : b.readerIndex - data.length + data.length ≤ b.buffer.length := by omega
  have hsize := length_overwrite hroom
  refine ⟨{ b with buffer := overwrite b.buffer (b.readerIndex - data.length) data
                   readerIndex := b.readerIndex - data.length }, ?_, ?_⟩
  · rw [Buffer.prepend, ensure_eq_ok hd, ok_bind]
    simp only [hback]
    rw [store, if_pos hroom]
    rfl
  · constructor
    · exact Nat.le_trans (Nat.sub_le _ _) h.reader_le
    · exact hsize.symm ▸ h.writer_le
    · exact hsize.symm ▸ h.cheap_le
    · exact hsize.symm ▸ h.size_le
    · have hnew := slice_overwrite_self hroom
      have hrest := slice_overwrite_of_ge (j := b.writerIndex) (Nat.le_of_eq hstop) hroom
      rw [hstop] at hnew
      rw [h.content] at hrest
      change slice (overwrite _ _ _) (b.readerIndex - data.length) b.writerIndex = _
      rw [← slice_append_slice (Nat.sub_le _ data.length) hle, hnew, hrest]

theorem toStringPiece (h : b.Holds l) (hl : l.length < 2 ^ 31) : b.toStringPiece = .ok l := by
  rw [Buffer.toStringPiece, h.readableBytes_eq, pieceSize_of_lt hl, h.load_eq (Nat.le_refl _),
    List.take_length]

theorem shrink (h : b.Holds l) (hl : l.length < 2 ^ 31) {reserve : Nat}
    (hr : l.length + reserve < 2 ^ 63) :
    Yields .lengthError (b.shrink reserve) fun b' => b'.Holds l := by
  have hask : sizeAdd b.readableBytes reserve = l.length + reserve := by
    rw [h.readableBytes_eq, sizeAdd_eq (by omega)]
  rw [Buffer.shrink, hask]
  apply (holds_new.ensureWritableBytes hr).bind
  rintro other ⟨hother, -⟩
  rw [h.toStringPiece hl, ok_bind]
  exact (hother.append (by omega)).bind fun _ h => .ok h

theorem readFd (h : b.Holds l) {data : List UInt8} (hd : data.length < 2 ^ 63) :
    Yields .lengthError (b.readFd (some data)) fun b' => b'.Holds (l ++ data) := by
  have hwr := h.writer_le
  have hsize := h.size_lt
  have hspace := h.writableBytes_eq
  obtain ⟨b', hfill, hb', hw, hlen, hslice⟩ :=
    h.fill (d := data.take b.writableBytes) (by rw [List.length_take]; omega)
  rw [List.length_take] at hslice
  simp only [Buffer.readFd, hfill, ok_bind]
  split
  · next hle =>
    rw [List.take_of_length_le hle, Nat.min_eq_right hle] at hslice
    refine .ok ?_
    rw [hw, sizeAdd_eq (by omega), ← hw]
    exact hb'.extend (by omega) (by rw [hw]; exact hslice)
  · next hgt =>
    -- the writable space is full, and the extra bytes go behind it
    have hlast : b.writerIndex + b.writableBytes = b'.buffer.length := by omega
    have hfull : Holds { b' with writerIndex := b'.buffer.length }
        (l ++ data.take b.writableBytes) := by
      have htake : (data.take b.writableBytes).length = b.writableBytes := by
        rw [List.length_take]
        omega
      have hext := hb'.extend (d := data.take b.writableBytes) (by omega)
        (by rw [hw, List.length_take]; exact hslice)
      rw [htake, hw, hlast] at hext
      exact hext
    have happ := hfull.append (d := data.drop b.writableBytes)
      (by rw [List.length_drop]; omega)
    rw [List.append_assoc, List.take_append_drop] at happ
    exact happ

end Holds

end Buffer

/-- The value of big-endian bytes. -/
def Width.ofBytes (w : Width) (l : List UInt8) : w.Value :=
  BitVec.ofNat (8 * w.bytes) (ofBigEndian l)

/-- The bytes of a value, the most significant one first. -/
def Width.toBytes (w : Width) (x : w.Value) : List UInt8 := bigEndian w.bytes (BitVec.toNat x)

theorem Width.length_toBytes (w : Width) (x : w.Value) : (w.toBytes x).length = w.bytes :=
  length_bigEndian _ _

/-- Reading back returns the value written, as an integer with its sign. -/
theorem Width.ofBytes_toBytes (w : Width) (x : w.Value) : w.ofBytes (w.toBytes x) = x := by
  have hlt : BitVec.toNat x < 256 ^ w.bytes := by
    have h := x.isLt
    rwa [pow_mul] at h
  rw [ofBytes, toBytes, ofBigEndian_bigEndian, Nat.mod_eq_of_lt hlt]
  exact BitVec.ofNat_toNat _ x |>.trans (BitVec.setWidth_eq x)

namespace Buffer

variable (e : Endian) {b : Buffer} {l : List UInt8}

theorem appendInt_eq (b : Buffer) (w : Width) (x : w.Value) :
    b.appendInt e w x = b.append (w.toBytes x) := by
  cases w with
  | int8 => exact congrArg b.append (e.toMemory_one _)
  | int16 => exact congrArg b.append (e.toMemory_htobe _ _)
  | int32 => exact congrArg b.append (e.toMemory_htobe _ _)

theorem prependInt_eq (b : Buffer) (w : Width) (x : w.Value) :
    b.prependInt e w x = b.prepend (w.toBytes x) := by
  cases w with
  | int8 => exact congrArg b.prepend (e.toMemory_one _)
  | int16 => exact congrArg b.prepend (e.toMemory_htobe _ _)
  | int32 => exact congrArg b.prepend (e.toMemory_htobe _ _)

theorem Holds.peekBytes (h : b.Holds l) {k : Nat} (hk : k ≤ l.length) :
    b.peekBytes k = .ok (l.take k) := by
  rw [Buffer.peekBytes, ensure_eq_ok (h.readableBytes_eq ▸ hk), ok_bind, h.load_eq hk]

theorem betoh_ofMemory_take {k : Nat} (hk : k ≤ l.length) :
    e.betoh k (e.ofMemory (l.take k)) = ofBigEndian (l.take k) := by
  have hlen : (l.take k).length = k := by
    rw [List.length_take]
    omega
  have h := e.betoh_ofMemory (l.take k)
  rwa [hlen] at h

theorem Holds.readInt32 (h : b.Holds l) (hk : 4 ≤ l.length) :
    ∃ b', b.readInt32 e = .ok (b', BitVec.ofNat 32 (ofBigEndian (l.take 4))) ∧
      b'.Holds (l.drop 4) := by
  obtain ⟨b', hb', hdrop⟩ := h.retrieve hk
  refine ⟨b', ?_, hdrop⟩
  rw [Buffer.readInt32, peekInt32, h.peekBytes hk, ok_bind, betoh_ofMemory_take e hk,
    pure_bind, hb']
  rfl

theorem Holds.readInt16 (h : b.Holds l) (hk : 2 ≤ l.length) :
    ∃ b', b.readInt16 e = .ok (b', BitVec.ofNat 16 (ofBigEndian (l.take 2))) ∧
      b'.Holds (l.drop 2) := by
  obtain ⟨b', hb', hdrop⟩ := h.retrieve hk
  refine ⟨b', ?_, hdrop⟩
  rw [Buffer.readInt16, peekInt16, h.peekBytes hk, ok_bind, betoh_ofMemory_take e hk,
    pure_bind, hb']
  rfl

theorem Holds.readInt8 (h : b.Holds l) (hk : 1 ≤ l.length) :
    ∃ b', b.readInt8 e = .ok (b', BitVec.ofNat 8 (ofBigEndian (l.take 1))) ∧
      b'.Holds (l.drop 1) := by
  obtain ⟨b', hb', hdrop⟩ := h.retrieve hk
  have hone : e.ofMemory (l.take 1) = ofBigEndian (l.take 1) := by
    cases l with
    | nil => cases hk
    | cons c l => exact e.ofMemory_singleton c
  refine ⟨b', ?_, hdrop⟩
  rw [Buffer.readInt8, peekInt8, h.peekBytes hk, ok_bind, hone, pure_bind, hb']
  rfl

theorem Holds.readInt (h : b.Holds l) {w : Width} (hw : w.bytes ≤ l.length) :
    ∃ b', b.readInt e w = .ok (b', w.ofBytes (l.take w.bytes)) ∧ b'.Holds (l.drop w.bytes) := by
  cases w with
  | int8 => exact h.readInt8 e hw
  | int16 => exact h.readInt16 e hw
  | int32 => exact h.readInt32 e hw

end Buffer

end DbdkyGcc.Tcp
