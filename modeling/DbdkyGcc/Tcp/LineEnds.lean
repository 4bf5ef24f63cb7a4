import DbdkyGcc.Foundations.Scan
import DbdkyGcc.Tcp.Buffer

/-!
# Line ends in a buffer

`findCRLF` and `findEOL` look for the end of a line in the readable bytes, from the first of them
or from a given one on. Behind the readable bytes lie those of earlier contents. Three of the four
searches never come there. `findEOL(start)` counts the readable bytes from `start`, not from
`peek()`, and unless it finds a line end first it goes on behind `beginWrite()`.
-/

namespace DbdkyGcc.Tcp

open Foundations

inductive SearchFault
  | assertion
  | overrun
deriving DecidableEq

def LF : UInt8 := 10

def CR : UInt8 := 13

namespace Buffer

/-- `std::search` for `kCRLF` up to `beginWrite()`, whose result stands for `NULL`. -/
def searchCRLF (b : Buffer) (start : Nat) : Except SearchFault Scan := do
  let (examined, crlf) ← require .overrun (searchPair b.buffer CR LF start (b.writerIndex - start))
  return ⟨examined, if crlf = b.writerIndex then none else some crlf⟩

/-- `findCRLF()`. A pointer is its distance from `begin()`. -/
def findCRLF (b : Buffer) : Except SearchFault Scan := b.searchCRLF b.readerIndex

/-- `findCRLF(start)` -/
def findCRLFFrom (b : Buffer) (start : Nat) : Except SearchFault Scan := do
  ensure .assertion (b.readerIndex ≤ start)
  ensure .assertion (start ≤ b.writerIndex)
  b.searchCRLF start

/-- `findEOL()` -/
def findEOL (b : Buffer) : Except SearchFault Scan :=
  require .overrun (memchr b.buffer LF b.readerIndex b.readableBytes)

/-- `findEOL(start)`: the number of bytes is that from `peek()` on. -/
def findEOLFrom (b : Buffer) (start : Nat) : Except SearchFault Scan := do
  ensure .assertion (b.readerIndex ≤ start)
  ensure .assertion (start ≤ b.writerIndex)
  require .overrun (memchr b.buffer LF start b.readableBytes)

/-- A newline stands at `i`. -/
def EOLAt (b : Buffer) (i : Nat) : Prop := b.buffer[i]? = some LF

/-- A CR and a newline stand at `i` and behind it, both in front of `beginWrite()`. -/
def CRLFAt (b : Buffer) (i : Nat) : Prop :=
  i + 1 < b.writerIndex ∧ b.buffer[i]? = some CR ∧ b.buffer[i + 1]? = some LF

/-- The search returns the first find among the readable bytes from `start` on, and reads no byte
behind them. -/
def Finds (b : Buffer) (p : Nat → Prop) (start : Nat) (search : Except SearchFault Scan) : Prop :=
  ∃ r, search = .ok r ∧ IsFirst p start b.writerIndex r.found ∧
    ∀ i ∈ r.examined, i < b.writerIndex

variable {b : Buffer} {l : List UInt8} {start : Nat}

theorem finds_searchCRLF (hb : b.Holds l) (hstart : start ≤ b.writerIndex) :
    b.Finds b.CRLFAt start (b.searchCRLF start) := by
  have hend : start + (b.writerIndex - start) = b.writerIndex := by omega
  obtain ⟨r, hr, hfirst, hexamined⟩ := searchPair_spec (v := b.buffer) (c := CR) (d := LF)
    (s := start) (n := b.writerIndex - start) (by rw [hend]; exact hb.writer_le)
  rw [hend] at hfirst hexamined
  refine ⟨⟨r.1, if r.2 = b.writerIndex then none else some r.2⟩, ?_, hfirst, hexamined⟩
  rw [searchCRLF, hr]
  rfl

theorem finds_memchr (hb : b.Holds l) {n : Nat} (hstart : start + n = b.writerIndex) :
    b.Finds b.EOLAt start (require .overrun (memchr b.buffer LF start n)) := by
  obtain ⟨r, hr, hfirst, hexamined⟩ := memchr_spec (v := b.buffer) (c := LF) (s := start) (n := n)
    (by rw [hstart]; exact hb.writer_le)
  rw [hstart] at hfirst hexamined
  exact ⟨r, by rw [hr]; rfl, hfirst, hexamined⟩

/-- A newline among the readable bytes ends the search there. -/
theorem finds_memchr_of_exists {n : Nat} (hn : b.writerIndex ≤ start + n)
    (h : ∃ i, start ≤ i ∧ i < b.writerIndex ∧ b.EOLAt i) :
    b.Finds b.EOLAt start (require .overrun (memchr b.buffer LF start n)) := by
  obtain ⟨i, hi⟩ := exists_isFirst (fun i => b.buffer[i]? = some LF) start b.writerIndex h
  obtain ⟨r, hr, hfound, hexamined⟩ := memchr_of_isFirst hi (n := n) (by have := hi.1; omega)
  refine ⟨r, by rw [hr]; rfl, by rw [hfound]; exact hi, fun j hj => ?_⟩
  have := hexamined j hj
  have := hi.1
  omega

/-- From any start among the readable bytes, `findEOL()`, `findCRLF()` and `findCRLF(start)` find
the first line end there and read nothing behind; `findEOL(start)` does exactly when it starts at
`peek()` or a newline lies ahead of it. -/
theorem line_ends_found_iff (hb : b.Holds l) (hpeek : b.readerIndex ≤ start)
    (hwrite : start ≤ b.writerIndex) :
    b.Finds b.EOLAt b.readerIndex b.findEOL ∧
    b.Finds b.CRLFAt b.readerIndex b.findCRLF ∧
    b.Finds b.CRLFAt start (b.findCRLFFrom start) ∧
    (b.Finds b.EOLAt start (b.findEOLFrom start) ↔
      start = b.readerIndex ∨ ∃ i, start ≤ i ∧ i < b.writerIndex ∧ b.EOLAt i) := by
  have hreadable : b.readableBytes = b.writerIndex - b.readerIndex := by
    rw [hb.readableBytes_eq, hb.length_eq]
  have hreader := hb.reader_le
  have hfrom : b.findEOLFrom start = require .overrun (memchr b.buffer LF start b.readableBytes) := by
    rw [findEOLFrom, ensure_eq_ok hpeek, ensure_eq_ok hwrite]
    rfl
  refine ⟨finds_memchr hb (by omega), finds_searchCRLF hb hreader, ?_, ?_⟩
  · rw [findCRLFFrom, ensure_eq_ok hpeek, ensure_eq_ok hwrite]
    exact finds_searchCRLF hb hwrite
  · rw [hfrom]
    constructor
    · rintro ⟨r, hr, hfirst, hexamined⟩
      by_contra hcond
      obtain ⟨hne, hnone⟩ := not_or.mp hcond
      have hmem : b.writerIndex ∈ r.examined := by
        refine mem_examined_memchr (fun i hi hlt heol => hnone ⟨i, hi, hlt, heol⟩) hwrite ?_
          (require_eq_ok_iff.mp hr)
        omega
      exact absurd (hexamined _ hmem) (lt_irrefl _)
    · rintro (rfl | hexists)
      · exact finds_memchr hb (by omega)
      · exact finds_memchr_of_exists (by omega) hexists

/-- Two lines, with the second newline ahead. -/
theorem line_ends_found_in_second_line :
    let b : Buffer := ⟨List.replicate 8 0 ++ [97, LF, 98, LF], 8, 12⟩
    b.Holds [97, LF, 98, LF] ∧ b.Finds b.EOLAt 10 (b.findEOLFrom 10) := by
  intro b
  have hb : b.Holds [97, LF, 98, LF] := ⟨by decide, by decide, by decide, by decide, rfl⟩
  exact ⟨hb, (line_ends_found_iff hb (by decide) (by decide)).2.2.2.mpr
    (.inr ⟨11, by decide, by decide, rfl⟩)⟩

/-- A line is read, and half of the next one comes in. Behind it still stands the newline of the
first line, and `findEOL(peek() + 1)` finds it there, at `beginWrite()`. -/
theorem findEOL_finds_stale_newline :
    ∃ b, (new.append [97, 98, 99, LF] >>= fun b => b.retrieveAll.append [97, 98, 99]) = .ok b ∧
      b.content = [97, 98, 99] ∧ b.readerIndex = 8 ∧ b.writerIndex = 11 ∧
      b.findEOLFrom 9 = .ok ⟨[9, 10, 11], some 11⟩ := by
  have hrun : (new.append [97, 98, 99, LF] >>= fun b =>
      b.retrieveAll.append [97, 98, 99]).toOption.map (fun b => (b.content, b.readerIndex,
        b.writerIndex, (b.findEOLFrom 9).toOption)) =
      some ([97, 98, 99], 8, 11, some ⟨[9, 10, 11], some 11⟩) := by
    decide +kernel
  obtain ⟨b, hb, hseen⟩ := Option.map_eq_some_iff.mp hrun
  simp only [Prod.mk.injEq] at hseen
  exact ⟨b, eq_ok_of_toOption hb, hseen.1, hseen.2.1, hseen.2.2.1,
    eq_ok_of_toOption hseen.2.2.2⟩

end Buffer

end DbdkyGcc.Tcp
