import Mathlib

/-!
# Decoders of bytes

A decoder reads from a list of bytes and may work on a state besides, which it
does not lose when it throws. That a decoder inverts an encoder is said by
`Decodes`: it reads exactly the given bytes, whatever follows them. The rules go
along sequences and loops, so that a decoder for a whole format is verified by
the encodings of its parts.
-/

namespace DbdkyGcc.Foundations

/-- The bytes that have not been read yet, and the state. -/
structure Source (σ : Type) where
  rest : List UInt8
  state : σ

/-- What is thrown leaves the source as it is at this point. -/
abbrev Decoder (ε σ α : Type) := EStateM ε (Source σ) α

namespace Decoder

variable {ε σ α β : Type}

def getState : Decoder ε σ σ := fun s => .ok s.state s

def modifyState (f : σ → σ) : Decoder ε σ Unit := fun s => .ok () { s with state := f s.state }

/-- Takes `n` bytes, or all that are left before it throws. -/
def takeBytes (n : Nat) (short : ε) : Decoder ε σ (List UInt8) := fun s =>
  if n ≤ s.rest.length then .ok (s.rest.take n) { s with rest := s.rest.drop n }
  else .error short { s with rest := [] }

/-- A loop that collects what it reads. -/
def readList (p : Decoder ε σ α) : Nat → Decoder ε σ (List α)
  | 0 => pure []
  | n + 1 => do
    let x ← p
    let xs ← readList p n
    pure (x :: xs)

/-- A loop that works on the state. -/
def loop (p : Decoder ε σ Unit) : Nat → Decoder ε σ Unit
  | 0 => pure ()
  | n + 1 => do
    p
    loop p n

/-- In the state `s` the decoder reads the bytes `w` as `x` and goes to the state `t`. -/
def Decodes (p : Decoder ε σ α) (s : σ) (w : List UInt8) (x : α) (t : σ) : Prop :=
  ∀ rest, p ⟨w ++ rest, s⟩ = .ok x ⟨rest, t⟩

theorem decodes_pure (x : α) (s : σ) : Decodes (pure x : Decoder ε σ α) s [] x s :=
  fun _ => rfl

theorem decodes_getState (s : σ) : Decodes (getState : Decoder ε σ σ) s [] s s :=
  fun _ => rfl

theorem decodes_modifyState (f : σ → σ) (s : σ) :
    Decodes (modifyState f : Decoder ε σ Unit) s [] () (f s) :=
  fun _ => rfl

theorem decodes_takeBytes {n : Nat} {w : List UInt8} (hw : w.length = n) (short : ε) (s : σ) :
    Decodes (takeBytes n short : Decoder ε σ (List UInt8)) s w w s := by
  intro rest
  have hn : n ≤ (w ++ rest).length := by
    rw [List.length_append, hw]
    exact Nat.le_add_right _ _
  rw [takeBytes, if_pos hn]
  simp [← hw]

variable {p : Decoder ε σ α} {f : α → Decoder ε σ β} {s t u : σ} {v w : List UInt8} {x : α} {y : β}

theorem Decodes.bind (hp : Decodes p s w x t) (hf : Decodes (f x) t v y u) :
    Decodes (p >>= f) s (w ++ v) y u := by
  intro rest
  have hfirst := hp (v ++ rest)
  have hthen := hf rest
  rw [List.append_assoc]
  change EStateM.bind p f _ = _
  rw [EStateM.bind, hfirst]
  exact hthen

/-- A step that reads nothing. -/
theorem Decodes.skip (hp : Decodes p s [] x t) (hf : Decodes (f x) t v y u) :
    Decodes (p >>= f) s v y u :=
  hp.bind hf

theorem Decodes.pure (hp : Decodes p s w x t) (g : α → β) :
    Decodes (p >>= fun a => Pure.pure (g a)) s w (g x) t := by
  have hend : Decodes (Pure.pure (g x) : Decoder ε σ β) t [] (g x) t := decodes_pure (g x) t
  have h := hp.bind (f := fun a => Pure.pure (g a)) hend
  rwa [List.append_nil] at h

/-- One round of the loop for each element. -/
theorem decodes_readList {encode : β → List UInt8} {value : β → α}
    (hp : ∀ b, Decodes p s (encode b) (value b) s) (l : List β) :
    Decodes (readList p l.length) s (l.flatMap encode) (l.map value) s := by
  induction l with
  | nil => exact decodes_pure [] s
  | cons b l ih => exact (hp b).bind (ih.pure (value b :: ·))

theorem decodes_loop {p : Decoder ε σ Unit} {encode : β → List UInt8} {next : σ → β → σ}
    (hp : ∀ b s, Decodes p s (encode b) () (next s b)) (l : List β) (s : σ) :
    Decodes (loop p l.length) s (l.flatMap encode) () (l.foldl next s) := by
  induction l generalizing s with
  | nil => exact decodes_pure () s
  | cons b l ih => exact (hp b s).bind (ih (next s b))

end Decoder

end DbdkyGcc.Foundations
