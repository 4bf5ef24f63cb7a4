import Mathlib

/-!
# Reassembling frames of one size from chunks

A reader holds what it has received until at least a whole frame of `L` elements is
there, hands it to a decoder and then drops everything it holds. `feedAll` is such a
reader run on a list of chunks; each chunk comes with a tag, which is what else the
decoder may depend on. When the chunks cut a list of frames, it
delivers one result per frame exactly when no chunk reaches past the end of the
frame it continues (`feedAll_iff_aligned`): each decoding uses up at least `L`
elements, so a single dropped element leaves too few for the remaining frames.
-/

namespace DbdkyGcc.Foundations.Framing

variable {ε τ α β : Type}

/-- No chunk reaches past the end of its frame, when `k` elements of the current
frame have been received. -/
def Aligned (L : ℕ) : ℕ → List (List α) → Prop
  | _, [] => True
  | k, c :: cs => k + c.length ≤ L ∧ Aligned L (if k + c.length = L then 0 else k + c.length) cs

instance decidableAligned (L : ℕ) : ∀ (k : ℕ) (cs : List (List α)), Decidable (Aligned L k cs)
  | _, [] => .isTrue trivial
  | k, c :: cs =>
    have := decidableAligned L (if k + c.length = L then 0 else k + c.length) cs
    inferInstanceAs (Decidable (_ ∧ _))

variable (L cap : ℕ) (overflow : ε) (decode : τ → List α → Except ε (List β))

/-- One chunk: at most `cap` elements can be held. -/
def feed (held : List α) (chunk : τ × List α) : Except ε (List α × List β) :=
  if cap < held.length + chunk.2.length then .error overflow
  else if held.length + chunk.2.length < L then .ok (held ++ chunk.2, [])
  else match decode chunk.1 (held ++ chunk.2) with
    | .error e => .error e
    | .ok out => .ok ([], out)

def feedAll : List α → List (τ × List α) → Except ε (List α × List β)
  | held, [] => .ok (held, [])
  | held, c :: cs =>
    match feed L cap overflow decode held c with
    | .error e => .error e
    | .ok (held', out) =>
      match feedAll held' cs with
      | .error e => .error e
      | .ok (last, outs) => .ok (last, out ++ outs)

variable {L cap overflow decode}

/-- On aligned chunks the reader decodes the frames one by one. -/
theorem feedAll_of_aligned {d : List α → Except ε (List β)} (hL : 0 < L) (hcap : L ≤ cap)
    (cs : List (τ × List α)) : ∀ (held : List α) (frames : List (List α)) (last : List α)
      (outs : List β), held.length < L → (∀ f ∈ frames, f.length = L) →
    (∀ f ∈ frames, ∀ t, decode t f = d f) →
    held ++ (cs.map Prod.snd).flatten = frames.flatten →
    Aligned L held.length (cs.map Prod.snd) →
    (feedAll L cap overflow decode held cs = .ok (last, outs) ↔
      last = [] ∧ ∃ ls, List.Forall₂ (fun f o => d f = .ok o) frames ls ∧
        outs = ls.flatten) := by
  induction cs with
  | nil =>
    intro held frames last outs hheld hlen _ heq _
    cases frames with
    | nil =>
      have hnil : held = [] := by simpa using heq
      subst hnil
      simp only [feedAll, Except.ok.injEq, Prod.mk.injEq, List.forall₂_nil_left_iff,
        exists_eq_left, List.flatten_nil]
      exact and_congr eq_comm eq_comm
    | cons f fs =>
      have hf := hlen f (by simp)
      have := congrArg List.length heq
      simp only [List.map_nil, List.flatten_nil, List.append_nil, List.flatten_cons,
        List.length_append] at this
      omega
  | cons c cs ih =>
    obtain ⟨t, c⟩ := c
    rintro held frames last outs hheld hlen hdec heq ⟨hfit, hrest⟩
    dsimp only at hfit hrest
    rw [List.map_cons, List.flatten_cons, ← List.append_assoc] at heq
    have hle : ¬ cap < held.length + c.length := by omega
    by_cases hend : held.length + c.length = L
    · -- The chunk completes the frame: the held elements are the first frame.
      obtain ⟨f, fs, rfl⟩ : ∃ f fs, frames = f :: fs := by
        cases frames with
        | nil =>
          have := congrArg List.length heq
          simp only [List.flatten_nil, List.length_append, List.length_nil] at this
          omega
        | cons f fs => exact ⟨f, fs, rfl⟩
      have hflen : f.length = L := hlen f (by simp)
      rw [List.flatten_cons] at heq
      obtain ⟨hf, htail⟩ := List.append_inj heq (by rw [List.length_append, hend, hflen])
      rw [if_pos hend] at hrest
      simp only [feedAll, feed, if_neg hle, if_neg (by omega : ¬ held.length + c.length < L),
        hf, hdec f (by simp) t, List.forall₂_cons_left_iff]
      cases hd : d f with
      | error e => simp
      | ok o =>
        have hih := fun outs => ih [] fs last outs (by simpa using hL)
          (fun x hx => hlen x (by simp [hx])) (fun x hx => hdec x (by simp [hx]))
          (by simpa using htail) hrest
        cases hr : feedAll L cap overflow decode [] cs with
        | error e =>
          refine iff_of_false (by simp [hr]) ?_
          rintro ⟨hlast, _, ⟨o', ls, -, hls, rfl⟩, rfl⟩
          have := (hih _).mpr ⟨hlast, ls, hls, rfl⟩
          simp [hr] at this
        | ok r =>
          obtain ⟨last', outs'⟩ := r
          simp only [hr, Except.ok.injEq, Prod.mk.injEq] at hih ⊢
          constructor
          · rintro ⟨rfl, rfl⟩
            obtain ⟨hlast, ls, hls, rfl⟩ := (hih outs').mp ⟨rfl, rfl⟩
            exact ⟨hlast, o :: ls, ⟨o, ls, rfl, hls, rfl⟩, rfl⟩
          · rintro ⟨hlast, _, ⟨o', ls, rfl, hls, rfl⟩, rfl⟩
            obtain ⟨rfl, rfl⟩ := (hih _).mpr ⟨hlast, ls, hls, rfl⟩
            exact ⟨rfl, rfl⟩
    · have hlt : held.length + c.length < L := by omega
      rw [if_neg hend] at hrest
      have hih := ih (held ++ c) frames last outs (by simpa using hlt) hlen hdec heq
        (by simpa using hrest)
      rw [← hih]
      simp only [feedAll, feed, if_neg hle, if_pos hlt]
      cases feedAll L cap overflow decode (held ++ c) cs with
      | error e => simp
      | ok r => simp

/-- Results that come one at a time and are as many as the frames belong to the
frames one by one. -/
theorem forall_decode_of_flatten {d : List α → Except ε (List β)} {g : List α → β}
    {frames : List (List α)} {ls : List (List β)}
    (hone : ∀ f ∈ frames, ∀ out, d f = .ok out → out.length ≤ 1)
    (h : List.Forall₂ (fun f o => d f = .ok o) frames ls)
    (hg : frames.map g = ls.flatten) : ∀ f ∈ frames, d f = .ok [g f] := by
  have hcount : ∀ {fs : List (List α)} {ls : List (List β)},
      (∀ f ∈ fs, ∀ out, d f = .ok out → out.length ≤ 1) →
      List.Forall₂ (fun f o => d f = .ok o) fs ls → ls.flatten.length ≤ fs.length := by
    intro fs ls hone h
    induction h with
    | nil => simp
    | @cons f o fs ls hd _ ih =>
      have := hone f (by simp) o hd
      have := ih fun x hx => hone x (by simp [hx])
      simp only [List.flatten_cons, List.length_append, List.length_cons]
      omega
  induction h with
  | nil => simp
  | @cons f o fs ls hd hls ih =>
    have hlen := congrArg List.length hg
    have ho := hone f (by simp) o hd
    have hone' : ∀ x ∈ fs, ∀ out, d x = .ok out → out.length ≤ 1 :=
      fun x hx => hone x (by simp [hx])
    have hc := hcount hone' hls
    simp only [List.length_map, List.length_cons, List.flatten_cons, List.length_append] at hlen
    obtain ⟨b, rfl⟩ : ∃ b, o = [b] := List.length_eq_one_iff.mp (by omega)
    rw [List.map_cons, List.flatten_cons, List.singleton_append, List.cons.injEq] at hg
    intro x hx
    rcases List.mem_cons.mp hx with rfl | hx
    · rw [hg.1]
      exact hd
    · exact ih hone' hg.2 x hx

/-- Every delivered result has used up `L` elements, and none is left over only
when the chunks are aligned. -/
theorem feedAll_count (hone : ∀ t f out, decode t f = .ok out → out.length ≤ 1)
    (cs : List (τ × List α)) : ∀ (held last : List α) (outs : List β), held.length < L →
    feedAll L cap overflow decode held cs = .ok (last, outs) →
    outs.length * L + last.length ≤ held.length + (cs.map Prod.snd).flatten.length ∧
      (outs.length * L + last.length = held.length + (cs.map Prod.snd).flatten.length →
        Aligned L held.length (cs.map Prod.snd)) := by
  induction cs with
  | nil =>
    intro held last outs _ h
    simp only [feedAll, Except.ok.injEq, Prod.mk.injEq] at h
    obtain ⟨rfl, rfl⟩ := h
    simp [Aligned]
  | cons c cs ih =>
    obtain ⟨t, c⟩ := c
    intro held last outs hheld h
    simp only [feedAll] at h
    rw [List.map_cons, List.flatten_cons, List.length_append]
    dsimp only
    cases hf : feed L cap overflow decode held (t, c) with
    | error e => simp [hf] at h
    | ok r =>
      obtain ⟨held', out⟩ := r
      rw [hf] at h
      cases hr : feedAll L cap overflow decode held' cs with
      | error e => simp [hr] at h
      | ok r =>
        obtain ⟨last', outs'⟩ := r
        simp only [hr, Except.ok.injEq, Prod.mk.injEq] at h
        obtain ⟨rfl, rfl⟩ := h
        simp only [feed] at hf
        split at hf
        · cases hf
        split at hf
        · rename_i _ hlt
          simp only [Except.ok.injEq, Prod.mk.injEq] at hf
          obtain ⟨rfl, rfl⟩ := hf
          obtain ⟨hle, heq⟩ := ih (held ++ c) last' outs' (by simpa using hlt) hr
          rw [List.length_append] at hle heq
          refine ⟨by simp only [List.nil_append]; omega, fun h => ⟨by omega, ?_⟩⟩
          rw [if_neg (by omega)]
          exact heq (by simp only [List.nil_append] at h; omega)
        · rename_i _ hge
          cases hd : decode t (held ++ c) with
          | error e => simp [hd] at hf
          | ok o =>
            simp only [hd, Except.ok.injEq, Prod.mk.injEq] at hf
            obtain ⟨rfl, rfl⟩ := hf
            have ho := hone _ _ _ hd
            obtain ⟨hle, heq⟩ := ih [] last' outs' (by simpa using (by omega : 0 < L)) hr
            rw [List.length_nil] at hle heq
            have hmul : (o ++ outs').length * L ≤ L + outs'.length * L := by
              rw [List.length_append, Nat.add_mul]
              have := Nat.mul_le_mul_right L ho
              omega
            refine ⟨by omega, fun h => ?_⟩
            have hend : held.length + c.length = L := by omega
            refine ⟨by omega, ?_⟩
            rw [if_pos hend]
            exact heq (by omega)

/-- One result per frame, in order, exactly for the aligned cuts of frames that
all decode. -/
theorem feedAll_iff_aligned [Nonempty τ] {d : List α → Except ε (List β)} {g : List α → β} (hL : 0 < L)
    (hcap : L ≤ cap) (hone : ∀ t f out, decode t f = .ok out → out.length ≤ 1)
    (frames : List (List α)) (cs : List (τ × List α)) (hlen : ∀ f ∈ frames, f.length = L)
    (hdec : ∀ f ∈ frames, ∀ t, decode t f = d f)
    (hcut : (cs.map Prod.snd).flatten = frames.flatten) :
    (∃ last, feedAll L cap overflow decode [] cs = .ok (last, frames.map g)) ↔
      Aligned L 0 (cs.map Prod.snd) ∧ ∀ f ∈ frames, d f = .ok [g f] := by
  constructor
  · rintro ⟨last, h⟩
    obtain ⟨hle, heq⟩ := feedAll_count hone cs [] last _ (by simpa using hL) h
    have htotal : (cs.map Prod.snd).flatten.length = frames.length * L := by
      rw [hcut, List.length_flatten, List.map_congr_left hlen, List.map_const', List.sum_replicate,
        smul_eq_mul]
    rw [List.length_map, List.length_nil] at hle heq
    have hal : Aligned L 0 (cs.map Prod.snd) := heq (by omega)
    obtain ⟨_, ls, hls, hg⟩ := (feedAll_of_aligned hL hcap cs [] frames last _
      (by simpa using hL) hlen hdec (by simpa using hcut) hal).mp h
    obtain ⟨t⟩ := (inferInstance : Nonempty τ)
    exact ⟨hal, forall_decode_of_flatten (fun f hf out h => hone t f out ((hdec f hf t).trans h))
      hls hg⟩
  · rintro ⟨hal, hok⟩
    refine ⟨[], (feedAll_of_aligned hL hcap cs [] frames _ _ (by simpa using hL) hlen hdec
      (by simpa using hcut) hal).mpr ⟨rfl, frames.map fun f => [g f], ?_, ?_⟩⟩
    · exact List.forall₂_map_right_iff.mpr (List.forall₂_same.mpr hok)
    · rw [← List.flatMap_def]
      exact List.map_eq_flatMap

end DbdkyGcc.Foundations.Framing
