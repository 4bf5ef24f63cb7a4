import DbdkyGcc.Timers.Invariant

/-!
# Who holds a timer

The steps of the queue pass timers from owner to owner: `addTimerInLoop` from the loop's
functors to the two sets, `getExpired` from the sets to a batch, `reset` from the batch back to
the sets or to deletion. Sequence numbers are never handed out twice, whatever happens to the
addresses.
-/

namespace DbdkyGcc.Timers

open Foundations

variable {heap : Nat → Option Timer} {timers : OrderedSet Entry} {queued : Finset Nat}
  {held : List Nat} {numCreated : Nat} {deleted : List Nat} {timer : Nat} {t : Timer}
  {id : ActiveTimer}

section Owners

/-- An address that is not live is held by nobody. -/
theorem Owned.ne_of_dead (h : Owned heap timers queued held) (hdead : heap timer = none) :
    timer ∉ queued ∧ timer ∉ held := by
  constructor
  · intro hmem
    obtain ⟨t, ht⟩ := h.queued_live timer hmem
    rw [hdead] at ht
    cases ht
  · intro hmem
    obtain ⟨t, ht⟩ := h.held_live timer hmem
    rw [hdead] at ht
    cases ht

theorem Owned.create (h : Owned heap timers queued held) (hdead : heap timer = none)
    (hfree : ∀ e ∈ timers, e.timer ≠ timer) (t : Timer) :
    Owned (Function.update heap timer (some t)) timers (insert timer queued) held := by
  obtain ⟨hqueued, hheld⟩ := h.ne_of_dead hdead
  refine ⟨h.held_nodup, fun a ha => ?_, fun a ha => ?_, fun a ha e he => ?_, h.held_timers,
    fun a ha => ?_, fun a u hu => ?_⟩
  · by_cases hat : a = timer
    · exact ⟨t, by rw [hat, Function.update_self]⟩
    · rw [Function.update_of_ne hat]
      exact h.queued_live a (Finset.mem_of_mem_insert_of_ne ha hat)
  · rw [Function.update_of_ne (ne_of_mem_of_not_mem ha hheld)]
    exact h.held_live a ha
  · rcases Finset.mem_insert.mp ha with rfl | ha
    · exact hfree e he
    · exact h.queued_timers a ha e he
  · rcases Finset.mem_insert.mp ha with rfl | ha
    · exact hheld
    · exact h.queued_held a ha
  · by_cases hat : a = timer
    · exact .inl (hat ▸ Finset.mem_insert_self ..)
    · rw [Function.update_of_ne hat] at hu
      exact (h.owner a u hu).imp_left Finset.mem_insert_of_mem

/-- From the loop's functors to the loop thread. -/
theorem Owned.dequeue (h : Owned heap timers queued held) (hmem : timer ∈ queued) :
    Owned heap timers (queued.erase timer) (timer :: held) := by
  refine ⟨List.nodup_cons.mpr ⟨h.queued_held timer hmem, h.held_nodup⟩,
    fun a ha => h.queued_live a (Finset.mem_of_mem_erase ha), fun a ha => ?_,
    fun a ha => h.queued_timers a (Finset.mem_of_mem_erase ha), fun a ha => ?_, fun a ha => ?_,
    fun a u hu => ?_⟩
  · rcases List.mem_cons.mp ha with rfl | ha
    · exact h.queued_live a hmem
    · exact h.held_live a ha
  · rcases List.mem_cons.mp ha with rfl | ha
    · exact h.queued_timers a hmem
    · exact h.held_timers a ha
  · obtain ⟨hne, ha⟩ := Finset.mem_erase.mp ha
    exact List.not_mem_cons_of_ne_of_not_mem hne (h.queued_held a ha)
  · by_cases hat : a = timer
    · exact .inr (.inl (hat ▸ List.mem_cons_self))
    · rcases h.owner a u hu with ha | ha | ha
      · exact .inl (Finset.mem_erase.mpr ⟨hat, ha⟩)
      · exact .inr (.inl (List.mem_cons_of_mem _ ha))
      · exact .inr (.inr ha)

/-- From the loop thread to the sets. -/
theorem Owned.insert (h : Owned heap timers queued (timer :: held)) (expiration : Int) :
    Owned heap (timers.insert ⟨expiration, timer⟩) queued held := by
  obtain ⟨hnot, hnodup⟩ := List.nodup_cons.mp h.held_nodup
  refine ⟨hnodup, h.queued_live, fun a ha => h.held_live a (List.mem_cons_of_mem _ ha),
    fun a ha e he => ?_, fun a ha e he => ?_,
    fun a ha => List.not_mem_of_not_mem_cons (h.queued_held a ha), fun a u hu => ?_⟩
  · rcases OrderedSet.mem_insert.mp he with rfl | he
    · exact fun heq => h.queued_held a ha (heq ▸ List.mem_cons_self)
    · exact h.queued_timers a ha e he
  · rcases OrderedSet.mem_insert.mp he with rfl | he
    · exact (ne_of_mem_of_not_mem ha hnot).symm
    · exact h.held_timers a (List.mem_cons_of_mem _ ha) e he
  · rcases h.owner a u hu with ha | ha | ⟨e, he, rfl⟩
    · exact .inl ha
    · rcases List.mem_cons.mp ha with rfl | ha
      · exact .inr (.inr ⟨_, OrderedSet.mem_insert.mpr (.inl rfl), rfl⟩)
      · exact .inr (.inl ha)
    · exact .inr (.inr ⟨e, OrderedSet.mem_insert.mpr (.inr he), rfl⟩)

/-- From the loop thread to the allocator. -/
theorem Owned.delete (h : Owned heap timers queued (timer :: held)) :
    Owned (Function.update heap timer none) timers queued held := by
  obtain ⟨hnot, hnodup⟩ := List.nodup_cons.mp h.held_nodup
  have hother : ∀ a, a ∈ queued ∨ a ∈ held → a ≠ timer := by
    rintro a (ha | ha) rfl
    · exact h.queued_held a ha List.mem_cons_self
    · exact hnot ha
  refine ⟨hnodup, fun a ha => ?_, fun a ha => ?_, h.queued_timers,
    fun a ha => h.held_timers a (List.mem_cons_of_mem _ ha),
    fun a ha => List.not_mem_of_not_mem_cons (h.queued_held a ha), fun a u hu => ?_⟩
  · rw [Function.update_of_ne (hother a (.inl ha))]
    exact h.queued_live a ha
  · rw [Function.update_of_ne (hother a (.inr ha))]
    exact h.held_live a (List.mem_cons_of_mem _ ha)
  · by_cases hat : a = timer
    · rw [hat, Function.update_self] at hu
      cases hu
    · rw [Function.update_of_ne hat] at hu
      exact (h.owner a u hu).imp_right (Or.imp_left fun ha => (List.mem_cons.mp ha).resolve_left hat)

/-- A timer that stays where it is. -/
theorem Owned.update (h : Owned heap timers queued held) (ht : heap timer = some t) (t' : Timer) :
    Owned (Function.update heap timer (some t')) timers queued held := by
  have hlive : ∀ a, (∃ u, heap a = some u) ↔ ∃ u, Function.update heap timer (some t') a = some u := by
    intro a
    by_cases hat : a = timer
    · rw [hat, Function.update_self, ht]
      exact ⟨fun _ => ⟨t', rfl⟩, fun _ => ⟨t, rfl⟩⟩
    · rw [Function.update_of_ne hat]
  refine ⟨h.held_nodup, fun a ha => (hlive a).mp (h.queued_live a ha),
    fun a ha => (hlive a).mp (h.held_live a ha), h.queued_timers, h.held_timers, h.queued_held,
    fun a u hu => ?_⟩
  obtain ⟨v, hv⟩ := (hlive a).mpr ⟨u, hu⟩
  exact h.owner a v hv

/-- From the sets to the loop thread. -/
theorem Owned.take (h : Owned heap timers queued held) (taken : List Entry) (rest : OrderedSet Entry)
    (htaken : ∀ e ∈ taken, e ∈ timers) (hrest : ∀ e, e ∈ rest ↔ e ∈ timers ∧ e ∉ taken)
    (hlive : ∀ e ∈ timers, ∃ t, heap e.timer = some t ∧ t.expiration = e.expiration)
    (hnodup : taken.Nodup) : Owned heap rest queued (taken.map Entry.timer ++ held) := by
  have hinj : ∀ e ∈ timers, ∀ e' ∈ timers, e.timer = e'.timer → e = e' := by
    rintro ⟨x, a⟩ he ⟨x', a'⟩ he' heq
    obtain ⟨t, ht, rfl⟩ := hlive _ he
    obtain ⟨t', ht', rfl⟩ := hlive _ he'
    cases heq
    cases ht.symm.trans ht'
    rfl
  refine ⟨?_, h.queued_live, fun a ha => ?_, fun a ha e he => h.queued_timers a ha e ((hrest e).mp he).1,
    fun a ha e he => ?_, fun a ha => ?_, fun a u hu => ?_⟩
  · refine List.Nodup.append (hnodup.map_on fun e he e' he' => ?_) h.held_nodup ?_
    · exact hinj e (htaken e he) e' (htaken e' he')
    · intro a hmem ha
      obtain ⟨e, he, rfl⟩ := List.mem_map.mp hmem
      exact h.held_timers _ ha e (htaken e he) rfl
  · rcases List.mem_append.mp ha with ha | ha
    · obtain ⟨e, he, rfl⟩ := List.mem_map.mp ha
      obtain ⟨t, ht, -⟩ := hlive e (htaken e he)
      exact ⟨t, ht⟩
    · exact h.held_live a ha
  · rcases List.mem_append.mp ha with ha | ha
    · obtain ⟨e', he', rfl⟩ := List.mem_map.mp ha
      obtain ⟨he, hnot⟩ := (hrest e).mp he
      intro heq
      exact hnot (hinj e he e' (htaken e' he') heq ▸ he')
    · exact h.held_timers a ha e ((hrest e).mp he).1
  · rw [List.mem_append, not_or]
    refine ⟨fun hmem => ?_, h.queued_held a ha⟩
    obtain ⟨e, he, rfl⟩ := List.mem_map.mp hmem
    exact h.queued_timers _ ha e (htaken e he) rfl
  · rcases h.owner a u hu with ha | ha | ⟨e, he, rfl⟩
    · exact .inl ha
    · exact .inr (.inl (List.mem_append_right _ ha))
    · by_cases hmem : e ∈ taken
      · exact .inr (.inl (List.mem_append_left _ (List.mem_map_of_mem hmem)))
      · exact .inr (.inr ⟨e, (hrest e).mpr ⟨he, hmem⟩, rfl⟩)

end Owners

section Numbers

theorem Numbered.create (h : Numbered heap numCreated deleted) (haddr : timer < UINTPTR_MAX)
    (when : Int) (interval : Interval) :
    Numbered (Function.update heap timer (some ⟨when, interval, numCreated + 1⟩)) (numCreated + 1)
      deleted := by
  -- every number handed out before is smaller than the new one
  have hold : ∀ a t, a ≠ timer →
      Function.update heap timer (some ⟨when, interval, numCreated + 1⟩) a = some t →
      heap a = some t := fun a t ha ht => by rwa [Function.update_of_ne ha] at ht
  have hnew : ∀ t, Function.update heap timer (some ⟨when, interval, numCreated + 1⟩) timer = some t →
      t.sequence = numCreated + 1 := by
    intro t ht
    rw [Function.update_self] at ht
    cases ht
    rfl
  refine ⟨fun a t ht => ?_, fun a t ht => ?_, fun a b t u ht hu heq => ?_,
    fun n hn => (h.deleted_le n hn).trans (Nat.le_succ _), h.deleted_nodup, fun a t ht => ?_⟩
  · by_cases ha : a = timer
    · exact ha ▸ haddr
    · exact h.address_lt a t (hold a t ha ht)
  · by_cases ha : a = timer
    · subst ha
      exact (hnew t ht).le
    · exact (h.sequence_le a t (hold a t ha ht)).trans (Nat.le_succ _)
  · by_cases ha : a = timer
    · by_cases hb : b = timer
      · rw [ha, hb]
      · subst ha
        have hle := h.sequence_le b u (hold b u hb hu)
        have hseq := hnew t ht
        omega
    · by_cases hb : b = timer
      · subst hb
        have hle := h.sequence_le a t (hold a t ha ht)
        have hseq := hnew u hu
        omega
      · exact h.sequence_inj a b t u (hold a t ha ht) (hold b u hb hu) heq
  · by_cases ha : a = timer
    · subst ha
      intro hmem
      have hle := h.deleted_le _ hmem
      have hseq := hnew t ht
      omega
    · exact h.live_not_deleted a t (hold a t ha ht)

theorem Numbered.delete (h : Numbered heap numCreated deleted) (ht : heap timer = some t) :
    Numbered (Function.update heap timer none) numCreated (t.sequence :: deleted) := by
  have hold : ∀ a u, Function.update heap timer none a = some u → a ≠ timer ∧ heap a = some u := by
    intro a u hu
    by_cases ha : a = timer
    · rw [ha, Function.update_self] at hu
      cases hu
    · rw [Function.update_of_ne ha] at hu
      exact ⟨ha, hu⟩
  refine ⟨fun a u hu => h.address_lt a u (hold a u hu).2, fun a u hu => h.sequence_le a u (hold a u hu).2,
    fun a b u v hu hv => h.sequence_inj a b u v (hold a u hu).2 (hold b v hv).2, fun n hn => ?_,
    List.nodup_cons.mpr ⟨h.live_not_deleted timer t ht, h.deleted_nodup⟩, fun a u hu => ?_⟩
  · rcases List.mem_cons.mp hn with rfl | hn
    · exact h.sequence_le timer t ht
    · exact h.deleted_le n hn
  · obtain ⟨hne, hu⟩ := hold a u hu
    refine List.not_mem_cons_of_ne_of_not_mem (fun heq => hne ?_) (h.live_not_deleted a u hu)
    exact h.sequence_inj a timer u t hu ht heq

/-- A timer that keeps its number. -/
theorem Numbered.update (h : Numbered heap numCreated deleted) (ht : heap timer = some t) {u : Timer}
    (hu : u.sequence = t.sequence) :
    Numbered (Function.update heap timer (some u)) numCreated deleted := by
  have hold : ∀ a v, Function.update heap timer (some u) a = some v →
      ∃ w, heap a = some w ∧ w.sequence = v.sequence := by
    intro a v hv
    by_cases ha : a = timer
    · rw [ha, Function.update_self] at hv
      cases hv
      exact ⟨t, ha ▸ ht, hu.symm⟩
    · rw [Function.update_of_ne ha] at hv
      exact ⟨v, hv, rfl⟩
  refine ⟨fun a v hv => ?_, fun a v hv => ?_, fun a b v v' hv hv' heq => ?_, h.deleted_le,
    h.deleted_nodup, fun a v hv => ?_⟩
  · obtain ⟨w, hw, -⟩ := hold a v hv
    exact h.address_lt a w hw
  · obtain ⟨w, hw, hseq⟩ := hold a v hv
    exact hseq ▸ h.sequence_le a w hw
  · obtain ⟨w, hw, hseq⟩ := hold a v hv
    obtain ⟨w', hw', hseq'⟩ := hold b v' hv'
    exact h.sequence_inj a b w w' hw hw' (by rw [hseq, hseq', heq])
  · obtain ⟨w, hw, hseq⟩ := hold a v hv
    exact hseq ▸ h.live_not_deleted a w hw

/-- The timer that `id` names is live. -/
def Names (heap : Nat → Option Timer) (id : ActiveTimer) : Prop :=
  (heap id.timer).map Timer.sequence = some id.sequence

instance : Decidable (Names heap id) := inferInstanceAs (Decidable (_ = _))

theorem names_iff : Names heap id ↔ ∃ t, heap id.timer = some t ∧ t.sequence = id.sequence :=
  Option.map_eq_some_iff

theorem names_update_of_ne {timer : Nat} (h : id.timer ≠ timer) (o : Option Timer) :
    Names (Function.update heap timer o) id ↔ Names heap id := by
  rw [Names, Names, Function.update_of_ne h]

theorem names_update_self (o : Option Timer) :
    Names (Function.update heap id.timer o) id ↔ o.map Timer.sequence = some id.sequence := by
  rw [Names, Function.update_self]

end Numbers

end DbdkyGcc.Timers
