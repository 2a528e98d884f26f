import ModelTemplates.Channel
/-! What a receiver has still to read, or may have missed. -/
namespace ModelTemplates.Channel

variable {α : Type} {c : Channel α} {p q : Nat} {P : α → Prop} {x : α}

def Unread (c : Channel α) (position : Nat) (P : α → Prop) : Prop :=
  position < c.oldest ∨ ∃ x ∈ c.kept.take (c.sent - position), P x

/-- A channel has sent what it keeps, and a receiver has read no more than what was sent. -/
structure Followed (c : Channel α) (position : Nat) : Prop where
  kept : c.kept.length ≤ c.sent
  position : position ≤ c.sent

theorem followed_subscribe (h : c.kept.length ≤ c.sent) : c.Followed c.subscribe :=
  ⟨h, Nat.le_refl _⟩

theorem length_send (c : Channel α) (x : α) :
    (c.send x).kept.length = min c.capacity (c.kept.length + 1) := by
  simp [send]

@[simp] theorem sent_send (c : Channel α) (x : α) : (c.send x).sent = c.sent + 1 := rfl

theorem oldest_send (c : Channel α) (x : α) :
    (c.send x).oldest = c.sent + 1 - min c.capacity (c.kept.length + 1) := by
  rw [oldest, length_send, sent_send]

theorem kept_send (h : c.kept.length ≤ c.sent) (x : α) :
    (c.send x).kept.length ≤ (c.send x).sent := by
  rw [length_send]
  exact Nat.le_trans (Nat.min_le_right _ _) (Nat.add_le_add_right h 1)

theorem Followed.send (h : c.Followed p) (x : α) : (c.send x).Followed p :=
  ⟨kept_send h.kept x, Nat.le_succ_of_le h.position⟩

theorem unread_send (h : c.Followed p) (hx : P x) : (c.send x).Unread p P := by
  have hp := h.position
  by_cases hc : c.capacity = 0
  · left
    rw [oldest_send, hc]
    omega
  · right
    refine ⟨x, ?_, hx⟩
    obtain ⟨n, hn⟩ : ∃ n, c.sent + 1 - p = n + 1 := ⟨c.sent - p, by omega⟩
    obtain ⟨m, hm⟩ : ∃ m, c.capacity = m + 1 := ⟨c.capacity - 1, by omega⟩
    simp [send, hn, hm]

theorem Unread.send (h : c.Unread p P) (hf : c.Followed p) (x : α) : (c.send x).Unread p P := by
  have hk := hf.kept
  rcases h with h | ⟨y, hy, hP⟩
  · left
    rw [oldest_send]
    simp only [oldest] at h
    omega
  · obtain ⟨i, hi, rfl⟩ := List.getElem_of_mem hy
    rw [List.length_take] at hi
    -- The item moves one place down, and is dropped only from the end.
    by_cases hc : i + 1 < c.capacity
    · right
      refine ⟨_, List.mem_iff_getElem.mpr ⟨i + 1, ?_, ?_⟩, hP⟩
      · rw [List.length_take, length_send, sent_send]
        omega
      · simp [Channel.send]
    · left
      rw [oldest_send]
      omega

theorem receive_item (h : c.receive p = (.item x, q)) (hf : c.Followed p) :
    c.Followed q ∧ ∀ {P : α → Prop}, c.Unread p P → P x ∨ c.Unread q P := by
  have hk := hf.kept
  simp only [receive] at h
  split at h
  · simp at h
  next hp =>
    split at h
    · next y hy =>
      obtain ⟨rfl, rfl⟩ : y = x ∧ p + 1 = q := by simpa using h
      obtain ⟨hlt, hy⟩ := List.getElem?_eq_some_iff.mp hy
      rw [List.length_reverse] at hlt
      rw [List.getElem_reverse] at hy
      simp only [oldest] at hp hlt hy
      refine ⟨⟨hk, by omega⟩, fun {P} hu => ?_⟩
      rcases hu with hu | ⟨z, hz, hP⟩
      · exact absurd hu hp
      · obtain ⟨i, hi, rfl⟩ := List.getElem_of_mem hz
        rw [List.length_take] at hi
        rw [List.getElem_take] at hP
        by_cases he : i = c.sent - p - 1
        · left
          rw [← hy]
          have : c.kept.length - 1 - (p - (c.sent - c.kept.length)) = i := by omega
          simpa only [this] using hP
        · right
          right
          refine ⟨c.kept[i], List.mem_iff_getElem.mpr ⟨i, ?_, ?_⟩, hP⟩
          · rw [List.length_take]
            omega
          · rw [List.getElem_take]
    · split at h <;> simp at h

theorem receive_lagged {missed : Nat} (h : c.receive p = (.lagged missed, q)) (hf : c.Followed p) :
    c.Followed q := by
  simp only [receive] at h
  split at h
  · obtain ⟨-, rfl⟩ : c.oldest - p = missed ∧ c.oldest = q := by simpa using h
    exact ⟨hf.kept, Nat.sub_le _ _⟩
  · split at h
    · simp at h
    · split at h <;> simp at h

theorem receive_item_next (h : c.receive p = (.item x, q)) : q = p + 1 := by
  unfold receive at h
  split at h
  · simp at h
  · split at h
    · exact (Prod.mk.inj h).2.symm
    · split at h <;> simp at h

theorem receive_lagged_lt {missed : Nat} (h : c.receive p = (.lagged missed, q)) : p < q := by
  unfold receive at h
  split at h
  · next hp => exact (Prod.mk.inj h).2 ▸ hp
  · split at h
    · simp at h
    · split at h <;> simp at h

theorem not_unread_of_drained (hd : c.sent - p = 0) (hf : c.Followed p) : ¬ c.Unread p P := by
  have hp := hf.position
  rintro (h | ⟨x, hx, -⟩)
  · simp only [oldest] at h
    omega
  · rw [hd, List.take_zero] at hx
    exact absurd hx List.not_mem_nil

end ModelTemplates.Channel
