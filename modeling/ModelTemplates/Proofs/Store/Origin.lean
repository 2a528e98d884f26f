import ModelTemplates.Proofs.Store.Fence
/-! Stores as they come to be, by operations upon an empty one: whatever such a store holds is
stored under its own key and has an identifier. -/
namespace ModelTemplates.Store

variable {σ τ : Type} {s : Store σ τ} {o : Object σ τ} {k : Key}

def Named (s : Store σ τ) : Prop := ∀ k o, s.get? k = some o → o.metadata.uid ≠ none

theorem Named.put (h : s.Named) (ho : o.metadata.uid ≠ none) : (s.put o).Named := by
  intro k p hk
  rcases get?_put_cases hk with ⟨-, rfl⟩ | ⟨-, hk⟩
  · exact ho
  · exact h k p hk

variable [DecidableEq σ]

/-- Identifiers are drawn by creation, and updates keep the one that is stored. -/
theorem Named.apply (h : s.Named) (op : Operation σ τ) : (s.apply op).2.Named := by
  cases op with
  | get k => exact h
  | list space selector => exact h
  | create o uid now =>
    simp only [Store.apply]
    cases hr : s.create o uid now with
    | error e => exact h
    | ok r =>
      obtain ⟨p, t⟩ := r
      obtain ⟨-, -, rfl⟩ := create_eq_ok.mp hr
      exact h.put (Option.some_ne_none uid)
  | update o =>
    simp only [Store.apply]
    cases hr : s.update o with
    | error e => exact h
    | ok r =>
      obtain ⟨p, t⟩ := r
      obtain ⟨c, hf, -, rfl⟩ := update_eq_ok.mp hr
      exact h.put (h _ c (fenced_eq_ok.mp hf).1)
  | updateStatus o =>
    simp only [Store.apply]
    cases hr : s.updateStatus o with
    | error e => exact h
    | ok r =>
      obtain ⟨p, t⟩ := r
      obtain ⟨c, hf, -, rfl⟩ := updateStatus_eq_ok.mp hr
      exact h.put (h _ c (fenced_eq_ok.mp hf).1)
  | delete k now =>
    simp only [Store.apply, delete]
    cases s.get? k with
    | none => exact h
    | some c =>
      intro j p hj
      have hfound := hj
      change (s.objects.erase k).find? j = some p at hfound
      rw [Table.find?_erase] at hfound
      split at hfound
      · contradiction
      · exact h j p hfound

theorem Named.after (h : s.Named) (ops : List (Operation σ τ)) : (s.after ops).Named := by
  induction ops generalizing s with
  | nil => exact h
  | cons op ops ih => exact ih (h.apply op)

/-- The store has come to be by operations upon an empty one. -/
def Made (s : Store σ τ) : Prop :=
  ∃ kind capacity d ops, make? kind capacity = some d ∧ s = d.after ops

namespace Made

theorem keyed (h : s.Made) : s.Keyed := by
  obtain ⟨kind, capacity, d, ops, hd, rfl⟩ := h
  exact (Chronicle.make? hd).keyed.after ops

theorem named (h : s.Made) : s.Named := by
  obtain ⟨kind, capacity, d, ops, hd, rfl⟩ := h
  have hempty : d.Named := fun k o hk => absurd ((Chronicle.make? hd).held hk) List.not_mem_nil
  exact hempty.after ops

end Made

end ModelTemplates.Store
