import Mathlib.Tactic.Common
import ModelTemplates.Disk
import ModelTemplates.Proofs.Data.Decoded
/-! What is written to a file is what is read from it. Writing leaves every directory as it was, so
the path leads to the same place. -/
namespace ModelTemplates

namespace Disk

variable {d d' : Disk} {here place names : List String} {n : FileNode} {path text : String}

theorem lookup_put (h : here ≠ place) :
    (d.put place n).nodes.lookup here = d.nodes.lookup here := by
  have hother : (here == place) = false := by simpa using h
  have hrest : (d.nodes.filter fun e => e.1 ≠ place).lookup here = d.nodes.lookup here := by
    induction d.nodes with
    | nil => rfl
    | cons e es ih =>
      by_cases he : e.1 = place
      · have hskipped : (here == e.1) = false := by rw [he, hother]
        rw [List.filter_cons_of_neg (by simpa using he), ih, List.lookup_cons, hskipped]
      · rw [List.filter_cons_of_pos (by simpa using he), List.lookup_cons, List.lookup_cons, ih]
  rw [put, List.lookup_cons, hother]
  exact hrest

/-- A directory is still there when something has been put in a place where none was. -/
theorem node?_put_of_directory (hplace : d.node? place ≠ some .directory)
    (h : d.node? here = some .directory) :
    (d.put place n).node? here = some .directory := by
  have hne : here ≠ place := fun heq => hplace (heq ▸ h)
  rw [node?, lookup_put hne]
  exact h

theorem node?_put_self (hplace : d.node? place ≠ some .directory) :
    (d.put place n).node? place = some n := by
  have hbelow : ¬ (isAbove place ∨ place = ["/"]) := fun habove => hplace (if_pos habove)
  rw [node?, if_neg hbelow, put, List.lookup_cons, beq_self_eq_true]

/-- The way to a place goes through directories alone, which are still there. -/
theorem walk_put {target : List String} (hplace : d.node? place ≠ some .directory)
    (h : d.walk here names = .ok target) : (d.put place n).walk here names = .ok target := by
  induction names generalizing here with
  | nil => exact h
  | cons name names ih =>
    rw [walk] at h
    split at h
    · contradiction
    · contradiction
    · next hdirectory =>
      rw [walk, node?_put_of_directory hplace hdirectory]
      split at h
      · contradiction
      · next hshort =>
        simp only [hshort, if_false]
        exact ih h

theorem resolve_put {target : List String × Bool} (hplace : d.node? place ≠ some .directory)
    (h : d.resolve path = .ok target) : (d.put place n).resolve path = .ok target := by
  simp only [resolve] at h ⊢
  split_ifs at h ⊢
  all_goals
    obtain ⟨here, hwalk, hdone⟩ := bind_eq_ok.mp h
    rw [walk_put hplace hwalk]
    exact hdone

theorem write_eq_ok (h : d.write path text = .ok d') :
    ∃ here, d.resolve path = .ok (here, false) ∧ d.node? here ≠ some .directory ∧
      d' = d.put here (.file text.toUTF8) := by
  obtain ⟨⟨here, wantsDirectory⟩, hresolve, h⟩ := bind_eq_ok.mp h
  refine ⟨here, ?_⟩
  simp only at h
  split at h
  · contradiction
  · next hfile =>
    split at h
    · contradiction
    · next hplain =>
      obtain rfl := Bool.eq_false_iff.mpr hplain
      exact ⟨hresolve, by simp [hfile], (Except.ok.inj h).symm⟩
  · next hnone =>
    split at h
    · contradiction
    · contradiction
    · split at h
      · contradiction
      · next hplain =>
        obtain rfl := Bool.eq_false_iff.mpr hplain
        exact ⟨hresolve, by simp [hnone], (Except.ok.inj h).symm⟩

theorem fromUTF8?_toUTF8 (s : String) : String.fromUTF8? s.toUTF8 = some s := dif_pos s.isValidUTF8

theorem read_write (h : d.write path text = .ok d') : d'.read path = .ok text := by
  obtain ⟨here, hresolve, hplace, rfl⟩ := write_eq_ok h
  rw [read, find, resolve_put hplace hresolve, ok_bind]
  simp only [node?_put_self hplace, Bool.false_eq_true, if_false, ok_bind, fromUTF8?_toUTF8]

end Disk

end ModelTemplates
