/-! Counters of 32 bits. After the last value there is none: counting on overflows, and whoever
counts panics. -/
namespace ModelTemplates.Counter

/-- The greatest value there is. -/
def last : UInt32 := 4294967295

/-- The value after one, if there is one. -/
def next? (n : UInt32) : Option UInt32 := if n = last then none else some (n + 1)

variable {n m : UInt32}

@[simp] theorem next?_eq_none : next? n = none ↔ n = last := by
  simp [next?]

theorem ne_last : n ≠ last ↔ n.toNat + 1 < UInt32.size := by
  have hbound : n.toNat < 2 ^ 32 := n.toNat_lt
  rw [Ne, ← UInt32.toNat_inj]
  change ¬ n.toNat = 4294967295 ↔ n.toNat + 1 < 4294967296
  omega

theorem toNat_succ (h : n.toNat + 1 < UInt32.size) : (n + 1).toNat = n.toNat + 1 := by
  have hsize : n.toNat + 1 < 2 ^ 32 := h
  rw [UInt32.toNat_add, UInt32.toNat_one, Nat.mod_eq_of_lt hsize]

theorem next?_of_lt (h : n.toNat + 1 < UInt32.size) : next? n = some (n + 1) :=
  if_neg (ne_last.mpr h)

/-- The value after one is the sum, where that fits. -/
theorem next?_eq_some : next? n = some m ↔ m.toNat = n.toNat + 1 := by
  constructor
  · intro h
    have hne : n ≠ last := fun e => by simp [next?_eq_none.mpr e] at h
    rw [next?_of_lt (ne_last.mp hne), Option.some.injEq] at h
    rw [← h, toNat_succ (ne_last.mp hne)]
  · intro h
    have hfits : n.toNat + 1 < UInt32.size := h ▸ m.toNat_lt
    rw [next?_of_lt hfits, Option.some.injEq, ← UInt32.toNat_inj, h, toNat_succ hfits]

end ModelTemplates.Counter
