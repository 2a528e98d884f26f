import Mathlib.Algebra.Order.Group.Nat
import ModelTemplates.WorkQueue
/-! Waits between attempts, in exact numbers. A wait is the shortest one doubled once for every
failure after the first, or the longest one. Neither the number of doublings, which is counted in
words of 32 bits, nor the product with the shortest wait, which stops at the longest duration there
is, makes a difference to that. -/
namespace ModelTemplates

namespace Duration

theorem nanos_min (a b : Duration) : (min a b).nanos = min a.nanos b.nanos := by
  change (if a.nanos ≤ b.nanos then a else b).nanos = _
  split <;> omega

/-- A product cut off at the longest duration is not cut off below another duration. -/
theorem min_nanos_saturatingMul (a b : Duration) (n : Nat) :
    min (a.saturatingMul n).nanos b.nanos = min (a.nanos * n) b.nanos := by
  have hb := b.bounded
  change min (min (a.nanos * n) 18446744073709551615999999999) b.nanos = _
  omega

end Duration

namespace RetryPolicy

variable {p : RetryPolicy} {failures more : UInt32}

theorem toNat_min (a b : UInt32) : (min a b).toNat = min a.toNat b.toNat := by
  change (if a.toNat ≤ b.toNat then a else b).toNat = _
  split <;> omega

theorem toNat_doublings (failures : UInt32) :
    (doublings failures).toNat = min (failures.toNat - 1) 31 := by
  have hone : min failures 1 ≤ failures :=
    UInt32.le_iff_toNat_le.mpr (toNat_min failures 1 ▸ min_le_left _ _)
  rw [doublings, toNat_min, UInt32.toNat_sub_of_le _ _ hone, toNat_min]
  change min (failures.toNat - min failures.toNat 1) 31 = min (failures.toNat - 1) 31
  omega

theorem doublings_lt (failures : UInt32) : doublings failures < 32 := by
  rw [UInt32.lt_iff_toNat_lt, toNat_doublings]
  exact Nat.lt_succ_of_le (min_le_right _ _)

theorem toNat_shift_doublings (failures : UInt32) :
    ((1 : UInt32) <<< doublings failures).toNat = 2 ^ (doublings failures).toNat := by
  have hcounted : (doublings failures).toNat < 32 :=
    UInt32.lt_iff_toNat_lt.mp (doublings_lt failures)
  have hsmall : (2 : Nat) ^ (doublings failures).toNat < 2 ^ 32 :=
    Nat.pow_lt_pow_right (by decide) hcounted
  rw [UInt32.toNat_shiftLeft, Nat.mod_eq_of_lt hcounted, UInt32.toNat_one, Nat.one_shiftLeft,
    Nat.mod_eq_of_lt hsmall]

theorem nanos_delay (p : RetryPolicy) (failures : UInt32) :
    (p.delay failures).nanos =
      min (p.base.nanos * ((1 : UInt32) <<< doublings failures).toNat) p.max.nanos := by
  rw [delay, Duration.nanos_min, Duration.min_nanos_saturatingMul]

theorem nanos_delay_pow (p : RetryPolicy) (failures : UInt32) :
    (p.delay failures).nanos =
      min (p.base.nanos * 2 ^ min (failures.toNat - 1) 31) p.max.nanos := by
  rw [nanos_delay, toNat_shift_doublings, toNat_doublings]

theorem delay_le_max (p : RetryPolicy) (failures : UInt32) : p.delay failures ≤ p.max := by
  change (p.delay failures).nanos ≤ p.max.nanos
  rw [nanos_delay]
  exact min_le_right _ _

theorem delay_le_delay (p : RetryPolicy) (h : failures ≤ more) :
    p.delay failures ≤ p.delay more := by
  have hdoublings : min (failures.toNat - 1) 31 ≤ min (more.toNat - 1) 31 :=
    min_le_min_right _ (Nat.sub_le_sub_right (UInt32.le_iff_toNat_le.mp h) 1)
  change (p.delay failures).nanos ≤ (p.delay more).nanos
  rw [nanos_delay_pow, nanos_delay_pow]
  exact min_le_min_right _ (Nat.mul_le_mul_left _ (Nat.pow_le_pow_right (by decide) hdoublings))

/-- As long as every doubling is counted, or the counted ones make the wait the longest, the wait is
doubled with every failure. -/
theorem nanos_delay_of_counted (h : failures ≤ 32 ∨ p.max.nanos ≤ p.base.nanos * 2 ^ 31) :
    (p.delay failures).nanos = min (p.base.nanos * 2 ^ (failures.toNat - 1)) p.max.nanos := by
  rw [nanos_delay_pow]
  rcases Nat.le_total (failures.toNat - 1) 31 with hfew | hmany
  · rw [min_eq_left hfew]
  · rcases h with hfew | hlong
    · rw [min_eq_left (Nat.sub_le_iff_le_add.mpr (UInt32.le_iff_toNat_le.mp hfew))]
    · have hlonger : p.max.nanos ≤ p.base.nanos * 2 ^ (failures.toNat - 1) :=
        hlong.trans (Nat.mul_le_mul_left _ (Nat.pow_le_pow_right (by decide) hmany))
      rw [min_eq_right hmany, min_eq_right hlong, min_eq_right hlonger]

/-- A wait is never longer than the longest one and never shorter than one after fewer failures. It
is the shortest one, multiplied by a power of two that was shifted within a word, or the longest one
if that is shorter; the product need not fit a duration. It is doubled with every failure as long as
32 of them are counted, and for ever if the longest wait is within 31 doublings. -/
theorem delay_doubles (p : RetryPolicy) :
    (∀ failures, p.delay failures ≤ p.max) ∧
      (∀ failures more, failures ≤ more → p.delay failures ≤ p.delay more) ∧
      (∀ failures, doublings failures < 32 ∧
        ((1 : UInt32) <<< doublings failures).toNat = 2 ^ (doublings failures).toNat ∧
        (p.delay failures).nanos =
        min (p.base.nanos * ((1 : UInt32) <<< doublings failures).toNat) p.max.nanos) ∧
      ∀ failures, 1 ≤ failures → failures ≤ 32 ∨ p.max.nanos ≤ p.base.nanos * 2 ^ 31 →
        (p.delay failures).nanos = min (p.base.nanos * 2 ^ (failures.toNat - 1)) p.max.nanos := by
  refine ⟨p.delay_le_max, fun _ _ => p.delay_le_delay, fun failures => ?_,
    fun _ _ => nanos_delay_of_counted⟩
  exact ⟨doublings_lt failures, toNat_shift_doublings failures, p.nanos_delay failures⟩

/-- The waits of the standard policy are doubled from five milliseconds on to the minute that is
reached with the fifteenth failure, and stay there. -/
theorem delay_doubles_standard :
    (∀ failures, 1 ≤ failures →
      (standard.delay failures).nanos = min (5000000 * 2 ^ (failures.toNat - 1)) 60000000000) ∧
      (standard.delay 14).nanos = 40960000000 ∧ (standard.delay 15).nanos = 60000000000 ∧
      standard.delay 15 ≤ standard.delay 4294967295 := by
  obtain ⟨-, hmono, -, hdoubles⟩ := standard.delay_doubles
  exact ⟨fun failures hone => hdoubles failures hone (.inr (by decide)), by decide, by decide,
    hmono 15 4294967295 (by decide)⟩

end RetryPolicy

end ModelTemplates
