import Mathlib.Algebra.Group.Nat.Defs
import ModelTemplates.Uid
/-! Identifiers read back from their texts. -/
namespace ModelTemplates.Uid

variable {n : Nat} {a b c d e : List Char}

theorem hexValue?_hexDigit : ∀ d < 16, hexValue? (hexDigit d) = some d := by decide

theorem length_hexDigits (count n : Nat) : (hexDigits count n).length = count := by
  induction count generalizing n with
  | zero => rfl
  | succ count ih => rw [hexDigits, List.length_append, ih, List.length_singleton]

theorem ofHex?_concat (cs : List Char) (c : Char) :
    ofHex? (cs ++ [c]) = (ofHex? cs).bind fun n => (hexValue? c).map (16 * n + ·) := by
  simp [ofHex?, List.foldlM_append, bind, pure]

theorem ofHex?_hexDigits (count n : Nat) : ofHex? (hexDigits count n) = some (n % 16 ^ count) := by
  induction count generalizing n with
  | zero => simp [hexDigits, ofHex?, Nat.mod_one, pure]
  | succ count ih =>
    have hmod : 16 * (n / 16 % 16 ^ count) + n % 16 = n % 16 ^ (count + 1) := by
      rw [Nat.pow_succ', Nat.mod_mul, Nat.add_comm]
    rw [hexDigits, ofHex?_concat, ih, Option.bind_some,
      hexValue?_hexDigit _ (Nat.mod_lt n (by decide)), Option.map_some, hmod]

theorem not_mem_hexDigits {c : Char} (hc : ∀ d < 16, hexDigit d ≠ c) (count n : Nat) :
    c ∉ hexDigits count n := by
  induction count generalizing n with
  | zero => exact List.not_mem_nil
  | succ count ih =>
    rw [hexDigits, List.mem_append, List.mem_singleton, not_or]
    exact ⟨ih _, (hc _ (Nat.mod_lt n (by decide))).symm⟩

theorem ofHyphenated?_groups (ha : a.length = 8) (hb : b.length = 4) (hc : c.length = 4)
    (hd : d.length = 4) (he : e.length = 12) :
    ofHyphenated? (a ++ '-' :: (b ++ '-' :: (c ++ '-' :: (d ++ '-' :: e)))) =
      (ofHex? (a ++ b ++ c ++ d ++ e)).map fun n => ⟨BitVec.ofNat 128 n⟩ := by
  have past {cs : List Char} {m i : Nat} (h : cs.length = m) (hi : m ≤ i) : cs.drop i = [] :=
    List.drop_of_length_le (h ▸ hi)
  simp [ofHyphenated?, List.drop_append, ha, hb, hc, hd, he, past ha, past hb, past hc, past hd]

theorem ofHyphenated?_hyphenate {cs : List Char} (h : cs.length = 32) :
    ofHyphenated? (hyphenate cs) = (ofHex? cs).map fun n => ⟨BitVec.ofNat 128 n⟩ := by
  have hcs : cs.take 8 ++ (cs.drop 8).take 4 ++ (cs.drop 12).take 4 ++ (cs.drop 16).take 4 ++
    cs.drop 20 = cs := by
    simp only [← List.take_add, Nat.reduceAdd]
    exact List.take_append_drop 20 cs
  rw [hyphenate, ofHyphenated?_groups (by simp [h]) (by simp [h]) (by simp [h]) (by simp [h])
    (by simp [h]), hcs]

/-- Without a brace and without the first letter of the scheme nothing is unwrapped. -/
theorem unwrap_of_bare {c : Char} {cs : List Char} (hbrace : c ≠ '{') (hurn : c ≠ 'u') :
    unwrap (c :: cs) = (c :: cs, 0, true) := by
  have hscheme : urnPrefix.isPrefixOf (c :: cs) = false := by
    have hhead : urnPrefix = 'u' :: "rn:uuid:".toList := by decide
    rw [hhead, List.isPrefixOf_cons_cons, beq_false_of_ne hurn.symm, Bool.false_and]
  unfold unwrap
  split
  · next heq _ => exact absurd (List.cons.inj heq).1 hbrace
  · rw [hscheme]
    rfl

theorem ofText_text (u : Uid) : ofText u.text = .ok u := by
  have hlength := length_hexDigits 32 u.bits.toNat
  have hlong : (hyphenate (hexDigits 32 u.bits.toNat)).length = 36 := by
    simp [hyphenate, hlength]
  have hbare :
      unwrap (hyphenate (hexDigits 32 u.bits.toNat)) = (hyphenate (hexDigits 32 u.bits.toNat),
        0, true) := by
    obtain ⟨c, cs, hcs⟩ := List.exists_cons_of_length_eq_add_one hlength
    have hmem : c ∈ hexDigits 32 u.bits.toNat := hcs ▸ List.mem_cons_self
    rw [hcs]
    refine unwrap_of_bare ?_ ?_
    · rintro rfl
      exact not_mem_hexDigits (by decide) _ _ hmem
    · rintro rfl
      exact not_mem_hexDigits (by decide) _ _ hmem
  have hbits : u.bits.toNat % 16 ^ 32 = u.bits.toNat := Nat.mod_eq_of_lt u.bits.isLt
  rw [ofText, text, String.toList_ofList]
  simp only [hlong, hbare, ofHyphenated?_hyphenate hlength, ofHex?_hexDigits, hbits]
  simp

end ModelTemplates.Uid
