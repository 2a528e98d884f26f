import Mathlib.Algebra.Group.Nat.Defs
import Mathlib.Data.List.Induction
import Mathlib.Data.List.TakeWhile
import ModelTemplates.Proofs.Data.Decoded
import ModelTemplates.Timestamp
/-! Moments read back from their texts. -/
namespace ModelTemplates.Timestamp

variable {t : Timestamp} {c : Char} {cs ds rest : List Char} {n : Nat} {year : Int}
  {month day hour minute second nano : Nat}

def Regular (t : Timestamp) : Prop := t.nano < 1000000000 ∨ t.second = 59

instance (t : Timestamp) : Decidable t.Regular := by
  unfold Regular; infer_instance

theorem isDigit_of_mem_pad {width : Nat} (h : c ∈ pad width n) : isDigit c = true := by
  rw [pad, List.mem_append] at h
  rcases h with h | h
  · rw [List.eq_of_mem_replicate h]
    rfl
  · have hdigit : c.isDigit = true := Nat.isDigit_of_mem_toDigits (by decide) (by decide) h
    simpa [isDigit, Char.isDigit, Char.le_def] using hdigit

theorem natOfDigits_pad (width n : Nat) : natOfDigits (pad width n) = n := by
  have hzeros : natOfDigits (List.replicate (width - (Nat.toDigits 10 n).length) '0') = 0 := by
    generalize width - (Nat.toDigits 10 n).length = i
    induction i with
    | zero => rfl
    | succ i ih => exact ih
  rw [pad, natOfDigits, List.foldl_append, ← natOfDigits, hzeros]
  exact Nat.ofDigitChars_ten_toDigits

theorem length_pad {width : Nat} (hw : 0 < width) (hn : n < 10 ^ width) :
    (pad width n).length = width := by
  have hle := (Nat.length_toDigits_le_iff (by decide : 1 < 10) hw).mpr hn
  rw [pad, List.length_append, List.length_replicate]
  omega

theorem pad_ne_nil (width n : Nat) : pad width n ≠ [] := by
  simp [pad, Nat.toDigits_ne_nil]

def Stops (cs : List Char) : Prop := ∀ c ∈ cs.head?, isDigit c = false

theorem takeWhile_digits (hd : ∀ c ∈ ds, isDigit c = true) (hr : Stops rest) :
    (ds ++ rest).takeWhile isDigit = ds := by
  rw [List.takeWhile_append_of_pos hd]
  cases rest with
  | nil => simp
  | cons c rest => rw [List.takeWhile_cons_of_neg (by simp [hr c rfl]), List.append_nil]

theorem Stops.take (hr : Stops rest) (i : Nat) : Stops (rest.take i) := by
  intro c hc
  rw [List.head?_take] at hc
  split at hc
  · contradiction
  · exact hr c hc

theorem digits_append {most : Option Nat} (hd : ∀ c ∈ ds, isDigit c = true) (hne : ds ≠ [])
    (hb : natOfDigits ds < 2 ^ 63) (hm : ∀ m ∈ most, ds.length ≤ m) (hr : Stops rest) :
    digits most (ds ++ rest) = .ok (ds, rest) := by
  have hempty : ds.isEmpty = false := List.isEmpty_eq_false_iff.mpr hne
  have hbound : ¬ natOfDigits ds ≥ Nat.pow 2 63 := Nat.not_le.mpr hb
  cases most with
  | none => simp [digits, takeWhile_digits hd hr, hempty, hbound]
  | some m =>
    have hrun : ((ds ++ rest).take m).takeWhile isDigit = ds := by
      rw [List.take_append, List.take_of_length_le (hm m rfl)]
      exact takeWhile_digits hd (hr.take _)
    simp [digits, hrun, hempty, hbound]

theorem not_isBlank_of_isDigit (h : isDigit c = true) : Text.isBlank c = false := by
  have hbounds : 48 ≤ c.toNat ∧ c.toNat ≤ 57 := by
    simpa [isDigit, Char.le_def, UInt32.le_iff_toNat_le] using h
  simp only [Text.isBlank, Bool.or_eq_false_iff, Bool.and_eq_false_iff, decide_eq_false_iff_not,
    beq_eq_false_iff_ne]
  omega

theorem trimLeft_cons (h : Text.isBlank c = false) : Text.trimLeft (c :: cs) = c :: cs :=
  List.dropWhile_cons_of_neg (by simp [h])

theorem trimLeft_digits (hd : ∀ c ∈ ds, isDigit c = true) (hne : ds ≠ []) :
    Text.trimLeft (ds ++ rest) = ds ++ rest := by
  obtain ⟨c, cs, rfl⟩ := List.exists_cons_of_ne_nil hne
  exact trimLeft_cons (not_isBlank_of_isDigit (hd c List.mem_cons_self))

theorem stops_cons (h : isDigit c = false) : Stops (c :: cs) := by
  intro d hd
  rwa [← Option.some.inj hd]

theorem field_pad {low high : Nat} (hlow : low ≤ n) (hhigh : n ≤ high) (hn : n < 100)
    (hr : Stops rest) :
    field low high (pad 2 n ++ rest) = .ok (n, rest) := by
  have hd : ∀ c ∈ pad 2 n, isDigit c = true := fun c => isDigit_of_mem_pad
  have hread : digits (some 2) (pad 2 n ++ rest) = .ok (pad 2 n, rest) := by
    refine digits_append hd (pad_ne_nil 2 n) ?_ ?_ hr
    · rw [natOfDigits_pad]
      omega
    · rintro _ ⟨⟩
      exact Nat.le_of_eq (length_pad (by decide) hn)
  rw [field, trimLeft_digits hd (pad_ne_nil 2 n), hread]
  change (if low ≤ natOfDigits (pad 2 n) ∧ natOfDigits (pad 2 n) ≤ high then
    Except.ok (natOfDigits (pad 2 n), rest) else .error TimeError.outOfRange) = _
  rw [natOfDigits_pad, if_pos ⟨hlow, hhigh⟩]

theorem separator_cons (h : Text.isBlank c = false) : separator c (c :: cs) = .ok cs := by
  rw [separator, trimLeft_cons h, literal, if_pos rfl]

theorem digits_year {most : Option Nat} (negative : Bool) (hn : n < 2 ^ 31)
    (hm : ∀ m ∈ most, (pad 4 n).length ≤ m) (hr : Stops rest) :
    (do
      let (run, rest) ← digits most (pad 4 n ++ rest)
      let n := natOfDigits run
      if n ≥ Nat.pow 2 31 then .error .outOfRange
      else .ok (if negative then -(n : Int) else n, rest)) =
    Except.ok (if negative then -(n : Int) else n, rest) := by
  have hb : natOfDigits (pad 4 n) < 2 ^ 63 := by
    rw [natOfDigits_pad]
    omega
  rw [digits_append (fun c => isDigit_of_mem_pad) (pad_ne_nil 4 n) hb hm hr]
  change (if natOfDigits (pad 4 n) ≥ 2 ^ 31 then Except.error TimeError.outOfRange
    else .ok (if negative then -(natOfDigits (pad 4 n) : Int) else natOfDigits (pad 4 n), rest)) = _
  rw [natOfDigits_pad, if_neg (Nat.not_le.mpr hn)]

theorem yearField_yearText {year : Int} (hy : year.natAbs < 2 ^ 31) (hr : Stops rest) :
    yearField (yearText year ++ rest) = .ok (year, rest) := by
  have hnonneg (h : 0 ≤ year) :
      (if false = true then -(year.natAbs : Int) else year.natAbs) = year :=
    Int.natAbs_of_nonneg h
  have hneg (h : year < 0) :
      (if true = true then -(year.natAbs : Int) else year.natAbs) = year := by
    rw [if_pos rfl, Int.ofNat_natAbs_of_nonpos (Int.le_of_lt h), Int.neg_neg]
  have hany : ∀ m ∈ (none : Option Nat), (pad 4 year.natAbs).length ≤ m := by rintro _ ⟨⟩
  rw [yearText]
  split
  · next hplain =>
    obtain ⟨c, cs, hcs⟩ := List.exists_cons_of_ne_nil (pad_ne_nil 4 year.natAbs)
    have hc : isDigit c = true := isDigit_of_mem_pad (hcs ▸ List.mem_cons_self)
    have hlength : (pad 4 year.natAbs).length = 4 := length_pad (by decide) (by omega)
    rw [yearField, trimLeft_digits (fun c => isDigit_of_mem_pad) (pad_ne_nil 4 _)]
    split
    next heq =>
    -- A digit is neither of the signs.
    rw [hcs, List.cons_append] at heq
    split at heq
    · next h => exact absurd hc (by rw [(List.cons.inj h).1]; decide)
    · next h => exact absurd hc (by rw [(List.cons.inj h).1]; decide)
    · obtain ⟨rfl, rfl, rfl⟩ := heq
      rw [← List.cons_append, ← hcs,
        digits_year false hy (by rintro _ ⟨⟩; exact Nat.le_of_eq hlength) hr, hnonneg hplain.1]
  · split
    · next h =>
      rw [List.cons_append, yearField, trimLeft_cons (by decide)]
      exact (digits_year true hy hany hr).trans (by rw [hneg h])
    · next h =>
      rw [List.cons_append, yearField, trimLeft_cons (by decide)]
      exact (digits_year false hy hany hr).trans (by rw [hnonneg (Int.not_lt.mp h)])

theorem stops_zone : Stops ['Z'] := stops_cons rfl

/-- A fraction is left out, or is a point and as many digits as make it exact. -/
theorem fractionText_cases (h : nano < 1000000000) :
    (nano = 0 ∧ fractionText nano = []) ∨
      ∃ width n, fractionText nano = '.' :: pad width n ∧ 0 < width ∧ width ≤ 9 ∧ n < 10 ^ width ∧
        n * 10 ^ (9 - width) = nano := by
  rw [fractionText]
  split
  · next h0 => exact .inl ⟨h0, rfl⟩
  split
  · exact .inr ⟨3, _, rfl, by decide, by decide, by omega, by omega⟩
  split
  · exact .inr ⟨6, _, rfl, by decide, by decide, by omega, by omega⟩
  · exact .inr ⟨9, _, rfl, by decide, by decide, by omega, by omega⟩

theorem stops_fractionText (h : nano < 1000000000) : Stops (fractionText nano ++ ['Z']) := by
  rcases fractionText_cases h with ⟨-, hf⟩ | ⟨width, n, hf, -⟩
  · rw [hf]
    exact stops_zone
  · rw [hf]
    exact stops_cons rfl

theorem fraction_fractionText (h : nano < 1000000000) :
    fraction (fractionText nano ++ ['Z']) = .ok (nano, ['Z']) := by
  rcases fractionText_cases h with ⟨rfl, hf⟩ | ⟨width, n, hf, hw, h9, hn, hnano⟩
  · rw [hf]
    rfl
  · have hlength := length_pad hw hn
    have hb : natOfDigits (pad width n) < 2 ^ 63 := by
      have hle : 10 ^ width ≤ 10 ^ 9 := Nat.pow_le_pow_right (by decide) h9
      rw [natOfDigits_pad]
      omega
    have hread : digits (some 9) (pad width n ++ ['Z']) = .ok (pad width n, ['Z']) :=
      digits_append (fun c => isDigit_of_mem_pad) (pad_ne_nil width n) hb
        (by rintro _ ⟨⟩; omega) stops_zone
    rw [hf, List.cons_append, fraction, hread, ok_bind]
    change Except.ok (natOfDigits (pad width n) * 10 ^ (9 - (pad width n).length), ['Z']) = _
    rw [natOfDigits_pad, hlength, hnano]

theorem ofFields?_of_valid (h : Calendar.Valid year month day hour minute second nano) :
    ofFields? year month day hour minute second nano = some ⟨year, month, day, hour, minute,
      second, nano, h⟩ :=
  dif_pos h

theorem ofLocal_utc (h : Calendar.Valid year month day hour minute second nano) :
    ofLocal year month day hour minute second nano 0 = .ok ⟨year, month, day, hour, minute, second,
      nano, h⟩ := by
  have hclock := h.2.2.2
  have hminutes : ((hour : Int) * 60 + minute - 0) % 1440 = (hour * 60 + minute : Nat) := by omega
  have hhour : (hour * 60 + minute) / 60 = hour := by omega
  have hminute : (hour * 60 + minute) % 60 = minute := by omega
  have hbefore : ¬ (hour : Int) * 60 + minute - 0 < 0 := by omega
  have hafter : ¬ (hour : Int) * 60 + minute - 0 ≥ 1440 := by omega
  simp only [ofLocal, ofFields?_of_valid h, hbefore, hafter, hminutes, if_false, Int.toNat_natCast,
    hhour, hminute]
  rfl

/-- A text in the form in which moments are written is read part by part. -/
theorem ofChars_written (hyear : year.natAbs < 2 ^ 31) (hmonth : 1 ≤ month ∧ month ≤ 12)
    (hday : 1 ≤ day ∧ day ≤ 31) (hhour : hour ≤ 23) (hminute : minute ≤ 59) (hsecond : second ≤ 60)
    (hnano : nano < 1000000000) :
    ofChars (yearText year ++ '-' :: pad 2 month ++ '-' :: pad 2 day ++ 'T' :: pad 2 hour ++
      ':' :: pad 2 minute ++ ':' :: pad 2 second ++ fractionText nano ++ ['Z']) =
    if second = 60 then ofLocal year month day hour minute 59 (nano + 1000000000) 0
    else ofLocal year month day hour minute second nano 0 := by
  have hyears {cs : List Char} := yearField_yearText hyear (stops_cons rfl : Stops ('-' :: cs))
  have hmonths {cs : List Char} :=
    field_pad hmonth.1 hmonth.2 (by omega) (stops_cons rfl : Stops ('-' :: cs))
  have hdays {cs : List Char} :=
    field_pad hday.1 hday.2 (by omega) (stops_cons rfl : Stops ('T' :: cs))
  have hhours {cs : List Char} :=
    field_pad (Nat.zero_le hour) hhour (by omega) (stops_cons rfl : Stops (':' :: cs))
  have hminutes {cs : List Char} :=
    field_pad (Nat.zero_le minute) hminute (by omega) (stops_cons rfl : Stops (':' :: cs))
  have hseconds := field_pad (Nat.zero_le second) hsecond (by omega) (stops_fractionText hnano)
  have hdash {cs : List Char} : separator '-' ('-' :: cs) = .ok cs := separator_cons rfl
  have hcolon {cs : List Char} : separator ':' (':' :: cs) = .ok cs := separator_cons rfl
  simp only [List.append_assoc, List.cons_append, ofChars, ok_bind, hyears, hmonths, hdays, hhours,
    hminutes, hseconds, hdash, hcolon, fraction_fractionText hnano]
  rfl

theorem daysIn_le (year : Int) (month : Nat) : Calendar.daysIn year month ≤ 31 := by
  rw [Calendar.daysIn]
  split
  · split <;> decide
  · split <;> decide

theorem ofChars_chars (h : t.Regular) : ofChars t.chars = .ok t := by
  obtain ⟨year, month, day, hour, minute, second, nano, hvalid⟩ := t
  obtain ⟨hyear, hmonth, hday, hhour, hminute, hsecond, hnano⟩ := id hvalid
  have hyears : year.natAbs < 2 ^ 31 := by
    unfold Calendar.firstYear Calendar.lastYear at hyear
    omega
  have hdays : 1 ≤ day ∧ day ≤ 31 := ⟨hday.1, Nat.le_trans hday.2 (daysIn_le year month)⟩
  by_cases hleap : 1000000000 ≤ nano
  · obtain rfl : second = 59 := h.resolve_left (Nat.not_lt.mpr hleap)
    have hkept : nano - 1000000000 + 1000000000 = nano := Nat.sub_add_cancel hleap
    simp only [chars, ge_iff_le, if_pos hleap]
    rw [ofChars_written hyears hmonth hdays hhour hminute (by decide) (by omega), if_pos rfl]
    rw [hkept]
    exact ofLocal_utc hvalid
  · simp only [chars, ge_iff_le, if_neg hleap]
    rw [ofChars_written hyears hmonth hdays hhour hminute (by omega) (by omega), if_neg (by omega),
      ofLocal_utc hvalid]

theorem ofText_text (h : t.Regular) : ofText t.text = .ok t := by
  rw [ofText, text, String.toList_ofList, ofChars_chars h]

theorem ofLocal_eq_ok {east : Int}
    (h : ofLocal year month day hour minute second nano east = .ok t) :
    t.second = second ∧ t.nano = nano := by
  have made {y : Int} {m d h i s n : Nat} (h : ofFields? y m d h i s n = some t) :
      t.second = s ∧ t.nano = n := by
    rw [ofFields?] at h
    split at h
    · obtain rfl := Option.some.inj h
      exact ⟨rfl, rfl⟩
    · contradiction
  rw [ofLocal] at h
  split at h
  · contradiction
  split at h
  · contradiction
  dsimp only at h
  split at h
  · next hmade =>
    obtain rfl := Except.ok.inj h
    exact made hmade
  · contradiction

theorem natOfDigits_lt (hd : ∀ c ∈ ds, isDigit c = true) : natOfDigits ds < 10 ^ ds.length := by
  induction ds using List.reverseRecOn with
  | nil => decide
  | append_singleton ds c ih =>
    have hc : c.toNat ≤ 57 := by
      have hdigit := hd c (List.mem_append_right _ (List.mem_singleton_self c))
      simp only [isDigit, Char.le_def, UInt32.le_iff_toNat_le, Bool.and_eq_true,
        decide_eq_true_eq] at hdigit
      exact hdigit.2
    have hds := ih fun d hmem => hd d (List.mem_append_left _ hmem)
    have hlast : natOfDigits (ds ++ [c]) = 10 * natOfDigits ds + (c.toNat - 48) := by
      rw [natOfDigits, List.foldl_append, ← natOfDigits, List.foldl_cons, List.foldl_nil]
    rw [hlast, List.length_append, List.length_singleton, Nat.pow_succ]
    omega

theorem digits_eq_ok {m : Nat} (h : digits (some m) cs = .ok (ds, rest)) :
    (∀ c ∈ ds, isDigit c = true) ∧ ds.length ≤ m := by
  rw [digits] at h
  split at h
  · contradiction
  split at h
  · contradiction
  obtain ⟨rfl, -⟩ := Prod.mk.inj (Except.ok.inj h)
  refine ⟨fun c hc => List.mem_takeWhile_imp hc, ?_⟩
  exact Nat.le_trans (List.takeWhile_sublist _).length_le (List.length_take_le m cs)

theorem fraction_lt (h : fraction cs = .ok (nano, rest)) : nano < 1000000000 := by
  rw [fraction.eq_def] at h
  split at h
  · obtain ⟨⟨ds, more⟩, hdigits, hds⟩ := bind_eq_ok.mp h
    obtain ⟨hd, hlength⟩ := digits_eq_ok hdigits
    obtain ⟨rfl, -⟩ := Prod.mk.inj (Except.ok.inj hds)
    calc natOfDigits ds * 10 ^ (9 - ds.length)
        < 10 ^ ds.length * 10 ^ (9 - ds.length) :=
          Nat.mul_lt_mul_of_pos_right (natOfDigits_lt hd) (Nat.pow_pos (by decide))
      _ = 1000000000 := by rw [← Nat.pow_add, Nat.add_sub_cancel' hlength]
  · obtain ⟨rfl, -⟩ := Prod.mk.inj (Except.ok.inj h)
    decide

/-- Only the second that a text calls the sixtieth is read as a leap second. -/
theorem regular_of_ofText {s : String} (h : ofText s = .ok t) : t.Regular := by
  rw [ofText, ofChars] at h
  simp only [ok_bind, error_bind, bind_eq_ok, Prod.exists] at h
  obtain ⟨year, cs, -, cs, -, month, cs, -, cs, -, day, cs, -, h⟩ := h
  split at h
  · contradiction
  split at h
  · simp only [bind_eq_ok, Prod.exists] at h
    obtain ⟨hour, cs, -, cs, -, minute, cs, -, cs, -, second, cs, -, nano, cs, hfraction, h⟩ := h
    have hnano := fraction_lt hfraction
    have finish {more : Bool} {east : Int}
        (h : (if more = true then Except.error TimeError.tooLong
          else if second = 60 then ofLocal year month day hour minute 59 (nano + 1000000000) east
          else ofLocal year month day hour minute second nano east) = .ok t) : t.Regular := by
      split at h
      · contradiction
      split at h
      · exact .inr (ofLocal_eq_ok h).1
      · exact .inl ((ofLocal_eq_ok h).2 ▸ hnano)
    split at h
    · exact finish h
    · obtain ⟨_, -, h⟩ := bind_eq_ok.mp h
      exact finish h
  · contradiction

end ModelTemplates.Timestamp
