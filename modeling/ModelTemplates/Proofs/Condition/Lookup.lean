import ModelTemplates.Condition
/-! What a list of conditions says of each condition after one of them was recorded. -/
namespace ModelTemplates
namespace Conditions

theorem get?_modify {cs : Conditions} {name other : Condition.Name} {f : Condition → Condition}
    (hf : ∀ c, (f c).name = c.name) :
    get? (modify cs name f) other = if other = name then (get? cs other).map f
      else get? cs other := by
  induction cs with
  | nil => simp [modify, get?]
  | cons c cs ih =>
    unfold get? at ih ⊢
    by_cases hc : c.name = name
    · by_cases ho : c.name = other
      · have : other = name := ho.symm.trans hc
        simp [modify, hc, hf, this]
      · have : other ≠ name := fun h => ho (hc.trans h.symm)
        simp only [modify, hc, if_true, this, if_false]
        rw [List.find?_cons_of_neg (by simp [hf, ho]), List.find?_cons_of_neg (by simp [ho])]
    · simp only [modify, hc, if_false]
      by_cases ho : c.name = other
      · have : other ≠ name := fun h => hc (ho.trans h)
        simp [ho, this]
      · rw [List.find?_cons_of_neg (by simp [ho]), List.find?_cons_of_neg (by simp [ho]), ih]

theorem get?_append_singleton (cs : Conditions) (c : Condition) (name : Condition.Name) :
    get? (cs ++ [c]) name = (get? cs name).or (if c.name = name then some c else none) := by
  unfold get?
  rw [List.find?_append]
  congr 1
  by_cases h : c.name = name <;> simp [h]

theorem get?_set_of_ne {cs : Conditions} {name other : Condition.Name} (h : other ≠ name)
    (truth : Bool) (reason message : String) (now : Timestamp) :
    get? (set cs name truth reason message now) other = get? cs other := by
  unfold set
  split
  · rw [get?_append_singleton, if_neg (fun e => h e.symm), Option.or_none]
  · split
    · rfl
    · rw [get?_modify, if_neg h]
      exact fun _ => rfl

theorem get?_set_truth (cs : Conditions) (name : Condition.Name) (truth : Bool)
    (reason message : String) (now : Timestamp) :
    ∃ c, get? (set cs name truth reason message now) name = some c ∧ c.truth = .ofBool truth := by
  unfold set
  split
  · next hn => exact ⟨_, by rw [get?_append_singleton, hn, if_pos rfl]; rfl, rfl⟩
  · next c hc =>
    split
    · next hr =>
      simp only [recorded, hc, decide_eq_true_eq] at hr
      exact ⟨c, hc, hr.1⟩
    · rw [get?_modify, if_pos rfl, hc]
      · exact ⟨_, rfl, rfl⟩
      · exact fun _ => rfl

theorem holds_set_of_ne {cs : Conditions} {name other : Condition.Name} (h : other ≠ name)
    (truth : Bool) (reason message : String) (now : Timestamp) :
    holds (set cs name truth reason message now) other = holds cs other := by
  simp only [holds, get?_set_of_ne h]

theorem holds_set (cs : Conditions) (name : Condition.Name) (truth : Bool) (reason message : String)
    (now : Timestamp) : holds (set cs name truth reason message now) name = truth := by
  obtain ⟨c, hc, ht⟩ := get?_set_truth cs name truth reason message now
  simp only [holds, hc, ht]
  cases truth <;> rfl

theorem agrees_unique {cs : Conditions} {name : Condition.Name} {a b : Bool} {m n : String}
    (ha : agrees cs name a m = true) (hb : agrees cs name b n = true) : a = b ∧ m = n := by
  unfold agrees at ha hb
  cases hg : get? cs name with
  | none => simp [hg] at ha
  | some c =>
    simp only [hg, decide_eq_true_eq] at ha hb
    refine ⟨?_, ha.2.symm.trans hb.2⟩
    have := ha.1.symm.trans hb.1
    cases a <;> cases b <;> first | rfl | contradiction

theorem holds_of_agrees {cs : Conditions} {name : Condition.Name} {truth : Bool} {message : String}
    (h : agrees cs name truth message = true) : holds cs name = truth := by
  unfold agrees at h
  unfold holds
  cases hg : get? cs name with
  | none => simp [hg] at h
  | some c =>
    simp only [hg, decide_eq_true_eq] at h ⊢
    rw [h.1]
    cases truth <;> rfl

theorem agrees_set (cs : Conditions) (name : Condition.Name) (truth : Bool)
    (reason message : String) (now : Timestamp) :
    agrees (set cs name truth reason message now) name truth message = true := by
  unfold set
  split
  · next hn => simp [agrees, get?_append_singleton, hn]
  · next c hc =>
    split
    · next hr =>
      simp only [recorded, hc, decide_eq_true_eq] at hr
      simp [agrees, hc, hr.1, hr.2.2]
    · unfold agrees
      rw [get?_modify, if_pos rfl, hc]
      · simp
      · exact fun _ => rfl

end Conditions
end ModelTemplates
