import Mathlib.Data.List.Induction
import Mathlib.Data.List.Nodup
import ModelTemplates.Proofs.Condition.Lookup
/-! What the conditions of an object say of all that was reported of them. Each says what the last
report of it said, when a report last made a difference, and when one last turned it. -/
namespace ModelTemplates

namespace Conditions

structure Report where
  name : Condition.Name
  truth : Bool
  reason : String
  message : String
  moment : Timestamp
deriving DecidableEq

def Report.content (r : Report) : Bool × String × String := (r.truth, r.reason, r.message)

def record (cs : Conditions) (r : Report) : Conditions :=
  set cs r.name r.truth r.reason r.message r.moment

def changes (cs : Conditions) (r : Report) : Bool := !recorded cs r.name r.truth r.reason r.message

def after (rs : List Report) : Conditions := rs.foldl record []

def names (cs : Conditions) : List Condition.Name := cs.map Condition.name

def about (name : Condition.Name) (rs : List Report) : List Report :=
  rs.filter fun r => r.name = name

def InOrder (rs : List Report) : Prop := rs.Pairwise fun p r => p.moment ≤ r.moment

instance (rs : List Report) : Decidable (InOrder rs) :=
  inferInstanceAs (Decidable (rs.Pairwise fun p r => p.moment ≤ r.moment))

variable {α : Type} {f : Report → α} {rs : List Report} {p r t : Report} {cs : Conditions}
  {c : Condition} {name : Condition.Name}

/-- A report, the first one or one that differs in `f` from the one before. -/
def Turn (f : Report → α) (rs : List Report) (r : Report) : Prop :=
  ∃ before later, rs = before ++ r :: later ∧ ∀ p, before.getLast? = some p → f p ≠ f r

def LastTurn (f : Report → α) (rs : List Report) (r : Report) : Prop :=
  ∃ before later, rs = before ++ r :: later ∧ (∀ p, before.getLast? = some p → f p ≠ f r) ∧
    ∀ p ∈ later, f p = f r

theorem LastTurn.turn (h : LastTurn f rs r) : Turn f rs r := by
  obtain ⟨before, later, hrs, hbefore, -⟩ := h
  exact ⟨before, later, hrs, hbefore⟩

theorem Turn.of_comp {β : Type} {g : α → β} (h : Turn (g ∘ f) rs r) : Turn f rs r := by
  obtain ⟨before, later, hrs, hbefore⟩ := h
  exact ⟨before, later, hrs, fun p hp hsame => hbefore p hp (congrArg g hsame)⟩

theorem lastTurn_append_of_ne (h : ∀ p, rs.getLast? = some p → f p ≠ f r) :
    LastTurn f (rs ++ [r]) r :=
  ⟨rs, [], rfl, h, by simp⟩

theorem lastTurn_singleton (f : Report → α) (r : Report) : LastTurn f [r] r :=
  ⟨[], [], rfl, by simp, by simp⟩

theorem LastTurn.getLast (h : LastTurn f rs t) (hp : rs.getLast? = some p) : f p = f t := by
  obtain ⟨before, later, rfl, -, hlater⟩ := h
  rw [List.getLast?_append_cons] at hp
  rcases List.mem_cons.mp (List.mem_of_getLast? hp) with rfl | hmem
  · rfl
  · exact hlater p hmem

theorem LastTurn.append (h : LastTurn f rs t) (hp : rs.getLast? = some p) (hsame : f p = f r) :
    LastTurn f (rs ++ [r]) t := by
  have hlast := h.getLast hp
  obtain ⟨before, later, rfl, hbefore, hlater⟩ := h
  refine ⟨before, later ++ [r], by simp, hbefore, fun q hq => ?_⟩
  rcases List.mem_append.mp hq with hq | hq
  · exact hlater q hq
  · rw [List.mem_singleton.mp hq, ← hsame, hlast]

/-- With a clock that is never set back, no turn is later than the last one. -/
theorem LastTurn.moment_le (h : LastTurn f rs r) (horder : InOrder rs) (ht : Turn f rs t) :
    t.moment ≤ r.moment := by
  obtain ⟨before, later, rfl, -, hlater⟩ := h
  obtain ⟨before', later', hsplit, hbefore'⟩ := ht
  have hself : r.moment ≤ r.moment := Int.le_refl _
  rcases List.append_eq_append_iff.mp hsplit with ⟨between, rfl, htail⟩ | ⟨between, rfl, htail⟩
  · cases between with
    | nil =>
      obtain ⟨rfl, -⟩ := List.cons.inj htail
      exact hself
    | cons q between =>
      -- a turn after the last one would differ from the report before it
      obtain ⟨rfl, rfl⟩ := List.cons.inj htail
      obtain ⟨p, hp⟩ : ∃ p, (r :: between).getLast? = some p :=
        ⟨_, List.getLast?_eq_some_getLast (by simp)⟩
      have hdiffers := hbefore' p (by rw [List.getLast?_append_cons, hp])
      have ht : f t = f r := hlater t (by simp)
      rcases List.mem_cons.mp (List.mem_of_getLast? hp) with rfl | hmem
      · exact absurd ht.symm hdiffers
      · exact absurd ((hlater p (by simp [hmem])).trans ht.symm) hdiffers
  · cases between with
    | nil =>
      obtain ⟨rfl, -⟩ := List.cons.inj htail
      exact hself
    | cons q between =>
      obtain ⟨rfl, rfl⟩ := List.cons.inj htail
      exact (List.pairwise_append.mp horder).2.2 t (by simp) r (by simp)

def first (r : Report) : Condition :=
  ⟨r.name, .ofBool r.truth, r.reason, r.message, r.moment, r.moment⟩

def Matches (c : Condition) (r : Report) : Prop :=
  c.truth = .ofBool r.truth ∧ c.reason = r.reason ∧ c.message = r.message

instance (c : Condition) (r : Report) : Decidable (Matches c r) :=
  inferInstanceAs (Decidable (c.truth = .ofBool r.truth ∧ c.reason = r.reason ∧
    c.message = r.message))

def revised (r : Report) (c : Condition) : Condition :=
  if Matches c r then c
  else { c with
    truth := .ofBool r.truth, reason := r.reason, message := r.message, lastUpdate := r.moment
    lastTransition := if c.truth = .ofBool r.truth then c.lastTransition else r.moment }

/-- What a condition says of the reports of it. -/
structure Tells (rs : List Report) (c : Condition) : Prop where
  latest : ∃ r, rs.getLast? = some r ∧ Matches c r
  updated : ∃ r, LastTurn Report.content rs r ∧ c.lastUpdate = r.moment
  turned : ∃ r, LastTurn Report.truth rs r ∧ c.lastTransition = r.moment

theorem ofBool_inj {a b : Bool} (h : Condition.Truth.ofBool a = .ofBool b) : a = b := by
  cases a <;> cases b <;> first | rfl | contradiction

theorem Matches.content_eq (hp : Matches c p) (hr : Matches c r) : p.content = r.content := by
  obtain ⟨htruth, hreason, hmessage⟩ := hp
  obtain ⟨htruth', hreason', hmessage'⟩ := hr
  rw [Report.content, Report.content,
    ofBool_inj (htruth.symm.trans htruth'), ← hreason, ← hmessage, hreason',
    hmessage']

theorem Matches.of_content_eq (h : Matches c p) (heq : p.content = r.content) : Matches c r := by
  obtain ⟨htruth, hreason, hmessage⟩ :
      p.truth = r.truth ∧ p.reason = r.reason ∧ p.message = r.message := by
    simpa [Report.content] using heq
  exact ⟨htruth ▸ h.1, hreason ▸ h.2.1, hmessage ▸ h.2.2⟩

@[simp] theorem name_revised (r : Report) (c : Condition) : (revised r c).name = c.name := by
  unfold revised
  split <;> rfl

theorem matches_revised (r : Report) (c : Condition) : Matches (revised r c) r := by
  unfold revised
  split
  · assumption
  · exact ⟨rfl, rfl, rfl⟩

theorem revised_eq_self : revised r c = c ↔ Matches c r := by
  constructor
  · exact fun h => h ▸ matches_revised r c
  · exact fun h => if_pos h

theorem tells_first (r : Report) : Tells [r] (first r) where
  latest := ⟨r, rfl, rfl, rfl, rfl⟩
  updated := ⟨r, lastTurn_singleton _ r, rfl⟩
  turned := ⟨r, lastTurn_singleton _ r, rfl⟩

theorem Tells.append (h : Tells rs c) (r : Report) : Tells (rs ++ [r]) (revised r c) := by
  obtain ⟨p, hp, hmatches⟩ := h.latest
  obtain ⟨u, hu, hupdate⟩ := h.updated
  obtain ⟨t, ht, htransition⟩ := h.turned
  refine ⟨⟨r, List.getLast?_concat, matches_revised r c⟩, ?_, ?_⟩
  · unfold revised
    split
    · next hsame => exact ⟨u, hu.append hp (hmatches.content_eq hsame), hupdate⟩
    · next hnew =>
      refine ⟨r, lastTurn_append_of_ne fun q hq => ?_, rfl⟩
      obtain rfl := Option.some.inj (hp.symm.trans hq)
      exact fun hsame => hnew (hmatches.of_content_eq hsame)
  · unfold revised
    split
    · next hsame =>
        exact ⟨t, ht.append hp (ofBool_inj (hmatches.1.symm.trans hsame.1)), htransition⟩
    · by_cases hsame : c.truth = .ofBool r.truth
      · exact ⟨t, ht.append hp (ofBool_inj (hmatches.1.symm.trans hsame)),
          by simp [hsame, htransition]⟩
      · refine ⟨r, lastTurn_append_of_ne fun q hq => ?_, by simp [hsame]⟩
        obtain rfl := Option.some.inj (hp.symm.trans hq)
        exact fun htruth => hsame (htruth ▸ hmatches.1)

theorem modify_congr {g g' : Condition → Condition} (hc : get? cs name = some c) (hg : g c = g' c) :
    modify cs name g = modify cs name g' := by
  induction cs with
  | nil => rfl
  | cons d cs ih =>
    by_cases hd : d.name = name
    · rw [get?, List.find?_cons_of_pos (by simp [hd])] at hc
      obtain rfl := Option.some.inj hc
      rw [modify, modify, if_pos hd, if_pos hd, hg]
    · rw [get?, List.find?_cons_of_neg (by simp [hd])] at hc
      rw [modify, modify, if_neg hd, if_neg hd, ih hc]

theorem modify_id (cs : Conditions) (name : Condition.Name) : modify cs name id = cs := by
  induction cs with
  | nil => rfl
  | cons d cs ih => simp [modify, ih]

theorem record_of_none (h : get? cs r.name = none) : record cs r = cs ++ [first r] := by
  rw [record, set, h]
  rfl

theorem record_of_some (h : get? cs r.name = some c) :
    record cs r = modify cs r.name (revised r) := by
  have hrecorded : recorded cs r.name r.truth r.reason r.message = decide (Matches c r) := by
    rw [recorded, h]
    rfl
  rw [record, set, h, hrecorded]
  by_cases hmatches : Matches c r
  · have hsame : modify cs r.name id = modify cs r.name (revised r) :=
      modify_congr h (revised_eq_self.mpr hmatches).symm
    simpa [hmatches, modify_id] using hsame
  · simp only [hmatches, decide_false, Bool.false_eq_true, if_false]
    exact modify_congr h (if_neg hmatches).symm

theorem get?_record (cs : Conditions) (r : Report) (name : Condition.Name) :
    get? (record cs r) name =
      if name = r.name then some (((get? cs name).map (revised r)).getD (first r))
        else get? cs name := by
  cases hc : get? cs r.name with
  | none =>
    rw [record_of_none hc, get?_append_singleton]
    by_cases hname : name = r.name
    · subst hname
      simp [hc, first]
    · simp [hname, first, Ne.symm hname]
  | some c =>
    rw [record_of_some hc, get?_modify (name_revised r)]
    by_cases hname : name = r.name
    · subst hname
      simp [hc]
    · simp [hname]

theorem changes_eq_false_iff :
    changes cs r = false ↔ ∃ c, get? cs r.name = some c ∧ Matches c r := by
  unfold changes recorded Matches
  cases get? cs r.name <;> simp

theorem record_eq_self_iff : record cs r = cs ↔ changes cs r = false := by
  rw [changes_eq_false_iff]
  constructor
  · intro hsame
    have hget := get?_record cs r r.name
    rw [hsame, if_pos rfl] at hget
    cases hc : get? cs r.name with
    | none => rw [hc] at hget; contradiction
    | some c =>
      rw [hc] at hget
      exact ⟨c, rfl, revised_eq_self.mp (Option.some.inj hget).symm⟩
  · rintro ⟨c, hc, hmatches⟩
    have hself : revised r c = id c := revised_eq_self.mpr hmatches
    rw [record_of_some hc, modify_congr hc hself, modify_id]

theorem names_modify {g : Condition → Condition} (hg : ∀ c, (g c).name = c.name) (cs : Conditions)
    (name : Condition.Name) : names (modify cs name g) = names cs := by
  induction cs with
  | nil => rfl
  | cons d cs ih =>
    unfold names at ih ⊢
    unfold modify
    split <;> simp [hg, ih]

theorem get?_eq_none_iff : get? cs name = none ↔ name ∉ names cs := by
  simp only [get?, names, List.find?_eq_none, List.mem_map, decide_eq_true_eq, not_exists, not_and]

/-- The conditions stay in the order in which they were reported first. -/
theorem names_record (cs : Conditions) (r : Report) :
    names (record cs r) = if r.name ∈ names cs then names cs else names cs ++ [r.name] := by
  cases hc : get? cs r.name with
  | none =>
    rw [record_of_none hc, if_neg (get?_eq_none_iff.mp hc)]
    simp [names, first]
  | some c =>
    have hmem : r.name ∈ names cs := by
      refine Decidable.of_not_not fun hn => ?_
      rw [get?_eq_none_iff.mpr hn] at hc
      contradiction
    rw [record_of_some hc, if_pos hmem, names_modify (name_revised r)]

theorem nodup_names_record (h : (names cs).Nodup) (r : Report) : (names (record cs r)).Nodup := by
  rw [names_record]
  split
  · exact h
  · next hnew => exact List.concat_eq_append ▸ h.concat hnew

def others (name : Condition.Name) (cs : Conditions) : Conditions :=
  cs.filter fun c => c.name ≠ name

theorem others_record (cs : Conditions) (r : Report) :
    others r.name (record cs r) = others r.name cs := by
  cases hc : get? cs r.name with
  | none =>
    rw [record_of_none hc]
    simp [others, first]
  | some c =>
    rw [record_of_some hc]
    clear hc
    induction cs with
    | nil => rfl
    | cons d cs ih =>
      by_cases hd : d.name = r.name
      · simp [others, modify, hd]
      · simpa [others, modify, hd] using ih

theorem after_append (rs : List Report) (r : Report) : after (rs ++ [r]) = record (after rs) r := by
  simp [after]

theorem about_append (name : Condition.Name) (rs : List Report) (r : Report) :
    about name (rs ++ [r]) = if name = r.name then about name rs ++ [r] else about name rs := by
  by_cases hname : name = r.name
  · simp [about, hname]
  · simp [about, hname, Ne.symm hname]

inductive Said (name : Condition.Name) (rs : List Report) : Option Condition → Prop where
  | nothing (h : about name rs = []) : Said name rs none
  | tells {c : Condition} (hname : c.name = name) (h : Tells (about name rs) c) :
      Said name rs (some c)

theorem said_after (name : Condition.Name) (rs : List Report) :
    Said name rs (get? (after rs) name) := by
  induction rs using List.reverseRecOn with
  | nil => exact .nothing rfl
  | append_singleton rs r ih =>
    rw [after_append, get?_record]
    split
    · next hname =>
      have habout : about name (rs ++ [r]) = about name rs ++ [r] := by
        rw [about_append, if_pos hname]
      generalize get? (after rs) name = found at ih
      cases ih with
      | nothing h =>
        refine .tells hname.symm ?_
        rw [habout, h]
        exact tells_first r
      | tells hc h =>
        refine .tells ((name_revised r _).trans hc) ?_
        rw [habout]
        exact h.append r
    · next hname =>
      have habout : about name (rs ++ [r]) = about name rs := by rw [about_append, if_neg hname]
      generalize get? (after rs) name = found at ih
      cases ih with
      | nothing h => exact .nothing (habout.trans h)
      | tells hc h => exact .tells hc (habout ▸ h)

theorem nodup_names_after (rs : List Report) : (names (after rs)).Nodup := by
  induction rs using List.reverseRecOn with
  | nil => exact List.nodup_nil
  | append_singleton rs r ih =>
    rw [after_append]
    exact nodup_names_record ih r

end Conditions

end ModelTemplates
