import ModelTemplates.Handler.Template
import ModelTemplates.Proofs.Condition.Lookup
import ModelTemplates.Proofs.Store.History
import ModelTemplates.Proofs.Version.Linking
import ModelTemplates.World
/-! What the stored versions make of the default of a template, and which writes of versions leave
it as it is. -/
namespace ModelTemplates

/-- What a look at the versions makes of the default of a template. -/
inductive Prospect where
  /-- No member could be selected. -/
  | nothing
  | selection
  | number (n : UInt32)
  | failure (message : String)
deriving DecidableEq

namespace Template

variable {t : Template} {d : VersionStore} {v r : Version} {w : World}

def prospect (t : Template) (d : VersionStore) : Prospect :=
  match t.defaultVersionKey with
  | none =>
    match t.earliest?
      (d.list (some t.metadata.space) (Table.empty.insert templateLabel t.metadata.name)) with
    | none => .nothing
    | some _ => .selection
  | some key =>
    match t.resolution (d.get? key) with
    | .ok n => .number n
    | .error why => .failure (why.message key)

def meets (t : Template) : Prospect → Bool
  | .nothing => true
  | .selection => false
  | .number n => t.hasDefault n
  | .failure message => Conditions.agrees t.status.conditions .defaultVersionResolved false message

theorem resolution_eq_ok {o : Option Version} {n : UInt32} : t.resolution o = .ok n ↔
    ∃ v, o = some v ∧ v.templateKey = t.key ∧ v.assigned = true ∧ v.status.version = n ∧
      v.ownedBy t = true := by
  cases o with
  | none => simp [resolution]
  | some v =>
    by_cases hk : v.templateKey = t.key
    · cases ha : v.assigned <;> cases ho : v.ownedBy t <;>
        simp [resolution, hk, Version.assignedNumber, ha, ho]
    · simp [resolution, hk]

theorem prospect_unique {d' : VersionStore} (h : t.meets (t.prospect d) = true)
    (h' : t.meets (t.prospect d') = true) :
    t.prospect d = t.prospect d' := by
  unfold prospect at h h' ⊢
  cases hk : t.defaultVersionKey with
  | none =>
    simp only [hk] at h h' ⊢
    split at h
    · split at h'
      · rfl
      · contradiction
    · contradiction
  | some key =>
    simp only [hk] at h h' ⊢
    cases hr : t.resolution (d.get? key) <;> cases hr' : t.resolution (d'.get? key) <;>
      simp only [hr, hr', meets, hasDefault, decide_eq_true_eq] at h h' ⊢
    · rw [(Conditions.agrees_unique h h').2]
    · exact Bool.noConfusion (Conditions.agrees_unique h h'.2.2).1
    · exact Bool.noConfusion (Conditions.agrees_unique h.2.2 h').1
    · rw [h.1.symm.trans h'.1]

/-- A delivery that commits something never says that nothing was to do. -/
theorem commit_ne_unchanged {α : Type} (write : Plan (Except StoreError α)) (follow : Plan Unit)
    (w w' : World) :
    w.perform (.commit write follow) ≠ (.ok .unchanged, w') := by
  unfold World.perform Plan.commit
  rw [Plan.run_bind]
  cases (write.run World.answer w).1 with
  | error e => simp
  | ok o =>
    rw [Plan.run_bind]
    simp

theorem selectDefault_unchanged_iff (hk : t.defaultVersionKey = none) (now : Timestamp) :
    w.perform (t.selectDefault now) = (.ok .unchanged, w) ↔
      t.meets (t.prospect w.stores.versions) = true := by
  unfold World.perform selectDefault
  simp only [bind, Plan.bind, Plan.request, Plan.run, World.answer, prospect, hk]
  cases t.earliest? (w.stores.versions.list (some t.metadata.space)
    (Table.empty.insert templateLabel t.metadata.name)) with
  | none => exact iff_of_true rfl rfl
  | some v => exact iff_of_false (commit_ne_unchanged _ _ _ _) (by simp [meets])

theorem resolveRef_unchanged_iff {key : Key} (hk : t.defaultVersionKey = some key)
    (now : Timestamp) :
    w.perform (t.resolveRef key now) = (.ok .unchanged, w) ↔
      t.meets (t.prospect w.stores.versions) = true := by
  unfold World.perform resolveRef
  simp only [bind, Plan.bind, Plan.request, Plan.run, World.answer, prospect, hk]
  cases t.resolution (w.stores.versions.get? key) with
  | error why =>
    simp only [settle, meets]
    split
    · next h => exact iff_of_true rfl h
    · next h => exact iff_of_false (commit_ne_unchanged _ _ _ _) h
  | ok n =>
    simp only [meets]
    split
    · next h => exact iff_of_true rfl h
    · next h => exact iff_of_false (commit_ne_unchanged _ _ _ _) h

/-- A delivery finds nothing to do exactly when the template is as the look leaves it. -/
theorem resolveDefault_unchanged_iff (t : Template) (now : Timestamp) (w : World) :
    w.perform (t.resolveDefault now) = (.ok .unchanged, w) ↔
      t.deleting = true ∨ t.meets (t.prospect w.stores.versions) = true := by
  unfold resolveDefault
  split
  · next hd => exact iff_of_true rfl (.inl hd)
  · next hd =>
    rw [or_iff_right hd]
    cases hk : t.defaultVersionKey with
    | none => exact selectDefault_unchanged_iff hk now
    | some key => exact resolveRef_unchanged_iff hk now

structure Lists (t : Template) (v : Version) : Prop where
  space : v.metadata.space = t.metadata.space
  label : v.metadata.labels.find? templateLabel = some t.metadata.name
  member : t.isMember v = true

theorem earliest?_ne_none {vs : List Version} :
    t.earliest? vs ≠ none ↔ ∃ v ∈ vs, t.isMember v = true := by
  unfold earliest?
  rw [Ne, List.head?_eq_none_iff, ← List.length_eq_zero_iff, List.length_mergeSort,
    List.length_eq_zero_iff, List.filter_eq_nil_iff]
  simp

theorem matches_label {labels : Table String String} {name : String} :
    Selector.matches (Table.empty.insert templateLabel name) labels = true ↔
      labels.find? templateLabel = some name := by
  simp [Selector.matches, Table.insert, Table.insertEntry, Table.empty]

/-- Without a reference, only the versions that could be selected matter. -/
theorem prospect_eq_selection (hk : t.defaultVersionKey = none) :
    t.prospect d = .selection ↔ ∃ k v, d.get? k = some v ∧ t.Lists v := by
  have hmem :
      (∃ v ∈ d.list (some t.metadata.space) (Table.empty.insert templateLabel t.metadata.name),
      t.isMember v = true) ↔ ∃ k v, d.get? k = some v ∧ t.Lists v := by
    simp only [Store.list, List.mem_filter, Table.mem_values_iff, Bool.and_eq_true,
      decide_eq_true_eq, matches_label]
    constructor
    · rintro ⟨v, ⟨⟨k, hv⟩, hs, hl⟩, hm⟩
      exact ⟨k, v, hv, hs, hl, hm⟩
    · rintro ⟨k, v, hv, hs, hl, hm⟩
      exact ⟨v, ⟨⟨k, hv⟩, hs, hl⟩, hm⟩
  rw [← hmem, ← earliest?_ne_none]
  simp only [prospect, hk]
  split
  · next h => exact iff_of_false (by simp) (fun hn => hn h)
  · next h => exact iff_of_true rfl (by simp [h])

theorem prospect_cases (hk : t.defaultVersionKey = none) (d : VersionStore) :
    t.prospect d = .nothing ∨ t.prospect d = .selection := by
  simp only [prospect, hk]
  split
  · exact .inl rfl
  · exact .inr rfl

/-- Without a reference, it only matters whether there is a version to select. -/
theorem prospect_congr {d' : VersionStore} (hk : t.defaultVersionKey = none)
    (hiff : t.prospect d' = .selection ↔ t.prospect d = .selection) :
    t.prospect d' = t.prospect d := by
  rcases prospect_cases hk d' with h | h
  · rcases prospect_cases hk d with h' | h'
    · rw [h, h']
    · exact (hiff.mpr h').trans h'.symm
  · exact h.trans (hiff.mp h).symm

/-- A version may be written over by one that looks the same to the template. -/
theorem prospect_put (hv : d.get? r.key = some v)
    (hr : t.resolution (some r) = t.resolution (some v)) (hl : t.Lists r ↔ t.Lists v) :
    t.prospect (d.put r) = t.prospect d := by
  cases hk : t.defaultVersionKey with
  | none =>
    have hiff : t.prospect (d.put r) = .selection ↔ t.prospect d = .selection := by
      rw [prospect_eq_selection hk, prospect_eq_selection hk]
      constructor
      · rintro ⟨k, x, hx, hxl⟩
        rw [Store.put_get?] at hx
        split at hx
        · obtain rfl := Option.some.inj hx
          exact ⟨_, v, hv, hl.mp hxl⟩
        · exact ⟨k, x, hx, hxl⟩
      · rintro ⟨k, x, hx, hxl⟩
        by_cases he : k = r.key
        · obtain rfl := Option.some.inj (hv.symm.trans (he ▸ hx))
          exact ⟨r.key, r, by rw [Store.put_get?, if_pos rfl], hl.mpr hxl⟩
        · exact ⟨k, x, by rw [Store.put_get?, if_neg he]; exact hx, hxl⟩
    exact prospect_congr hk hiff
  | some key =>
    have hres : t.resolution ((d.put r).get? key) = t.resolution (d.get? key) := by
      rw [Store.put_get?]
      split
      · next he => rw [hr, he, hv]
      · rfl
    simp only [prospect, hk, hres]

/-- Versions without a number look the same while their name of the template stays. -/
theorem prospect_put_unassigned (hv : d.get? r.key = some v) (hk : r.templateKey = v.templateKey)
    (hr : r.assigned = false) (ha : v.assigned = false) : t.prospect (d.put r) = t.prospect d := by
  refine prospect_put hv ?_ ⟨fun h => ?_, fun h => ?_⟩
  · simp only [resolution, hk, Version.assignedNumber, hr, ha, Bool.false_eq_true, if_false]
  · have := h.member
    simp [isMember, hr] at this
  · have := h.member
    simp [isMember, ha] at this

/-- A version that is new and has no number matters only when the template refers to it. -/
theorem prospect_put_fresh (hv : d.get? r.key = none) (ha : r.assigned = false)
    (hk : ∀ key, t.defaultVersionKey = some key → key ≠ r.key) :
    t.prospect (d.put r) = t.prospect d := by
  cases hd : t.defaultVersionKey with
  | none =>
    have hiff : t.prospect (d.put r) = .selection ↔ t.prospect d = .selection := by
      rw [prospect_eq_selection hd, prospect_eq_selection hd]
      constructor
      · rintro ⟨j, x, hx, hl⟩
        rcases Store.get?_put_cases hx with ⟨-, rfl⟩ | ⟨-, hold⟩
        · have hm := hl.member
          simp [isMember, ha] at hm
        · exact ⟨j, x, hold, hl⟩
      · rintro ⟨j, x, hx, hl⟩
        exact ⟨j, x, Store.get?_put_of_fresh hv hx, hl⟩
    exact prospect_congr hd hiff
  | some key =>
    have hres : (d.put r).get? key = d.get? key := by rw [Store.put_get?, if_neg (hk key hd)]
    simp only [prospect, hd, hres]

theorem prospect_restated {x : Version} (hv : d.get? v.key = some v) (ha : x.assigned = v.assigned)
    (hn : x.status.version = v.status.version) :
    t.prospect (d.put (d.restated v x)) = t.prospect d := by
  have hassigned : Version.assigned (d.restated v x) = v.assigned := ha
  have howned : Version.ownedBy (d.restated v x) t = v.ownedBy t := rfl
  have hversion : (d.restated v x).status.version = v.status.version := hn
  have hnumber : Version.assignedNumber (d.restated v x) = v.assignedNumber := by
    simp only [Version.assignedNumber, hassigned, hversion]
  refine prospect_put (v := v) hv ?_ ⟨fun h => ⟨h.space, h.label, ?_⟩,
    fun h => ⟨h.space, h.label, ?_⟩⟩
  · simp only [resolution, hnumber, howned]
    rfl
  · simpa only [isMember, hassigned, howned] using h.member
  · simpa only [isMember, hassigned, howned] using h.member

/-- A number that a version is given matters only to the template that it names. -/
theorem prospect_numbered {x : Version} (hv : d.get? v.key = some v) (ha : v.assigned = false)
    (hl : v.metadata.labels.find? templateLabel = some v.spec.templateName)
    (hk : t.key ≠ v.templateKey) :
    t.prospect (d.put (d.restated v x)) = t.prospect d := by
  refine prospect_put (v := v) hv ?_ ⟨fun h => ?_, fun h => ?_⟩
  · have hkey : Version.templateKey (d.restated v x) = v.templateKey := rfl
    simp only [resolution, hkey, if_pos (Ne.symm hk)]
  · have hname : v.spec.templateName = t.metadata.name := Option.some.inj (hl.symm.trans h.label)
    have hspace : v.metadata.space = t.metadata.space := h.space
    refine absurd ?_ hk
    simp only [Object.key, Meta.key, Version.templateKey, hname, hspace]
  · have := h.member
    simp [isMember, ha] at this

end Template
end ModelTemplates
