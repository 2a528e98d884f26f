import ModelTemplates.Handler.Version
import ModelTemplates.Proofs.Condition.Lookup
/-! What a version knows of its template before and after it is linked and numbered. -/
namespace ModelTemplates

namespace Version

variable {v : Version} {t : Template} {owner : OwnerReference} {uid : Uid} {n : UInt32}
  {now : Timestamp}

@[simp] theorem numbered_assigned (v : Version) (n : UInt32) (now : Timestamp) :
    (v.numbered n now).assigned = true :=
  Conditions.holds_set _ _ _ _ _ _

@[simp] theorem numbered_configured (v : Version) (n : UInt32) (now : Timestamp) :
    (v.numbered n now).configured = v.configured := Conditions.holds_set_of_ne (by decide) _ _ _ _

/-- Whether a version has a number is not touched by what is said of its configuration. -/
theorem assigned_set_configured (v : Version) (truth : Bool) (reason message : String)
    (now : Timestamp) :
    Conditions.holds (Conditions.set v.status.conditions .configured truth reason message now)
      .assigned = v.assigned :=
  Conditions.holds_set_of_ne (by decide) _ _ _ _

/-- Everything of a linked version but its labels and owners is that of the version. -/
theorem linked_eq (v : Version) (t : Template) (owner : OwnerReference) :
    v.linked t owner = { v with metadata :=
      { v.metadata with
        labels := v.metadata.labels.insert templateLabel t.metadata.name
        owners := (v.linked t owner).metadata.owners } } := by
  unfold linked
  simp only
  split <;> rfl

@[simp] theorem linked_key (v : Version) (t : Template) (owner : OwnerReference) :
    (v.linked t owner).key = v.key := by rw [linked_eq]; rfl

@[simp] theorem linked_spec (v : Version) (t : Template) (owner : OwnerReference) :
    (v.linked t owner).spec = v.spec := by rw [linked_eq]

@[simp] theorem linked_resourceVersion (v : Version) (t : Template) (owner : OwnerReference) :
    (v.linked t owner).metadata.resourceVersion = v.metadata.resourceVersion := by rw [linked_eq]

theorem ownerReference_eq_some (h : t.ownerReference = some owner) :
    t.metadata.uid = some owner.uid ∧ owner.kind = Kind.template.text ∧
      owner.name = t.metadata.name := by
  unfold Template.ownerReference at h
  obtain ⟨uid, hu, rfl⟩ := Option.map_eq_some_iff.mp h
  exact ⟨hu, rfl, rfl⟩

theorem ownedBy_eq (hu : t.metadata.uid = some uid) :
    v.ownedBy t = v.metadata.ownedBy .template uid := by
  simp only [ownedBy, hu]

theorem ownedBy_iff (hu : t.metadata.uid = some uid) :
    v.ownedBy t = true ↔ ∃ r ∈ v.metadata.owners, r.kind = Kind.template.text ∧ r.uid = uid := by
  simp [ownedBy_eq hu, Meta.ownedBy]

/-- The references of a linked version: those that are kept, and that to the template. -/
theorem mem_linked_owners {r : OwnerReference} :
    r ∈ (v.linked t owner).metadata.owners →
      (r ∈ v.metadata.owners ∧ isOutdated owner r = false) ∨ r = owner := by
  unfold linked
  simp only
  have kept : r ∈ v.metadata.owners.filter (fun r => !isOutdated owner r) →
      r ∈ v.metadata.owners ∧ isOutdated owner r = false := fun hr => by simpa using hr
  split
  · exact fun hr => .inl (kept hr)
  · intro hr
    exact (List.mem_append.mp hr).imp kept List.mem_singleton.mp

theorem linked_ownedBy (h : t.ownerReference = some owner) :
    (v.linked t owner).ownedBy t = true := by
  obtain ⟨hu, hk, -⟩ := ownerReference_eq_some h
  unfold linked
  simp only
  split
  · next hw => exact hw
  · exact (ownedBy_iff hu).mpr ⟨owner, by simp, hk, rfl⟩

/-- All references of a version to templates are to one template, of the name that its spec
gives. -/
structure Faithful (v : Version) : Prop where
  named : ∀ r ∈ v.metadata.owners, r.kind = Kind.template.text → r.name = v.spec.templateName
  single : ∀ r ∈ v.metadata.owners, ∀ r' ∈ v.metadata.owners,
    r.kind = Kind.template.text → r'.kind = Kind.template.text → r.uid = r'.uid

theorem ownerUid_eq_some (h : v.ownerUid = some uid) :
    ∃ r ∈ v.metadata.owners, r.kind = Kind.template.text ∧ r.name = v.spec.templateName ∧
      r.uid = uid := by
  unfold ownerUid at h
  obtain ⟨r, hr, rfl⟩ := Option.map_eq_some_iff.mp h
  have hp := List.find?_some hr
  simp only [decide_eq_true_eq] at hp
  exact ⟨r, List.mem_of_find?_eq_some hr, hp.1, hp.2, rfl⟩

namespace Faithful

/-- The first reference by name leads to the same template as any. -/
theorem ownerUid_iff (h : v.Faithful) (hu : t.metadata.uid = some uid) :
    v.ownerUid = some uid ↔ v.ownedBy t = true := by
  rw [ownedBy_iff hu]
  constructor
  · intro ho
    obtain ⟨r, hr, hk, -, he⟩ := ownerUid_eq_some ho
    exact ⟨r, hr, hk, he⟩
  · rintro ⟨r, hr, hk, rfl⟩
    cases hf : v.ownerUid with
    | none =>
      unfold ownerUid at hf
      have := List.find?_eq_none.mp (Option.map_eq_none_iff.mp hf) r hr
      simp [hk, h.named r hr hk] at this
    | some u =>
      obtain ⟨q, hq, hkq, -, rfl⟩ := ownerUid_eq_some hf
      rw [h.single q hq r hr hkq hk]

theorem of_no_owner (h : ∀ r ∈ v.metadata.owners, r.kind ≠ Kind.template.text) : v.Faithful :=
  ⟨fun r hr hk => absurd hk (h r hr), fun r hr _ _ hk _ => absurd hk (h r hr)⟩

theorem linked (h : v.Faithful) (ho : t.ownerReference = some owner)
    (hn : t.metadata.name = v.spec.templateName) :
    (v.linked t owner).Faithful := by
  obtain ⟨-, hk, hname⟩ := ownerReference_eq_some ho
  have hu {r : OwnerReference} (hr : r ∈ (v.linked t owner).metadata.owners)
    (hkr : r.kind = Kind.template.text) :
      r.name = v.spec.templateName ∧ r.uid = owner.uid := by
    rcases mem_linked_owners hr with ⟨hr, hout⟩ | rfl
    · have hrn := h.named r hr hkr
      refine ⟨hrn, ?_⟩
      simpa [isOutdated, hkr, hrn, hname, hn] using hout
    · exact ⟨hname.trans hn, rfl⟩
  refine ⟨fun r hr hkr => ?_, fun r hr r' hr' hkr hkr' => ?_⟩
  · rw [linked_spec]; exact (hu hr hkr).1
  · rw [(hu hr hkr).2, (hu hr' hkr').2]

theorem congr {u : Version} (h : v.Faithful) (ho : u.metadata.owners = v.metadata.owners)
    (hn : u.spec.templateName = v.spec.templateName) : u.Faithful := by
  constructor
  · rw [ho, hn]; exact h.named
  · rw [ho]; exact h.single

end Faithful

theorem ownerUid_congr {u : Version} (ho : u.metadata.owners = v.metadata.owners)
    (hn : u.spec.templateName = v.spec.templateName) : u.ownerUid = v.ownerUid := by
  simp only [ownerUid, ho, hn]

end Version
end ModelTemplates
