import ModelTemplates.Proofs.Store.Origin
import ModelTemplates.Proofs.Version.Course
/-! How a version comes by its number: one delivery links it to its template, the next one numbers
it, and those that follow leave it as it is. -/
namespace ModelTemplates

/-- Recording a condition changes no other one, nor a second one of its name. -/
theorem Conditions.eraseP_set (cs : Conditions) (name : Condition.Name) (truth : Bool)
    (reason message : String) (now : Timestamp) :
    (set cs name truth reason message now).eraseP (·.name = name) = cs.eraseP (·.name = name) := by
  have hmodify (f : Condition → Condition) (hf : ∀ c, (f c).name = c.name) :
      (modify cs name f).eraseP (·.name = name) = cs.eraseP (·.name = name) := by
    induction cs with
    | nil => rfl
    | cons c cs ih =>
      by_cases hc : c.name = name
      · simp [modify, hc, hf]
      · simp [modify, hc, ih]
  unfold set
  cases hg : get? cs name with
  | none =>
    have hnone : ∀ c ∈ cs, ¬ decide (c.name = name) = true := List.find?_eq_none.mp hg
    rw [List.eraseP_append_right _ hnone, List.eraseP_of_forall_not hnone]
    simp
  | some c =>
    simp only
    split
    · rfl
    · exact hmodify _ fun _ => rfl

namespace Version

variable {v p : Version} {t : Template} {w : World} {owner : OwnerReference} {now : Timestamp}

def Superseded (t : Template) (r : OwnerReference) : Prop :=
  r.kind = Kind.template.text ∧ r.name = t.metadata.name ∧ t.metadata.uid ≠ some r.uid

instance (t : Template) : DecidablePred (Superseded t) :=
  fun _ => inferInstanceAs (Decidable (_ ∧ _))

theorem isOutdated_eq (ho : t.ownerReference = some owner) (r : OwnerReference) :
    isOutdated owner r = decide (Superseded t r) := by
  obtain ⟨hu, -, hn⟩ := ownerReference_eq_some ho
  simp [isOutdated, Superseded, hu, hn, eq_comm]

theorem ownedBy_of_kept {u : Version} (hu : t.metadata.uid ≠ none)
    (howners : u.metadata.owners = v.metadata.owners.filter fun r => !decide (Superseded t r)) :
    u.ownedBy t = v.ownedBy t := by
  obtain ⟨uid, hu⟩ := Option.ne_none_iff_exists'.mp hu
  rw [Bool.eq_iff_iff, ownedBy_iff hu, ownedBy_iff hu, howners]
  constructor
  · rintro ⟨r, hr, hk, he⟩
    exact ⟨r, (List.mem_filter.mp hr).1, hk, he⟩
  · rintro ⟨r, hr, hk, rfl⟩
    refine ⟨r, List.mem_filter.mpr ⟨hr, ?_⟩, hk, rfl⟩
    simp [Superseded, hu]

theorem linked_owners (ho : t.ownerReference = some owner) :
    (v.linked t owner).metadata.owners =
      (v.metadata.owners.filter fun r => !decide (Superseded t r)) ++ if v.ownedBy t then []
        else [owner] := by
  obtain ⟨hu, -, -⟩ := ownerReference_eq_some ho
  unfold linked
  simp only [isOutdated_eq ho]
  rw [ownedBy_of_kept (v := v) (by simp [hu]) rfl]
  split <;> simp

/-- What is left when a version `v` was linked to a template: it is stored as `p`, which has the
label of the template and a reference to it, and none that is superseded; all else is as it was. -/
structure LinkedAs (w w' : World) (v : Version) (t : Template) (p : Version) : Prop where
  stores : w'.stores = ⟨w.stores.templates, w.stores.versions.put p⟩
  ledger : w'.ledger = w.ledger
  linked : p.linkedTo t = true
  labels : ∀ name, p.metadata.labels.find? name =
    if name = templateLabel then some t.metadata.name else v.metadata.labels.find? name
  owners : ∃ owner, t.ownerReference = some owner ∧ p.metadata.owners =
    (v.metadata.owners.filter fun r => !decide (Superseded t r)) ++ if v.ownedBy t then
      [] else [owner]
  others : p = { v with metadata :=
    { v.metadata with
      resourceVersion := w.stores.versions.nextVersion
      labels := p.metadata.labels
      owners := p.metadata.owners } }

/-- What is left when a version `v` was numbered: it is stored as `p`, which has the next number of
its template, the ledger has moved on to that number, and the template is to be looked at again; all
else is as it was. -/
structure NumberedAs (w w' : World) (v : Version) (t : Template) (p : Version) : Prop where
  stores : w'.stores = ⟨w.stores.templates, w.stores.versions.put p⟩
  number : ∃ n, p.assignedNumber = some n ∧
    n.toNat = (w.ledger.latest t.key t.metadata.uid).toNat + 1 ∧
    w'.ledger.latest t.key t.metadata.uid = n
  counts : ∀ k ≠ t.key, w'.ledger.entries.find? k = w.ledger.entries.find? k
  enqueued : w'.enqueued = w.enqueued ++ [t.key]
  metadata : p.metadata = { v.metadata with resourceVersion := w.stores.versions.nextVersion }
  spec : p.spec = v.spec
  conditions : p.status.conditions.eraseP (·.name = .assigned) =
    v.status.conditions.eraseP (·.name = .assigned)
  config : p.status.generatedModelConfig = v.status.generatedModelConfig

theorem LinkedAs.stored {w' : World} (h : LinkedAs w w' v t p) :
    w'.stores.versions.get? p.key = some p := by
  rw [h.stores]
  exact (Store.put_get? _ _ _).trans (if_pos rfl)

theorem perform_link_of_stored (ho : t.ownerReference = some owner)
    (hv : w.stores.versions.get? v.key = some v) (now : Timestamp) :
    w.perform (v.link t now) =
      (.ok (.updated (w.stores.versions.updated v (v.linked t owner))),
        { w with
          stores :=
        ⟨w.stores.templates, w.stores.versions.put (w.stores.versions.updated v (v.linked t owner))⟩
          bus := w.bus.send (.versionLinked v.key t.key now) }) := by
  have hread : w.stores.versions.get? (v.linked t owner).key = some v := by rw [linked_key, hv]
  rw [perform_link, ho]
  simp only [Store.update_eq_of_read hread (linked_resourceVersion v t owner)]

theorem perform_assign_of_stored {n : UInt32} (hv : w.stores.versions.get? v.key = some v)
    (hn : w.ledger.next? t.key t.metadata.uid = some n) (now : Timestamp) :
    ∃ w', w.perform (v.assign t now) =
        (.ok (.updated (w.stores.versions.restated v (v.numbered n now))), w') ∧
      w'.stores = ⟨w.stores.templates,
        w.stores.versions.put (w.stores.versions.restated v (v.numbered n now))⟩ ∧
      w'.ledger = w.ledger.advance t.key t.metadata.uid ∧ w'.enqueued = w.enqueued ++ [t.key] := by
  have hread : w.stores.versions.get? (v.numbered n now).key = some v := hv
  rw [perform_assign, hn]
  simp only [perform_record, Store.updateStatus_eq_of_read hread rfl]
  exact ⟨_, rfl, rfl, rfl, rfl⟩

theorem linkedAs_of_stored (hu : t.metadata.uid ≠ none) (hv : w.stores.versions.get? v.key = some v)
    (now : Timestamp) :
    ∃ p w', w.perform (v.link t now) = (.ok (.updated p), w') ∧ LinkedAs w w' v t p := by
  obtain ⟨owner, ho⟩ : ∃ owner, t.ownerReference = some owner := by
    rw [← Option.isSome_iff_exists, Template.ownerReference, Option.isSome_map,
      Option.isSome_iff_ne_none]
    exact hu
  refine ⟨_, _, perform_link_of_stored ho hv now, ?_⟩
  have howns : (v.linked t owner).ownedBy t = true := linked_ownedBy ho
  constructor
  · rfl
  · rfl
  · have hlabel :
        (v.linked t owner).metadata.labels.find? templateLabel = some t.metadata.name := by
      rw [linked_eq]
      simp [Table.find?_insert]
    change (decide ((v.linked t owner).metadata.labels.find? templateLabel =
      some t.metadata.name) && (v.linked t owner).ownedBy t) = true
    simp [hlabel, howns]
  · intro name
    change (v.linked t owner).metadata.labels.find? name = _
    rw [linked_eq]
    exact Table.find?_insert _ _ _ _
  · exact ⟨owner, ho, linked_owners ho⟩
  · rw [linked_eq]
    simp [Store.updated]

/-- A version that is linked gets the next number, which no later delivery takes back. -/
theorem numberedAs_of_stored (hv : w.stores.versions.get? v.key = some v)
    (hroom : (w.ledger.latest t.key t.metadata.uid).toNat + 1 < UInt32.size) (now : Timestamp) :
    ∃ p w', w.perform (v.assign t now) = (.ok (.updated p), w') ∧ NumberedAs w w' v t p := by
  have hn : w.ledger.next? t.key t.metadata.uid = some (w.ledger.latest t.key t.metadata.uid + 1) :=
    Counter.next?_of_lt hroom
  obtain ⟨w', hperform, hstores, hledger, hqueue⟩ := perform_assign_of_stored hv hn now
  refine ⟨_, w', hperform, ?_⟩
  constructor
  · exact hstores
  · refine ⟨w.ledger.latest t.key t.metadata.uid + 1, ?_, Counter.toNat_succ hroom, ?_⟩
    · exact if_pos (numbered_assigned v _ now)
    · rw [hledger]
      exact Ledger.latest_advance hn
  · intro k hne
    rw [hledger]
    exact (Ledger.advance_find? _ _ _ _).trans (if_neg hne)
  · exact hqueue
  · rfl
  · rfl
  · exact Conditions.eraseP_set _ _ _ _ _ _
  · rfl

theorem NumberedAs.assigned {w' : World} (h : NumberedAs w w' v t p) : p.assigned = true := by
  obtain ⟨n, hn, -⟩ := h.number
  exact (Ledger.assignedNumber_eq_some.mp hn).1

theorem number_of_assigned (ha : v.assigned = true) (w : World) (now : Timestamp) :
    w.perform (v.number now) = (.ok .unchanged, w) := by
  rw [perform_number, if_pos (by simp [ha])]

theorem number_of_open (hlive : v.deleting = false) (hopen : v.assigned = false)
    (ht : w.stores.templates.get? v.templateKey = some t) (now : Timestamp) :
    w.perform (v.number now) = if v.linkedTo t then w.perform (v.assign t now)
      else w.perform (v.link t now) := by
  rw [perform_number, if_neg (by simp [hlive, hopen]), ht]

/-- A stored version that waits for a number is linked by one delivery and numbered by the next. -/
theorem linked_then_numbered (hmade : w.stores.templates.Made)
    (hv : w.stores.versions.get? v.key = some v)
    (ht : w.stores.templates.get? v.templateKey = some t) (hlive : v.deleting = false)
    (hopen : v.assigned = false)
    (hroom : (w.ledger.latest t.key t.metadata.uid).toNat + 1 < UInt32.size) (now : Timestamp) :
    (v.linkedTo t = false →
      ∃ p w', w.perform (v.number now) = (.ok (.updated p), w') ∧ LinkedAs w w' v t p ∧
        ∀ next, ∃ q w'', w'.perform (p.number next) = (.ok (.updated q), w'') ∧
        NumberedAs w' w'' p t q ∧
          ∀ later, w''.perform (q.number later) = (.ok .unchanged, w'')) ∧
    (v.linkedTo t = true →
      ∃ q w', w.perform (v.number now) = (.ok (.updated q), w') ∧ NumberedAs w w' v t q ∧
        ∀ later, w'.perform (q.number later) = (.ok .unchanged, w')) := by
  constructor
  · intro hlink
    obtain ⟨p, w', hperform, h⟩ := linkedAs_of_stored (hmade.named _ _ ht) hv now
    refine ⟨p, w', by rw [number_of_open hlive hopen ht, hlink]; exact hperform, h, fun next => ?_⟩
    have hfound : w'.stores.templates.get? p.templateKey = some t := by
      rw [h.others, h.stores]
      exact ht
    obtain ⟨q, w'', hperform', h'⟩ :=
      numberedAs_of_stored h.stored (by rw [h.ledger]; exact hroom) next
    refine ⟨q, w'', ?_, h', number_of_assigned h'.assigned w''⟩
    have hp : p.deleting = false ∧ p.assigned = false := by
      rw [h.others]
      exact ⟨hlive, hopen⟩
    rw [number_of_open hp.1 hp.2 hfound, h.linked]
    exact hperform'
  · intro hlink
    obtain ⟨q, w', hperform, h⟩ := numberedAs_of_stored hv hroom now
    refine ⟨q, w', by rw [number_of_open hlive hopen ht, hlink]; exact hperform, h, ?_⟩
    exact number_of_assigned h.assigned w'

def remade : Template :=
  (Store.empty .template).created ⟨Meta.named "models" "llama", .empty, .empty⟩ ⟨1⟩ default

def leftover : Version where
  metadata :=
    { Meta.named "models" "a" with
      uid := some ⟨2⟩
      owners := [⟨apiVersion, Kind.template.text, "llama", ⟨7⟩⟩] }
  spec := { VersionSpec.empty with templateName := "llama" }
  status := .empty

def reopened : World :=
  { World.empty with stores :=
    ⟨(Store.empty .template).after [.create remade ⟨1⟩ default],
      (Store.empty .version).put leftover⟩ }

theorem linked_then_numbered_leftover :
    ∃ p w' q w'', reopened.perform (leftover.number default) = (.ok (.updated p), w') ∧
      LinkedAs reopened w' leftover remade p ∧
      w'.perform (p.number default) = (.ok (.updated q), w'') ∧ NumberedAs w' w'' p remade q := by
  have hmade : reopened.stores.templates.Made :=
    ⟨.template, Store.defaultWatchCapacity, .empty .template, _, rfl, rfl⟩
  obtain ⟨hlink, -⟩ :=
    linked_then_numbered (v := leftover) (t := remade) hmade rfl rfl rfl rfl (by decide) default
  obtain ⟨p, w', hp, hlinked, hnext⟩ := hlink (by decide)
  obtain ⟨q, w'', hq, hnumbered, -⟩ := hnext default
  exact ⟨p, w', q, w'', hp, hlinked, hq, hnumbered⟩

end Version
end ModelTemplates
