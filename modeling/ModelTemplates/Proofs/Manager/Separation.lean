import ModelTemplates.Proofs.Manager.Turns
/-! Templates are numbered apart from each other. Of two runs in which the same acts concern a
template, what is seen of its numbering is the same, whatever becomes of other templates and their
versions meanwhile. -/
namespace ModelTemplates

namespace Ledger

variable {l l' : Ledger} {k : Key}

theorem entry?_congr (h : l.entries.find? k = l'.entries.find? k) (owner : Option Uid) :
    l.entry? k owner = l'.entry? k owner := by
  unfold entry?
  rw [h]

theorem next?_congr (h : l.entries.find? k = l'.entries.find? k) (owner : Option Uid) :
    l.next? k owner = l'.next? k owner := by
  rw [next?, next?, latest_congr h]

theorem find?_advance_congr (h : l.entries.find? k = l'.entries.find? k) (owner : Option Uid) :
    (l.advance k owner).entries.find? k = (l'.advance k owner).entries.find? k := by
  simp only [advance_find?, advanced, entry?_congr h, next?_congr h, latest_congr h, ↓reduceIte]

theorem find?_remove_congr (h : l.entries.find? k = l'.entries.find? k) (owner : Option Uid) :
    (l.remove k owner).entries.find? k = (l'.remove k owner).entries.find? k := by
  simp only [remove_find?, removes, entry?_congr h, h]

end Ledger

structure Template.Standing where
  uid : Option Uid
  deleting : Bool
  latest : UInt32

namespace Template

def standing (t : Template) : Standing := ⟨t.metadata.uid, t.deleting, t.status.latestVersion⟩

theorem nextLatest_congr {t t' : Template} {l l' : Ledger} (h : t'.standing = t.standing)
    (hk : t'.key = t.key) (hl : l.entries.find? t.key = l'.entries.find? t.key) :
    t'.nextLatest l' = t.nextLatest l := by
  obtain ⟨huid, hdeleting, hlatest⟩ := Standing.mk.inj h
  simp only [nextLatest, huid, hdeleting, hlatest, hk, Ledger.latest_congr hl.symm]

end Template

namespace Version

/-- What is seen of a version: what clients and handlers wrote, but no moment and no
configuration. -/
structure Standing where
  spec : VersionSpec
  labels : Table String String
  owners : List OwnerReference
  deleting : Bool
  number : UInt32
  assigned : Bool

def standing (v : Version) : Standing :=
  ⟨v.spec, v.metadata.labels, v.metadata.owners, v.deleting, v.status.version, v.assigned⟩

variable {v v' : Version} {t t' : Template} {template template' : Option Template}
  {l l' : Ledger} {k : Key} {now : Timestamp}

theorem standing_bare (v : Version) : v.bare.standing = v.standing := by
  simp only [standing, bare_assigned, bare_deleting]
  rfl

theorem standing_numbered (v : Version) (n : UInt32) (now : Timestamp) :
    (v.numbered n now).standing = { v.standing with number := n, assigned := true } := by
  simp only [standing, numbered_assigned]
  rfl

theorem linkedTo_congr (hv : v.standing = v'.standing) (hk : t.key = t'.key)
    (hu : t.metadata.uid = t'.metadata.uid) :
    v.linkedTo t = v'.linkedTo t' := by
  obtain ⟨-, hlabels, howners, -, -, -⟩ := Standing.mk.inj hv
  obtain ⟨-, hname⟩ := Key.mk.inj hk
  simp only [linkedTo, ownedBy, Meta.ownedBy, hlabels, howners, hname, hu]

theorem standing_linked_congr (hv : v.standing = v'.standing) (hk : t.key = t'.key)
    (hu : t.metadata.uid = t'.metadata.uid) (owner : OwnerReference) :
    (v.linked t owner).standing = (v'.linked t' owner).standing := by
  obtain ⟨hspec, hlabels, howners, hdeleting, hnumber, hassigned⟩ := Standing.mk.inj hv
  obtain ⟨-, hname⟩ := Key.mk.inj hk
  have howned (labels : Table String String) (owners : List OwnerReference) :
      ownedBy { v with metadata := { v.metadata with labels := labels, owners := owners } } t =
        ownedBy
          { v' with metadata := { v'.metadata with labels := labels, owners := owners } } t' := by
    simp only [ownedBy, Meta.ownedBy, hu]
  unfold linked
  simp only [hlabels, howners, hname]
  rw [howned]
  split
  · exact (Standing.mk.injEq ..).mpr ⟨hspec, rfl, rfl, hdeleting, hnumber, hassigned⟩
  · exact (Standing.mk.injEq ..).mpr ⟨hspec, rfl, rfl, hdeleting, hnumber, hassigned⟩

theorem course_key (v : Version) (template : Option Template) (l : Ledger) (now : Timestamp) :
    (v.course template l now).1.key = v.key ∧
      (v.course template l now).1.templateKey = v.templateKey := by
  unfold course
  split
  · exact ⟨rfl, rfl⟩
  · split
    · exact ⟨rfl, rfl⟩
    · split
      · split <;> exact ⟨rfl, rfl⟩
      · split
        · exact ⟨rfl, rfl⟩
        · next t _ _ owner _ =>
          rw [linked_eq]
          exact ⟨rfl, rfl⟩

theorem course_find?_of_ne (h : ∀ t ∈ template, t.key ≠ k) (v : Version) (l : Ledger)
    (now : Timestamp) :
    (v.course template l now).2.entries.find? k = l.entries.find? k := by
  unfold course
  split
  · rfl
  · split
    · rfl
    · next t =>
      split
      · split
        · rfl
        · exact (Ledger.advance_find? _ _ _ _).trans (if_neg fun he => h t rfl he.symm)
      · split <;> rfl

/-- Numbering goes by what is seen of the version, of its template and of their entry in the
ledger. -/
theorem course_standing_congr (hv : v.standing = v'.standing)
    (ht : template.map Template.standing = template'.map Template.standing)
    (hk : ∀ t ∈ template, t.key = k) (hk' : ∀ t ∈ template', t.key = k)
    (hl : l.entries.find? k = l'.entries.find? k) (now now' : Timestamp) :
    (v.course template l now).1.standing = (v'.course template' l' now').1.standing ∧
      (v.course template l now).2.entries.find? k =
      (v'.course template' l' now').2.entries.find? k := by
  have hdeleting : v.deleting = v'.deleting := congrArg Standing.deleting hv
  have hassigned : v.assigned = v'.assigned := congrArg Standing.assigned hv
  unfold course
  rw [hdeleting, hassigned]
  by_cases hdone : (v'.deleting || v'.assigned) = true
  · simp only [if_pos hdone]
    exact ⟨hv, hl⟩
  · simp only [if_neg hdone]
    cases template with
    | none =>
      obtain rfl := Option.map_eq_none_iff.mp ht.symm
      exact ⟨hv, hl⟩
    | some t =>
      obtain ⟨t', rfl, hstanding⟩ := Option.map_eq_some_iff.mp ht.symm
      obtain rfl := hk t rfl
      have hkey : t'.key = t.key := hk' t' rfl
      have huid : t'.metadata.uid = t.metadata.uid := congrArg Template.Standing.uid hstanding
      have howner : t'.ownerReference = t.ownerReference := by
        obtain ⟨-, hname⟩ := Key.mk.inj hkey
        simp only [Template.ownerReference, huid, hname]
      simp only
      rw [linkedTo_congr hv hkey.symm huid.symm, howner, hkey, huid]
      by_cases hlinked : v'.linkedTo t' = true
      · simp only [if_pos hlinked, Ledger.next?_congr hl]
        cases l'.next? t.key t.metadata.uid with
        | none => exact ⟨hv, hl⟩
        | some n =>
          simp only [standing_numbered, hv]
          exact ⟨trivial, Ledger.find?_advance_congr hl _⟩
      · simp only [if_neg hlinked]
        cases t.ownerReference with
        | none => exact ⟨hv, hl⟩
        | some owner => exact ⟨standing_linked_congr hv hkey.symm huid.symm owner, hl⟩

theorem Comes.templateKey {w w' : World} {q : Version}
    (h : Comes w w' k (v.course template l now) q) :
    q.templateKey = v.templateKey := by
  rw [← bare_templateKey, h.bare, bare_templateKey, (course_key v template l now).2]

theorem Comes.standing {w w' : World} {next : Version × Ledger} {q : Version}
    (h : Comes w w' k next q) :
    q.standing = next.1.standing := by
  rw [← standing_bare, h.bare, standing_bare]

end Version

namespace ManagerTurns

variable {s s' s'' : ManagerTurns} {i j k : Key} {names names' : Key → Key} {act : Act}
  {m m' : Moment} {generate generate' : ServingGenerator} {v : Version} {uid : Uid}

def versionOf (s : ManagerTurns) (k j : Key) : Option Version :=
  (s.world.stores.versions.get? j).filter fun v => v.templateKey = k

def goneOf (s : ManagerTurns) (k : Key) : List (Option Uid) :=
  (s.gone.filter fun t => t.key = k).map (·.metadata.uid)

/-- Whether an act has to do with a template or one of its versions. Of a version that is deleted or
attended to this is seen when it is its turn. -/
def concerns (s : ManagerTurns) (k : Key) : Act → Bool
  | .createTemplate t _ => t.key = k
  | .createVersion v _ => v.templateKey = k
  | .deleteTemplate i => i = k
  | .deleteVersion j => (s.versionOf k j).isSome
  | .template i => i = k
  | .version j => (s.versionOf k j).isSome
  | .cleanup i _ => i = k

def concerning (k : Key) (generate : Nat → ServingGenerator) (s : ManagerTurns) :
    List Turn → List Act
  | [] => []
  | turn :: turns =>
    let rest := concerning k (fun n => generate (n + 1)) (s.step (generate 0) turn) turns
    if s.concerns k turn.act then turn.act :: rest else rest

/-- A version is created under a name that belongs to its template. -/
def Act.Fits (names : Key → Key) : Act → Prop
  | .createVersion v _ => v.templateKey = names v.key
  | _ => True

instance (names : Key → Key) : (act : Act) → Decidable (act.Fits names)
  | .createVersion v _ => inferInstanceAs (Decidable (v.templateKey = names v.key))
  | .createTemplate .. | .deleteTemplate _ | .deleteVersion _ => .isTrue trivial
  | .template _ | .version _ | .cleanup .. => .isTrue trivial

structure Filed (names : Key → Key) (s : ManagerTurns) : Prop extends s.Keyed where
  named : ∀ j v, s.world.stores.versions.get? j = some v → Version.templateKey v = names j

theorem versionOf_eq_some :
    s.versionOf k j = some v ↔ s.world.stores.versions.get? j = some v ∧ v.templateKey = k := by
  simp [versionOf, Option.filter_eq_some_iff]

theorem versionOf_congr (h : s.world.stores.versions.get? j = s'.world.stores.versions.get? j) :
    s.versionOf k j = s'.versionOf k j := by
  simp only [versionOf, h]

/-- Under a name that belongs to a template there is only a version of it. -/
theorem Filed.versionOf_eq (h : s.Filed names) (hj : names j = k) :
    s.versionOf k j = s.world.stores.versions.get? j := by
  cases hv : s.world.stores.versions.get? j with
  | none => simp [versionOf, hv]
  | some v => exact versionOf_eq_some.mpr ⟨hv, (h.named j v hv).trans hj⟩

/-- The numbers of a template are forgotten only when it was deleted. -/
theorem step_cleanup (s : ManagerTurns) (generate : ServingGenerator) (m : Moment) (i : Key)
    (uid : Uid) :
    (s.step generate ⟨m, .cleanup i uid⟩).world.stores = s.world.stores ∧
      (s.step generate ⟨m, .cleanup i uid⟩).world.ledger =
        (if some uid ∈ s.goneOf i then s.world.ledger.remove i (some uid) else s.world.ledger) ∧
      (s.step generate ⟨m, .cleanup i uid⟩).gone = s.gone := by
  unfold ManagerTurns.step
  simp only
  cases hg : s.gone? i uid with
  | none =>
    have hnot : some uid ∉ s.goneOf i := by
      simp only [goneOf, List.mem_map, List.mem_filter, decide_eq_true_eq]
      rintro ⟨t, ⟨ht, hkey⟩, huid⟩
      exact List.find?_eq_none.mp hg t ht (decide_eq_true ⟨hkey, huid⟩)
    simp only [if_neg hnot, and_self]
  | some t =>
    have hfound : s.gone.find? (fun t => decide (t.key = i ∧ t.metadata.uid = some uid)) = some t :=
      hg
    have hsought := List.find?_some hfound
    obtain ⟨hkey, huid⟩ := of_decide_eq_true hsought
    have hmem : some uid ∈ s.goneOf i := by
      simp only [goneOf, List.mem_map, List.mem_filter, decide_eq_true_eq]
      exact ⟨t, ⟨List.mem_of_find?_eq_some hfound, hkey⟩, huid⟩
    simp only [if_pos hmem, Template.perform_forgetNumbers, huid, and_true]
    split <;> exact ⟨rfl, rfl⟩

theorem Filed.step (h : s.Filed names) (hfits : act.Fits names) (generate : ServingGenerator)
    (m : Moment) :
    (s.step generate ⟨m, act⟩).Filed names := by
  refine ⟨h.toKeyed.step generate _, ?_⟩
  have hnamed := h.named
  cases act with
  | createTemplate t uid => exact hnamed
  | deleteTemplate i => exact hnamed
  | createVersion v uid =>
    intro j x hx
    simp only [ManagerTurns.step, World.withVersions, Store.serve_create_get?] at hx
    split at hx
    · next hj =>
      obtain rfl := Option.some.inj hx
      exact hfits.trans (congrArg names hj.1.symm)
    · exact hnamed j x hx
  | deleteVersion i =>
    intro j x hx
    simp only [ManagerTurns.step, World.withVersions, Store.serve_delete_get?] at hx
    split at hx
    · contradiction
    · exact hnamed j x hx
  | template i =>
    cases hi : s.world.stores.templates.get? i with
    | none => rwa [step_template_of_none hi]
    | some t =>
      obtain rfl := h.templates _ _ hi
      obtain ⟨p, hp, -⟩ := step_template_comes hi generate m
      rw [hp.versions]
      exact hnamed
  | version i =>
    cases hi : s.world.stores.versions.get? i with
    | none => rwa [step_version_of_none hi]
    | some v =>
      obtain rfl := h.versions _ _ hi
      obtain ⟨q, hq⟩ := step_version_comes hi generate m
      intro j x hx
      by_cases hj : j = v.key
      · obtain rfl : q = x := Option.some.inj (hq.stored.symm.trans (hj ▸ hx))
        rw [hj]
        exact hq.templateKey.trans (hnamed _ _ hi)
      · exact hnamed j x ((hq.others j hj).symm.trans hx)
  | cleanup i uid =>
    obtain ⟨hstores, -, -⟩ := step_cleanup s generate m i uid
    rw [hstores]
    exact hnamed

/-- The same is seen of a template, of its versions and of its entry in the ledger. -/
structure Kin (k : Key) (s s' : ManagerTurns) : Prop where
  template : (s.world.stores.templates.get? k).map Template.standing =
    (s'.world.stores.templates.get? k).map Template.standing
  entry : s.world.ledger.entries.find? k = s'.world.ledger.entries.find? k
  versions : ∀ j, (s.versionOf k j).map Version.standing = (s'.versionOf k j).map Version.standing
  gone : s.goneOf k = s'.goneOf k

theorem Kin.refl (k : Key) (s : ManagerTurns) : Kin k s s := ⟨rfl, rfl, fun _ => rfl, rfl⟩

theorem Kin.symm (h : Kin k s s') : Kin k s' s :=
  ⟨h.template.symm, h.entry.symm, fun j => (h.versions j).symm, h.gone.symm⟩

theorem Kin.trans (h : Kin k s s') (h' : Kin k s' s'') : Kin k s s'' :=
  ⟨h.template.trans h'.template, h.entry.trans h'.entry,
    fun j => (h.versions j).trans (h'.versions j), h.gone.trans h'.gone⟩

theorem versionOf_createVersion (s : ManagerTurns) (generate : ServingGenerator) (m : Moment)
    (v : Version) (uid : Uid) (k j : Key) :
    (s.step generate ⟨m, .createVersion v uid⟩).versionOf k j =
      if j = v.key ∧ s.world.stores.versions.get? j = none then
        if v.templateKey = k then some (s.world.stores.versions.created v uid m.time) else none
      else s.versionOf k j := by
  simp only [versionOf, ManagerTurns.step, World.withVersions, Store.serve_create_get?]
  by_cases hj : j = v.key ∧ s.world.stores.versions.get? j = none
  · have hnamed :
        Version.templateKey (s.world.stores.versions.created v uid m.time) = v.templateKey := rfl
    simp only [if_pos hj, Option.filter_some, hnamed, decide_eq_true_eq]
  · simp only [if_neg hj]

theorem versionOf_deleteVersion (s : ManagerTurns) (generate : ServingGenerator) (m : Moment)
    (i k j : Key) :
    (s.step generate ⟨m, .deleteVersion i⟩).versionOf k j = if j = i then none
      else s.versionOf k j := by
  simp only [versionOf, ManagerTurns.step, World.withVersions, Store.serve_delete_get?]
  split <;> rfl

theorem goneOf_deleteTemplate (h : s.Keyed) (generate : ServingGenerator) (m : Moment) (i k : Key) :
    (s.step generate ⟨m, .deleteTemplate i⟩).goneOf k =
      (if i = k then
        ((s.world.stores.templates.get? i).map Template.standing).toList.map Template.Standing.uid
        else []) ++ s.goneOf k := by
  simp only [goneOf, ManagerTurns.step]
  cases hi : s.world.stores.templates.get? i with
  | none => simp
  | some t =>
    have hkey : (Store.buried t m.time).key = i := h.templates i t hi
    have huid : (Store.buried t m.time).metadata.uid = t.metadata.uid := rfl
    by_cases hik : i = k
    · simp [hkey, huid, hik, Template.standing]
    · simp [hkey, hik]

/-- An act that does not concern a template changes nothing that is seen of it. -/
theorem Kin.other (h : s.Filed names) (hc : s.concerns k act = false) (generate : ServingGenerator)
    (m : Moment) :
    Kin k (s.step generate ⟨m, act⟩) s := by
  cases act with
  | createTemplate t uid =>
    have hne : k ≠ t.key := fun he => of_decide_eq_false hc he.symm
    refine ⟨?_, rfl, fun j => rfl, rfl⟩
    simp only [ManagerTurns.step, World.withTemplates, Store.serve_create_get?, hne,
      false_and, ↓reduceIte]
  | createVersion v uid =>
    have hne : v.templateKey ≠ k := of_decide_eq_false hc
    refine ⟨rfl, rfl, fun j => ?_, rfl⟩
    rw [versionOf_createVersion, if_neg hne]
    split
    · next hj => simp [versionOf, hj.2]
    · rfl
  | deleteTemplate i =>
    have hne : i ≠ k := of_decide_eq_false hc
    refine ⟨?_, rfl, fun j => rfl, ?_⟩
    · simp only [ManagerTurns.step, World.withTemplates, Store.serve_delete_get?,
        hne.symm, ↓reduceIte]
    · rw [goneOf_deleteTemplate h.toKeyed, if_neg hne, List.nil_append]
  | deleteVersion i =>
    have hnone : s.versionOf k i = none := by simpa [concerns] using hc
    refine ⟨rfl, rfl, fun j => ?_, rfl⟩
    rw [versionOf_deleteVersion]
    split
    · next hj => rw [hj, hnone]
    · rfl
  | template i =>
    have hne : i ≠ k := of_decide_eq_false hc
    cases hi : s.world.stores.templates.get? i with
    | none => rw [step_template_of_none hi]; exact .refl k s
    | some t =>
      obtain rfl := h.templates _ _ hi
      obtain ⟨p, hp, -⟩ := step_template_comes hi generate m
      refine ⟨by rw [hp.others k hne.symm], by rw [hp.ledger], fun j => ?_, rfl⟩
      rw [versionOf, versionOf, hp.versions]
  | version i =>
    have hnone : s.versionOf k i = none := by simpa [concerns] using hc
    cases hi : s.world.stores.versions.get? i with
    | none => rw [step_version_of_none hi]; exact .refl k s
    | some v =>
      obtain rfl := h.versions _ _ hi
      have hne : Version.templateKey v ≠ k := fun he => by
        rw [versionOf_eq_some.mpr ⟨hi, he⟩] at hnone
        contradiction
      obtain ⟨q, hq⟩ := step_version_comes hi generate m
      refine ⟨by rw [hq.templates], ?_, fun j => ?_, rfl⟩
      · rw [hq.ledger]
        exact Version.course_find?_of_ne (fun t ht he =>
          hne ((h.templates _ t ht).symm.trans he)) v _ _
      · by_cases hj : j = v.key
        · have hafter : (s.step generate ⟨m, .version v.key⟩).versionOf k v.key = none := by
            simp [versionOf, hq.stored, hq.templateKey, hne]
          rw [hj, hafter, hnone]
        · rw [versionOf_congr (hq.others j hj)]
  | cleanup i uid =>
    have hne : i ≠ k := of_decide_eq_false hc
    obtain ⟨hstores, hledger, hgone⟩ := step_cleanup s generate m i uid
    refine ⟨by rw [hstores], ?_, fun j => by rw [versionOf, versionOf, hstores],
      by rw [goneOf, goneOf, hgone]⟩
    rw [hledger]
    split
    · exact (Ledger.remove_find? _ _ _ _).trans (if_neg fun he => hne he.1.symm)
    · rfl

theorem Kin.template_none (hkin : Kin k s s') :
    s.world.stores.templates.get? k = none ↔ s'.world.stores.templates.get? k = none := by
  rw [← Option.map_eq_none_iff, hkin.template, Option.map_eq_none_iff]

theorem Kin.step_template (hkin : Kin k s s') (h : s.Keyed) (h' : s'.Keyed)
    (generate generate' : ServingGenerator) (m m' : Moment) :
    Kin k (s.step generate ⟨m, .template k⟩) (s'.step generate' ⟨m', .template k⟩) := by
  cases ht : s.world.stores.templates.get? k with
  | none => rwa [step_template_of_none ht, step_template_of_none (hkin.template_none.mp ht)]
  | some t =>
    have hstanding := hkin.template
    rw [ht] at hstanding
    obtain ⟨t', ht', hsame⟩ := Option.map_eq_some_iff.mp hstanding.symm
    obtain rfl := h.templates _ _ ht
    have hkey : t'.key = Object.key t := h'.templates _ _ ht'
    obtain ⟨p, hp, hlatest⟩ := step_template_comes ht generate m
    obtain ⟨p', hp', hlatest'⟩ := step_template_comes (hkey.symm ▸ ht') generate' m'
    rw [hkey] at hp'
    have hstands : p'.standing = p.standing := by
      obtain ⟨huid, hdeleting, -⟩ := Template.Standing.mk.inj hsame
      simp only [Template.standing, hp.uid, hp.deleting, hlatest, hp'.uid, hp'.deleting, hlatest',
        huid, hdeleting, Template.nextLatest_congr hsame hkey hkin.entry]
    refine ⟨?_, ?_, fun j => ?_, hkin.gone⟩
    · have hstored' := hp'.stored
      rw [hkey] at hstored'
      rw [hp.stored, hstored', Option.map_some, Option.map_some, hstands]
    · rw [hp.ledger, hp'.ledger, hkin.entry]
    · rw [versionOf, versionOf, hp.versions, hp'.versions]
      exact hkin.versions j

theorem Kin.step_version {j : Key} (hkin : Kin k s s') (h : s.Keyed) (h' : s'.Keyed)
    (hc : (s.versionOf k j).isSome) (generate generate' : ServingGenerator) (m m' : Moment) :
    Kin k (s.step generate ⟨m, .version j⟩) (s'.step generate' ⟨m', .version j⟩) := by
  obtain ⟨v, hv⟩ := Option.isSome_iff_exists.mp hc
  have hstanding := hkin.versions j
  rw [hv] at hstanding
  obtain ⟨v', hv', hsame⟩ := Option.map_eq_some_iff.mp hstanding.symm
  obtain ⟨hread, hnamed⟩ := versionOf_eq_some.mp hv
  obtain ⟨hread', hnamed'⟩ := versionOf_eq_some.mp hv'
  obtain rfl := h.versions _ _ hread
  have hkey : v'.key = v.key := h'.versions _ _ hread'
  obtain ⟨q, hq⟩ := step_version_comes hread generate m
  obtain ⟨q', hq'⟩ := step_version_comes (hkey.symm ▸ hread') generate' m'
  rw [hkey, hnamed'] at hq'
  rw [hnamed] at hq
  obtain ⟨hcourse, hentry⟩ :=
    Version.course_standing_congr hsame.symm hkin.template (h.templates k) (h'.templates k)
    hkin.entry m.time m'.time
  have hafter : (s.step generate ⟨m, .version v.key⟩).versionOf k v.key = some q :=
    versionOf_eq_some.mpr ⟨hq.stored, hq.templateKey.trans hnamed⟩
  have hafter' : (s'.step generate' ⟨m', .version v.key⟩).versionOf k v.key = some q' :=
    versionOf_eq_some.mpr ⟨hq'.stored, hq'.templateKey.trans hnamed'⟩
  refine ⟨?_, ?_, fun j => ?_, hkin.gone⟩
  · rw [hq.templates, hq'.templates, hkin.template]
  · rw [hq.ledger, hq'.ledger, hentry]
  · by_cases hj : j = v.key
    · rw [hj, hafter, hafter', Option.map_some, Option.map_some, hq.standing, hq'.standing, hcourse]
    · rw [versionOf_congr (hq.others j hj), versionOf_congr (hq'.others j hj), hkin.versions j]

/-- An act that concerns a template does the same in both, with whatever generator and at whatever
moment. -/
theorem Kin.step (hkin : Kin k s s') (h : s.Filed names) (h' : s'.Filed names)
    (hfits : act.Fits names) (hc : s.concerns k act = true) (generate generate' : ServingGenerator)
    (m m' : Moment) :
    Kin k (s.step generate ⟨m, act⟩) (s'.step generate' ⟨m', act⟩) := by
  cases act with
  | createTemplate t uid =>
    obtain rfl : t.key = k := of_decide_eq_true hc
    refine ⟨?_, hkin.entry, hkin.versions, hkin.gone⟩
    simp only [ManagerTurns.step, World.withTemplates, Store.serve_create_get?, hkin.template_none]
    split
    · rfl
    · exact hkin.template
  | createVersion v uid =>
    obtain rfl : v.templateKey = k := of_decide_eq_true hc
    have hnone : s.world.stores.versions.get? v.key = none ↔
      s'.world.stores.versions.get? v.key = none := by
      rw [← h.versionOf_eq hfits.symm, ← h'.versionOf_eq hfits.symm, ← Option.map_eq_none_iff,
        hkin.versions, Option.map_eq_none_iff]
    refine ⟨hkin.template, hkin.entry, fun j => ?_, hkin.gone⟩
    simp only [versionOf_createVersion, if_true]
    by_cases hj : j = v.key
    · subst hj
      simp only [hnone, true_and]
      split
      · rfl
      · exact hkin.versions _
    · simp only [hj, false_and, if_false]
      exact hkin.versions j
  | deleteTemplate i =>
    obtain rfl : i = k := of_decide_eq_true hc
    refine ⟨?_, hkin.entry, hkin.versions, ?_⟩
    · simp only [ManagerTurns.step, World.withTemplates, Store.serve_delete_get?, if_true]
    · rw [goneOf_deleteTemplate h.toKeyed, goneOf_deleteTemplate h'.toKeyed,
        hkin.template, hkin.gone]
  | deleteVersion i =>
    refine ⟨hkin.template, hkin.entry, fun j => ?_, hkin.gone⟩
    simp only [versionOf_deleteVersion]
    split
    · rfl
    · exact hkin.versions j
  | template i =>
    obtain rfl : i = k := of_decide_eq_true hc
    exact hkin.step_template h.toKeyed h'.toKeyed generate generate' m m'
  | version i => exact hkin.step_version h.toKeyed h'.toKeyed hc generate generate' m m'
  | cleanup i uid =>
    obtain rfl : i = k := of_decide_eq_true hc
    obtain ⟨hstores, hledger, hgone⟩ := step_cleanup s generate m i uid
    obtain ⟨hstores', hledger', hgone'⟩ := step_cleanup s' generate' m' i uid
    refine ⟨?_, ?_, fun j => ?_, ?_⟩
    · rw [hstores, hstores', hkin.template]
    · rw [hledger, hledger', hkin.gone]
      split
      · exact Ledger.find?_remove_congr hkin.entry _
      · exact hkin.entry
    · rw [versionOf, versionOf, hstores, hstores']
      exact hkin.versions j
    · rw [goneOf, goneOf, hgone, hgone']
      exact hkin.gone

def replay (s : ManagerTurns) (acts : List Act) : ManagerTurns :=
  s.run (fun _ _ => .ok "") (acts.map (⟨default, ·⟩))

theorem Kin.run (hkin : Kin k s s') (h : s.Filed names) (h' : s'.Filed names)
    (generate : Nat → ServingGenerator) (turns : List Turn)
    (hfits : ∀ turn ∈ turns, turn.act.Fits names) :
    Kin k (s.run generate turns) (s'.replay (concerning k generate s turns)) := by
  induction turns generalizing s s' generate with
  | nil => exact hkin
  | cons turn turns ih =>
    obtain ⟨m, act⟩ := turn
    obtain ⟨hfit, hfits⟩ := List.forall_mem_cons.mp hfits
    have hfiled := h.step hfit (generate 0) m
    simp only [concerning]
    by_cases hc : s.concerns k act = true
    · rw [if_pos hc]
      exact ih (hkin.step h h' hfit hc _ _ _ _) hfiled (h'.step hfit _ _) _ hfits
    · rw [if_neg hc]
      exact ih ((Kin.other h (eq_false_of_ne_true hc) _ _).trans hkin) hfiled h' _ hfits

theorem concerning_take (k : Key) (generate : Nat → ServingGenerator) (s : ManagerTurns)
    (turns : List Turn) (n : Nat) :
    concerning k generate s (turns.take n) <+: concerning k generate s turns := by
  induction turns generalizing generate s n with
  | nil => simp [concerning]
  | cons turn turns ih =>
    cases n with
    | zero => exact List.nil_prefix
    | succ n =>
      have hrest := ih (fun i => generate (i + 1)) (s.step (generate 0) turn) n
      simp only [List.take_succ_cons, concerning]
      split
      · exact (List.cons_prefix_cons ..).mpr ⟨rfl, hrest⟩
      · exact hrest

/-- Two runs in which the same acts concern a template, each with its own generators and moments.
After as many of these acts in the one as in the other the template has the same entry in the
ledger, its versions are there with the same numbers, and its status has the same latest number. -/
theorem templates_number_apart (h : s.Filed names) (h' : s.Filed names') (k : Key)
    (generate generate' : Nat → ServingGenerator) (turns turns' : List Turn)
    (hfits : ∀ turn ∈ turns, turn.act.Fits names) (hfits' : ∀ turn ∈ turns', turn.act.Fits names')
    (hsame : concerning k generate s turns = concerning k generate' s turns') (n n' : Nat)
    (hlength : (concerning k generate s (turns.take n)).length =
      (concerning k generate' s (turns'.take n')).length) :
    let t := s.run generate (turns.take n)
    let t' := s.run generate' (turns'.take n')
    t.world.ledger.entries.find? k = t'.world.ledger.entries.find? k ∧
      (∀ j, (t.versionOf k j).map (fun v => (v.status.version, v.assigned)) =
        (t'.versionOf k j).map fun v => (v.status.version, v.assigned)) ∧
      (t.world.stores.templates.get? k).map (·.status.latestVersion) =
        (t'.world.stores.templates.get? k).map (·.status.latestVersion) := by
  have hacts : concerning k generate s (turns.take n) = concerning k generate' s (turns'.take n') :=
    (List.prefix_of_prefix_length_le (concerning_take k generate s turns n)
      (hsame ▸ concerning_take k generate' s turns' n') hlength.le).eq_of_length hlength
  -- Both runs are compared with the acts alone.
  have hleft := (Kin.refl k s).run h h generate (turns.take n) fun turn ht =>
    hfits turn (List.mem_of_mem_take ht)
  have hright := (Kin.refl k s).run h' h' generate' (turns'.take n') fun turn ht =>
    hfits' turn (List.mem_of_mem_take ht)
  have hkin := hleft.trans (hacts ▸ hright.symm)
  refine ⟨hkin.entry, fun j => ?_, ?_⟩
  · have hseen := congrArg (Option.map fun v => (v.number, v.assigned)) (hkin.versions j)
    rw [Option.map_map, Option.map_map] at hseen
    exact hseen
  · have hseen := congrArg (Option.map Template.Standing.latest) hkin.template
    rw [Option.map_map, Option.map_map] at hseen
    exact hseen

def together : List Turn :=
  [.createTemplate ⟨Meta.named "models" "qwen", .empty, .empty⟩ ⟨3⟩,
    .createTemplate ⟨Meta.named "models" "llama", .empty, .empty⟩ ⟨1⟩,
    .createVersion ⟨Meta.named "models" "b",
      { VersionSpec.empty with templateName := "qwen" }, .empty⟩ ⟨4⟩,
    .createVersion ⟨Meta.named "models" "a",
      { VersionSpec.empty with templateName := "llama" }, .empty⟩ ⟨2⟩,
    .version ⟨"models", "b"⟩, .version ⟨"models", "b"⟩, .version ⟨"models", "a"⟩,
    .createVersion ⟨Meta.named "models" "c",
      { VersionSpec.empty with templateName := "qwen" }, .empty⟩ ⟨5⟩,
    .version ⟨"models", "c"⟩, .version ⟨"models", "c"⟩, .version ⟨"models", "a"⟩].map fun act =>
      ⟨default, act⟩

theorem templates_number_apart_beside_two :
    let names : Key → Key := fun j => ⟨"models", if j.name = "a" then "llama" else "qwen"⟩
    let s := empty.run (fun _ _ => .ok "") firstNumber
    let s' := empty.run (fun _ _ => .ok "") together
    empty.Filed names ∧ (∀ turn ∈ firstNumber, turn.act.Fits names) ∧
      (∀ turn ∈ together, turn.act.Fits names) ∧
      s'.world.ledger.latest ⟨"models", "qwen"⟩ (some ⟨3⟩) = 2 ∧
      (s.versionOf ⟨"models", "llama"⟩ ⟨"models", "a"⟩).map (fun v =>
        (v.status.version, v.assigned)) = some (1, true) ∧
      (s'.versionOf ⟨"models", "llama"⟩ ⟨"models", "a"⟩).map (fun v =>
        (v.status.version, v.assigned)) = some (1, true) := by
  intro names s s'
  have hfiled : empty.Filed names :=
    ⟨keyed_empty, fun _ _ hv => (Option.some_ne_none _ hv.symm).elim⟩
  have hfirst : ∀ turn ∈ firstNumber, turn.act.Fits names := by decide
  have htogether : ∀ turn ∈ together, turn.act.Fits names := by decide
  have hsame : concerning ⟨"models", "llama"⟩ (fun _ _ => .ok "") empty firstNumber =
      concerning ⟨"models", "llama"⟩ (fun _ _ => .ok "") empty together := by decide
  obtain ⟨-, hnumbers, -⟩ :=
    templates_number_apart hfiled hfiled ⟨"models", "llama"⟩ (fun _ _ => .ok "")
    (fun _ _ => .ok "") firstNumber together hfirst htogether hsame 4 11
      (congrArg List.length hsame)
  have hnumber :
      (s.versionOf ⟨"models", "llama"⟩ ⟨"models", "a"⟩).map (fun v =>
        (v.status.version, v.assigned)) =
      some (1, true) := by decide
  exact ⟨hfiled, hfirst, htogether, by decide, hnumber, (hnumbers _).symm.trans hnumber⟩

end ManagerTurns
end ModelTemplates
