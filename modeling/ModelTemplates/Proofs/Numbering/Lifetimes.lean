import ModelTemplates.Proofs.Handler.Numbering
import ModelTemplates.Proofs.Store.Client
/-! Runs in which templates come and go under their names, versions are delivered late and more than
once, and the process restarts: the numbers under a template stay apart and below what the ledger
has for it. -/
namespace ModelTemplates.Numbering

structure State where
  world : World
  /-- Every state that a version was stored in. -/
  seen : List Version
  /-- The identifiers of all templates there have been. -/
  issued : List Uid
  /-- The templates that were deleted since the last restart. -/
  gone : List Template

inductive Action where
  | templates (c : Store.Call TemplateSpec TemplateStatus)
  | versions (c : Store.Call VersionSpec VersionStatus)
  | deliver (v : Version) (now : Timestamp)
  | cleanup (t : Template) (now : Timestamp)
  | restart

namespace State

def initial : State := ⟨.empty, [], [], []⟩

def note (s : State) (w : World) : State :=
  { s with world := w, seen := w.stores.versions.objects.values ++ s.seen }

def step (s : State) : Action → State
  | .templates c =>
    { s with
      world := s.world.withTemplates (s.world.stores.templates.serve c)
      issued := c.drawn ++ s.issued
      gone := s.world.stores.templates.leaving c ++ s.gone }
  | .versions c => s.note (s.world.withVersions (s.world.stores.versions.serve c))
  | .deliver v now => s.note (s.world.perform (v.number now)).2
  | .cleanup t now => { s with world := (s.world.perform (t.forgetNumbers t.key now)).2 }
  | .restart => { s with world := s.world.forget.rebuilt, gone := [] }

/-- Identifiers are drawn once. New versions have no status and no template, and clients leave the
template of a version alone. What is delivered was stored, and what is cleaned up after is gone. -/
def Permits (s : State) : Action → Prop
  | .templates c => ∀ uid ∈ c.drawn, uid ∉ s.issued
  | .versions (.create v _ _) =>
    v.status = .empty ∧ ∀ r ∈ v.metadata.owners, r.kind ≠ Kind.template.text
  | .versions (.update v) => ∀ c, s.world.stores.versions.fenced v = .ok c →
      v.metadata.owners = c.metadata.owners ∧ v.spec.templateName = c.spec.templateName
  | .versions (.delete _ _) => True
  | .deliver v _ => v ∈ s.seen
  | .cleanup t _ => ∃ g ∈ s.gone, g.key = t.key ∧ g.metadata.uid = t.metadata.uid
  | .restart => True

end State

inductive Reachable : State → Prop where
  | initial : Reachable .initial
  | step {s : State} (a : Action) :
      Reachable s → s.world.Unspent → s.Permits a → Reachable (s.step a)

variable {s s' : State} {a : Action} {k : Key} {uid : Uid} {v v' c : Version}
  {t : Template} {n : UInt32} {now : Timestamp} {issued : List Uid} {d d' : VersionStore}

/-- The references of a version lead to one template at most, which is or was there. -/
structure Rooted (issued : List Uid) (v : Version) : Prop where
  faithful : v.Faithful
  drawn : ∀ uid, v.ownerUid = some uid → uid ∈ issued

theorem Rooted.congr (h : Rooted issued c) (ho : v.metadata.owners = c.metadata.owners)
    (hn : v.spec.templateName = c.spec.templateName) : Rooted issued v :=
  ⟨h.faithful.congr ho hn, by rw [Version.ownerUid_congr ho hn]; exact h.drawn⟩

/-- A version of the store that has a number under a template. -/
structure Numbered (d : VersionStore) (k : Key) (uid : Uid) (v : Version) : Prop where
  stored : d.get? v.key = some v
  assigned : v.assigned = true
  named : v.templateKey = k
  owned : v.ownerUid = some uid

def Inherited (d d' : VersionStore) : Prop := ∀ k uid v, Numbered d' k uid v →
  ∃ c, Numbered d k uid c ∧ c.key = v.key ∧ c.status.version = v.status.version

theorem Inherited.without (d : VersionStore) (c : Version) (now : Timestamp) :
    Inherited d (d.without c now) := by
  rintro k uid v ⟨hk, ha, hn, ho⟩
  rw [Store.without_get?] at hk
  split at hk
  · contradiction
  · exact ⟨v, ⟨hk, ha, hn, ho⟩, rfl, rfl⟩

theorem Numbered.of_put (h : Numbered (d.put c) k uid v) : v = c ∨ Numbered d k uid v := by
  have hk := h.stored
  rw [Store.put_get?] at hk
  split at hk
  · exact .inl (Option.some.inj hk).symm
  · exact .inr ⟨hk, h.assigned, h.named, h.owned⟩

/-- What is put has its number from what it is put over, if it has any. -/
theorem Inherited.put (h : ∀ k uid, Numbered (d.put v) k uid v →
    ∃ c, Numbered d k uid c ∧ c.key = v.key ∧
      c.status.version = v.status.version) : Inherited d (d.put v) := by
  intro k uid p hp
  rcases hp.of_put with rfl | hp
  · exact h k uid hp
  · exact ⟨p, hp, rfl, rfl⟩

theorem Inherited.put_unassigned (h : v.assigned = false) : Inherited d (d.put v) :=
  .put fun _ _ hv => absurd hv.assigned (by simp [h])

/-- Numbers are counted for the template that has them, and no two of its versions have the same. -/
structure Sound (s : State) : Prop where
  recorded : s.world.stores.versions.Recorded s.seen
  keyed : s.world.stores.templates.Keyed
  identified : s.world.stores.templates.Identified s.issued
  rooted : ∀ k v, s.world.stores.versions.get? k = some v → Rooted s.issued v
  buried : ∀ g ∈ s.gone, ∃ uid ∈ s.issued, g.metadata.uid = some uid ∧
    ∀ k t, s.world.stores.templates.get? k = some t → t.metadata.uid ≠ some uid
  counted : ∀ k t uid v, s.world.stores.templates.get? k = some t → t.metadata.uid = some uid →
    Numbered s.world.stores.versions k uid v →
      1 ≤ v.status.version ∧ v.status.version ≤ s.world.ledger.latest k (some uid)
  /-- Who may still be cleaned up after does not share an entry with a template that has numbers. -/
  unshared : ∀ k t uid v e, s.world.stores.templates.get? k = some t → t.metadata.uid = some uid →
    Numbered s.world.stores.versions k uid v → s.world.ledger.entries.find? k = some e →
    e.owner = none →
      ∀ g ∈ s.gone, g.key ≠ k
  apart : ∀ k uid v v', Numbered s.world.stores.versions k uid v →
    Numbered s.world.stores.versions k uid v' → v.status.version = v'.status.version → v = v'

theorem sound_initial : Sound .initial where
  recorded := Store.recorded_empty _
  keyed _ _ h := by cases h
  identified := ⟨fun h => (by cases h), fun h => (by cases h)⟩
  rooted _ _ h := by cases h
  buried _ h := absurd h List.not_mem_nil
  counted _ _ _ _ h := by cases h
  unshared _ _ _ _ _ h := by cases h
  apart _ _ _ _ h := by have := h.stored; contradiction

theorem Sound.inherit (h : Sound s) (hs : s'.world.stores.templates = s.world.stores.templates)
    (hl : s'.world.ledger = s.world.ledger) (hi : s'.issued = s.issued) (hg : s'.gone = s.gone)
    (hr : s'.world.stores.versions.Recorded s'.seen)
    (ho : ∀ k v, s'.world.stores.versions.get? k = some v → Rooted s.issued v)
    (hn : Inherited s.world.stores.versions s'.world.stores.versions) : Sound s' where
  recorded := hr
  keyed := hs ▸ h.keyed
  identified := by rw [hs, hi]; exact h.identified
  rooted := by rw [hi]; exact ho
  buried := by rw [hs, hi, hg]; exact h.buried
  counted k t uid v ht hu hv := by
    obtain ⟨c, hc, -, he⟩ := hn k uid v hv
    rw [hl, ← he]
    exact h.counted k t uid c (hs ▸ ht) hu hc
  unshared k t uid v e ht hu hv he := by
    obtain ⟨c, hc, -⟩ := hn k uid v hv
    rw [hg]
    exact h.unshared k t uid c e (hs ▸ ht) hu hc (hl ▸ he)
  apart k uid v v' hv hv' he := by
    obtain ⟨c, hc, hk, hcv⟩ := hn k uid v hv
    obtain ⟨c', hc', hk', hcv'⟩ := hn k uid v' hv'
    obtain rfl := h.apart k uid c c' hc hc' (by rw [hcv, hcv', he])
    exact Option.some.inj (hv.stored.symm.trans ((hk.symm.trans hk') ▸ hv'.stored))

theorem Sound.templates (h : Sound s) {c : Store.Call TemplateSpec TemplateStatus}
    (hp : ∀ uid ∈ c.drawn, uid ∉ s.issued) : Sound (s.step (.templates c)) := by
  have hs := Store.served h.keyed c
  have old {k : Key} {t : Template} {uid : Uid} (hu : uid ∈ s.issued)
      (ht : (s.world.stores.templates.serve c).get? k = some t) (he : t.metadata.uid = some uid) :
      ∃ t', s.world.stores.templates.get? k = some t' ∧ t'.metadata.uid = some uid := by
    rcases hs.same_or_drawn ht with ⟨t', ht', e, -⟩ | ⟨u, hd, e⟩
    · exact ⟨t', ht', e ▸ he⟩
    · exact absurd (Option.some.inj (e.symm.trans he) ▸ hu) (hp u hd)
  have issued {k : Key} {uid : Uid} {v : Version} (hv : Numbered s.world.stores.versions k uid v) :
      uid ∈ s.issued := (h.rooted _ _ hv.stored).drawn uid hv.owned
  refine
    { recorded := h.recorded, keyed := hs.keyed h.keyed,
      identified := hs.identified h.identified hp,
      apart := h.apart, rooted := ?_, buried := ?_, counted := ?_, unshared := ?_ }
  · exact fun k v hk =>
      ⟨(h.rooted k v hk).faithful, fun uid hu =>
        List.mem_append_right _ ((h.rooted k v hk).drawn uid hu)⟩
  · intro g hg
    rcases List.mem_append.mp hg with hg | hg
    · obtain ⟨hk, hnone⟩ := Store.mem_leaving h.keyed hg
      obtain ⟨uid, hu, he⟩ := h.identified.drawn hk
      refine ⟨uid, List.mem_append_right _ hu, he, fun k t ht e => ?_⟩
      obtain ⟨t', ht', e'⟩ := old hu ht e
      obtain rfl := h.identified.own ht' hk (e'.trans he.symm)
      exact absurd (hnone.symm.trans ht) (by simp)
    · obtain ⟨uid, hu, he, ho⟩ := h.buried g hg
      refine ⟨uid, List.mem_append_right _ hu, he, fun k t ht e => ?_⟩
      obtain ⟨t', ht', e'⟩ := old hu ht e
      exact ho k t' ht' e'
  · intro k t uid v ht he hv
    obtain ⟨t', ht', e'⟩ := old (issued hv) ht he
    exact h.counted k t' uid v ht' e' hv
  · intro k t uid v e ht he hv hf hnone g hg
    obtain ⟨t', ht', e'⟩ := old (issued hv) ht he
    rcases List.mem_append.mp hg with hg | hg
    · rintro rfl
      exact absurd ((Store.mem_leaving h.keyed hg).2.symm.trans ht) (by simp)
    · exact h.unshared k t' uid v e ht' e' hv hf hnone g hg

theorem Sound.rooted_put (h : Sound s) (hv : Rooted s.issued v) (k : Key) (c : Version)
    (hk : (s.world.stores.versions.put v).get? k = some c) : Rooted s.issued c := by
  rw [Store.put_get?] at hk
  split at hk
  · exact Option.some.inj hk ▸ hv
  · exact h.rooted k c hk

theorem Sound.served (h : Sound s) {c : Store.Call VersionSpec VersionStatus}
    (hs : Store.Served s.world.stores.versions c d) (hp : s.Permits (.versions c)) :
    (∀ k v, d.get? k = some v → Rooted s.issued v) ∧ Inherited s.world.stores.versions d := by
  cases hs with
  | refused => exact ⟨h.rooted, fun k uid v hv => ⟨v, hv, rfl, rfl⟩⟩
  | @created v uid now hn =>
    obtain ⟨hstatus, howners⟩ := hp
    have hf : Rooted s.issued (s.world.stores.versions.created v uid now) := by
      refine ⟨.of_no_owner howners, fun u hu => ?_⟩
      obtain ⟨r, hr, hk, -⟩ := Version.ownerUid_eq_some hu
      exact absurd hk (howners r hr)
    refine ⟨h.rooted_put hf, .put_unassigned ?_⟩
    have : (s.world.stores.versions.created v uid now).status = .empty := hstatus
    rw [Version.assigned, this]
    rfl
  | @updated v c hf =>
    obtain ⟨howners, hname⟩ := hp c hf
    obtain ⟨hc, -⟩ := Store.fenced_eq_ok.mp hf
    have hkey : c.key = v.key := h.recorded.keyed _ _ hc
    refine ⟨h.rooted_put ((h.rooted _ c hc).congr howners hname), .put fun k uid hv =>
      ⟨c, ?_, hkey, rfl⟩⟩
    have hspace : c.metadata.space = v.metadata.space := congrArg Key.space hkey
    refine ⟨hkey ▸ hc, hv.assigned, ?_, ?_⟩
    · rw [← hv.named]
      simp [Version.templateKey, Store.updated, hspace, hname]
    · rw [← hv.owned]
      exact (Version.ownerUid_congr howners hname).symm
  | @deleted k c now hk =>
    refine ⟨fun j v hj => ?_, .without _ c now⟩
    rw [Store.without_get?] at hj
    split at hj
    · contradiction
    · exact h.rooted j v hj

theorem Sound.versions (h : Sound s) {c : Store.Call VersionSpec VersionStatus}
    (hr : s.world.stores.versions.HasRoom) (hp : s.Permits (.versions c)) :
    Sound (s.step (.versions c)) := by
  have hs := Store.served h.recorded.keyed c
  obtain ⟨hrooted, hi⟩ := h.served hs hp
  exact h.inherit rfl rfl rfl rfl (hs.recorded h.recorded hr) hrooted hi

/-- A version with the next number of a stored template. -/
structure Next (s : State) (t : Template) (u : Uid) (r : Version) : Prop where
  template : s.world.stores.templates.get? t.key = some t
  uid : t.metadata.uid = some u
  named : r.templateKey = t.key
  owned : r.ownerUid = some u
  number : s.world.ledger.next? t.key (some u) = some r.status.version

namespace Next

variable {u : Uid} {r : Version}

theorem eq_of_numbered (hr : Next s t u r) (hv : Numbered d k uid r) : t.key = k ∧ u = uid :=
  ⟨hr.named.symm.trans hv.named, Option.some.inj (hr.owned.symm.trans hv.owned)⟩

theorem toNat (hr : Next s t u r) :
    r.status.version.toNat = (s.world.ledger.latest t.key (some u)).toNat + 1 :=
  Counter.next?_eq_some.mp hr.number

theorem less (hr : Next s t u r) (h : Sound s)
    (hv : Numbered s.world.stores.versions t.key u v) :
    v.status.version.toNat < r.status.version.toNat := by
  have := UInt32.le_iff_toNat_le.mp (h.counted _ t u v hr.template hr.uid hv).2
  rw [hr.toNat]
  omega

theorem counted (hr : Next s t u r) (h : Sound s) {t' : Template}
    (ht : s.world.stores.templates.get? k = some t') (he : t'.metadata.uid = some uid)
    (hv : Numbered (s.world.stores.versions.put r) k uid v) :
    1 ≤ v.status.version ∧
      v.status.version ≤ (s.world.ledger.advance t.key (some u)).latest k (some uid) := by
  rcases hv.of_put with rfl | hold
  · obtain ⟨rfl, rfl⟩ := hr.eq_of_numbered hv
    rw [Ledger.latest_advance hr.number, UInt32.le_iff_toNat_le, hr.toNat]
    exact ⟨Nat.le_add_left _ _, UInt32.le_refl _⟩
  · have ⟨hpos, hle⟩ := h.counted k t' uid v ht he hold
    refine ⟨hpos, ?_⟩
    by_cases hk : t.key = k
    · subst hk
      obtain rfl := Option.some.inj (ht.symm.trans hr.template)
      obtain rfl := Option.some.inj (hr.uid.symm.trans he)
      rw [Ledger.latest_advance hr.number, UInt32.le_iff_toNat_le]
      exact Nat.le_of_lt (hr.less h hold)
    · rw [Ledger.advance_latest_ne (Ne.symm hk)]
      exact hle

theorem unshared (hr : Next s t u r) (h : Sound s) {t' : Template} {e : Ledger.Entry}
    (ht : s.world.stores.templates.get? k = some t') (he : t'.metadata.uid = some uid)
    (hv : Numbered (s.world.stores.versions.put r) k uid v)
    (hf : (s.world.ledger.advance t.key (some u)).entries.find? k = some e)
    (hnone : e.owner = none) :
    ∀ g ∈ s.gone, g.key ≠ k := by
  rw [Ledger.advance_find?] at hf
  split at hf
  · obtain rfl := Option.some.inj hf
    exact absurd ((Ledger.advanced_owner _ _ _).symm.trans hnone) (by simp)
  · next hk =>
    rcases hv.of_put with rfl | hold
    · exact absurd (hr.eq_of_numbered hv).1.symm hk
    · exact h.unshared k t' uid v e ht he hold hf hnone

theorem apart (hr : Next s t u r) (h : Sound s)
    (hv : Numbered (s.world.stores.versions.put r) k uid v)
    (hv' : Numbered (s.world.stores.versions.put r) k uid v')
    (he : v.status.version = v'.status.version) : v = v' := by
  have new {c : Version} (hc : Numbered (s.world.stores.versions.put r) k uid r)
      (hold : Numbered s.world.stores.versions k uid c) : c.status.version ≠ r.status.version := by
    obtain ⟨rfl, rfl⟩ := hr.eq_of_numbered hc
    intro e
    exact absurd (hr.less h hold) (e ▸ Nat.lt_irrefl _)
  rcases hv.of_put with rfl | hold <;> rcases hv'.of_put with rfl | hold'
  · rfl
  · exact absurd he.symm (new hv hold')
  · exact absurd he (new hv' hold)
  · exact h.apart k uid v v' hold hold' he

end Next

theorem Sound.number {w : World} (h : Sound s) (hu : s.world.Unspent)
    (hc : s.world.stores.versions.get? c.key = some c)
    (ht : s.world.stores.templates.get? c.templateKey = some t) (hl : c.linkedTo t = true)
    (hn : s.world.ledger.next? t.key t.metadata.uid = some n)
    (hs : w.stores = ⟨s.world.stores.templates,
      s.world.stores.versions.put (s.world.stores.versions.restated c (c.numbered n now))⟩)
    (hw : w.ledger = s.world.ledger.advance t.key t.metadata.uid) : Sound (s.note w) := by
  obtain ⟨u, -, hut⟩ := h.identified.drawn ht
  have hkey : t.key = c.templateKey := h.keyed _ _ ht
  have hrooted : Rooted s.issued (s.world.stores.versions.restated c (c.numbered n now)) :=
    (h.rooted _ _ hc).congr rfl rfl
  simp only [Version.linkedTo, Bool.and_eq_true] at hl
  have hr : Next s t u (s.world.stores.versions.restated c (c.numbered n now)) :=
    ⟨hkey ▸ ht, hut, hkey.symm, ((h.rooted _ _ hc).faithful.ownerUid_iff hut).mpr hl.2, hut ▸ hn⟩
  have hst : w.stores.templates = s.world.stores.templates := by rw [hs]
  have hsv := congrArg Stores.versions hs
  refine
    { recorded := ?_, keyed := hst ▸ h.keyed,
      identified := by simp only [State.note, hst]; exact h.identified, rooted := ?_,
      buried := by simp only [State.note, hst]; exact h.buried, counted := ?_, unshared := ?_,
      apart := ?_ }
  · simp only [State.note, hsv]; exact h.recorded.note_put hu.room rfl
  · simp only [State.note, hsv]; exact h.rooted_put hrooted
  · simp only [State.note, hst, hsv, hw, hut]; exact fun _ _ _ _ => hr.counted h
  · simp only [State.note, hst, hsv, hw, hut]; exact fun _ _ _ _ _ => hr.unshared h
  · simp only [State.note, hsv]; exact fun _ _ _ _ => hr.apart h

theorem Sound.deliver (h : Sound s) (hu : s.world.Unspent) (hv : v ∈ s.seen) :
    Sound (s.step (.deliver v now)) := by
  have hd := Version.number_delivered s.world v now
  change Sound (s.note (s.world.perform (v.number now)).2)
  generalize (s.world.perform (v.number now)).2 = w at hd
  cases hd with
  | idle hs hl =>
    refine h.inherit (by simp [State.note, hs]) hl rfl rfl ?_ ?_ ?_
    · simp only [State.note, hs]; exact h.recorded.note
    · simp only [State.note, hs]; exact h.rooted
    · simp only [State.note, hs]; exact fun k uid v hv => ⟨v, hv, rfl, rfl⟩
  | @linked t owner c ha ht ho hf hs hl =>
    obtain rfl := h.recorded.fenced hv (Version.linked_resourceVersion v t owner) hf
    have hc := (Store.fenced_eq_ok.mp hf).1
    rw [Version.linked_key] at hc
    have hname : t.metadata.name = c.spec.templateName := congrArg Key.name (h.keyed _ _ ht)
    have hrc := h.rooted _ _ hc
    have hlinked : Rooted s.issued (s.world.stores.versions.updated c (c.linked t owner)) := by
      have hfl : Version.Faithful (s.world.stores.versions.updated c (c.linked t owner)) :=
        (hrc.faithful.linked ho hname).congr rfl rfl
      refine ⟨hfl, fun uid hu => ?_⟩
      obtain ⟨u, hdrawn, hut⟩ := h.identified.drawn ht
      have howned :
          Version.ownedBy (s.world.stores.versions.updated c (c.linked t owner)) t = true :=
        Version.linked_ownedBy ho
      obtain rfl := Option.some.inj (hu.symm.trans ((hfl.ownerUid_iff hut).mpr howned))
      exact hdrawn
    refine h.inherit (by simp [State.note, hs]) hl rfl rfl ?_ ?_ ?_
    · simp only [State.note, hs]; exact h.recorded.note_put hu.room rfl
    · simp only [State.note, hs]; exact h.rooted_put hlinked
    · simp only [State.note, hs]; exact .put_unassigned ha
  | @numbered t c n now ha ht hlk hn hf hs hl =>
    obtain rfl := h.recorded.fenced hv rfl hf
    exact h.number hu (Store.fenced_eq_ok.mp hf).1 ht hlk hn hs hl

/-- A cleanup takes no entry away that counts for a template that is there. -/
theorem Sound.cleanup (h : Sound s) {g : Template} (hg : g ∈ s.gone) (hk : g.key = t.key)
    (hu : g.metadata.uid = t.metadata.uid) : Sound (s.step (.cleanup t now)) := by
  obtain ⟨gu, -, hgu, hother⟩ := h.buried g hg
  obtain ⟨hs, hl⟩ : (s.step (.cleanup t now)).world.stores = s.world.stores ∧
      (s.step (.cleanup t now)).world.ledger = s.world.ledger.remove t.key (some gu) := by
    simp only [State.step, Template.perform_forgetNumbers, ← hu, hgu]
    split <;> exact ⟨rfl, rfl⟩
  refine
    { recorded := by rw [hs]; exact h.recorded, keyed := by rw [hs]; exact h.keyed,
      identified := by rw [hs]; exact h.identified, rooted := by rw [hs]; exact h.rooted,
      buried := by rw [hs]; exact h.buried, apart := by rw [hs]; exact h.apart, counted := ?_,
      unshared := ?_ }
  · rw [hs, hl]
    intro k t' uid v ht he hv
    have ⟨hpos, hle⟩ := h.counted k t' uid v ht he hv
    have hne : s.world.ledger.latest k (some uid) ≠ 0 := by
      intro h0
      rw [h0] at hle
      exact absurd (UInt32.le_trans hpos hle) (by decide)
    obtain ⟨e, hf, hc, -⟩ := Ledger.entry_of_latest_ne_zero hne
    refine ⟨hpos, ?_⟩
    by_cases hkt : k = t.key
    · have howner : e.owner = some uid := (Ledger.countsFor_some.mp hc).resolve_left fun hnone =>
        h.unshared k t' uid v e ht he hv hf hnone g hg (hk.trans hkt.symm)
      have hother : e.countsFor (some gu) = false := by
        refine Bool.eq_false_iff.mpr fun hcg => ?_
        rw [Ledger.countsFor_some, howner] at hcg
        exact hother k t' ht (by simpa [he] using hcg)
      rw [← hkt, Ledger.latest_congr ((Ledger.remove_find?_of_other hf hother).trans hf.symm)]
      exact hle
    · have hsame :
          (s.world.ledger.remove t.key (some gu)).entries.find? k =
          s.world.ledger.entries.find? k := by
        rw [Ledger.remove_find?, if_neg (fun h => hkt h.1)]
      rw [Ledger.latest_congr hsame]
      exact hle
  · rw [hs, hl]
    intro k t' uid v e ht he hv hf
    rw [Ledger.remove_find?] at hf
    split at hf
    · contradiction
    · exact h.unshared k t' uid v e ht he hv hf

theorem Sound.restart (h : Sound s) : Sound (s.step .restart) where
  recorded := h.recorded
  keyed := h.keyed
  identified := h.identified
  rooted := h.rooted
  buried _ hg := absurd hg List.not_mem_nil
  apart := h.apart
  counted k t uid v ht he hv := by
    have hmem : v ∈ s.world.stores.versions.all := Store.mem_all_iff.mpr ⟨_, hv.stored⟩
    have hnum : v.assignedNumber = some v.status.version := by
      rw [Version.assignedNumber, if_pos hv.assigned]
    obtain ⟨e, hf, hle, howner⟩ := Ledger.rebuild_covers (l := Ledger.empty) hmem hnum
    rw [hv.named] at hf
    rw [hv.owned] at howner
    refine ⟨(h.counted k t uid v ht he hv).1, ?_⟩
    change _ ≤ (Ledger.empty.rebuild s.world.stores.versions.all).latest k (some uid)
    rw [Ledger.latest_of_counts hf (Ledger.countsFor_some.mpr howner)]
    exact hle
  unshared _ _ _ _ _ _ _ _ _ _ _ hg := absurd hg List.not_mem_nil

theorem Reachable.sound (h : Reachable s) : Sound s := by
  induction h with
  | initial => exact sound_initial
  | step a _ hu hp ih =>
    cases a with
    | templates c => exact ih.templates hp
    | versions c => exact ih.versions hu.room hp
    | deliver v now => exact ih.deliver hu hp
    | cleanup t now => obtain ⟨g, hg, hk, he⟩ := hp; exact ih.cleanup hg hk he
    | restart => exact ih.restart

theorem Reachable.numbered (h : Reachable s) (hu : t.metadata.uid = some uid)
    (hm : Member s.world.stores.versions t v) :
    Numbered s.world.stores.versions t.key uid v :=
  ⟨hm.stored, hm.assigned, hm.named,
    ((h.sound.rooted _ _ hm.stored).faithful.ownerUid_iff hu).mpr hm.owned⟩

/-- At every moment, the numbers under a template are counted by the ledger, and no two of its
versions have the same. -/
theorem numbers_counted_and_apart (h : Reachable s)
    (ht : s.world.stores.templates.get? t.key = some t) :
    (∀ v, Member s.world.stores.versions t v →
      1 ≤ v.status.version ∧ v.status.version ≤ s.world.ledger.latest t.key t.metadata.uid) ∧
    (∀ v v', Member s.world.stores.versions t v → Member s.world.stores.versions t v' →
      v.status.version = v'.status.version → v = v') := by
  obtain ⟨uid, -, hu⟩ := h.sound.identified.drawn ht
  rw [hu]
  refine ⟨fun v hm => ?_, fun v v' hm hm' => ?_⟩
  · exact h.sound.counted t.key t uid v ht hu (h.numbered hu hm)
  · exact h.sound.apart t.key uid v v' (h.numbered hu hm) (h.numbered hu hm')

def llama : Template := ⟨.named "models" "llama", .empty, .empty⟩

def llamaVersion (name : String) : Version :=
  ⟨.named "models" name, { VersionSpec.empty with templateName := "llama" }, .empty⟩

def State.template (s : State) : Template := (s.world.stores.templates.get? llama.key).getD default

def State.version (s : State) (name : String) : Version :=
  (s.world.stores.versions.get? (llamaVersion name).key).getD default

def opened : State :=
  ((State.initial.step (.templates (.create llama ⟨0⟩ default))).step
    (.versions (.create (llamaVersion "a") ⟨1⟩ default))).step
      (.versions (.create (llamaVersion "b") ⟨2⟩ default))

def State.bring (s : State) (name : String) : State := s.step (.deliver (s.version name) default)

def restarted : State := ((opened.bring "a").bring "a").step .restart

def reopened : State := (restarted.bring "b").bring "b"

theorem reachable_reopened : Reachable reopened := by
  have ho : Reachable opened :=
    .step _ (.step _ (.step _ .initial (by decide) fun _ _ => List.not_mem_nil) (by decide)
      ⟨rfl, fun _ h => absurd h List.not_mem_nil⟩) (by decide) ⟨rfl,
      fun _ h => absurd h List.not_mem_nil⟩
  have bring {s : State} (h : Reachable s) (name : String) (hu : s.world.Unspent)
    (hs : s.version name ∈ s.seen) :
      Reachable (s.bring name) := .step _ h hu hs
  have hr : Reachable restarted :=
    .step _ (bring (bring ho "a" (by decide) (by decide)) "a" (by decide) (by decide))
      (by decide) trivial
  exact bring (bring hr "b" (by decide) (by decide)) "b" (by decide) (by decide)

theorem numbers_counted_and_apart_reopened :
    Reachable reopened ∧
      Member reopened.world.stores.versions reopened.template (reopened.version "a") ∧
      Member reopened.world.stores.versions reopened.template (reopened.version "b") ∧
      (reopened.version "b").status.version ≤
      reopened.world.ledger.latest llama.key reopened.template.metadata.uid ∧
      (reopened.version "a").status.version ≠ (reopened.version "b").status.version := by
  have ha : Member reopened.world.stores.versions reopened.template (reopened.version "a") :=
    ⟨by decide, by decide, by decide, by decide⟩
  have hb : Member reopened.world.stores.versions reopened.template (reopened.version "b") :=
    ⟨by decide, by decide, by decide, by decide⟩
  have h := numbers_counted_and_apart reachable_reopened (t := reopened.template) (by decide)
  exact ⟨reachable_reopened, ha, hb, (h.1 _ hb).2, fun he => absurd (h.2 _ _ ha hb he) (by decide)⟩

end ModelTemplates.Numbering
