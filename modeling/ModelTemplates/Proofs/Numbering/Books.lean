import ModelTemplates.Proofs.Ledger.Count
import ModelTemplates.Proofs.Numbering.Tally
import ModelTemplates.Proofs.Version.Rules
/-! The ledger and the numbers that are stored agree, up to one number for whoever holds the lock of
the template. This is what the rules of the work on versions keep, and what a rebuilt ledger begins
with. -/
namespace ModelTemplates

variable {owner owner' : Key → Uid → Prop} {i j k : Key} {u : Uid} {v c p x : Version}
  {t : Template} {n m : UInt32} {d : VersionStore} {w w' : World} {seen : List Version}
  {r : Request}

namespace Version

/-- A version of a plain name that refers to nothing but the template it names, and has a number
only when it is linked. -/
structure Proper (owner : Key → Uid → Prop) (v : Version) : Prop where
  kept : v.deleting = false
  named : v.metadata.name ≠ ""
  plain : '/' ∉ v.metadata.name.toList
  owners : ∀ r ∈ v.metadata.owners, r.kind = Kind.template.text ∧ r.name = v.spec.templateName ∧
    owner v.templateKey r.uid
  linked : v.assigned = true → v.metadata.labels.find? templateLabel = some v.spec.templateName ∧
    v.metadata.owners ≠ []

namespace Proper

theorem mono (h : v.Proper owner) (ho : ∀ k u, owner k u → owner' k u) : v.Proper owner' :=
  ⟨h.kept, h.named, h.plain, fun r hr =>
    ⟨(h.owners r hr).1, (h.owners r hr).2.1, ho _ _ (h.owners r hr).2.2⟩, h.linked⟩

theorem linkedTo (h : v.Proper owner) (ha : v.assigned = true) (hk : v.templateKey = t.key)
    (hu : t.metadata.uid = some u) (hone : ∀ u', owner t.key u' → u' = u) :
    v.linkedTo t = true := by
  obtain ⟨hlabel, hne⟩ := h.linked ha
  obtain ⟨r, hr⟩ := List.exists_mem_of_ne_nil _ hne
  obtain ⟨hkind, -, hknown⟩ := h.owners r hr
  have hname : v.spec.templateName = t.metadata.name := congrArg Key.name hk
  rw [Version.linkedTo, Bool.and_eq_true, decide_eq_true_eq, ownedBy_iff hu]
  exact ⟨hname ▸ hlabel, r, hr, hkind, hone _ (hk ▸ hknown)⟩

theorem ownerUid (h : v.Proper owner) (ha : v.assigned = true) :
    ∃ u, v.ownerUid = some u ∧ owner v.templateKey u := by
  cases hf : v.ownerUid with
  | none =>
    obtain ⟨r, hr⟩ := List.exists_mem_of_ne_nil _ (h.linked ha).2
    obtain ⟨hkind, hname, -⟩ := h.owners r hr
    have hnone := List.find?_eq_none.mp (Option.map_eq_none_iff.mp hf) r hr
    simp [hkind, hname] at hnone
  | some u =>
    obtain ⟨r, hr, -, -, rfl⟩ := ownerUid_eq_some hf
    exact ⟨_, rfl, (h.owners r hr).2.2⟩

/-- A new status is proper as long as a number is given only to a linked version. -/
theorem restated (h : c.Proper owner)
    (ha : x.assigned = true → c.metadata.labels.find? templateLabel = some c.spec.templateName ∧
      c.metadata.owners ≠ [])
    (d : VersionStore) : Proper owner (d.restated c x) :=
  ⟨h.kept, h.named, h.plain, h.owners, ha⟩

theorem updated {o : OwnerReference} (h : p.Proper owner) (ha : p.assigned = false)
    (hk : t.key = p.templateKey) (ho : t.ownerReference = some o) (hu : owner p.templateKey o.uid)
    (d : VersionStore) :
    Proper owner (d.updated p (p.linked t o)) := by
  obtain ⟨-, hkind, hname⟩ := ownerReference_eq_some ho
  have heq := linked_eq p t o
  have hspec : (p.linked t o).spec = p.spec := linked_spec p t o
  have hspace : (p.linked t o).metadata.space = p.metadata.space := by rw [heq]
  refine ⟨?_, ?_, ?_, fun r hr => ?_, fun hassigned =>
    absurd (ha.symm.trans hassigned) Bool.false_ne_true⟩
  · change (p.linked t o).metadata.deleting = false
    rw [heq]
    exact h.kept
  · change (p.linked t o).metadata.name ≠ ""
    rw [heq]
    exact h.named
  · change '/' ∉ (p.linked t o).metadata.name.toList
    rw [heq]
    exact h.plain
  · change r.kind = _ ∧ r.name = (p.linked t o).spec.templateName ∧
      owner ⟨(p.linked t o).metadata.space, (p.linked t o).spec.templateName⟩ r.uid
    rw [hspec, hspace]
    rcases mem_linked_owners hr with ⟨hold, -⟩ | rfl
    · exact h.owners r hold
    · exact ⟨hkind, hname.trans (congrArg Key.name hk), hu⟩

end Proper
end Version

namespace Numbering
open ModelTemplates.Version (Role Knowledge May Proper)

variable {ρ : Key → Role} {new : Role} {locked : List Key}

structure Locks (ρ : Key → Role) (locked : List Key) : Prop where
  held : ∀ i k, (ρ i).lock = some k → k ∈ locked
  single : ∀ i j k, (ρ i).lock = some k → (ρ j).lock = some k → i = j

namespace Locks

theorem same (h : Locks ρ locked) (hl : new.lock = (ρ i).lock) :
    Locks (Function.update ρ i new) locked := by
  have hlock (j : Key) : (Function.update ρ i new j).lock = (ρ j).lock := by
    by_cases hj : j = i
    · rw [hj, Function.update_self, hl]
    · rw [Function.update_of_ne hj]
  constructor
  · intro j k hj
    exact h.held j k (hlock j ▸ hj)
  · intro j j' k hj hj'
    exact h.single j j' k (hlock j ▸ hj) (hlock j' ▸ hj')

theorem take (h : Locks ρ locked) (hk : k ∉ locked) (i : Key) :
    Locks (Function.update ρ i (.holding k)) (k :: locked) := by
  have hlock (j k' : Key) (hj : (Function.update ρ i (.holding k) j).lock = some k') :
      j = i ∧ k' = k ∨ (ρ j).lock = some k' := by
    by_cases he : j = i
    · rw [he, Function.update_self] at hj
      exact .inl ⟨he, (Option.some.inj hj).symm⟩
    · rw [Function.update_of_ne he] at hj
      exact .inr hj
  constructor
  · intro j k' hj
    rcases hlock j k' hj with ⟨-, rfl⟩ | hold
    · exact List.mem_cons_self
    · exact List.mem_cons_of_mem _ (h.held j k' hold)
  · intro j j' k' hj hj'
    rcases hlock j k' hj with ⟨rfl, rfl⟩ | hold
    · rcases hlock j' _ hj' with ⟨rfl, -⟩ | hold'
      · rfl
      · exact absurd (h.held j' _ hold') hk
    · rcases hlock j' k' hj' with ⟨rfl, rfl⟩ | hold'
      · exact absurd (h.held j _ hold) hk
      · exact h.single j j' k' hold hold'

theorem release (h : Locks ρ locked) (hi : (ρ i).lock = some k) :
    Locks (Function.update ρ i .outside) (locked.filter (· ≠ k)) := by
  have hlock (j k' : Key) (hj : (Function.update ρ i .outside j).lock = some k') :
      j ≠ i ∧ (ρ j).lock = some k' := by
    by_cases he : j = i
    · rw [he, Function.update_self] at hj
      contradiction
    · rw [Function.update_of_ne he] at hj
      exact ⟨he, hj⟩
  constructor
  · intro j k' hj
    obtain ⟨hne, hold⟩ := hlock j k' hj
    rw [List.mem_filter, decide_eq_true_eq]
    refine ⟨h.held j k' hold, fun he => hne ?_⟩
    exact h.single j i k (he ▸ hold) hi
  · intro j j' k' hj hj'
    exact h.single j j' k' (hlock j k' hj).2 (hlock j' k' hj').2

end Locks

open Classical in
noncomputable def lead (ρ : Key → Role) (k : Key) : Nat := if ∃ i, ρ i = .ahead k then 1 else 0

theorem lead_of_ahead (h : ρ i = .ahead k) : lead ρ k = 1 := if_pos ⟨i, h⟩

theorem lead_eq_zero (h : ∀ i, ρ i ≠ .ahead k) : lead ρ k = 0 := if_neg fun ⟨i, hi⟩ => h i hi

theorem lead_update (h : ρ i ≠ .ahead k) (hnew : new ≠ .ahead k) :
    lead (Function.update ρ i new) k = lead ρ k := by
  have hiff : (∃ j, Function.update ρ i new j = .ahead k) ↔ ∃ j, ρ j = .ahead k := by
    constructor
    · rintro ⟨j, hj⟩
      by_cases he : j = i
      · rw [he, Function.update_self] at hj
        exact absurd hj hnew
      · rw [Function.update_of_ne he] at hj
        exact ⟨j, hj⟩
    · rintro ⟨j, hj⟩
      have he : j ≠ i := fun e => h (e ▸ hj)
      exact ⟨j, by rw [Function.update_of_ne he, hj]⟩
  unfold lead
  by_cases ho : ∃ j, ρ j = .ahead k
  · rw [if_pos ho, if_pos (hiff.mpr ho)]
  · rw [if_neg ho, if_neg fun hn => ho (hiff.mp hn)]

theorem Locks.lead_update (h : Locks ρ locked) (hi : (ρ i).lock = some k) (hnew : new ≠ .ahead k) :
    lead (Function.update ρ i new) k = 0 := by
  refine lead_eq_zero fun j hj => ?_
  by_cases he : j = i
  · rw [he, Function.update_self] at hj
    exact hnew hj
  · rw [Function.update_of_ne he] at hj
    have hlock : (ρ j).lock = some k := by rw [hj]; rfl
    exact he (h.single j i k hlock hi)

theorem Locks.lead_eq_zero (h : Locks ρ locked) (hi : (ρ i).lock = some k) (hne : ρ i ≠ .ahead k) :
    lead ρ k = 0 := by
  have := h.lead_update hi hne
  rwa [Function.update_eq_self] at this

/-- The ledger has the entries of templates that are known, whoever has read it has read what it
says, and it has every number that is stored but the one of a worker that is ahead. -/
structure Books (owner : Key → Uid → Prop) (w : World) (ρ : Key → Role) : Prop where
  locks : Locks ρ w.locked
  owned : ∀ k e, w.ledger.entries.find? k = some e → ∃ u, e.owner = some u ∧ owner k u
  informed : ∀ i k n, ρ i = .informed k n → n = w.ledger.latest k none
  counted : ∀ k, AtMost w.stores.versions k (UInt32.size - 2) →
    ∃ js, Tally (numberOf w.stores.versions k) js ∧
    js.length = (w.ledger.latest k none).toNat + lead ρ k

def Single (owner : Key → Uid → Prop) : Prop := ∀ k u u', owner k u → owner k u' → u = u'

/-- The count of the only template of its name is the count of the name. -/
theorem latest_of_owned {l : Ledger} (hone : Single owner)
    (h : ∀ k e, l.entries.find? k = some e → ∃ u, e.owner = some u ∧ owner k u) (hu : owner k u) :
    l.latest k (some u) = l.latest k none := by
  cases he : l.entries.find? k with
  | none => simp [Ledger.latest, Ledger.entry?, he]
  | some e =>
    obtain ⟨u', ho, hu'⟩ := h k e he
    obtain rfl := hone k u u' hu hu'
    have hcounts : e.countsFor (some u) = true := Ledger.countsFor_some.mpr (.inr ho)
    have hany : e.countsFor none = true := by simp [Ledger.Entry.countsFor]
    rw [Ledger.latest_of_counts he hcounts, Ledger.latest_of_counts he hany]

namespace Books

theorem mono (h : Books owner w ρ) (ho : ∀ k u, owner k u → owner' k u) : Books owner' w ρ := by
  refine ⟨h.locks, fun k e he => ?_, h.informed, h.counted⟩
  obtain ⟨u, hu, hknown⟩ := h.owned k e he
  exact ⟨u, hu, ho k u hknown⟩

/-- Writes that leave every number as it is leave the books as they are. -/
theorem same (h : Books owner w ρ) (hl : w'.ledger = w.ledger) (hk : w'.locked = w.locked)
    (hn : ∀ k, numberOf w'.stores.versions k = numberOf w.stores.versions k)
    (hb : ∀ k n, AtMost w'.stores.versions k n → AtMost w.stores.versions k n) :
    Books owner w' ρ := by
  refine ⟨hk ▸ h.locks, hl ▸ h.owned, hl ▸ h.informed, fun k hk => ?_⟩
  rw [hn, hl]
  exact h.counted k (hb k _ hk)

/-- What others have read of the ledger is still so while the counts of their templates are. -/
theorem informed_update {l : Ledger} (h : Books owner w ρ)
    (hnew : ∀ k n, new = .informed k n → n = l.latest k none)
    (hl : ∀ j k n, j ≠ i → ρ j = .informed k n → l.latest k none = w.ledger.latest k none)
    (j k : Key) (n : UInt32) (hj : Function.update ρ i new j = .informed k n) :
    n = l.latest k none := by
  by_cases he : j = i
  · rw [he, Function.update_self] at hj
    exact hnew k n hj
  · rw [Function.update_of_ne he] at hj
    rw [hl j k n he hj]
    exact h.informed j k n hj

theorem go (h : Books owner w ρ) (hs : w'.stores.versions = w.stores.versions)
    (hl : w'.ledger = w.ledger) (hlocks : Locks (Function.update ρ i new) w'.locked)
    (hi : ∀ k, ρ i ≠ .ahead k) (hnew : ∀ k, new ≠ .ahead k)
    (hn : ∀ k n, new = .informed k n → n = w.ledger.latest k none) :
    Books owner w' (Function.update ρ i new) := by
  constructor
  · exact hlocks
  · exact hl ▸ h.owned
  · rw [hl]
    exact h.informed_update hn fun _ _ _ _ _ => rfl
  · intro k hk
    rw [hs, hl, lead_update (hi k) (hnew k)]
    exact h.counted k (hs ▸ hk)

/-- The next number of a template is the one after what the worker with the lock has read. -/
theorem counted_number (h : Books owner w ρ) (hi : ρ i = .informed k n)
    (hc : w.stores.versions.get? v.key = some c) (hkc : v.templateKey = c.templateKey)
    (hk : v.templateKey = k) (ha : c.assigned = false) (hm : Counter.next? n = some m)
    (hn : v.assignedNumber = some m) (hb : AtMost w.stores.versions k (UInt32.size - 2)) :
    ∃ js, Tally (numberOf (w.stores.versions.put v) k) js ∧
      js.length = (w.ledger.latest k none).toNat + 1 := by
  obtain ⟨js, htally, hlength⟩ := h.counted k hb
  -- What was read is still so, and nobody else is ahead.
  have hread : n = w.ledger.latest k none := h.informed i k n hi
  have hlock : (ρ i).lock = some k := by rw [hi]; rfl
  have hnot : ρ i ≠ .ahead k := by simp [hi]
  rw [← hread, h.locks.lead_eq_zero hlock hnot, Nat.add_zero] at hlength
  have hnext : m.toNat = js.length + 1 := by
    rw [Counter.next?_eq_some.mp hm]
    omega
  refine ⟨js ++ [v.key], htally.number hc ha hkc hk hn hnext, ?_⟩
  rw [List.length_append, List.length_singleton, ← hread, hlength]

/-- The next number of a template is stored, and the worker is ahead of the ledger. -/
theorem number (h : Books owner w ρ) (hi : ρ i = .informed k n)
    (hc : w.stores.versions.get? v.key = some c) (hkc : v.templateKey = c.templateKey)
    (hk : v.templateKey = k) (ha : c.assigned = false) (hm : Counter.next? n = some m)
    (hn : v.assignedNumber = some m) (hs : w'.stores.versions = w.stores.versions.put v)
    (hl : w'.ledger = w.ledger) (hlocked : w'.locked = w.locked) :
    Books owner w' (Function.update ρ i (.ahead k)) := by
  have hlock : Role.lock (.ahead k) = (ρ i).lock := by rw [hi]; rfl
  constructor
  · exact hlocked ▸ h.locks.same hlock
  · exact hl ▸ h.owned
  · rw [hl]
    exact h.informed_update (fun _ _ he => by contradiction) fun _ _ _ _ _ => rfl
  · intro j hmost
    rw [hs] at hmost ⊢
    rw [hl]
    have hbound : AtMost w.stores.versions j (UInt32.size - 2) := by
      refine hmost.of_put fun x hx => ?_
      obtain rfl := Option.some.inj (hc.symm.trans hx)
      exact hkc
    by_cases hj : k = j
    · subst hj
      rw [lead_of_ahead (Function.update_self ..)]
      exact h.counted_number hi hc hkc hk ha hm hn hbound
    · have hnot : ρ i ≠ .ahead j := by simp [hi]
      have hother : Role.ahead k ≠ .ahead j := fun he => hj (Role.ahead.inj he)
      rw [numberOf_put_other hc hkc (hk ▸ hj), lead_update hnot hother]
      exact h.counted j hbound

theorem count (h : Books owner w ρ) (hi : ρ i = .ahead k) (hone : Single owner) (hu : owner k u)
    (hs : w'.stores.versions = w.stores.versions) (hl : w'.ledger = w.ledger.advance k (some u))
    (hlocked : w'.locked = w.locked) : Books owner w' (Function.update ρ i (.holding k)) := by
  have hlock : (ρ i).lock = some k := by rw [hi]; rfl
  have hnew (j : Key) : Role.holding k ≠ .ahead j := by simp
  have howned : ∀ j e, w'.ledger.entries.find? j = some e → ∃ u, e.owner = some u ∧ owner j u := by
    intro j e he
    rw [hl, Ledger.advance_find?] at he
    split at he
    · next hj =>
      obtain rfl := Option.some.inj he
      exact ⟨u, Ledger.advanced_owner _ _ _, hj ▸ hu⟩
    · exact h.owned j e he
  have hlatest (hfits : (w.ledger.latest k none).toNat + 1 < UInt32.size) :
      (w'.ledger.latest k none).toNat = (w.ledger.latest k none).toNat + 1 := by
    rw [← latest_of_owned hone h.owned hu] at hfits ⊢
    rw [← latest_of_owned hone howned hu, hl, Ledger.latest_advance (Counter.next?_of_lt hfits),
      Counter.toNat_succ hfits]
  have hothers {j : Key} (hj : j ≠ k) : w'.ledger.latest j none = w.ledger.latest j none := by
    rw [hl, Ledger.advance_latest_ne hj]
  have hsame : Role.lock (.holding k) = (ρ i).lock := by rw [hlock]; rfl
  constructor
  · exact hlocked ▸ h.locks.same hsame
  · exact howned
  · refine h.informed_update (fun _ _ he => by contradiction) fun j k' m hne hj => hothers ?_
    -- Whoever else has read the ledger has read it for another template.
    rintro rfl
    have hlock' : (ρ j).lock = some k' := by rw [hj]; rfl
    exact hne (h.locks.single j i k' hlock' hlock)
  · intro j hmost
    rw [hs] at hmost ⊢
    obtain ⟨js, htally, hlength⟩ := h.counted j hmost
    refine ⟨js, htally, ?_⟩
    by_cases hj : j = k
    · subst hj
      have hle := htally.length_le hmost
      rw [lead_of_ahead hi] at hlength
      have hsize : UInt32.size = 4294967296 := rfl
      rw [h.locks.lead_update hlock (hnew j), hlatest (by omega)]
      omega
    · have hnot : ρ i ≠ .ahead j := by
        rw [hi]
        exact fun he => hj (Role.ahead.inj he).symm
      rw [hothers hj, lead_update hnot (hnew j), hlength]

end Books

/-- A version that is written over another one, by work that has come as far as `ρ`. -/
structure Revises (owner : Key → Uid → Prop) (d : VersionStore) (ρ : Role) (c x : Version) :
    Prop where
  stored : d.get? x.key = some c
  template : x.templateKey = c.templateKey
  proper : c.Proper owner → x.Proper owner
  number : ρ = .outside ∨ c.assigned = true → x.assignedNumber = c.assignedNumber

variable {role : Role}

theorem revises_restated (hr : d.Recorded seen) (hp : p ∈ seen)
    (hrv : x.metadata.resourceVersion = p.metadata.resourceVersion) (hf : d.fenced x = .ok c)
    (ha : p.Proper owner → x.assigned = true →
      p.metadata.labels.find? templateLabel = some p.spec.templateName ∧ p.metadata.owners ≠ [])
    (hn : role = .outside ∨ p.assigned = true → x.assignedNumber = p.assignedNumber) :
    Revises owner d role p (d.restated c x) := by
  obtain rfl := hr.fenced hp hrv hf
  exact ⟨hr.keyed.get? (Store.fenced_eq_ok.mp hf).1, rfl, fun hc => hc.restated (ha hc) d, hn⟩

/-- What is allowed leaves the versions alone, or revises one of them. -/
theorem revises_answer (hmay : May ⟨seen, owner⟩ role r) (hr : w.stores.versions.Recorded seen) :
    (World.answer r w).2.stores.versions = w.stores.versions ∨ ∃ c x,
      Revises owner w.stores.versions role c x ∧
        (World.answer r w).2.stores.versions = w.stores.versions.put x := by
  have hleaves := World.answer_leaves w r
  generalize (World.answer r w).2.stores.versions = d' at hleaves ⊢
  cases hleaves with
  | same => exact .inl rfl
  | @updated x c hf =>
    cases hmay with
    | @link p t o hp ha hk ho hu =>
      obtain rfl := hr.fenced hp (Version.linked_resourceVersion p t o) hf
      refine .inr ⟨c, w.stores.versions.updated c (c.linked t o), ?_, rfl⟩
      refine ⟨(Store.fenced_eq_ok.mp hf).1, ?_, fun hc => hc.updated ha hk ho hu _, fun _ => rfl⟩
      change (⟨(c.linked t o).metadata.space, (c.linked t o).spec.templateName⟩ : Key) = _
      rw [Version.linked_spec, Version.linked_eq]
      rfl
  | @restated x c hf =>
    right
    cases hmay with
    | @configure p x hp hrv ha hn =>
      have hnumber : x.assignedNumber = p.assignedNumber := by
        simp only [Version.assignedNumber, ha, hn]
      exact ⟨p, _, revises_restated hr hp hrv hf (fun hc hx => hc.linked (ha ▸ hx)) fun _ =>
        hnumber, rfl⟩
    | @number p n m now hp ha hlabel howners _ =>
      refine ⟨p, w.stores.versions.restated c (p.numbered m now), ?_, rfl⟩
      refine revises_restated hr hp rfl hf (fun _ _ => ⟨hlabel, howners⟩) fun hor => ?_
      rcases hor with hout | hassigned
      · contradiction
      · exact absurd (ha.symm.trans hassigned) Bool.false_ne_true

theorem proper_answer (hmay : May ⟨seen, owner⟩ role r) (hr : w.stores.versions.Recorded seen)
    (hp : ∀ v ∈ seen, v.Proper owner) :
    ∀ v ∈ (World.answer r w).2.stores.versions.objects.values ++ seen, Proper owner v := by
  refine List.forall_mem_append.mpr ⟨fun v hv => ?_, hp⟩
  obtain ⟨k, hk⟩ := (Table.mem_values_iff _ _).mp hv
  change (World.answer r w).2.stores.versions.get? k = some v at hk
  rcases revises_answer hmay hr with hsame | ⟨c, x, hrevises, hput⟩
  · exact hp v (hr.held (hsame ▸ hk))
  · rw [hput] at hk
    rcases Store.get?_put_cases hk with ⟨-, rfl⟩ | ⟨-, hold⟩
    · exact hrevises.proper (hp c (hr.held hrevises.stored))
    · exact hp v (hr.held hold)

theorem numberOf_answer (hmay : May ⟨seen, owner⟩ role r) (hr : w.stores.versions.Recorded seen)
    (hn : (numberOf w.stores.versions k j).isSome = true) :
    (numberOf (World.answer r w).2.stores.versions k j).isSome = true := by
  rcases revises_answer hmay hr with hsame | ⟨c, x, hrevises, hput⟩
  · rwa [hsame]
  · rw [hput, numberOf_put, Function.update_apply]
    split
    · next hj =>
      obtain ⟨v, hv, hk, ha⟩ := numberOf_isSome.mp hn
      obtain rfl := Option.some.inj (hrevises.stored.symm.trans (hj ▸ hv))
      rw [if_pos (hrevises.template.trans hk), hrevises.number (.inr ha),
        Version.assignedNumber, if_pos ha]
      rfl
    · exact hn

/-- Outside, neither the ledger nor a lock is touched, and numbers stay as they are. -/
theorem Books.answer_outside (h : Books owner w ρ) (hmay : May ⟨seen, owner⟩ .outside r)
    (hr : w.stores.versions.Recorded seen) (hl : w'.ledger = w.ledger) (hk : w'.locked = w.locked)
    (hs : w'.stores.versions = (World.answer r w).2.stores.versions) : Books owner w' ρ := by
  rcases revises_answer hmay hr with hsame | ⟨c, x, hx, hput⟩
  · rw [hsame] at hs
    exact h.same hl hk (fun k => by rw [hs]) fun k n hb => hs ▸ hb
  · rw [hput] at hs
    refine h.same hl hk (fun k => ?_) fun k n hb => ?_
    · rw [hs]
      exact numberOf_put_same hx.stored hx.template (hx.number (.inl rfl)) k
    · rw [hs] at hb
      refine hb.of_put fun c' hc' => ?_
      obtain rfl := Option.some.inj (hx.stored.symm.trans hc')
      exact hx.template

theorem Books.answer_number {now : Timestamp} (h : Books owner w ρ)
    (hr : w.stores.versions.Recorded seen) (hi : ρ i = .informed p.templateKey n) (hp : p ∈ seen)
    (ha : p.assigned = false) (hm : Counter.next? n = some m) :
    Books owner (World.answer (.updateVersionStatus (p.numbered m now)) w).2
      (Function.update ρ i
        (Role.after (.informed p.templateKey n) (.updateVersionStatus (p.numbered m now))
        (World.answer (.updateVersionStatus (p.numbered m now)) w).1)) := by
  cases hu : w.stores.versions.updateStatus (p.numbered m now) with
  | error e =>
    simp only [World.answer, hu, World.settle]
    have hlock : Role.lock (.holding p.templateKey) = (ρ i).lock := by rw [hi]; rfl
    exact h.go rfl rfl (h.locks.same hlock) (by simp [hi]) (by simp [Role.after])
      (by simp [Role.after])
  | ok q =>
    obtain ⟨o, s⟩ := q
    obtain ⟨c, hf, -, rfl⟩ := Store.updateStatus_eq_ok.mp hu
    simp only [World.answer, hu, World.settle]
    obtain rfl := hr.fenced hp rfl hf
    have hstored : w.stores.versions.get? (Object.key c) = some c :=
      hr.keyed.get? (Store.fenced_eq_ok.mp hf).1
    have hnumber : Version.assignedNumber (Version.numbered c m now) = some m := by
      rw [Version.assignedNumber, if_pos (Version.numbered_assigned c m now)]
      rfl
    exact h.number (v := w.stores.versions.restated c (Version.numbered c m now)) hi hstored rfl rfl
      ha hm hnumber
      rfl rfl rfl

theorem Books.answer (h : Books owner w ρ) (hr : w.stores.versions.Recorded seen)
    (hone : Single owner) (hmay : May ⟨seen, owner⟩ (ρ i) r) (hfree : VersionHandlers.Free w r) :
    Books owner (World.answer r w).2
      (Function.update ρ i ((ρ i).after r (World.answer r w).1)) := by
  generalize hρ : ρ i = role at hmay ⊢
  have hstay : Function.update ρ i role = ρ := by rw [← hρ, Function.update_eq_self]
  have hledger (e : Except StoreError (Version × VersionStore)) :
      (w.settle w.withVersions e).2.ledger = w.ledger ∧
      (w.settle w.withVersions e).2.locked = w.locked := by
    rw [World.settle_snd]
    split
    · exact ⟨rfl, rfl⟩
    · exact ⟨rfl, rfl⟩
  have hallowed := hmay
  cases hallowed with
  | template k => exact hstay.symm ▸ h.answer_outside hmay hr rfl rfl rfl
  | version k => exact hstay.symm ▸ h.answer_outside hmay hr rfl rfl rfl
  | enqueue k => exact hstay.symm ▸ h.answer_outside hmay hr rfl rfl rfl
  | publish e => exact hstay.symm ▸ h.answer_outside hmay hr rfl rfl rfl
  | link _ _ _ _ _ => exact hstay.symm ▸ h.answer_outside hmay hr (hledger _).1 (hledger _).2 rfl
  | configure _ _ _ _ => exact hstay.symm ▸ h.answer_outside hmay hr (hledger _).1 (hledger _).2 rfl
  | lock k =>
    exact h.go rfl rfl (h.locks.take hfree i) (by simp [hρ]) (by simp [Role.after])
      (by simp [Role.after])
  | @read k u hu =>
    have hlock : (Role.informed k (w.ledger.latest k (some u))).lock = (ρ i).lock := by rw [hρ]; rfl
    refine h.go rfl rfl (h.locks.same hlock) (by simp [hρ]) (by simp [Role.after]) fun k' n hn => ?_
    obtain ⟨rfl, rfl⟩ := Role.informed.inj hn
    exact latest_of_owned hone h.owned hu
  | number hp ha hlabel howners hm => exact h.answer_number hr hρ hp ha hm
  | abandon k n =>
    have hlock : (ρ i).lock = some k := by rw [hρ]; rfl
    exact h.go rfl rfl (h.locks.release hlock) (by simp [hρ]) (by simp [Role.after])
      (by simp [Role.after])
  | count hu => exact h.count hρ hone hu rfl rfl rfl
  | unlock k =>
    have hlock : (ρ i).lock = some k := by rw [hρ]; rfl
    exact h.go rfl rfl (h.locks.release hlock) (by simp [hρ]) (by simp [Role.after])
      (by simp [Role.after])

/-- What a rebuilt ledger has for a name is the number of a version that is stored. -/
theorem numberOf_rebuilt {e : Ledger.Entry}
    (he : (Ledger.empty.rebuild d.all).entries.find? k = some e) :
    ∃ j, numberOf d k j = some e.latest := by
  rcases Ledger.rebuild_attained he with ⟨e', he', -⟩ | ⟨v, hv, hk, hn⟩
  · contradiction
  · obtain ⟨j, hj⟩ := Store.mem_all_iff.mp hv
    refine ⟨j, ?_⟩
    rw [numberOf, hj]
    simpa [Option.filter, hk] using hn

theorem rebuilt_of_numberOf (hj : numberOf d k j = some n) :
    ∃ e, (Ledger.empty.rebuild d.all).entries.find? k = some e ∧ n ≤ e.latest := by
  obtain ⟨v, hv, rfl, ha, rfl⟩ := numberOf_eq_some.mp hj
  have hn : v.assignedNumber = some v.status.version := by rw [Version.assignedNumber, if_pos ha]
  obtain ⟨e, he, hle, -⟩ := Ledger.rebuild_covers (l := .empty) (Store.mem_all_iff.mpr ⟨j, hv⟩) hn
  exact ⟨e, he, hle⟩

theorem Tally.rebuilt {js : List Key} (h : Tally (numberOf d k) js) :
    ((Ledger.empty.rebuild d.all).latest k none).toNat = js.length := by
  cases he : (Ledger.empty.rebuild d.all).entries.find? k with
  | none =>
    have hnil : js = [] := by
      rw [List.eq_nil_iff_forall_not_mem]
      intro j hj
      obtain ⟨n, hn⟩ := Option.isSome_iff_exists.mp ((h.given j).mp hj)
      obtain ⟨e, hfound, -⟩ := rebuilt_of_numberOf hn
      rw [he] at hfound
      contradiction
    simp [hnil, Ledger.latest, Ledger.entry?, he]
  | some e =>
    have hany : e.countsFor none = true := by simp [Ledger.Entry.countsFor]
    rw [Ledger.latest_of_counts he hany]
    obtain ⟨i, hi⟩ := numberOf_rebuilt he
    obtain ⟨hpos, hle⟩ := h.bounds hi
    have hne : js ≠ [] := by
      apply List.ne_nil_of_length_pos
      omega
    obtain ⟨j, n, hj, hlast⟩ := h.last hne
    obtain ⟨e', he', hge⟩ := rebuilt_of_numberOf hj
    obtain rfl := Option.some.inj (he.symm.trans he')
    rw [UInt32.le_iff_toNat_le] at hge
    omega

theorem books_rebuilt (hone : Single owner)
    (hp : ∀ (j : Key) (v : Version), w.stores.versions.get? j = some v → v.Proper owner)
    (ht : ∀ k, AtMost w.stores.versions k (UInt32.size - 2) →
      ∃ js, Tally (numberOf w.stores.versions k) js) :
    Books owner w.forget.rebuilt fun _ => .outside := by
  constructor
  · -- Nobody is at work.
    constructor
    · intro i k hi
      contradiction
    · intro i j k hi
      contradiction
  · -- All numbers of a name are those of versions of one template.
    intro k e he
    obtain ⟨j, hj⟩ := numberOf_rebuilt he
    obtain ⟨v, hv, rfl, ha, -⟩ := numberOf_eq_some.mp hj
    obtain ⟨u, -, hu⟩ := (hp j v hv).ownerUid ha
    refine ⟨u, Ledger.rebuild_owner (l := .empty) (fun x hx hxk hxa => ?_) (fun _ h => ?_) he, hu⟩
    · obtain ⟨i, hi⟩ := Store.mem_all_iff.mp hx
      obtain ⟨u', hxu, hu'⟩ := (hp i x hi).ownerUid hxa
      rw [hxk] at hu'
      rw [hxu, hone _ u' u hu' hu]
    · contradiction
  · intro i k n hi
    contradiction
  · intro k hk
    obtain ⟨js, htally⟩ := ht k hk
    refine ⟨js, htally, ?_⟩
    rw [lead_eq_zero (fun _ => by simp), Nat.add_zero]
    exact htally.rebuilt.symm

end Numbering
end ModelTemplates
