import Mathlib.Data.Finset.Card
import Mathlib.Order.Bounds.Defs
import ModelTemplates.Proofs.Ledger.Count
/-! What a rebuild makes of the entries that are there and of the versions that are stored: each
entry is the sum of all that is counted under its key, in whatever order and however often it is
counted. -/
namespace ModelTemplates
namespace Table

variable {κ ν : Type} [Ordered κ]

theorem nodup_keys (t : Table κ ν) : t.keys.Nodup :=
  List.pairwise_map.mpr (t.sorted.imp fun {a b} (hlt : a.1 < b.1) heq =>
    Ordered.irrefl b.1 (heq ▸ hlt))

theorem mem_keys_iff [DecidableEq κ] {t : Table κ ν} {k : κ} :
    k ∈ t.keys ↔ t.contains k = true := by
  rw [contains, Option.isSome_iff_exists, keys, List.mem_map]
  constructor
  · rintro ⟨⟨j, a⟩, h, rfl⟩
    exact ⟨a, (mem_entries_iff t _ a).mp h⟩
  · rintro ⟨a, h⟩
    exact ⟨(k, a), (mem_entries_iff t k a).mpr h, rfl⟩

end Table

namespace Ledger

variable {l : Ledger} {vs ws : List Version} {v : Version} {k : Key} {d e : Entry}
  {es fs : List Entry}

def credit? (v : Version) : Option Entry := v.assignedNumber.map fun n => ⟨v.ownerUid, n⟩

/-- All that is to be counted under a key: its entry, and the versions with a number that name
it. -/
def credits (l : Ledger) (vs : List Version) (k : Key) : List Entry :=
  (l.entries.find? k).toList ++ vs.filterMap fun v => if v.templateKey = k then credit? v else none

theorem mem_credits :
    d ∈ l.credits vs k ↔ l.entries.find? k = some d ∨ ∃ v ∈ vs, v.templateKey = k ∧
      credit? v = some d := by
  simp [credits, Option.mem_toList]

theorem credits_concat (l : Ledger) (vs : List Version) (v : Version) (k : Key) :
    l.credits (vs ++ [v]) k = l.credits vs k ++ (if v.templateKey = k then credit? v
      else none).toList := by
  rw [credits, List.filterMap_append, ← List.append_assoc, ← credits]
  congr 1

theorem credit?_eq_some :
    credit? v = some d ↔ v.assigned = true ∧ v.ownerUid = d.owner ∧
      v.status.version = d.latest := by
  cases d
  simp [credit?, Version.assignedNumber]

/-- An entry says of a list of others what they have in common: the greatest count, and the owner if
it is the same in all of them. -/
structure Entry.Sums (e : Entry) (es : List Entry) : Prop where
  attained : ∃ d ∈ es, d.latest = e.latest
  bound : ∀ d ∈ es, d.latest ≤ e.latest
  common : ∀ o, (∀ d ∈ es, d.owner = o) → e.owner = o
  mixed : (¬ ∃ o, ∀ d ∈ es, d.owner = o) → e.owner = none

theorem Entry.sums_singleton (e : Entry) : e.Sums [e] where
  attained := ⟨e, List.mem_singleton_self e, rfl⟩
  bound d hd := by rw [List.mem_singleton.mp hd]; exact UInt32.le_refl _
  common o ho := ho e (List.mem_singleton_self e)
  mixed h := absurd ⟨e.owner, fun d hd => by rw [List.mem_singleton.mp hd]⟩ h

theorem Entry.Sums.concat (h : e.Sums es) (d : Entry) :
    (e.joined d.owner d.latest).Sums (es ++ [d]) := by
  obtain ⟨c, hc, hce⟩ := h.attained
  constructor
  · rcases e.joined_eq d.owner d.latest with he | he
    · exact ⟨d, by simp, he.symm⟩
    · exact ⟨c, by simp [hc], hce.trans he.symm⟩
  · intro b hb
    obtain ⟨hle, hled⟩ := e.joined_latest d.owner d.latest
    rcases List.mem_append.mp hb with hb | hb
    · exact UInt32.le_trans (h.bound b hb) hle
    · rwa [List.mem_singleton.mp hb]
  · intro o ho
    have he : e.owner = o := h.common o fun b hb => ho b (List.mem_append_left _ hb)
    rw [joined, if_pos (he.trans (ho d (by simp)).symm), he]
  · intro hmixed
    rw [joined]
    split
    · next heq =>
      -- The owners before were not all the same, or this one would be theirs.
      refine h.mixed ?_
      rintro ⟨o, ho⟩
      refine hmixed ⟨o, fun b hb => ?_⟩
      rcases List.mem_append.mp hb with hb | hb
      · exact ho b hb
      · rw [List.mem_singleton.mp hb, ← heq, h.common o ho]
    · rfl

theorem Entry.Sums.congr (h : e.Sums es) (hmem : ∀ d, d ∈ es ↔ d ∈ fs) : e.Sums fs := by
  have all {p : Entry → Prop} : (∀ d ∈ fs, p d) ↔ ∀ d ∈ es, p d :=
    forall_congr' fun d => by rw [hmem]
  obtain ⟨d, hd, hde⟩ := h.attained
  refine ⟨⟨d, (hmem d).mp hd, hde⟩, all.mpr h.bound, fun o ho => h.common o (all.mp ho),
    fun hmixed => h.mixed ?_⟩
  exact fun ⟨o, ho⟩ => hmixed ⟨o, all.mpr ho⟩

theorem Entry.Sums.unique (hd : d.Sums es) (he : e.Sums es) : d = e := by
  obtain ⟨b, hb, hbd⟩ := hd.attained
  obtain ⟨c, hc, hce⟩ := he.attained
  have hlatest : d.latest = e.latest :=
    UInt32.le_antisymm (hbd ▸ he.bound b hb) (hce ▸ hd.bound c hc)
  have howner : d.owner = e.owner := by
    by_cases h : ∃ o, ∀ d ∈ es, d.owner = o
    · obtain ⟨o, ho⟩ := h
      rw [hd.common o ho, he.common o ho]
    · rw [hd.mixed h, he.mixed h]
  cases d; cases e; simp_all

def IsSum (es : List Entry) : Option Entry → Prop
  | none => es = []
  | some e => e.Sums es

theorem IsSum.concat {s : Option Entry} (h : IsSum es s) (d : Entry) :
    IsSum (es ++ [d]) (some ((s.getD ⟨d.owner, 0⟩).joined d.owner d.latest)) := by
  cases s with
  | some e => exact Entry.Sums.concat h d
  | none =>
    have hd : (⟨d.owner, 0⟩ : Entry).joined d.owner d.latest = d := by
      have hlatest := Entry.joined_zero d.owner d.owner d.latest
      have howner := Entry.joined_owner ⟨d.owner, 0⟩ d.latest
      cases d; simp_all [Entry.joined]
    obtain rfl : es = [] := h
    rw [Option.getD_none, hd]
    exact d.sums_singleton

theorem IsSum.congr {s : Option Entry} (h : IsSum es s) (hmem : ∀ d, d ∈ es ↔ d ∈ fs) :
    IsSum fs s := by
  cases s with
  | some e => exact Entry.Sums.congr h hmem
  | none =>
    obtain rfl : es = [] := h
    exact List.eq_nil_iff_forall_not_mem.mpr fun d hd => List.not_mem_nil ((hmem d).mpr hd)

theorem IsSum.unique {s s' : Option Entry} (h : IsSum es s) (h' : IsSum es s') : s = s' := by
  have none_iff {s : Option Entry} (h : IsSum es s) : s = none ↔ es = [] := by
    cases s with
    | none => exact ⟨fun _ => h, fun _ => rfl⟩
    | some e =>
      obtain ⟨d, hd, -⟩ := Entry.Sums.attained h
      simp [List.ne_nil_of_mem hd]
  cases s with
  | none => exact ((none_iff h').mpr h).symm
  | some e => cases s' with
    | none => exact (none_iff h).mpr h'
    | some e' => rw [Entry.Sums.unique h h']

theorem observe_of_credit (l : Ledger) (h : credit? v = some d) :
    (l.observe v).entries.find? k =
      if v.templateKey = k then
        some (((l.entries.find? k).getD ⟨d.owner, 0⟩).joined d.owner d.latest)
      else l.entries.find? k := by
  obtain ⟨n, hn, rfl⟩ := Option.map_eq_some_iff.mp h
  rw [observe_find? hn]
  exact if_congr eq_comm rfl rfl

theorem IsSum.observe (h : IsSum (l.credits vs k) ((l.rebuild vs).entries.find? k)) (v : Version) :
    IsSum (l.credits (vs ++ [v]) k) (((l.rebuild vs).observe v).entries.find? k) := by
  rw [credits_concat]
  cases hc : credit? v with
  | none =>
    rw [observe_of_unassigned (by simpa [credit?] using hc), ite_self]
    simpa using h
  | some d =>
    rw [observe_of_credit _ hc]
    split
    · exact h.concat d
    · simpa using h

/-- A rebuilt entry is the sum of all that is counted under its key. -/
theorem rebuild_isSum (l : Ledger) (vs : List Version) (k : Key) :
    IsSum (l.credits vs k) ((l.rebuild vs).entries.find? k) := by
  induction vs using List.reverseRecOn with
  | nil =>
    change IsSum (l.credits [] k) (l.entries.find? k)
    rw [credits, List.filterMap_nil, List.append_nil]
    cases l.entries.find? k with
    | none => rfl
    | some e => exact e.sums_singleton
  | append_singleton vs v ih =>
    have hrebuild : l.rebuild (vs ++ [v]) = (l.rebuild vs).observe v := List.foldl_concat _ _ _ _
    rw [hrebuild]
    exact ih.observe v

theorem rebuild_congr {l' : Ledger} (h : ∀ k, IsSum (l.credits vs k) (l'.entries.find? k)) :
    l' = l.rebuild vs := by
  have hentries : l'.entries = (l.rebuild vs).entries :=
    Table.ext_find? fun k => (h k).unique (rebuild_isSum l vs k)
  cases l'; cases h : l.rebuild vs; simp_all

theorem rebuild_perm (h : vs.Perm ws) : l.rebuild vs = l.rebuild ws := by
  refine rebuild_congr fun k => (rebuild_isSum l vs k).congr fun d => ?_
  rw [mem_credits, mem_credits]
  simp only [h.mem_iff]

/-- A sum that is counted once more, with some of what it sums up, stays as it is. -/
theorem Entry.Sums.again (h : e.Sums (es ++ fs)) : e.Sums (e :: fs) where
  attained := ⟨e, List.mem_cons_self, rfl⟩
  bound d hd := by
    rcases List.mem_cons.mp hd with rfl | hd
    · exact UInt32.le_refl _
    · exact h.bound d (List.mem_append_right _ hd)
  common o ho := ho e List.mem_cons_self
  mixed hmixed := h.mixed fun ⟨o, ho⟩ => hmixed ⟨o, fun d hd => by
    rcases List.mem_cons.mp hd with rfl | hd
    · exact h.common o ho
    · exact ho d (List.mem_append_right _ hd)⟩

theorem rebuild_rebuild (l : Ledger) (vs : List Version) :
    (l.rebuild vs).rebuild vs = l.rebuild vs := by
  refine (rebuild_congr fun k => ?_).symm
  have h := rebuild_isSum l vs k
  rw [credits] at h ⊢
  cases hs : (l.rebuild vs).entries.find? k with
  | some e =>
    rw [hs] at h
    exact Entry.Sums.again h
  | none =>
    rw [hs] at h
    exact (List.append_eq_nil_iff.mp h).2

theorem contains_rebuild (l : Ledger) (vs : List Version) (k : Key) :
    (l.rebuild vs).entries.contains k = true ↔
      l.entries.contains k = true ∨ ∃ v ∈ vs, v.assigned = true ∧ v.templateKey = k := by
  have hsum := rebuild_isSum l vs k
  have hcredit : (l.rebuild vs).entries.contains k = true ↔ ∃ d, d ∈ l.credits vs k := by
    rw [Table.contains]
    cases hs : (l.rebuild vs).entries.find? k with
    | none =>
      rw [hs] at hsum
      simp [show l.credits vs k = [] from hsum]
    | some e =>
      rw [hs] at hsum
      obtain ⟨d, hd, -⟩ := Entry.Sums.attained hsum
      simpa using ⟨d, hd⟩
  rw [hcredit, Table.contains, Option.isSome_iff_exists]
  constructor
  · rintro ⟨d, hd⟩
    refine (mem_credits.mp hd).imp (fun h => ⟨d, h⟩) ?_
    rintro ⟨v, hv, hk, hc⟩
    exact ⟨v, hv, (credit?_eq_some.mp hc).1, hk⟩
  · rintro (⟨d, hd⟩ | ⟨v, hv, ha, hk⟩)
    · exact ⟨d, mem_credits.mpr (.inl hd)⟩
    · exact ⟨⟨v.ownerUid, v.status.version⟩,
        mem_credits.mpr (.inr ⟨v, hv, hk, credit?_eq_some.mpr ⟨ha, rfl, rfl⟩⟩)⟩

theorem rebuild_sums (h : (l.rebuild vs).entries.find? k = some e) : e.Sums (l.credits vs k) := by
  have hsum := rebuild_isSum l vs k
  rwa [h] at hsum

theorem rebuild_latest (h : (l.rebuild vs).entries.find? k = some e) :
    IsGreatest {n | n = ((l.entries.find? k).map Entry.latest).getD 0 ∨
      ∃ v ∈ vs, v.templateKey = k ∧ v.assignedNumber = some n} e.latest := by
  have hsums := rebuild_sums h
  constructor
  · obtain ⟨d, hd, hde⟩ := hsums.attained
    rcases mem_credits.mp hd with hd | ⟨v, hv, hk, hc⟩
    · exact .inl (by simp [hd, hde])
    · obtain ⟨ha, -, hn⟩ := credit?_eq_some.mp hc
      exact .inr ⟨v, hv, hk, assignedNumber_eq_some.mpr ⟨ha, hn.trans hde⟩⟩
  · rintro n (rfl | ⟨v, hv, hk, hn⟩)
    · cases hl : l.entries.find? k with
      | none => exact UInt32.le_iff_toNat_le.mpr (Nat.zero_le _)
      | some d => exact hsums.bound d (mem_credits.mpr (.inl hl))
    · obtain ⟨ha, hn⟩ := assignedNumber_eq_some.mp hn
      exact hsums.bound ⟨v.ownerUid, n⟩
        (mem_credits.mpr (.inr ⟨v, hv, hk, credit?_eq_some.mpr ⟨ha, rfl, hn⟩⟩))

/-- The entry of a key, if there is one, and all numbered versions that name it have this owner. -/
structure SharedOwner (l : Ledger) (vs : List Version) (k : Key) (o : Option Uid) : Prop where
  entry : ∀ d, l.entries.find? k = some d → d.owner = o
  versions : ∀ v ∈ vs, v.assigned = true → v.templateKey = k → v.ownerUid = o

theorem sharedOwner_iff {o : Option Uid} :
    l.SharedOwner vs k o ↔ ∀ d ∈ l.credits vs k, d.owner = o := by
  constructor
  · rintro ⟨hentry, hversions⟩ d hd
    rcases mem_credits.mp hd with hd | ⟨v, hv, hk, hc⟩
    · exact hentry d hd
    · obtain ⟨ha, ho, -⟩ := credit?_eq_some.mp hc
      rw [← ho, hversions v hv ha hk]
  · intro h
    refine ⟨fun d hd => h d (mem_credits.mpr (.inl hd)), fun v hv ha hk => ?_⟩
    exact h ⟨v.ownerUid, v.status.version⟩
      (mem_credits.mpr (.inr ⟨v, hv, hk, credit?_eq_some.mpr ⟨ha, rfl, rfl⟩⟩))

theorem rebuild_common {o : Option Uid} (h : (l.rebuild vs).entries.find? k = some e)
    (ho : l.SharedOwner vs k o) :
    e.owner = o :=
  (rebuild_sums h).common o (sharedOwner_iff.mp ho)

theorem rebuild_mixed (h : (l.rebuild vs).entries.find? k = some e)
    (ho : ¬ ∃ o, l.SharedOwner vs k o) :
    e.owner = none :=
  (rebuild_sums h).mixed fun ⟨o, hall⟩ => ho ⟨o, sharedOwner_iff.mpr hall⟩

/-- The keys that are there or are named by a numbered version, each once. -/
def counted (l : Ledger) (vs : List Version) : Finset Key :=
  (l.entries.keys ++ (vs.filter Version.assigned).map Version.templateKey).toFinset

theorem size_rebuild (l : Ledger) (vs : List Version) :
    (l.rebuild vs).size = (l.counted vs).card := by
  have hkeys : (l.rebuild vs).entries.keys.toFinset = l.counted vs := by
    ext k
    rw [List.mem_toFinset, Table.mem_keys_iff, contains_rebuild, counted, List.mem_toFinset,
      List.mem_append, Table.mem_keys_iff]
    simp [and_assoc]
  rw [← hkeys, List.toFinset_card_of_nodup (Table.nodup_keys _), size, Table.size, Table.keys,
    List.length_map]

/-- A rebuild in closed form: which keys have an entry after it, what the entry of each has counted
and for whom, that neither the order of the versions nor a second rebuild makes a difference, and
how many entries there are. -/
theorem rebuild_counts_all (l : Ledger) (vs : List Version) :
    (∀ k, (l.rebuild vs).entries.contains k = true ↔
      l.entries.contains k = true ∨ ∃ v ∈ vs, v.assigned = true ∧ v.templateKey = k) ∧
    (∀ k e, (l.rebuild vs).entries.find? k = some e →
      IsGreatest {n | n = ((l.entries.find? k).map Entry.latest).getD 0 ∨
        ∃ v ∈ vs, v.templateKey = k ∧ v.assignedNumber = some n} e.latest ∧
      (∀ o, l.SharedOwner vs k o → e.owner = o) ∧
      ((¬ ∃ o, l.SharedOwner vs k o) → e.owner = none)) ∧
    (∀ ws, vs.Perm ws → l.rebuild ws = l.rebuild vs) ∧
    (l.rebuild vs).rebuild vs = l.rebuild vs ∧
    (l.rebuild vs).size = (l.counted vs).card := by
  refine ⟨contains_rebuild l vs, fun k e h => ?_, fun ws h => (rebuild_perm h).symm,
    rebuild_rebuild l vs, size_rebuild l vs⟩
  exact ⟨rebuild_latest h, fun o => rebuild_common h, rebuild_mixed h⟩

/-- Every numbered version that names the template is counted for another one of its name. -/
def Misfiled (vs : List Version) (t : Template) : Prop :=
  ∃ uid, t.metadata.uid ≠ some uid ∧
    ∀ v ∈ vs, v.assigned = true → v.templateKey = t.key → v.ownerUid = some uid

theorem Misfiled.latest {t : Template} {uid : Uid} (h : Misfiled vs t)
    (ht : t.metadata.uid = some uid) :
    (empty.rebuild vs).latest t.key (some uid) = 0 := by
  obtain ⟨other, hne, hfiled⟩ := h
  have hother : uid ≠ other := fun heq => hne (ht.trans (congrArg some heq))
  have howner : ∀ e, (empty.rebuild vs).entries.find? t.key = some e → e.owner = some other := by
    intro e he
    exact rebuild_owner (fun v hv hk ha => hfiled v hv ha hk) (fun d hd => by simp [empty] at hd) he
  exact latest_of_other howner hother

/-- An entry that does not count for the template has an owner, and then all that is counted in it
has that one. -/
theorem misfiled_of_not_counts {t : Template} (he : (empty.rebuild vs).entries.find? t.key = some e)
    (hc : e.countsFor t.metadata.uid = false) : Misfiled vs t := by
  obtain ⟨uid, ho⟩ : ∃ uid, e.owner = some uid := by
    cases ho : e.owner with
    | none => simp [Entry.countsFor, ho] at hc
    | some uid => exact ⟨uid, rfl⟩
  refine ⟨uid, fun h => by simp [Entry.countsFor, ho, h] at hc, fun v hv ha hk => ?_⟩
  obtain ⟨e', he', -, howner⟩ :=
    rebuild_covers (l := empty) hv (assignedNumber_eq_some.mpr ⟨ha, rfl⟩)
  obtain rfl := Option.some.inj (he.symm.trans (hk ▸ he'))
  exact (howner.resolve_left (by simp [ho])).symm.trans ho

/-- A rebuild from nothing covers the members of a template exactly when they are not all counted
for another one. -/
theorem rebuild_covers_members_iff (vs : List Version) (t : Template) :
    (∀ v ∈ vs, ∀ n, v.assignedNumber = some n → v.templateKey = t.key → v.ownedBy t = true →
      n ≤ (empty.rebuild vs).latest t.key t.metadata.uid) ↔
    (Misfiled vs t → ∀ v ∈ vs, ∀ n, v.assignedNumber = some n → v.templateKey = t.key →
      v.ownedBy t = true → n = 0) := by
  constructor
  · intro hcovers hmisfiled v hv n hn hk howned
    have hle := hcovers v hv n hn hk howned
    obtain ⟨uid, ht⟩ : ∃ uid, t.metadata.uid = some uid := by
      cases ht : t.metadata.uid with
      | none => simp [Version.ownedBy, ht] at howned
      | some uid => exact ⟨uid, rfl⟩
    rw [ht, hmisfiled.latest ht] at hle
    exact UInt32.toNat_inj.mp (Nat.le_zero.mp (UInt32.le_iff_toNat_le.mp hle))
  · intro hzero v hv n hn hk howned
    obtain ⟨e, he, hle, -⟩ := rebuild_covers (l := empty) hv hn
    rw [hk] at he
    cases hc : e.countsFor t.metadata.uid with
    | true => rwa [latest_of_counts he hc]
    | false =>
      rw [hzero (misfiled_of_not_counts he hc) v hv n hn hk howned]
      exact UInt32.le_iff_toNat_le.mpr (Nat.zero_le _)

def remade : Template := ⟨{ Meta.named "models" "llama" with uid := some ⟨2⟩ }, .empty, .empty⟩

/-- Its first version, which still carries a reference to the old template before the one to the
new. -/
def carriedOver : Version where
  metadata :=
    { Meta.named "models" "a" with
      owners :=
        [⟨apiVersion, Kind.template.text, "llama", ⟨1⟩⟩,
          ⟨apiVersion, Kind.template.text, "llama", ⟨2⟩⟩] }
  spec := { VersionSpec.empty with templateName := "llama" }
  status :=
    { VersionStatus.empty with
      version := 1
      conditions := Conditions.set [] .assigned true "" "" .epoch }

/-- The number of a member whose first reference is to another template is lost by a rebuild. -/
theorem carried_over_uncovered :
    ¬ ∀ (vs : List Version) (t : Template), t.metadata.uid ≠ none →
      ∀ v ∈ vs, ∀ n, v.assignedNumber = some n → v.templateKey = t.key → v.ownedBy t = true →
      n ≤ (empty.rebuild vs).latest t.key t.metadata.uid := by
  intro h
  have hle : 1 ≤ (empty.rebuild [carriedOver]).latest remade.key remade.metadata.uid :=
    h [carriedOver] remade (by decide) carriedOver List.mem_cons_self 1 (by decide)
      (by decide) (by decide)
  have hzero : (empty.rebuild [carriedOver]).latest remade.key remade.metadata.uid = 0 := by decide
  rw [hzero] at hle
  exact absurd hle (by decide)

end Ledger
end ModelTemplates
