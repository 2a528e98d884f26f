import ModelTemplates.Stores
/-! What a store holds beside what it held before. A resource version stands for one state of one
object, so an object that passes the fence is the one that is stored. -/
namespace ModelTemplates

theorem Table.mem_values_iff {κ ν : Type} [Ordered κ] [DecidableEq κ] (t : Table κ ν) (v : ν) :
    v ∈ t.values ↔ ∃ k, t.find? k = some v := by
  simp only [Table.values, List.mem_map, Prod.exists, exists_eq_right]
  exact exists_congr fun k => t.mem_entries_iff k v

namespace Store

variable {σ τ : Type} {s : Store σ τ} {o c p : Object σ τ} {k : Key}

theorem mem_all_iff : o ∈ s.all ↔ ∃ k, s.get? k = some o := by
  unfold all list
  rw [List.mem_filter, Table.mem_values_iff]
  exact and_iff_left rfl

@[simp] theorem put_get? (s : Store σ τ) (o : Object σ τ) (k : Key) :
    (s.put o).get? k = if k = o.key then some o else s.get? k := Table.find?_insert _ _ _ _

/-- Whatever is found once an object was put is that object, or was there before. -/
theorem get?_put_cases (h : (s.put o).get? k = some p) :
    k = o.key ∧ p = o ∨ k ≠ o.key ∧ s.get? k = some p := by
  rw [put_get?] at h
  split at h
  · next hk => exact .inl ⟨hk, (Option.some.inj h).symm⟩
  · next hk => exact .inr ⟨hk, h⟩

theorem get?_put_of_fresh (ho : s.get? o.key = none) (h : s.get? k = some p) :
    (s.put o).get? k = some p := by
  have hne : k ≠ o.key := by
    rintro rfl
    rw [ho] at h
    contradiction
  rw [put_get?, if_neg hne]
  exact h

@[simp] theorem put_lastVersion (s : Store σ τ) (o : Object σ τ) :
    (s.put o).lastVersion = s.nextVersion := rfl

def without (s : Store σ τ) (o : Object σ τ) (now : Timestamp) : Store σ τ :=
  { s with objects := s.objects.erase o.key }.emit (.deleted (buried o now))

@[simp] theorem without_get? (s : Store σ τ) (o : Object σ τ) (now : Timestamp) (k : Key) :
    (s.without o now).get? k = if k = o.key then none else s.get? k := Table.find?_erase _ _ _

theorem create_eq_ok {uid : Uid} {now : Timestamp} {t : Store σ τ} :
    s.create o uid now = .ok (c, t) ↔
      s.get? o.key = none ∧ c = s.created o uid now ∧ t = s.put (s.created o uid now) := by
  unfold create Table.contains
  change (if (s.get? o.key).isSome then _ else _) = _ ↔ _
  cases s.get? o.key <;> simp [eq_comm]

theorem create_eq_error {uid : Uid} {now : Timestamp} {e : StoreError} :
    s.create o uid now = .error e ↔ s.get? o.key ≠ none ∧ e = .alreadyExists s.kind o.key := by
  unfold create Table.contains
  change (if (s.get? o.key).isSome then _ else _) = _ ↔ _
  cases s.get? o.key <;> simp [eq_comm]

theorem fenced_eq_ok :
    s.fenced o = .ok c ↔
      s.get? o.key = some c ∧ o.metadata.resourceVersion = c.metadata.resourceVersion := by
  unfold fenced
  cases s.get? o.key with
  | none => simp
  | some d => by_cases h : o.metadata.resourceVersion = d.metadata.resourceVersion <;> grind

theorem update_eq_ok [DecidableEq σ] {t : Store σ τ} :
    s.update o = .ok (p, t) ↔
      ∃ c, s.fenced o = .ok c ∧ p = s.updated c o ∧ t = s.put (s.updated c o) := by
  unfold update
  cases s.fenced o with
  | error e => simp [bind, Except.bind]
  | ok c => simp [bind, Except.bind, eq_comm]

theorem updateStatus_eq_ok {t : Store σ τ} :
    s.updateStatus o = .ok (p, t) ↔
      ∃ c, s.fenced o = .ok c ∧ p = s.restated c o ∧ t = s.put (s.restated c o) := by
  unfold updateStatus
  cases s.fenced o with
  | error e => simp [bind, Except.bind]
  | ok c => simp [bind, Except.bind, eq_comm]

def HasRoom (s : Store σ τ) : Prop := s.lastVersion.toNat + 1 < UInt64.size

instance (s : Store σ τ) : Decidable s.HasRoom := inferInstanceAs (Decidable (_ < _))

def Keyed (s : Store σ τ) : Prop := ∀ k o, s.get? k = some o → o.key = k

theorem keyed_iff : s.Keyed ↔ ∀ e ∈ s.objects.entries, e.2.key = e.1 := by
  constructor
  · exact fun h e he => h e.1 e.2 ((Table.mem_entries_iff _ _ _).mp he)
  · exact fun h k o hk => h (k, o) ((Table.mem_entries_iff _ _ _).mpr hk)

theorem Keyed.get? (h : s.Keyed) (hk : s.get? k = some o) : s.get? o.key = some o := by
  rw [h _ _ hk, hk]

theorem Keyed.put (h : s.Keyed) (o : Object σ τ) : (s.put o).Keyed := by
  intro k p hk
  rw [put_get?] at hk
  split at hk
  · next e => exact Option.some.inj hk ▸ e.symm
  · exact h k p hk

theorem Keyed.without (h : s.Keyed) (o : Object σ τ) (now : Timestamp) :
    (s.without o now).Keyed := by
  intro k p hk
  rw [without_get?] at hk
  split at hk
  · contradiction
  · exact h k p hk

/-- `past` has every state that an object of the store has had, told apart by their resource
versions. -/
structure Recorded (s : Store σ τ) (past : List (Object σ τ)) : Prop where
  keyed : s.Keyed
  held : ∀ {k o}, s.get? k = some o → o ∈ past
  bounded : ∀ {o}, o ∈ past → o.metadata.resourceVersion.toNat ≤ s.lastVersion.toNat
  single : ∀ {o p}, o ∈ past → p ∈ past →
    o.metadata.resourceVersion = p.metadata.resourceVersion → o = p

theorem recorded_of_empty (h : s.objects = .empty) : s.Recorded [] := by
  have hg {k : Key} {o : Object σ τ} : s.get? k ≠ some o := by
    unfold get?
    simp [h, Table.find?_empty]
  exact ⟨fun _ _ hk => absurd hk hg, fun hk => absurd hk hg, fun ho => absurd ho List.not_mem_nil,
    fun ho => absurd ho List.not_mem_nil⟩

theorem recorded_empty (kind : Kind) : (empty kind : Store σ τ).Recorded [] := recorded_of_empty rfl

theorem nextVersion_toNat (h : s.HasRoom) : s.nextVersion.toNat = s.lastVersion.toNat + 1 := by
  have hs : s.lastVersion.toNat + 1 < 2 ^ 64 := h
  simp only [nextVersion, UInt64.toNat_add, UInt64.toNat_one]
  omega

namespace Recorded

variable {past : List (Object σ τ)}

/-- The fence lets through only what is based on the stored object. -/
theorem fenced (h : s.Recorded past) (hp : p ∈ past)
    (hv : o.metadata.resourceVersion = p.metadata.resourceVersion) (hf : s.fenced o = .ok c) :
    c = p := by
  obtain ⟨hc, he⟩ := fenced_eq_ok.mp hf
  exact h.single (h.held hc) hp (he.symm.trans hv)

theorem note (h : s.Recorded past) : s.Recorded (s.objects.values ++ past) := by
  have hm : ∀ {o}, o ∈ s.objects.values ++ past → o ∈ past := fun ho =>
    (List.mem_append.mp ho).elim
      (fun hv => let ⟨_, hk⟩ := (Table.mem_values_iff _ _).mp hv; h.held hk) id
  exact ⟨h.keyed, fun hk => List.mem_append_right _ (h.held hk), fun ho => h.bounded (hm ho),
    fun ho hp => h.single (hm ho) (hm hp)⟩

theorem current (h : s.Recorded past) : s.Recorded s.objects.values := by
  have hm {o : Object σ τ} (ho : o ∈ s.objects.values) : o ∈ past :=
    let ⟨_, hk⟩ := (Table.mem_values_iff _ _).mp ho
    h.held hk
  exact ⟨h.keyed, fun {k o} hk => (Table.mem_values_iff _ _).mpr ⟨k, hk⟩,
    fun ho => h.bounded (hm ho), fun ho hp => h.single (hm ho) (hm hp)⟩

theorem put (h : s.Recorded past) (hr : s.HasRoom)
    (ho : o.metadata.resourceVersion = s.nextVersion) :
    (s.put o).Recorded (o :: past) := by
  have hn := nextVersion_toNat hr
  have new {p : Object σ τ} (hp : p ∈ past) :
      o.metadata.resourceVersion ≠ p.metadata.resourceVersion := by
    intro he
    have := h.bounded hp
    rw [← he, ho, hn] at this
    omega
  refine ⟨h.keyed.put o, fun {k p} hk => ?_, fun {p} hp => ?_, fun {p q} hp hq he => ?_⟩
  · rw [put_get?] at hk
    split at hk
    · obtain rfl := Option.some.inj hk; exact List.mem_cons_self
    · exact List.mem_cons_of_mem _ (h.held hk)
  · rw [put_lastVersion, hn]
    rcases List.mem_cons.mp hp with rfl | hp
    · simp [ho, hn]
    · exact Nat.le_succ_of_le (h.bounded hp)
  · rcases List.mem_cons.mp hp with ep | hp <;> rcases List.mem_cons.mp hq with eq | hq
    · rw [ep, eq]
    · exact absurd (ep ▸ he) (new hq)
    · exact absurd (eq ▸ he.symm) (new hp)
    · exact h.single hp hq he

theorem without (h : s.Recorded past) (o : Object σ τ) (now : Timestamp) :
    (s.without o now).Recorded past := by
  refine ⟨h.keyed.without o now, fun {k p} hk => ?_, h.bounded, h.single⟩
  rw [without_get?] at hk
  split at hk
  · contradiction
  · exact h.held hk

theorem congr {past' : List (Object σ τ)} (h : s.Recorded past) (hm : ∀ o, o ∈ past' ↔ o ∈ past) :
    s.Recorded past' :=
  ⟨h.keyed, fun hk => (hm _).mpr (h.held hk), fun ho => h.bounded ((hm _).mp ho),
    fun ho hp => h.single ((hm _).mp ho) ((hm _).mp hp)⟩

/-- The states after a write: those before it and what is stored now. -/
theorem note_put (h : s.Recorded past) (hr : s.HasRoom)
    (ho : o.metadata.resourceVersion = s.nextVersion) :
    (s.put o).Recorded ((s.put o).objects.values ++ past) := by
  refine (h.put hr ho).congr fun p => ?_
  have hv : p ∈ (s.put o).objects.values ↔ ∃ k, (s.put o).get? k = some p :=
    Table.mem_values_iff _ _
  rw [List.mem_append, List.mem_cons, hv]
  constructor
  · rintro (⟨k, hk⟩ | hp)
    · exact List.mem_cons.mp ((h.put hr ho).held hk)
    · exact .inr hp
  · rintro (rfl | hp)
    · exact .inl ⟨p.key, by rw [put_get?, if_pos rfl]⟩
    · exact .inr hp

end Recorded

/-- A deletion that succeeds removes what is stored under the key. -/
theorem delete_eq_ok (h : s.Keyed) {now : Timestamp} {t : Store σ τ} :
    s.delete k now = .ok t ↔ ∃ c, s.get? k = some c ∧ t = s.without c now := by
  unfold delete
  cases hk : s.get? k with
  | none => simp
  | some c =>
    have : c.key = k := h _ _ hk
    simp [without, this, eq_comm]

/-- Every object has an identifier of its own, one of those that were issued. -/
structure Identified (s : Store σ τ) (issued : List Uid) : Prop where
  drawn : ∀ {k o}, s.get? k = some o → ∃ uid ∈ issued, o.metadata.uid = some uid
  own : ∀ {k j o p}, s.get? k = some o → s.get? j = some p → o.metadata.uid = p.metadata.uid → k = j

namespace Identified

variable {issued : List Uid}

theorem mono {more : List Uid} (h : s.Identified issued) (hm : issued ⊆ more) : s.Identified more :=
  ⟨fun hk => let ⟨uid, hu, he⟩ := h.drawn hk; ⟨uid, hm hu, he⟩, h.own⟩

theorem without (h : s.Identified issued) (o : Object σ τ) (now : Timestamp) :
    (s.without o now).Identified issued := by
  have hg {k : Key} {p : Object σ τ} (hk : (s.without o now).get? k = some p) :
      s.get? k = some p := by
    rw [without_get?] at hk
    split at hk
    · contradiction
    · exact hk
  exact ⟨fun hk => h.drawn (hg hk), fun hk hj => h.own (hg hk) (hg hj)⟩

theorem put_same (h : s.Identified issued) (hc : s.get? o.key = some c)
    (hu : o.metadata.uid = c.metadata.uid) :
    (s.put o).Identified issued := by
  have hg {k : Key} {p : Object σ τ} (hk : (s.put o).get? k = some p) :
      ∃ q, s.get? k = some q ∧ p.metadata.uid = q.metadata.uid := by
    rw [put_get?] at hk
    split at hk
    · next e => exact ⟨c, e ▸ hc, Option.some.inj hk ▸ hu⟩
    · exact ⟨p, hk, rfl⟩
  refine ⟨fun hk => ?_, fun hk hj he => ?_⟩
  · obtain ⟨q, hq, e⟩ := hg hk
    exact e ▸ h.drawn hq
  · obtain ⟨q, hq, eq⟩ := hg hk
    obtain ⟨r, hr, er⟩ := hg hj
    exact h.own hq hr (eq ▸ er ▸ he)

theorem put_fresh {uid : Uid} (h : s.Identified issued) (hn : uid ∉ issued)
    (hu : o.metadata.uid = some uid) :
    (s.put o).Identified (uid :: issued) := by
  have hg {k : Key} {p : Object σ τ} (hk : (s.put o).get? k = some p) :
      (k = o.key ∧ p = o) ∨ s.get? k = some p := by
    rw [put_get?] at hk
    split at hk
    · next e => exact .inl ⟨e, (Option.some.inj hk).symm⟩
    · exact .inr hk
  have old {k : Key} {p : Object σ τ} (hk : s.get? k = some p) : p.metadata.uid ≠ some uid := by
    obtain ⟨u, hm, e⟩ := h.drawn hk
    rintro e'
    exact hn (Option.some.inj (e.symm.trans e') ▸ hm)
  refine ⟨fun hk => ?_, fun hk hj he => ?_⟩
  · rcases hg hk with ⟨-, rfl⟩ | hk
    · exact ⟨uid, List.mem_cons_self, hu⟩
    · obtain ⟨u, hm, e⟩ := h.drawn hk
      exact ⟨u, List.mem_cons_of_mem _ hm, e⟩
  · rcases hg hk with ⟨ek, ho⟩ | hk' <;> rcases hg hj with ⟨ej, hp⟩ | hj'
    · rw [ek, ej]
    · exact absurd (he.symm.trans (ho ▸ hu)) (old hj')
    · exact absurd (he.trans (hp ▸ hu)) (old hk')
    · exact h.own hk' hj' he

end Identified

end Store
end ModelTemplates
