import ModelTemplates.Ledger
/-! What the ledger answers after each of its operations, and that a rebuilt ledger counts every
version. -/
namespace ModelTemplates.Ledger

variable {l : Ledger} {k j : Key} {owner : Option Uid} {uid : Uid} {e : Entry} {n : UInt32}

@[simp] theorem countsFor_some :
    e.countsFor (some uid) = true ↔ e.owner = none ∨ e.owner = some uid := by
  simp [Entry.countsFor]

theorem entry?_eq_some :
    l.entry? k owner = some e ↔ l.entries.find? k = some e ∧ e.countsFor owner = true := by
  unfold entry?
  simp

theorem latest_of_counts (he : l.entries.find? k = some e) (hc : e.countsFor owner = true) :
    l.latest k owner = e.latest := by
  rw [latest, entry?_eq_some.mpr ⟨he, hc⟩]

theorem entry_of_latest_ne_zero (h : l.latest k owner ≠ 0) :
    ∃ e, l.entries.find? k = some e ∧ e.countsFor owner = true ∧ l.latest k owner = e.latest := by
  cases he : l.entry? k owner with
  | none => simp [latest, he] at h
  | some e =>
    obtain ⟨hf, hc⟩ := entry?_eq_some.mp he
    exact ⟨e, hf, hc, latest_of_counts hf hc⟩

def Unspent (l : Ledger) : Prop := ∀ p ∈ l.entries.entries, p.2.latest.toNat + 1 < UInt32.size

theorem Unspent.room (h : l.Unspent) (k : Key) (owner : Option Uid) :
    (l.latest k owner).toNat + 1 < UInt32.size := by
  by_cases h0 : l.latest k owner = 0
  · rw [h0]; decide
  · obtain ⟨e, he, -, hl⟩ := entry_of_latest_ne_zero h0
    rw [hl]
    exact h (k, e) ((Table.mem_entries_iff _ _ _).mpr he)

theorem Unspent.next_toNat (h : l.Unspent) (k : Key) (owner : Option Uid) :
    (l.latest k owner + 1).toNat = (l.latest k owner).toNat + 1 :=
  Counter.toNat_succ (h.room k owner)

theorem Unspent.next? (h : l.Unspent) (k : Key) (owner : Option Uid) :
    l.next? k owner = some (l.latest k owner + 1) := Counter.next?_of_lt (h.room k owner)

theorem latest_congr {l' : Ledger} (h : l'.entries.find? k = l.entries.find? k) :
    l'.latest k owner = l.latest k owner := by
  simp only [latest, entry?, h]

theorem advance_find? (l : Ledger) (k j : Key) (owner : Option Uid) :
    (l.advance k owner).entries.find? j = if j = k then some (l.advanced k owner)
      else l.entries.find? j :=
  Table.find?_insert _ _ _ _

theorem advanced_owner (l : Ledger) (k : Key) (uid : Uid) :
    (l.advanced k (some uid)).owner = some uid :=
  rfl

theorem latest_advance_eq (l : Ledger) (k : Key) (owner : Option Uid) :
    (l.advance k owner).latest k owner = (l.next? k owner).getD (l.latest k owner) := by
  refine latest_of_counts (e := l.advanced k owner) ?_ ?_
  · rw [advance_find?, if_pos rfl]
  · cases owner with
    | some uid => exact countsFor_some.mpr (.inr (l.advanced_owner k uid))
    | none => simp [Entry.countsFor]

theorem latest_advance (h : l.next? k owner = some n) : (l.advance k owner).latest k owner = n := by
  rw [latest_advance_eq, h, Option.getD_some]

theorem advance_latest_ne (h : j ≠ k) : (l.advance k owner).latest j = l.latest j := by
  funext o
  exact latest_congr (by rw [advance_find?, if_neg h])

theorem remove_find? (l : Ledger) (k j : Key) (owner : Option Uid) :
    (l.remove k owner).entries.find? j =
      if j = k ∧ l.removes k owner = true then none else l.entries.find? j := by
  unfold remove removes
  cases l.entry? k owner with
  | none => simp
  | some e => simp [Table.find?_erase]

theorem remove_find?_of_other (he : l.entries.find? k = some e) (hc : e.countsFor owner = false) :
    (l.remove k owner).entries.find? k = some e := by
  rw [remove_find?, if_neg, he]
  rintro ⟨-, hs⟩
  obtain ⟨d, hd⟩ := Option.isSome_iff_exists.mp hs
  obtain ⟨hd, hc'⟩ := entry?_eq_some.mp hd
  obtain rfl := Option.some.inj (he.symm.trans hd)
  exact absurd hc' (by simp [hc])

def Entry.joined (e : Entry) (owner : Option Uid) (n : UInt32) : Entry :=
  ⟨if e.owner = owner then e.owner else none, max e.latest n⟩

theorem assignedNumber_eq_some {v : Version} :
    v.assignedNumber = some n ↔ v.assigned = true ∧ v.status.version = n := by
  simp [Version.assignedNumber]

theorem observe_of_unassigned {v : Version} (h : v.assignedNumber = none) : l.observe v = l := by
  simp [observe, h]

theorem observe_find? {v : Version} (h : v.assignedNumber = some n) :
    (l.observe v).entries.find? j =
      if j = v.templateKey then
        some (((l.entries.find? j).getD ⟨v.ownerUid, 0⟩).joined v.ownerUid n)
      else l.entries.find? j := by
  simp only [observe, h, Table.find?_insert]
  split
  · next hj => subst hj; rfl
  · rfl

def Entry.Covers (e : Entry) (owner : Option Uid) (n : UInt32) : Prop :=
  n ≤ e.latest ∧ (e.owner = none ∨ e.owner = owner)

theorem Entry.joined_latest (e : Entry) (o : Option Uid) (m : UInt32) :
    e.latest ≤ (e.joined o m).latest ∧ m ≤ (e.joined o m).latest := by
  change e.latest ≤ (if e.latest ≤ m then m else e.latest) ∧
    m ≤ (if e.latest ≤ m then m else e.latest)
  split
  · next h => exact ⟨h, UInt32.le_refl _⟩
  · next h => exact ⟨UInt32.le_refl _, (UInt32.le_total e.latest m).resolve_left h⟩

theorem Entry.joined_covers (e : Entry) (o : Option Uid) (m : UInt32) :
    (e.joined o m).Covers o m := by
  refine ⟨(e.joined_latest o m).2, ?_⟩
  unfold joined
  split <;> simp_all

theorem Entry.Covers.joined (hc : e.Covers owner n) (o : Option Uid) (m : UInt32) :
    (e.joined o m).Covers owner n := by
  refine ⟨UInt32.le_trans hc.1 (e.joined_latest o m).1, ?_⟩
  unfold Entry.joined
  split
  · exact hc.2
  · exact .inl rfl

theorem observe_keeps (he : l.entries.find? k = some e) (hc : e.Covers owner n) (v : Version) :
    ∃ d, (l.observe v).entries.find? k = some d ∧ d.Covers owner n := by
  cases hv : v.assignedNumber with
  | none => exact ⟨e, by rw [observe_of_unassigned hv, he], hc⟩
  | some m =>
    by_cases hk : k = v.templateKey
    · subst hk
      exact ⟨_, by rw [observe_find? hv, if_pos rfl, he]; rfl, hc.joined _ m⟩
    · exact ⟨e, by rw [observe_find? hv, if_neg hk, he], hc⟩

theorem rebuild_keeps (he : l.entries.find? k = some e) (hc : e.Covers owner n)
    (vs : List Version) :
    ∃ d, (l.rebuild vs).entries.find? k = some d ∧ d.Covers owner n := by
  induction vs generalizing l e with
  | nil => exact ⟨e, he, hc⟩
  | cons v vs ih =>
    obtain ⟨d, hd, hcd⟩ := observe_keeps he hc v
    exact ih hd hcd

/-- After a rebuild every number is covered for the owner of its version. -/
theorem rebuild_covers {vs : List Version} {v : Version} (hv : v ∈ vs)
    (hn : v.assignedNumber = some n) :
    ∃ e, (l.rebuild vs).entries.find? v.templateKey = some e ∧ e.Covers v.ownerUid n := by
  induction vs generalizing l with
  | nil => contradiction
  | cons u us ih =>
    rcases List.mem_cons.mp hv with rfl | hv
    · exact rebuild_keeps (l := l.observe v) (by rw [observe_find? hn, if_pos rfl])
        (Entry.joined_covers _ _ n) us
    · exact ih (l := l.observe u) hv

theorem Entry.joined_eq (e : Entry) (o : Option Uid) (m : UInt32) :
    (e.joined o m).latest = m ∨ (e.joined o m).latest = e.latest := by
  change (if e.latest ≤ m then m else e.latest) = m ∨
    (if e.latest ≤ m then m else e.latest) = e.latest
  split
  · exact .inl rfl
  · exact .inr rfl

theorem Entry.joined_zero (owner o : Option Uid) (m : UInt32) :
    ((⟨owner, 0⟩ : Entry).joined o m).latest = m := by
  have hle : 0 ≤ m := UInt32.le_iff_toNat_le.mpr (Nat.zero_le m.toNat)
  change (if 0 ≤ m then m else 0) = m
  exact if_pos hle

/-- A count that a rebuild leaves is the number of a version, unless it was there before. -/
theorem rebuild_attained {vs : List Version} (h : (l.rebuild vs).entries.find? k = some e) :
    (∃ d, l.entries.find? k = some d ∧ e.latest = d.latest) ∨
      ∃ v ∈ vs, v.templateKey = k ∧ v.assignedNumber = some e.latest := by
  induction vs generalizing l with
  | nil => exact .inl ⟨e, h, rfl⟩
  | cons v vs ih =>
    rcases ih (l := l.observe v) h with ⟨d, hd, he⟩ | ⟨x, hx, hk, hn⟩
    · cases hv : v.assignedNumber with
      | none => exact .inl ⟨d, by rwa [observe_of_unassigned hv] at hd, he⟩
      | some n =>
        rw [observe_find? hv] at hd
        split at hd
        · next hk =>
          have hfound :
              n = e.latest → ∃ x ∈ v :: vs, x.templateKey = k ∧ x.assignedNumber = some e.latest :=
            fun hn => ⟨v, List.mem_cons_self, hk.symm, hn ▸ hv⟩
          obtain rfl := Option.some.inj hd
          cases hl : l.entries.find? k with
          | none =>
            rw [hl] at he
            exact .inr (hfound (he.trans (Entry.joined_zero _ _ n)).symm)
          | some d =>
            rw [hl] at he
            rcases Entry.joined_eq d v.ownerUid n with hj | hj
            · exact .inr (hfound (he.trans hj).symm)
            · exact .inl ⟨d, rfl, he.trans hj⟩
        · exact .inl ⟨d, hd, he⟩
    · exact .inr ⟨x, List.mem_cons_of_mem _ hx, hk, hn⟩

theorem Entry.joined_owner (e : Entry) (n : UInt32) : (e.joined e.owner n).owner = e.owner := by
  rw [joined, if_pos rfl]

theorem rebuild_owner {vs : List Version}
    (h : ∀ v ∈ vs, v.templateKey = k → v.assigned = true → v.ownerUid = owner)
    (hl : ∀ e, l.entries.find? k = some e → e.owner = owner)
    (he : (l.rebuild vs).entries.find? k = some e) :
    e.owner = owner := by
  induction vs generalizing l with
  | nil => exact hl e he
  | cons v vs ih =>
    refine ih (l := l.observe v) (fun u hu => h u (List.mem_cons_of_mem _ hu)) (fun d hd => ?_) he
    cases hv : v.assignedNumber with
    | none => exact hl d (by rwa [observe_of_unassigned hv] at hd)
    | some n =>
      rw [observe_find? hv] at hd
      split at hd
      · next hk =>
        have ho : v.ownerUid = owner :=
          h v List.mem_cons_self hk.symm (assignedNumber_eq_some.mp hv).1
        obtain rfl := Option.some.inj hd
        cases hf : l.entries.find? k with
        | none => rw [ho]; exact Entry.joined_owner ⟨owner, 0⟩ n
        | some d => rw [ho, ← hl d hf]; exact Entry.joined_owner d n
      · exact hl d hd

theorem latest_of_other {other : Uid} (h : ∀ e, l.entries.find? k = some e → e.owner = some other)
    (hu : uid ≠ other) :
    l.latest k (some uid) = 0 := by
  refine Decidable.byContradiction fun hne => ?_
  obtain ⟨e, he, hc, -⟩ := entry_of_latest_ne_zero hne
  rw [countsFor_some, h e he] at hc
  exact hu (by simpa using hc : other = uid).symm

end ModelTemplates.Ledger
