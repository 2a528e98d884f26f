import ModelTemplates.Proofs.Handler.Numbering
import ModelTemplates.Proofs.Ledger.Rebuild
/-! How far the numbers of a template go. They rise until the last one there is was counted. Whoever
asks for one after it panics. -/
namespace ModelTemplates

theorem Version.perform_assign_ledger (w : World) (v : Version) (t : Template) (now : Timestamp) :
    (w.perform (v.assign t now)).2.ledger =
      if (w.perform (v.assign t now)).1.isOk then w.ledger.advance t.key t.metadata.uid
        else w.ledger := by
  rw [perform_assign]
  cases w.ledger.next? t.key t.metadata.uid with
  | none => rfl
  | some n =>
    simp only [perform_record]
    cases w.stores.versions.updateStatus (v.numbered n now) with
    | error e => rfl
    | ok p => rfl

/-- A world beside the numbers that each entry of its ledger counts. -/
structure Register where
  world : World
  numbers : Key → List UInt32

namespace Register

/-- What happens to a register: a version is given a number, a number is given out for its own sake,
or somebody writes to the stores. -/
inductive Draw where
  | assign (v : Version) (t : Template) (now : Timestamp)
  | increment (k : Key) (owner : Option Uid)
  | write (stores : Stores)

/-- A ledger that was rebuilt counts what it had and the numbers of all versions. -/
def opened (w : World) (l : Ledger) (vs : List Version) : Register where
  world := { w with ledger := l.rebuild vs }
  numbers k := (l.credits vs k).map Ledger.Entry.latest

def next? (r : Register) (k : Key) (owner : Option Uid) : Option UInt32 :=
  r.world.ledger.next? k owner

/-- What is counted for the owner: nothing when the entry of the key is that of another. -/
def counted (r : Register) (k : Key) (owner : Option Uid) : List UInt32 :=
  if (r.world.ledger.entry? k owner).isSome then r.numbers k else []

def given (r : Register) (k : Key) (owner : Option Uid) : Key → List UInt32 := fun j =>
  if j = k then (r.next? k owner).toList ++ r.counted k owner else r.numbers j

def draw (r : Register) : Draw → Register
  | .assign v t now =>
    ⟨(r.world.perform (v.assign t now)).2,
      if (r.world.perform (v.assign t now)).1.isOk then r.given t.key t.metadata.uid else r.numbers⟩
  | .increment k owner => ⟨(World.answer (.advance k owner) r.world).2, r.given k owner⟩
  | .write stores => ⟨{ r.world with stores := stores }, r.numbers⟩

def after (r : Register) (draws : List Draw) : Register := draws.foldl draw r

def Sound (r : Register) : Prop :=
  ∀ k e, r.world.ledger.entries.find? k = some e → e.latest ∈ r.numbers k ∧
    ∀ n ∈ r.numbers k, n ≤ e.latest

variable {r : Register} {k : Key} {owner : Option Uid} {n : UInt32}

theorem le_last (n : UInt32) : n ≤ Counter.last :=
  UInt32.le_iff_toNat_le.mpr (Nat.le_of_lt_succ n.toNat_lt)

theorem sound_opened (w : World) (l : Ledger) (vs : List Version) : (opened w l vs).Sound := by
  intro k e he
  have hsums := Ledger.rebuild_sums he
  constructor
  · obtain ⟨d, hd, hlatest⟩ := hsums.attained
    exact List.mem_map.mpr ⟨d, hd, hlatest⟩
  · intro n hn
    obtain ⟨d, hd, rfl⟩ := List.mem_map.mp hn
    exact hsums.bound d hd

/-- The ledger's latest number is the greatest that is counted, or zero where none is. -/
theorem Sound.latest (h : r.Sound) (k : Key) (owner : Option Uid) :
    (r.world.ledger.latest k owner = 0 ∨ r.world.ledger.latest k owner ∈ r.counted k owner) ∧
      ∀ n ∈ r.counted k owner, n ≤ r.world.ledger.latest k owner := by
  unfold counted
  cases he : r.world.ledger.entry? k owner with
  | none => exact ⟨.inl (by rw [Ledger.latest, he]), by simp⟩
  | some e =>
    obtain ⟨hfound, hcounts⟩ := Ledger.entry?_eq_some.mp he
    rw [Ledger.latest_of_counts hfound hcounts]
    exact ⟨.inr (h k e hfound).1, (h k e hfound).2⟩

/-- There is no next number exactly when the last one there is was counted. -/
theorem Sound.next?_eq_none (h : r.Sound) :
    r.next? k owner = none ↔ Counter.last ∈ r.counted k owner := by
  obtain ⟨hlatest, hbound⟩ := h.latest k owner
  rw [next?, Ledger.next?, Counter.next?_eq_none]
  constructor
  · intro heq
    rw [heq] at hlatest
    exact hlatest.resolve_left (by decide)
  · intro hlast
    exact UInt32.le_antisymm (le_last _) (hbound _ hlast)

/-- A number to which the count has come without overflow, greater than all that were counted. -/
structure Rises (r : Register) (k : Key) (owner : Option Uid) (n : UInt32) : Prop where
  positive : 0 < n
  successor : n.toNat = (r.world.ledger.latest k owner).toNat + 1
  greatest : ∀ m ∈ r.counted k owner, m < n

theorem Sound.rises (h : r.Sound) (hn : r.next? k owner = some n) : r.Rises k owner n := by
  have hnext : n.toNat = (r.world.ledger.latest k owner).toNat + 1 := Counter.next?_eq_some.mp hn
  constructor
  · have hpos : 0 < n.toNat := by omega
    exact UInt32.lt_iff_toNat_lt.mpr hpos
  · exact hnext
  · intro m hm
    have hle := UInt32.le_iff_toNat_le.mp ((h.latest k owner).2 m hm)
    rw [UInt32.lt_iff_toNat_lt]
    omega

theorem Sound.given (h : r.Sound) {w : World} (hw : w.ledger = r.world.ledger.advance k owner) :
    Sound ⟨w, r.given k owner⟩ := by
  intro j e he
  change w.ledger.entries.find? j = some e at he
  change e.latest ∈ r.given k owner j ∧ ∀ n ∈ r.given k owner j, n ≤ e.latest
  rw [hw, Ledger.advance_find?] at he
  unfold Register.given
  split at he
  · next hj =>
    obtain rfl := Option.some.inj he
    rw [if_pos hj]
    cases hn : r.next? k owner with
    | some n =>
      rw [Ledger.advanced_latest hn]
      refine ⟨List.mem_cons_self, fun m hm => ?_⟩
      rcases List.mem_cons.mp hm with rfl | hm
      · exact UInt32.le_refl _
      · exact UInt32.le_of_lt ((h.rises hn).greatest m hm)
    | none =>
      -- The entry changes hands at most.
      have hlast : (r.world.ledger.advanced k owner).latest = Counter.last := by
        have hoverflow : r.world.ledger.next? k owner = none := hn
        rw [Ledger.advanced, hoverflow, Option.getD_none]
        exact Counter.next?_eq_none.mp hoverflow
      rw [hlast]
      exact ⟨h.next?_eq_none.mp hn, fun m _ => le_last m⟩
  · next hj =>
    rw [if_neg hj]
    exact h j e he

theorem Sound.draw (h : r.Sound) (d : Draw) : (r.draw d).Sound := by
  cases d with
  | assign v t now =>
    have hledger := Version.perform_assign_ledger r.world v t now
    unfold Register.draw
    split at hledger
    · next hok =>
      simp only [hok]
      exact h.given hledger
    · next hfail =>
      simp only [hfail]
      intro j e he
      exact h j e (hledger ▸ he)
  | increment k owner => exact h.given rfl
  | write stores => exact h

theorem Sound.after (h : r.Sound) (draws : List Draw) : (r.after draws).Sound := by
  induction draws generalizing r with
  | nil => exact h
  | cons d draws ih => exact ih (h.draw d)

theorem assigned_next {v p : Version} {t : Template} {now : Timestamp}
    (h : (r.world.perform (v.assign t now)).1 = .ok (.updated p)) :
    p.assignedNumber = r.next? t.key t.metadata.uid := by
  rw [Version.perform_assign] at h
  rw [next?]
  split at h
  · contradiction
  · next n hn =>
    rw [Version.perform_record] at h
    rw [hn]
    split at h
    · contradiction
    · next q s hu =>
      obtain rfl : q = p := by simpa using h
      obtain ⟨c, -, rfl, -⟩ := Store.updateStatus_eq_ok.mp hu
      exact if_pos (Version.numbered_assigned v _ now)

/-- What is given out from a register, and when nothing is. An assignment that finds no number
stores and counts nothing. -/
structure Counts (r : Register) : Prop where
  rises : ∀ k owner n, r.next? k owner = some n → r.Rises k owner n
  ends : ∀ k owner, r.next? k owner = none ↔ Counter.last ∈ r.counted k owner
  assigned : ∀ v t now p, (r.world.perform (Version.assign v t now)).1 = .ok (.updated p) →
    p.assignedNumber = r.next? t.key t.metadata.uid
  refused : ∀ v t now, r.next? t.key t.metadata.uid = none →
    (r.world.perform (Version.assign v t now)).1 = .error .overflow ∧
      (r.world.perform (Version.assign v t now)).2.stores = r.world.stores ∧
      (r.world.perform (Version.assign v t now)).2.ledger = r.world.ledger
  incremented : ∀ k owner, (World.answer (.advance k owner) r.world).1 = r.next? k owner ∧
    (World.answer (.advance k owner) r.world).2.ledger.latest k owner =
      (r.next? k owner).getD (r.world.ledger.latest k owner)

/-- However a ledger was rebuilt and however many numbers were given out since: what an assignment
stores and what an increment returns is the next number, it is greater than all that were counted,
and there is one exactly as long as the last number there is was not counted. -/
theorem rises_until_spent (w : World) (l : Ledger) (vs : List Version) (draws : List Draw) :
    ((opened w l vs).after draws).Counts := by
  have hsound : ((opened w l vs).after draws).Sound := (sound_opened w l vs).after draws
  constructor
  · exact fun k owner n => hsound.rises
  · exact fun k owner => hsound.next?_eq_none
  · exact fun v t now p => assigned_next
  · intro v t now hnone
    rw [Version.perform_assign, show Ledger.next? _ t.key t.metadata.uid = none from hnone]
    exact ⟨rfl, rfl, rfl⟩
  · exact fun k owner => ⟨rfl, Ledger.latest_advance_eq _ _ _⟩

def spent : Version where
  metadata := Meta.named "default" "a"
  spec := { VersionSpec.empty with templateName := "llama" }
  status := ⟨Counter.last, Conditions.set [] .assigned true "" "" .epoch, none⟩

/-- After the last number there is none. -/
theorem none_after_last :
    ¬ ∀ (w : World) (l : Ledger) (vs : List Version) (draws : List Draw) (k : Key)
        (owner : Option Uid), ∃ n, ((opened w l vs).after draws).next? k owner = some n ∧
          ((opened w l vs).after draws).Rises k owner n := by
  intro h
  obtain ⟨n, hn, -⟩ := h .empty .empty [spent] [] ⟨"default", "llama"⟩ none
  have hnone :
      ((opened .empty .empty [spent]).after []).next? ⟨"default", "llama"⟩ none = none := by decide
  exact Option.some_ne_none n (hn.symm.trans hnone)

end Register
end ModelTemplates
