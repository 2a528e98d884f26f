import ModelTemplates.Proofs.Ledger.Count
/-! A template that was made anew under its old name takes the entry of the name over. The cleanup
of the old one may come before its first number, after it, or again and again in between. -/
namespace ModelTemplates.Ledger

variable {l : Ledger} {k : Key} {b : Uid} {n : Nat}

inductive Call where
  | latest (k : Key) (owner : Option Uid)
  | advance (k : Key) (owner : Option Uid)
  | remove (k : Key) (owner : Option Uid)
  | rebuild (versions : List Version)

namespace Call

def perform (l : Ledger) : Call → Ledger
  | latest .. => l
  | advance k owner => l.advance k owner
  | remove k owner => l.remove k owner
  | rebuild vs => l.rebuild vs

def numbers (k : Key) (b : Uid) : Call → Bool
  | advance j owner => j = k ∧ owner = some b
  | _ => false

/-- Under the key, only the template is given numbers, and only others are cleaned up after. -/
def Fits (k : Key) (b : Uid) : Call → Prop
  | latest .. => True
  | advance j owner => j = k → owner = some b
  | remove j owner => j = k → ∃ a, a ≠ b ∧ owner = some a
  | rebuild vs => ∀ v ∈ vs, v.assigned = true → v.templateKey ≠ k

end Call

def after (l : Ledger) (calls : List Call) : Ledger := calls.foldl Call.perform l

def given (k : Key) (b : Uid) (calls : List Call) : Nat := calls.countP (Call.numbers k b)

/-- Others may have left an entry until the first of the numbers is given. -/
def Holds (l : Ledger) (k : Key) (b : Uid) : Nat → Prop
  | 0 => ∀ e, l.entries.find? k = some e → ∃ a, a ≠ b ∧ e.owner = some a
  | n + 1 => l.entries.find? k = some ⟨some b, UInt32.ofNat (n + 1)⟩

theorem Holds.latest (h : l.Holds k b n) : l.latest k (some b) = UInt32.ofNat n := by
  cases n with
  | zero =>
    refine Decidable.byContradiction fun hne => ?_
    obtain ⟨e, he, hc, -⟩ := entry_of_latest_ne_zero hne
    obtain ⟨a, hab, ha⟩ := h e he
    rw [countsFor_some, ha] at hc
    exact hab (by simpa using hc)
  | succ n => exact latest_of_counts h (countsFor_some.mpr (.inr rfl))

theorem Holds.congr {l' : Ledger} (h : l.Holds k b n)
    (hf : l'.entries.find? k = l.entries.find? k) :
    l'.Holds k b n := by
  cases n with
  | zero => exact fun e he => h e (hf ▸ he)
  | succ n => exact hf.trans h

theorem Holds.next? (h : l.Holds k b n) (hn : n + 1 < UInt32.size) :
    l.next? k (some b) = some (UInt32.ofNat (n + 1)) := by
  have hlatest : (l.latest k (some b)).toNat = n := by
    rw [h.latest]
    exact UInt32.toNat_ofNat_of_lt' (Nat.lt_of_succ_lt hn)
  rw [Ledger.next?, Counter.next?_eq_some, hlatest]
  exact UInt32.toNat_ofNat_of_lt' hn

theorem Holds.advance (h : l.Holds k b n) (hn : n + 1 < UInt32.size) :
    (l.advance k (some b)).Holds k b (n + 1) := by
  have hentry : l.advanced k (some b) = ⟨some b, UInt32.ofNat (n + 1)⟩ := by
    have howner := l.advanced_owner k b
    have hlatest := advanced_latest (h.next? hn)
    cases hadv : l.advanced k (some b)
    simp_all
  change (l.advance k (some b)).entries.find? k = _
  rw [advance_find?, if_pos rfl, hentry]

theorem Holds.not_removes {a : Uid} (h : l.Holds k b (n + 1)) (ha : a ≠ b) :
    l.removes k (some a) = false := by
  have hc : (⟨some b, UInt32.ofNat (n + 1)⟩ : Entry).countsFor (some a) = false := by
    simp [Entry.countsFor, ha.symm]
  rw [removes, entry?, show l.entries.find? k = _ from h, Option.filter_some, hc]
  rfl

theorem Holds.remove {a : Uid} (h : l.Holds k b n) (ha : a ≠ b) :
    (l.remove k (some a)).Holds k b n := by
  cases n with
  | zero =>
    intro e he
    rw [remove_find?] at he
    split at he
    · contradiction
    · exact h e he
  | succ n => exact h.congr (by rw [remove_find?, h.not_removes ha]; simp)

theorem rebuild_find?_of_unnamed {vs : List Version}
    (h : ∀ v ∈ vs, v.assigned = true → v.templateKey ≠ k) :
    (l.rebuild vs).entries.find? k = l.entries.find? k := by
  induction vs generalizing l with
  | nil => rfl
  | cons v vs ih =>
    refine (ih (l := l.observe v) fun u hu => h u (List.mem_cons_of_mem _ hu)).trans ?_
    cases hn : v.assignedNumber with
    | none => rw [observe_of_unassigned hn]
    | some n =>
      rw [observe_find? hn, if_neg (h v List.mem_cons_self (assignedNumber_eq_some.mp hn).1).symm]

theorem Holds.perform {c : Call} (h : l.Holds k b n) (hc : c.Fits k b)
    (hn : (n + if c.numbers k b = true then 1 else 0) < UInt32.size) :
    (c.perform l).Holds k b (n + if c.numbers k b = true then 1 else 0) := by
  cases c with
  | latest j owner => exact h
  | advance j owner =>
    by_cases hj : j = k
    · obtain rfl := hc hj
      subst hj
      rw [if_pos (by simp [Call.numbers])] at hn ⊢
      exact h.advance hn
    · rw [if_neg (by simp [Call.numbers, hj])]
      exact h.congr (by rw [Call.perform, advance_find?, if_neg (Ne.symm hj)])
  | remove j owner =>
    by_cases hj : j = k
    · obtain ⟨a, ha, rfl⟩ := hc hj
      subst hj
      exact h.remove ha
    · exact h.congr (by rw [Call.perform, remove_find?, if_neg fun hand => hj hand.1.symm])
  | rebuild vs => exact h.congr (rebuild_find?_of_unnamed hc)

theorem Holds.after {calls : List Call} (h : l.Holds k b n) (hc : ∀ c ∈ calls, c.Fits k b)
    (hn : n + given k b calls < UInt32.size) : (l.after calls).Holds k b (n + given k b calls) := by
  induction calls generalizing l n with
  | nil => exact h
  | cons c calls ih =>
    rw [given, List.countP_cons, Nat.add_comm (calls.countP _), ← Nat.add_assoc] at hn ⊢
    have hfirst :=
      h.perform (hc c List.mem_cons_self) (Nat.lt_of_le_of_lt (Nat.le_add_right _ _) hn)
    exact ih hfirst (fun d hd => hc d (List.mem_cons_of_mem _ hd)) hn

/-- The old template's cleanup does not matter, whenever it comes: the numbers given to the new one
are counted from one, what is read is how many were given, and from the first of them on nothing is
removed any more. -/
theorem late_cleanup_harmless {calls : List Call}
    (hl : ∀ e, l.entries.find? k = some e → ∃ a, a ≠ b ∧ e.owner = some a)
    (hc : ∀ c ∈ calls, c.Fits k b) (hn : given k b calls < UInt32.size) :
    (∀ before rest, calls = before ++ rest →
      ((l.after before).latest k (some b)).toNat = given k b before) ∧
    (∀ before rest, calls = before ++ .advance k (some b) :: rest →
      ((l.after before).next? k (some b)).map UInt32.toNat = some (given k b before + 1)) ∧
    (∀ before rest a, calls = before ++ .remove k (some a) :: rest → .advance k (some b) ∈ before →
      (l.after before).removes k (some a) = false) ∧
    (1 ≤ given k b calls →
      (l.after calls).entries.find? k = some ⟨some b, UInt32.ofNat (given k b calls)⟩) := by
  have hgiven {before rest : List Call} (h : calls = before ++ rest) :
      given k b calls = given k b before + given k b rest := by
    rw [h, given, List.countP_append]; rfl
  have hholds {before rest : List Call} (h : calls = before ++ rest) :
      (l.after before).Holds k b (given k b before) := by
    have hstart : l.Holds k b 0 := hl
    have hfew : 0 + given k b before < UInt32.size := by
      have := hgiven h
      omega
    simpa using hstart.after (fun c hmem => hc c (h ▸ List.mem_append_left _ hmem)) hfew
  refine ⟨fun before rest h => ?_, fun before rest h => ?_, fun before rest a h hmem =>
    ?_, fun h => ?_⟩
  · have := hgiven h
    rw [(hholds h).latest]
    exact UInt32.toNat_ofNat_of_lt' (by omega)
  · have hone : given k b (.advance k (some b) :: rest) = given k b rest + 1 := by
      simp [given, Call.numbers]
    have hfew : given k b before + 1 < UInt32.size := by
      have := hgiven h
      omega
    rw [(hholds h).next? hfew, Option.map_some, UInt32.toNat_ofNat_of_lt' hfew]
  · have hpos : 0 < given k b before :=
      List.countP_pos_iff.mpr ⟨.advance k (some b), hmem, by simp [Call.numbers]⟩
    obtain ⟨m, hm⟩ := Nat.exists_eq_succ_of_ne_zero (Nat.pos_iff_ne_zero.mp hpos)
    obtain ⟨a', ha', hne⟩ := hc (.remove k (some a)) (h ▸ by simp) rfl
    obtain rfl := Option.some.inj hne
    exact (hm ▸ hholds h).not_removes ha'
  · obtain ⟨m, hm⟩ := Nat.exists_eq_succ_of_ne_zero (Nat.one_le_iff_ne_zero.mp h)
    have hall := hholds (List.append_nil calls).symm
    rw [hm] at hall ⊢
    exact hall

def outlived : Ledger := ⟨Table.empty.insert ⟨"models", "llama"⟩ ⟨some ⟨1⟩, 2⟩⟩

/-- The new template gets two numbers; the cleanup of the old one comes before, between and after
them. -/
def overlapping : List Call :=
  [.remove ⟨"models", "llama"⟩ (some ⟨1⟩), .advance ⟨"models", "llama"⟩ (some ⟨2⟩),
    .remove ⟨"models", "llama"⟩ (some ⟨1⟩), .advance ⟨"models", "mistral"⟩ none,
    .advance ⟨"models", "llama"⟩ (some ⟨2⟩), .remove ⟨"models", "llama"⟩ (some ⟨1⟩)]

theorem late_cleanup_harmless_overlapping :
    (∀ e, outlived.entries.find? ⟨"models", "llama"⟩ = some e → ∃ a, a ≠ ⟨2⟩ ∧ e.owner = some a) ∧
    (∀ c ∈ overlapping, c.Fits ⟨"models", "llama"⟩ ⟨2⟩) ∧
      given ⟨"models", "llama"⟩ ⟨2⟩ overlapping = 2 ∧
    (outlived.after overlapping).entries.find? ⟨"models", "llama"⟩ = some ⟨some ⟨2⟩, 2⟩ := by
  have hl : ∀ e, outlived.entries.find? ⟨"models", "llama"⟩ = some e → ∃ a, a ≠ (⟨2⟩ : Uid) ∧
    e.owner = some a := by
    intro e he
    have hfound : outlived.entries.find? ⟨"models", "llama"⟩ = some ⟨some ⟨1⟩, 2⟩ := by decide
    obtain rfl := Option.some.inj (hfound.symm.trans he)
    exact ⟨⟨1⟩, by decide, rfl⟩
  have hc : ∀ c ∈ overlapping, c.Fits ⟨"models", "llama"⟩ ⟨2⟩ := by
    simp [overlapping, Call.Fits]
  have hn : given ⟨"models", "llama"⟩ ⟨2⟩ overlapping = 2 := by decide
  exact ⟨hl, hc, hn, (late_cleanup_harmless hl hc (by rw [hn]; decide)).2.2.2 (by rw [hn]; decide)⟩

end ModelTemplates.Ledger
