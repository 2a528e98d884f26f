import Mathlib.Data.List.Nodup
import Mathlib.Data.List.Perm.Subperm
import Mathlib.Data.List.Range
import Mathlib.Logic.Function.Basic
import ModelTemplates.Proofs.Store.History
/-! The numbers that the versions of a template have: those from one on, each given once. -/
namespace ModelTemplates.Numbering

variable {d : VersionStore} {k j : Key} {v c : Version} {n m : UInt32} {f : Key → Option UInt32}
  {js ks : List Key}

/-- The number of the version that is stored under `j`, as far as it names the template of `k`. -/
def numberOf (d : VersionStore) (k j : Key) : Option UInt32 :=
  ((d.get? j).filter fun v : Version => v.templateKey = k).bind Version.assignedNumber

theorem numberOf_eq_some :
    numberOf d k j = some n ↔
      ∃ v : Version, d.get? j = some v ∧ v.templateKey = k ∧ v.assigned = true ∧
      v.status.version = n := by
  cases hv : d.get? j with
  | none => simp [numberOf, hv]
  | some v =>
    by_cases hk : Version.templateKey v = k
    · simp [numberOf, hv, hk, Option.filter, Version.assignedNumber]
    · simp [numberOf, hv, hk, Option.filter]

theorem numberOf_isSome :
    (numberOf d k j).isSome = true ↔ ∃ v : Version, d.get? j = some v ∧ v.templateKey = k ∧
      v.assigned = true := by
  rw [Option.isSome_iff_exists]
  constructor
  · rintro ⟨n, hn⟩
    obtain ⟨v, hv, hk, ha, -⟩ := numberOf_eq_some.mp hn
    exact ⟨v, hv, hk, ha⟩
  · rintro ⟨v, hv, hk, ha⟩
    exact ⟨v.status.version, numberOf_eq_some.mpr ⟨v, hv, hk, ha, rfl⟩⟩

theorem numberOf_put (d : VersionStore) (v : Version) (k : Key) :
    numberOf (d.put v) k =
      Function.update (numberOf d k) v.key (if v.templateKey = k then v.assignedNumber
        else none) := by
  funext j
  rw [numberOf, Store.put_get?, Function.update_apply]
  split
  · by_cases hk : v.templateKey = k <;> simp [Option.filter, hk]
  · rfl

/-- A version may be written over by one of the same template and number. -/
theorem numberOf_put_same (hc : d.get? v.key = some c) (hk : v.templateKey = c.templateKey)
    (hn : v.assignedNumber = c.assignedNumber) (k : Key) : numberOf (d.put v) k = numberOf d k := by
  have hold : numberOf d k v.key = if v.templateKey = k then v.assignedNumber else none := by
    rw [numberOf, hc, hk, hn]
    by_cases h : c.templateKey = k <;> simp [Option.filter, h]
  rw [numberOf_put, ← hold, Function.update_eq_self]

theorem numberOf_put_other (hc : d.get? v.key = some c) (hk : v.templateKey = c.templateKey)
    (hne : v.templateKey ≠ k) :
    numberOf (d.put v) k = numberOf d k := by
  have hold : numberOf d k v.key = none := by
    rw [numberOf, hc]
    simp [Option.filter, ← hk, hne]
  rw [numberOf_put, if_neg hne, ← hold, Function.update_eq_self]

theorem numberOf_put_fresh (hv : d.get? v.key = none) (ha : v.assigned = false) (k : Key) :
    numberOf (d.put v) k = numberOf d k := by
  have hnew : (if v.templateKey = k then v.assignedNumber else none) = none := by
    simp [Version.assignedNumber, ha]
  have hold : numberOf d k v.key = none := by
    rw [numberOf, hv]
    rfl
  rw [numberOf_put, hnew, ← hold, Function.update_eq_self]

/-- The keys `js` have the numbers from one on, in this order, and no other key has a number. -/
structure Tally (f : Key → Option UInt32) (js : List Key) : Prop where
  numbers : js.map (fun j => ((f j).getD 0).toNat) = List.range' 1 js.length
  given : ∀ j, j ∈ js ↔ (f j).isSome = true

theorem tally_nil (h : ∀ j, f j = none) : Tally f [] :=
  ⟨rfl, fun j => by simp [h j]⟩

namespace Tally

theorem nodup (h : Tally f js) : js.Nodup :=
  .of_map _ (h.numbers ▸ List.nodup_range')

theorem give (h : Tally f js) (hj : f j = none) (hn : n.toNat = js.length + 1) :
    Tally (Function.update f j (some n)) (js ++ [j]) := by
  have hout : j ∉ js := by
    rw [h.given, hj]
    exact Bool.false_ne_true
  have hsame : js.map (fun i => ((Function.update f j (some n) i).getD 0).toNat) =
    List.range' 1 js.length := by
    rw [← h.numbers]
    refine List.map_congr_left fun i hi => ?_
    have hne : i ≠ j := fun e => hout (e ▸ hi)
    rw [Function.update_of_ne hne]
  constructor
  · have hlast : ((Function.update f j (some n) j).getD 0).toNat = 1 + js.length := by
      rw [Function.update_self, Option.getD_some]
      omega
    rw [List.map_append, hsame, List.map_singleton, hlast, List.length_append,
      List.length_singleton, List.range'_1_concat]
  · intro i
    rw [List.mem_append, List.mem_singleton, h.given, Function.update_apply]
    by_cases hi : i = j
    · simp [hi]
    · simp [hi]

theorem bounds (h : Tally f js) (hj : f j = some n) : 1 ≤ n.toNat ∧ n.toNat ≤ js.length := by
  have hmem : j ∈ js := (h.given j).mpr (by rw [hj]; rfl)
  have hn : n.toNat ∈ List.range' 1 js.length := by
    rw [← h.numbers, List.mem_map]
    exact ⟨j, hmem, by rw [hj]; rfl⟩
  rw [List.mem_range'_1] at hn
  omega

theorem last (h : Tally f js) (hne : js ≠ []) : ∃ j n, f j = some n ∧ n.toNat = js.length := by
  have hpos : 0 < js.length := List.length_pos_iff.mpr hne
  have hlast : js.length ∈ js.map fun j => ((f j).getD 0).toNat := by
    rw [h.numbers, List.mem_range'_1]
    omega
  obtain ⟨j, hj, hn⟩ := List.mem_map.mp hlast
  obtain ⟨n, hf⟩ := Option.isSome_iff_exists.mp ((h.given j).mp hj)
  refine ⟨j, n, hf, ?_⟩
  rwa [hf] at hn

theorem keys (h : Tally f js) (hks : ks.Nodup) (hmem : ∀ j, j ∈ ks ↔ (f j).isSome = true) :
    ks.Perm js := by
  rw [List.perm_ext_iff_of_nodup hks h.nodup]
  intro j
  rw [hmem, h.given]

/-- However the keys with a number are listed, their numbers are those from one on. -/
theorem perm (h : Tally f js) (hks : ks.Perm js) :
    (ks.map fun j => ((f j).getD 0).toNat).Perm (List.range' 1 ks.length) := by
  rw [hks.length_eq, ← h.numbers]
  exact hks.map _

end Tally

/-- The versions that name the template of a key. -/
def naming (d : VersionStore) (k : Key) : List Version := d.all.filter fun v => v.templateKey = k

theorem mem_naming : v ∈ naming d k ↔ (∃ j, d.get? j = some v) ∧ v.templateKey = k := by
  rw [naming, List.mem_filter, Store.mem_all_iff, decide_eq_true_eq]

theorem nodup_naming (hd : d.Keyed) (k : Key) : ((naming d k).map Object.key).Nodup := by
  have hkeys : d.objects.values.map Object.key = d.objects.keys := by
    rw [Table.values, List.map_map]
    exact List.map_congr_left fun e he => Store.keyed_iff.mp hd e he
  have hsorted : d.objects.keys.Nodup := by
    rw [Table.keys, List.Nodup, List.pairwise_map]
    refine d.objects.sorted.imp fun {a b} hlt he => ?_
    rw [he] at hlt
    exact Ordered.irrefl _ hlt
  rw [← hkeys] at hsorted
  have hsub : (naming d k).Sublist d.objects.values := List.filter_sublist.trans List.filter_sublist
  exact hsorted.sublist (hsub.map _)

def AtMost (d : VersionStore) (k : Key) (n : Nat) : Prop :=
  ∀ js : List Key, js.Nodup → (∀ j ∈ js, ∃ v : Version, d.get? j = some v ∧ v.templateKey = k) →
    js.length ≤ n

theorem atMost_length (hd : d.Keyed) (k : Key) : AtMost d k (naming d k).length := by
  intro js hjs hnames
  have hlength : ((naming d k).map Object.key).length = (naming d k).length := List.length_map _
  rw [← hlength]
  refine (List.subperm_of_subset hjs fun j hj => ?_).length_le
  obtain ⟨v, hv, hk⟩ := hnames j hj
  exact List.mem_map.mpr ⟨v, mem_naming.mpr ⟨⟨j, hv⟩, hk⟩, hd j v hv⟩

/-- What is stored in addition, or written over with the name of its template as it is, leaves what
it allowed. -/
theorem AtMost.anti {d' : VersionStore} {n : Nat} (h : AtMost d' k n)
    (hd : ∀ (j : Key) (v : Version), d.get? j = some v →
      ∃ v' : Version, d'.get? j = some v' ∧ v'.templateKey = v.templateKey) : AtMost d k n := by
  intro js hjs hnames
  refine h js hjs fun j hj => ?_
  obtain ⟨v, hv, hk⟩ := hnames j hj
  obtain ⟨v', hv', hk'⟩ := hd j v hv
  exact ⟨v', hv', hk'.trans hk⟩

theorem AtMost.of_put {n : Nat} (h : AtMost (d.put v) k n)
    (hc : ∀ c : Version, d.get? v.key = some c → v.templateKey = c.templateKey) : AtMost d k n := by
  refine h.anti fun j x hx => ?_
  by_cases hj : j = v.key
  · exact ⟨v, by rw [Store.put_get?, if_pos hj], hc x (hj ▸ hx)⟩
  · exact ⟨x, by rw [Store.put_get?, if_neg hj, hx], rfl⟩

theorem Tally.length_le {n : Nat} (h : Tally (numberOf d k) js) (hb : AtMost d k n) :
    js.length ≤ n := by
  refine hb js h.nodup fun j hj => ?_
  obtain ⟨x, hx, hk, -⟩ := numberOf_isSome.mp ((h.given j).mp hj)
  exact ⟨x, hx, hk⟩

theorem Tally.number (h : Tally (numberOf d k) js) (hc : d.get? v.key = some c)
    (ha : c.assigned = false) (hkc : v.templateKey = c.templateKey) (hk : v.templateKey = k)
    (hn : v.assignedNumber = some n) (hnext : n.toNat = js.length + 1) :
    Tally (numberOf (d.put v) k) (js ++ [v.key]) := by
  have hfree : numberOf d k v.key = none := by
    rw [numberOf, hc]
    simp [Option.filter, ← hkc, hk, Version.assignedNumber, ha]
  rw [numberOf_put, if_pos hk, hn]
  exact h.give hfree hnext

/-- With every version numbered that names the template, their numbers are those from one on. -/
theorem Tally.naming (h : Tally (numberOf d k) js) (hd : d.Keyed)
    (ha : ∀ v ∈ naming d k, v.assigned = true) :
    ((naming d k).map fun v => v.status.version.toNat).Perm (List.range' 1 (naming d k).length) ∧
      (Numbering.naming d k).length = js.length := by
  have hlength : ((Numbering.naming d k).map Object.key).length = (Numbering.naming d k).length :=
    List.length_map _
  have hkeys : ((Numbering.naming d k).map Object.key).Perm js := by
    refine h.keys (nodup_naming hd k) fun j => ?_
    rw [List.mem_map, numberOf_isSome]
    constructor
    · rintro ⟨v, hv, rfl⟩
      obtain ⟨⟨i, hi⟩, hk⟩ := mem_naming.mp hv
      exact ⟨v, hd.get? hi, hk, ha v hv⟩
    · rintro ⟨v, hv, hk, -⟩
      exact ⟨v, mem_naming.mpr ⟨⟨j, hv⟩, hk⟩, hd j v hv⟩
  have hnumber :
      ((Numbering.naming d k).map Object.key).map (fun j => ((numberOf d k j).getD 0).toNat) =
      (Numbering.naming d k).map fun v => v.status.version.toNat := by
    rw [List.map_map]
    refine List.map_congr_left fun v hv => ?_
    obtain ⟨⟨i, hi⟩, hk⟩ := mem_naming.mp hv
    have hsome : numberOf d k v.key = some v.status.version :=
      numberOf_eq_some.mpr ⟨v, hd.get? hi, hk, ha v hv, rfl⟩
    rw [Function.comp_apply, hsome]
    rfl
  have hperm := h.perm hkeys
  rw [hnumber, hlength] at hperm
  exact ⟨hperm, hlength.symm.trans hkeys.length_eq⟩

end ModelTemplates.Numbering
