import Mathlib.Data.List.Perm.Basic
import ModelTemplates.Proofs.Data.Timestamp
import ModelTemplates.Proofs.Data.Uid
import ModelTemplates.Data.Decode
/-! Trees that differ in the order of their members only, and what is read from all of them. -/
namespace ModelTemplates
namespace Data

inductive Rearranged : Data → Data → Prop where
  | refl (d : Data) : Rearranged d d
  | list {xs ys : List Data} : List.Forall₂ Rearranged xs ys → Rearranged (.list xs) (.list ys)
  | record {ms ws ns : List (Data × Data)} : ms.Perm ws → ws.map Prod.fst = ns.map Prod.fst →
      List.Forall₂ Rearranged (ws.map Prod.snd) (ns.map Prod.snd) →
      Rearranged (.record ms) (.record ns)

variable {α β : Type} {d e : Data} {s : String} {b : Bool} {i : Int} {xs : List Data}
  {ms ws : List (String × Data)} {ns : List (Data × Data)}

namespace Rearranged

theorem eq_text (h : (Data.text s).Rearranged d) : d = .text s := by
  cases h; rfl

theorem eq_bool (h : (Data.bool b).Rearranged d) : d = .bool b := by
  cases h; rfl

theorem eq_int (h : (Data.int i).Rearranged d) : d = .int i := by
  cases h; rfl

theorem eq_null (h : d.Rearranged .null) : d = .null := by
  cases h; rfl

theorem eq_list (h : (Data.list xs).Rearranged d) :
    ∃ ys, d = .list ys ∧ List.Forall₂ Rearranged xs ys := by
  cases h with
  | refl => exact ⟨xs, rfl, List.forall₂_same.mpr fun x _ => .refl x⟩
  | list h => exact ⟨_, rfl, h⟩

def Member (m : String × Data) (n : Data × Data) : Prop := n.1 = .text m.1 ∧ m.2.Rearranged n.2

theorem forall₂_member {ps : List (Data × Data)}
    (hws : ws.map (fun m => ((Data.text m.1, m.2) : Data × Data)) = ps) (hk : ps.map Prod.fst =
      ns.map Prod.fst) (hv : List.Forall₂ Rearranged (ps.map Prod.snd) (ns.map Prod.snd)) :
    List.Forall₂ Member ws ns := by
  subst hws
  induction ws generalizing ns with
  | nil =>
    obtain rfl : ns = [] := List.map_eq_nil_iff.mp hk.symm
    exact .nil
  | cons w ws ih =>
    cases ns with
    | nil => cases hk
    | cons n ns =>
      obtain ⟨hn, hk⟩ := List.cons.inj hk
      obtain ⟨hw, hv⟩ := List.forall₂_cons.mp hv
      exact .cons ⟨hn.symm, hw⟩ (ih hk hv)

theorem eq_record (h : (object ms).Rearranged d) :
    ∃ ws ns, d = .record ns ∧ ms.Perm ws ∧ List.Forall₂ Member ws ns := by
  rw [object] at h
  generalize hps : ms.map (fun m => ((Data.text m.1, m.2) : Data × Data)) = ps at h
  cases h with
  | refl =>
    refine ⟨ms, ps, rfl, .refl ms, forall₂_member hps rfl ?_⟩
    exact List.forall₂_same.mpr fun x _ => .refl x
  | @record _ qs ns hp hk hv =>
    subst hps
    obtain ⟨ws, hws, hperm⟩ := (congrFun₂ (List.eq_map_comp_perm _) qs ms).mpr hp.symm
    exact ⟨ws, ns, rfl, hperm.symm, forall₂_member hws.symm hk hv⟩

end Rearranged

def ReadsAs (read : Decoder α) (d : Data) (a : α) : Prop :=
  ∀ dialect e, d.Rearranged e → read dialect e = .ok a

theorem ReadsAs.bind {read : Decoder α} {f : α → Decoded β} {a : α} {r : β} (h : ReadsAs read d a)
    (hf : f a = .ok r) :
    ReadsAs (fun dialect e => read dialect e >>= f) d r := by
  intro dialect e he
  exact (congrArg (· >>= f) (h dialect e he)).trans hf

theorem asText_reads (expected s : String) : ReadsAs (asText expected) (.text s) s := by
  intro dialect e h
  rw [h.eq_text]
  rfl

theorem string_reads (s : String) : ReadsAs string (.text s) s := asText_reads _ s

theorem boolean_reads (b : Bool) : ReadsAs boolean (.bool b) b := by
  intro dialect e h
  rw [h.eq_bool]
  rfl

theorem integer_reads {type : String} {low high : Int} (hlow : low ≤ i) (hhigh : i ≤ high) :
    ReadsAs (integer type low high) (.int i) i := by
  intro dialect e h
  rw [h.eq_int]
  exact if_pos ⟨hlow, hhigh⟩

theorem uint32_reads (n : UInt32) : ReadsAs uint32 (.int n.toNat) n := by
  intro dialect e h
  have hbound : (n.toNat : Int) ≤ (Nat.pow 2 32 - 1 : Nat) :=
    Int.ofNat_le.mpr (Nat.le_pred_of_lt n.toNat_lt)
  rw [uint32, integer_reads (Int.natCast_nonneg _) hbound dialect e h]
  exact congrArg Except.ok UInt32.ofNat_toNat

theorem uint64_reads (n : UInt64) : ReadsAs uint64 (.int n.toNat) n := by
  intro dialect e h
  have hbound : (n.toNat : Int) ≤ (Nat.pow 2 64 - 1 : Nat) :=
    Int.ofNat_le.mpr (Nat.le_pred_of_lt n.toNat_lt)
  rw [uint64, integer_reads (Int.natCast_nonneg _) hbound dialect e h]
  exact congrArg Except.ok UInt64.ofNat_toNat

theorem int32_reads (n : Int32) : ReadsAs int32 (.int n.toInt) n := by
  intro dialect e h
  have hbound : n.toInt ≤ (Nat.pow 2 31 - 1 : Nat) := Int.le_sub_one_of_lt n.toInt_lt
  have hlow : -(Nat.pow 2 31 : Int) ≤ n.toInt := n.le_toInt
  rw [int32, integer_reads hlow hbound dialect e h]
  exact congrArg Except.ok (Int32.ofInt_toInt n)

theorem int64_reads (n : Int64) : ReadsAs int64 (.int n.toInt) n := by
  intro dialect e h
  have hbound : n.toInt ≤ (Nat.pow 2 63 - 1 : Nat) := Int.le_sub_one_of_lt n.toInt_lt
  have hlow : -(Nat.pow 2 63 : Int) ≤ n.toInt := n.le_toInt
  rw [int64, integer_reads hlow hbound dialect e h]
  exact congrArg Except.ok (Int64.ofInt_toInt n)

theorem uid_reads (u : Uid) : ReadsAs uid (.text u.text) u :=
  (asText_reads _ u.text).bind (by rw [Uid.ofText_text])

theorem timestamp_reads {t : Timestamp} (ht : t.Regular) : ReadsAs timestamp (.text t.text) t :=
  (asText_reads _ t.text).bind (by rw [Timestamp.ofText_text ht])

theorem variant_reads {variants : List (String × α)} {a : α} (h : variants.lookup s = some a) :
    ReadsAs (variant variants) (.text s) a := by
  intro dialect e he
  rw [he.eq_text, variant, named, h]

theorem optional_of_ne_null {read : Decoder α} {dialect : Dialect} (hd : d ≠ .null) :
    optional read dialect d = read dialect d >>= fun a => .ok (some a) := by
  have hmap : (read dialect d >>= fun a => .ok (some a)) = (read dialect d).map some := by
    cases read dialect d <;> rfl
  rw [hmap]
  cases d <;> first | exact absurd rfl hd | rfl

theorem optional_reads {read : Decoder α} {a : α} (h : ReadsAs read d a) (hd : d ≠ .null) :
    ReadsAs (optional read) d (some a) := by
  intro dialect e he
  have hne : e ≠ .null := fun hnull => hd (Rearranged.eq_null (hnull ▸ he))
  rw [optional_of_ne_null hne, h dialect e he, ok_bind]

theorem listOf_reads {write : α → Data} {read : Decoder α} {as : List α}
    (h : ∀ a ∈ as, ReadsAs read (write a) a) :
    ReadsAs (listOf read) (.list (as.map write)) as := by
  intro dialect e he
  obtain ⟨ys, rfl, hys⟩ := he.eq_list
  rw [List.forall₂_map_left_iff] at hys
  refine mapM_eq_ok.mpr (List.Forall₂.flip ?_)
  clear he
  induction hys with
  | nil => exact .nil
  | @cons a y as ys hy _ ih =>
    obtain ⟨ha, has⟩ := List.forall_mem_cons.mp h
    exact .cons (ha dialect y hy) (ih has)

section

variable {P : α → Prop} {read : Decoder α} {dialect : Dialect}

theorem timestamp_regular {t : Timestamp} (h : timestamp dialect d = .ok t) : t.Regular := by
  obtain ⟨s, -, h⟩ := bind_eq_ok.mp h
  split at h
  · next ht =>
    obtain rfl := Except.ok.inj h
    exact Timestamp.regular_of_ofText ht
  · contradiction

theorem forall_of_optional {o : Option α} (hread : ∀ e a, read dialect e = .ok a → P a)
    (h : optional read dialect d = .ok o) : ∀ a ∈ o, P a := by
  by_cases hd : d = .null
  · subst hd
    obtain rfl := Except.ok.inj h
    exact nofun
  · rw [optional_of_ne_null hd] at h
    obtain ⟨a, ha, h⟩ := bind_eq_ok.mp h
    obtain rfl := Except.ok.inj h
    rintro _ ⟨⟩
    exact hread d a ha

theorem forall_of_listOf {as : List α} (hread : ∀ e a, read dialect e = .ok a → P a)
    (h : listOf read dialect d = .ok as) : ∀ a ∈ as, P a := by
  rw [listOf] at h
  split at h
  · next hd =>
    have hitems := mapM_eq_ok.mp h
    clear h hd
    induction hitems with
    | nil => exact nofun
    | cons ha _ ih => exact List.forall_mem_cons.mpr ⟨hread _ _ ha, ih⟩
  · split at h
    · obtain rfl := Except.ok.inj h
      exact nofun
    · contradiction
  · contradiction

end

end Data
end ModelTemplates
