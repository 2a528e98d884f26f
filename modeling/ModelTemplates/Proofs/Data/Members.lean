import ModelTemplates.Proofs.Data.Rearranged
import ModelTemplates.Meta
/-! Values with named members, read one member after another. What has been taken in is a function
of the names seen so far: so the order of the members does not matter, and what is left out stays as
at the start. -/
namespace ModelTemplates

namespace Table

variable {κ ν : Type} [Ordered κ] [DecidableEq κ]

def restrict (t : Table κ ν) (ks : List κ) : Table κ ν :=
  ⟨t.entries.filter fun e => e.1 ∈ ks, t.sorted.filter _⟩

theorem find?_restrict (t : Table κ ν) (ks : List κ) (k : κ) :
    (t.restrict ks).find? k = if k ∈ ks then t.find? k else none := by
  rw [restrict, find?, List.find?_filter]
  split
  · next h =>
    rw [find?]
    congr 2
    funext e
    by_cases he : e.1 = k <;> simp [he, h]
  · next h =>
    rw [Option.map_eq_none_iff, List.find?_eq_none]
    rintro e - he
    simp only [decide_eq_true_eq] at he
    exact h (he.2 ▸ he.1)

theorem restrict_nil (t : Table κ ν) : t.restrict [] = empty :=
  ext_find? fun k => by rw [find?_restrict, if_neg List.not_mem_nil, find?_empty]

theorem insert_restrict [DecidableLT κ] {t : Table κ ν} {k : κ} {v : ν} (h : (k, v) ∈ t.entries)
    (ks : List κ) :
    (t.restrict ks).insert k v = t.restrict (k :: ks) := by
  rw [mem_entries_iff] at h
  refine ext_find? fun l => ?_
  rw [find?_insert, find?_restrict, find?_restrict]
  by_cases hl : l = k
  · rw [if_pos hl, if_pos (hl ▸ List.mem_cons_self), hl, h]
  · simp [hl]

theorem restrict_of_covers {t : Table κ ν} {ks : List κ} (h : ∀ e ∈ t.entries, e.1 ∈ ks) :
    t.restrict ks = t := by
  refine ext_find? fun k => ?_
  rw [find?_restrict]
  split
  · rfl
  · next hk =>
    cases hv : t.find? k with
    | none => rfl
    | some v => exact absurd (h _ ((mem_entries_iff t k v).mpr hv)) hk

end Table

namespace Data

variable {α σ : Type} {d : Data} {xs : List Data} {ms ws : List (String × Data)}
  {ns : List (Data × Data)}

/-- Members are taken in one after another: what has been taken in is given by the names seen so
far. -/
theorem foldlM_stages {f : σ → Data × Data → Decoded σ} (stage : List String → σ)
    {seen : List String} (hstep : ∀ w ∈ ws, ∀ n, Rearranged.Member w n →
      ∀ seen, f (stage seen) n = .ok (stage (w.1 :: seen)))
    (h : List.Forall₂ Rearranged.Member ws ns) :
    ns.foldlM f (stage seen) = .ok (stage ((ws.map Prod.fst).reverse ++ seen)) := by
  induction h generalizing seen with
  | nil => rfl
  | @cons w n ws ns hn _ ih =>
    obtain ⟨hw, hws⟩ := List.forall_mem_cons.mp hstep
    rw [List.foldlM_cons, hw n hn, ok_bind, ih hws, List.map_cons, List.reverse_cons,
      List.append_assoc]
    rfl

/-- In whatever order the members come, all are seen before the last step. -/
theorem foldlM_members {f : σ → Data × Data → Decoded σ} {finish : σ → Decoded α} {a : α}
    (stage : List String → σ) (hp : ms.Perm ws) (h : List.Forall₂ Rearranged.Member ws ns)
    (hstep : ∀ m ∈ ms, ∀ n, Rearranged.Member m n →
      ∀ seen, f (stage seen) n = .ok (stage (m.1 :: seen)))
    (hfinish : ∀ seen, (∀ m ∈ ms, m.1 ∈ seen) → finish (stage seen) = .ok a) :
    (ns.foldlM f (stage []) >>= finish) = .ok a := by
  rw [foldlM_stages stage (fun w hw => hstep w (hp.mem_iff.mpr hw)) h, ok_bind]
  refine hfinish _ fun m hm => ?_
  rw [List.append_nil, List.mem_reverse]
  exact List.mem_map_of_mem (hp.mem_iff.mp hm)

/-- A value with named members is read from all of them when each is taken in as `stage` says, and
the last stage makes the value. -/
theorem members_read {type : String} {names : List String} {start : σ}
    {member : Dialect → σ → String → Data → Decoded σ}
    {finish : (String → DecodeError) → σ → Decoded α} {a : α} (stage : List String → σ)
    (hstart : stage [] = start) (hstep : ∀ m ∈ ms, ∀ seen,
      ReadsAs (fun dialect e => member dialect (stage seen) m.1 e) m.2 (stage (m.1 :: seen)))
    (hfinish : ∀ seen, (∀ m ∈ ms, m.1 ∈ seen) → finish .missingField (stage seen) = .ok a) :
    ReadsAs (members type names start member finish) (object ms) a := by
  intro dialect e he
  obtain ⟨ws, ns, rfl, hp, hns⟩ := he.eq_record
  subst hstart
  refine foldlM_members stage hp hns ?_ hfinish
  rintro m hm ⟨k, v⟩ ⟨rfl, hv⟩ seen
  exact hstep m hm seen dialect v hv

theorem textTable_reads (t : Table String String) :
    ReadsAs textTable (object (t.entries.map fun e => (e.1, .text e.2))) t := by
  intro dialect e he
  obtain ⟨ws, ns, rfl, hp, hns⟩ := he.eq_record
  have hread : textTable dialect (.record ns) = (ns.foldlM (fun t n => do
      let k ← string dialect n.1
      let v ← string dialect n.2
      .ok (t.insert k v)) Table.empty >>= pure) := (bind_pure _).symm
  rw [hread, ← t.restrict_nil]
  refine foldlM_members t.restrict hp hns ?_ fun seen hseen => ?_
  · rintro m hm ⟨k, v⟩ ⟨rfl, hv⟩ seen
    obtain ⟨⟨k, v⟩, hmem, rfl⟩ := List.mem_map.mp hm
    rw [string_reads k dialect _ (.refl _), ok_bind, string_reads v dialect _ hv, ok_bind,
      Table.insert_restrict hmem]
  · have hcovers : ∀ e ∈ t.entries, e.1 ∈ seen := fun e he => hseen _ (List.mem_map_of_mem he)
    rw [Table.restrict_of_covers hcovers]
    rfl

section

variable {P : String × Data → Prop} {name : String}

theorem forall_optionalMember {write : α → Data} {o : Option α} :
    (∀ m ∈ Meta.optionalMember name write o, P m) ↔ ∀ a, o = some a → P (name, write a) := by
  cases o <;> simp [Meta.optionalMember]

theorem forall_listMember :
    (∀ m ∈ Meta.listMember name xs, P m) ↔ (xs ≠ [] → P (name, .list xs)) := by
  cases xs <;> simp [Meta.listMember]

theorem forall_tableMember {t : Table String String} :
    (∀ m ∈ Meta.tableMember name t, P m) ↔
      (t ≠ .empty → P (name, object (t.entries.map fun e => (e.1, .text e.2)))) := by
  have hempty : t.isEmpty = true ↔ t = .empty := by
    rw [Table.isEmpty, List.isEmpty_iff]
    obtain ⟨es, hs⟩ := t
    simp [Table.empty]
  rw [Meta.tableMember]
  split
  · next h => simp [hempty.mp h]
  · next h => simp [mt hempty.mpr h]

/-- What is left out only where it stands for nothing is there again at the end. -/
theorem kept {a nothing : α} {c : Prop} [Decidable c] (h : a ≠ nothing → c) :
    (if c then a else nothing) = a :=
  ite_eq_left_iff.mpr fun hc => (not_not.mp (mt h hc)).symm

theorem kept_some {o : Option α} {c : Prop} [Decidable c] (h : ∀ a, o = some a → c) :
    (if c then o else none) = o := by
  refine kept fun hne => ?_
  obtain ⟨a, ha⟩ := Option.ne_none_iff_exists'.mp hne
  exact h a ha

end

/-- What the members keep, and the last step turns into a property of the whole, holds of all that
is read. -/
theorem members_forall {type : String} {names : List String} {start : σ}
    {member : Dialect → σ → String → Data → Decoded σ}
    {finish : (String → DecodeError) → σ → Decoded α} {dialect : Dialect} {K : σ → Prop}
    {P : α → Prop} {a : α} (hstart : K start)
    (hmember : ∀ s name e s', K s → member dialect s name e = .ok s' → K s')
    (hfinish : ∀ missing s a, K s → finish missing s = .ok a → P a)
    (h : members type names start member finish dialect d = .ok a) : P a := by
  rw [members] at h
  split at h
  · obtain ⟨s, hs, h⟩ := bind_eq_ok.mp h
    refine hfinish _ s a (foldlM_keeps hstart ?_ hs) h
    rintro s m s' hk hm
    obtain ⟨name, -, hm⟩ := bind_eq_ok.mp hm
    exact hmember s name m.2 s' hk hm
  · split at h
    · contradiction
    · obtain ⟨s, hs, h⟩ := bind_eq_ok.mp h
      obtain ⟨b, hb, h⟩ := bind_eq_ok.mp h
      split at h
      · contradiction
      · obtain rfl := Except.ok.inj h
        exact hfinish _ s b (foldlM_keeps hstart (fun s m s' hk hm =>
          hmember s m.1 m.2 s' hk hm) hs) hb
  · split at h
    · exact hfinish _ start a hstart h
    · contradiction
  · contradiction

theorem require_eq_ok {missing : String → DecodeError} {name : String} {o : Option α} {a : α}
    (h : require missing name o = .ok a) : a ∈ o := by
  cases o with
  | none => contradiction
  | some b => exact congrArg some (Except.ok.inj h)

end Data
end ModelTemplates
