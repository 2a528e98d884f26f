/-! Finite maps as lists of entries in strictly increasing key order. Two tables with the same
look-ups are equal (`Table.ext_find?`). -/
namespace ModelTemplates

/-- A strict total order. -/
class Ordered (κ : Type) extends LT κ where
  irrefl : ∀ a : κ, ¬ a < a
  trans : ∀ {a b c : κ}, a < b → b < c → a < c
  connected : ∀ {a b : κ}, ¬ a < b → ¬ b < a → a = b

instance : Ordered String where
  irrefl := String.lt_irrefl
  trans := String.lt_trans
  connected h h' := String.le_antisymm h' h

structure Table (κ ν : Type) [Ordered κ] where
  entries : List (κ × ν)
  sorted : entries.Pairwise (fun a b => a.1 < b.1)

namespace Table

variable {κ ν : Type} [Ordered κ]

instance [DecidableEq κ] [DecidableEq ν] : DecidableEq (Table κ ν) := fun s t =>
  decidable_of_iff (s.entries = t.entries) (by cases s; cases t; simp)

def empty : Table κ ν := ⟨[], List.Pairwise.nil⟩

instance : Inhabited (Table κ ν) := ⟨empty⟩

def isEmpty (t : Table κ ν) : Bool := t.entries.isEmpty

def size (t : Table κ ν) : Nat := t.entries.length

def keys (t : Table κ ν) : List κ := t.entries.map Prod.fst

def values (t : Table κ ν) : List ν := t.entries.map Prod.snd

variable [DecidableEq κ]

def find? (t : Table κ ν) (k : κ) : Option ν :=
  (t.entries.find? fun e => e.1 = k).map Prod.snd

def contains (t : Table κ ν) (k : κ) : Bool := (t.find? k).isSome

def erase (t : Table κ ν) (k : κ) : Table κ ν :=
  ⟨t.entries.filter fun e => e.1 ≠ k, t.sorted.filter _⟩

variable [DecidableLT κ]

/-- Put an entry in its place, over one of the same key. -/
def insertEntry (k : κ) (v : ν) : List (κ × ν) → List (κ × ν)
  | [] => [(k, v)]
  | e :: es =>
    if k < e.1 then (k, v) :: e :: es
    else if k = e.1 then (k, v) :: es
    else e :: insertEntry k v es

theorem mem_insertEntry {k : κ} {v : ν} {es : List (κ × ν)} {e : κ × ν}
    (h : e ∈ insertEntry k v es) : e = (k, v) ∨ e ∈ es := by
  induction es with
  | nil => simpa [insertEntry] using h
  | cons d ds ih => simp only [insertEntry] at h; split at h <;> grind

theorem sorted_insertEntry {k : κ} {v : ν} {es : List (κ × ν)}
    (h : es.Pairwise fun a b => a.1 < b.1) :
    (insertEntry k v es).Pairwise fun a b => a.1 < b.1 := by
  induction es with
  | nil => simp [insertEntry]
  | cons d ds ih =>
    have hd := List.pairwise_cons.1 h
    simp only [insertEntry]
    split
    · rename_i hk
      refine List.pairwise_cons.2 ⟨fun a ha => ?_, h⟩
      rcases List.mem_cons.1 ha with rfl | ha
      · exact hk
      · exact Ordered.trans hk (hd.1 a ha)
    · split
      · rename_i hk
        exact List.pairwise_cons.2 ⟨fun a ha => hk ▸ hd.1 a ha, hd.2⟩
      · rename_i hlt hne
        refine List.pairwise_cons.2 ⟨fun a ha => ?_, ih hd.2⟩
        rcases mem_insertEntry ha with rfl | ha
        · by_cases hdk : d.1 < k
          · exact hdk
          · exact absurd (Ordered.connected hlt hdk) hne
        · exact hd.1 a ha

def insert (t : Table κ ν) (k : κ) (v : ν) : Table κ ν :=
  ⟨insertEntry k v t.entries, sorted_insertEntry t.sorted⟩

/-- Later entries win. -/
def ofList (es : List (κ × ν)) : Table κ ν := es.foldl (fun t e => t.insert e.1 e.2) empty

omit [DecidableLT κ] in
@[simp] theorem find?_empty (k : κ) : (empty : Table κ ν).find? k = none := rfl

omit [DecidableLT κ] in
theorem find?_erase (t : Table κ ν) (k l : κ) :
    (t.erase k).find? l = if l = k then none else t.find? l := by
  unfold find? erase
  rw [List.find?_filter]
  split
  · next h => subst h; simp
  · next h =>
    congr 2; funext e
    by_cases he : e.1 = l <;> simp [he, h]

theorem find?_insertEntry (k l : κ) (v : ν) (es : List (κ × ν)) :
    ((insertEntry k v es).find? fun e => e.1 = l) =
      if l = k then some (k, v) else es.find? fun e => e.1 = l := by
  induction es with
  | nil => by_cases h : l = k <;> simp [insertEntry, h, eq_comm]
  | cons d ds ih =>
    simp only [insertEntry]
    split
    · by_cases h : l = k <;> simp [List.find?_cons, h, eq_comm]
    · split
      · next hk => by_cases h : l = k <;> simp [h, ← hk, eq_comm]
      · next hk =>
        by_cases h : l = k
        · subst h; simp [ih, Ne.symm hk]
        · simp [List.find?_cons, ih, h]

theorem find?_insert (t : Table κ ν) (k l : κ) (v : ν) :
    (t.insert k v).find? l = if l = k then some v else t.find? l := by
  unfold find? insert
  rw [find?_insertEntry]
  split <;> rfl

omit [DecidableLT κ] in
theorem mem_entries_iff (t : Table κ ν) (k : κ) (v : ν) :
    (k, v) ∈ t.entries ↔ t.find? k = some v := by
  obtain ⟨es, hs⟩ := t
  unfold find?
  induction es with
  | nil => simp
  | cons d ds ih =>
    have hd := List.pairwise_cons.1 hs
    by_cases h : d.1 = k
    · have hn : (k, v) ∉ ds := fun hm => by
        have hlt : d.1 < k := hd.1 _ hm
        exact Ordered.irrefl k (h ▸ hlt)
      rw [List.mem_cons]
      simp only [hn, or_false, List.find?_cons, h, decide_true, Option.map_some, Option.some.injEq]
      constructor
      · rintro rfl; rfl
      · rintro rfl; exact Prod.ext h.symm rfl
    · have : (k, v) ≠ d := fun he => h (he ▸ rfl)
      simp only [List.mem_cons, this, false_or, List.find?_cons, h, decide_false]
      exact ih hd.2

omit [DecidableEq κ] [DecidableLT κ] in
/-- Strictly sorted lists with the same members are the same list. -/
theorem eq_of_same_members {es fs : List (κ × ν)} (he : es.Pairwise fun a b => a.1 < b.1)
    (hf : fs.Pairwise fun a b => a.1 < b.1) (h : ∀ e, e ∈ es ↔ e ∈ fs) : es = fs := by
  induction es generalizing fs with
  | nil => cases fs with
    | nil => rfl
    | cons f fs => exact absurd ((h f).2 List.mem_cons_self) List.not_mem_nil
  | cons e es ih =>
    cases fs with
    | nil => exact absurd ((h e).1 List.mem_cons_self) List.not_mem_nil
    | cons f fs =>
      have he' := List.pairwise_cons.1 he
      have hf' := List.pairwise_cons.1 hf
      have hef : e = f := by
        rcases List.mem_cons.1 ((h e).1 List.mem_cons_self) with h1 | h1
        · exact h1
        · rcases List.mem_cons.1 ((h f).2 List.mem_cons_self) with h2 | h2
          · exact h2.symm
          · exact absurd (Ordered.trans (hf'.1 e h1) (he'.1 f h2)) (Ordered.irrefl _)
      subst hef
      congr 1
      refine ih he'.2 hf'.2 fun a => ?_
      constructor
      · intro ha
        rcases List.mem_cons.1 ((h a).1 (List.mem_cons_of_mem _ ha)) with rfl | h1
        · exact absurd (he'.1 _ ha) (Ordered.irrefl _)
        · exact h1
      · intro ha
        rcases List.mem_cons.1 ((h a).2 (List.mem_cons_of_mem _ ha)) with rfl | h1
        · exact absurd (hf'.1 _ ha) (Ordered.irrefl _)
        · exact h1

omit [DecidableLT κ] in
theorem ext_find? {s t : Table κ ν} (h : ∀ k, s.find? k = t.find? k) : s = t := by
  have : s.entries = t.entries := eq_of_same_members s.sorted t.sorted fun e => by
    rw [← Prod.eta e, mem_entries_iff, mem_entries_iff, h]
  cases s; cases t; simpa using this

end Table
end ModelTemplates
