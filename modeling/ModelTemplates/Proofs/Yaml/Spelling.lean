import Mathlib.Data.List.Nodup
import ModelTemplates.Proofs.Data.Decoded
import ModelTemplates.Yaml.Typed
/-! Nodes that spell a tree without tags and aliases, and what they are read as by the readers of
known types. -/
namespace ModelTemplates

namespace Yaml

variable {α β σ : Type} {node : Node} {s text : String} {style : ScalarStyle} {t : Data}
  {b : Bool} {i : Int} {ms : List (Data × Data)}

def signedAs (text : String) : Data → Bool
  | .int i => text.startsWith "-" == decide (i < 0)
  | _ => true

def sameScalar : Data → Data → Bool
  | .null, .null => true
  | .bool a, .bool b => a == b
  | .int m, .int n => m == n
  | .float x, .float y => x == y
  | .text s, .text t => s == t
  | _, _ => false

def scalarSpells (text : String) (style : ScalarStyle) (t : Data) : Bool :=
  match scalarData none text style with
  | .ok found => sameScalar found t && signedAs text t
  | .error _ => false

mutual

/-- Whether a node spells a tree: each value by a node of its kind, without tags and aliases. -/
def spells : Node → Data → Bool
  | .scalar _ tag text style, t => tag.isNone && scalarSpells text style t
  | .sequence _ tag items, .list xs => tag.isNone && itemsSpell items xs
  | .mapping _ tag entries, .record ms => tag.isNone && entriesSpell entries ms
  | _, _ => false

def itemsSpell : List Node → List Data → Bool
  | [], [] => true
  | node :: items, x :: xs => spells node x && itemsSpell items xs
  | _, _ => false

def entriesSpell : List (Node × Node) → List (Data × Data) → Bool
  | [], [] => true
  | (key, value) :: entries, (k, v) :: ms =>
    spells key k && spells value v && entriesSpell entries ms
  | _, _ => false

end

def Library.tells (y : Library) (s : String) (t : Data) : Bool :=
  match y.documents s with
  | [d] => d.fault.isNone && spells d.root t
  | _ => false

/-- The events of characters, which need not be taken out of the text again. -/
theorem events_ofList (cs : List Char) : events (String.ofList cs) =
    if (cs.takeWhile isAllowed).length < cs.length then
      ([],
        some (.forbiddenCharacter ((cs.takeWhile isAllowed).foldl (fun n c => n + c.utf8Size) 0)))
    else Grammar.run (8 * cs.length + 64)
      ⟨⟨⟨cs, ⟨0, 0, 0⟩⟩, false, 0, -1, [], false, [], [], 0⟩, .streamStart, [], []⟩ [] := by
  simp only [events, Grammar.ofText, TokenStream.ofText, Cursor.ofText, String.toList_ofList,
    String.length_ofList]

/-- What a plain scalar is read as is found by one of the readings, or is its text. -/
theorem Plain.read_cases (s : String) :
    Plain.read s = .null ∨ (∃ b, Plain.read s = .bool b ∧ Plain.truth? s = some b) ∨
      (∃ i, Plain.read s = .int i ∧ Plain.integer? s.toList = some i) ∨
      (∃ x, Plain.read s = .float x) ∨ Plain.read s = .text s := by
  unfold Plain.read
  simp only
  split
  · exact .inl rfl
  · split
    · next b hb => exact .inr (.inl ⟨b, rfl, hb⟩)
    · split
      · next i hi => exact .inr (.inr (.inl ⟨i, rfl, (Option.filter_eq_some_iff.mp hi).1⟩))
      · split
        · exact .inr (.inr (.inr (.inr rfl)))
        · split
          · next x hx => exact .inr (.inr (.inr (.inl ⟨x, rfl⟩)))
          · exact .inr (.inr (.inr (.inr rfl)))

theorem scalarData_none (text : String) (style : ScalarStyle) :
    scalarData none text style = .ok (if style = .plain then Plain.read text else .text text) := by
  change (if style = .plain then _ else _) = _
  split <;> rfl

inductive ScalarSpelling (text : String) (style : ScalarStyle) : Data → Prop where
  | text : ScalarSpelling text style (.text text)
  | null : style = .plain → ScalarSpelling text style .null
  | bool {b : Bool} :
      style = .plain → Plain.truth? text = some b → ScalarSpelling text style (.bool b)
  | int {i : Int} : style = .plain → Plain.integer? text.toList = some i →
      text.startsWith "-" = decide (i < 0) → ScalarSpelling text style (.int i)
  | float {x : Binary64} : style = .plain → ScalarSpelling text style (.float x)

theorem scalarSpelling (h : scalarSpells text style t = true) : ScalarSpelling text style t := by
  rw [scalarSpells, scalarData_none] at h
  simp only [Bool.and_eq_true] at h
  obtain ⟨hsame, hsign⟩ := h
  split at hsame
  · next hplain =>
    obtain hread | ⟨b, hread, hb⟩ | ⟨i, hread, hi⟩ | ⟨x, hread⟩ | hread := Plain.read_cases text
    all_goals rw [hread] at hsame; cases t <;> simp only [sameScalar, Bool.false_eq_true] at hsame
    · exact .null hplain
    · obtain rfl := eq_of_beq hsame
      exact .bool hplain hb
    · obtain rfl := eq_of_beq hsame
      exact .int hplain hi (eq_of_beq hsign)
    · exact .float hplain
    · obtain rfl := eq_of_beq hsame
      exact .text
  · cases t <;> simp only [sameScalar, Bool.false_eq_true] at hsame
    obtain rfl := eq_of_beq hsame
    exact .text

theorem spells_scalar (h : spells node t = true) (hlist : ∀ xs, t ≠ .list xs)
    (hrecord : ∀ ms, t ≠ .record ms) :
    ∃ m text style, node = .scalar m none text style ∧ ScalarSpelling text style t := by
  cases node with
  | scalar m tag text style =>
    rw [spells, Bool.and_eq_true, Option.isNone_iff_eq_none] at h
    obtain ⟨rfl, hspells⟩ := h
    exact ⟨m, text, style, rfl, scalarSpelling hspells⟩
  | sequence m tag items =>
    cases t with
    | list xs => exact absurd rfl (hlist xs)
    | _ => contradiction
  | mapping m tag entries =>
    cases t with
    | record ms => exact absurd rfl (hrecord ms)
    | _ => contradiction
  | _ => cases t <;> contradiction

theorem spells_text (h : spells node (.text s) = true) :
    ∃ m style, node = .scalar m none s style := by
  obtain ⟨m, text, style, rfl, hspelling⟩ := spells_scalar h nofun nofun
  cases hspelling
  exact ⟨m, style, rfl⟩

theorem spells_record (h : spells node (.record ms) = true) :
    ∃ m entries, node = .mapping m none entries ∧ entriesSpell entries ms = true := by
  cases node with
  | scalar m tag text style =>
    rw [spells, Bool.and_eq_true] at h
    cases scalarSpelling h.2
  | mapping m tag entries =>
    rw [spells, Bool.and_eq_true, Option.isNone_iff_eq_none] at h
    obtain ⟨rfl, hspells⟩ := h
    exact ⟨m, entries, rfl, hspells⟩
  | _ => contradiction

namespace NodeReader

def ReadsAs (read : NodeReader α) (t : Data) (a : α) : Prop :=
  ∀ d path node count, spells node t = true → read d path node count = .ok (a, count)

theorem ReadsAs.bind {read : NodeReader α} {f : α → Read β} {a : α} {r : β} (h : ReadsAs read t a)
    (hf : f a = pure r) : ReadsAs (fun d path node => read d path node >>= f) t r := by
  intro d path node count hspells
  change (read d path node count >>= fun p => f p.1 p.2) = _
  rw [h d path node count hspells, ok_bind, hf]
  rfl

theorem resolve_of_spells {d : Document} {count : Nat} (h : spells node t = true) :
    d.resolve node count = .ok (node, count) := by
  cases node with
  | aliasTo => cases t <;> contradiction
  | _ => rfl

theorem onNode_of_spells {read : Node → Read α} {d : Document} {path : Path} {count : Nat} {a : α}
    (h : spells node t = true) (hread : read node count = .ok (a, count)) :
    onNode read d path node count = .ok (a, count) := by
  change (d.resolve node count >>= fun p => Read.located (markOf p.1) path (read p.1) p.2) = _
  rw [resolve_of_spells h, ok_bind, Read.located, hread]

theorem textOf_reads (expected s : String) : ReadsAs (textOf expected) (.text s) s := by
  intro d path node count h
  refine onNode_of_spells h ?_
  obtain ⟨m, style, rfl⟩ := spells_text h
  rfl

theorem string_reads (s : String) : ReadsAs string (.text s) s := textOf_reads _ s

theorem boolean_reads (b : Bool) : ReadsAs boolean (.bool b) b := by
  intro d path node count h
  refine onNode_of_spells h ?_
  obtain ⟨m, text, style, rfl, hspelling⟩ := spells_scalar h nofun nofun
  cases hspelling with
  | bool hplain hb =>
    subst hplain
    simp only [isLiteral, decide_true, Bool.true_or, if_true, hb]
    rfl

theorem count_reads {type : String} {bound n : Nat} (hbound : n ≤ bound)
    (hwide : n < Nat.pow 2 64) :
    ReadsAs (count type bound) (.int n) n := by
  intro d path node count h
  refine onNode_of_spells h ?_
  obtain ⟨m, text, style, rfl, hspelling⟩ := spells_scalar h nofun nofun
  cases hspelling with
  | int hplain hi hsign =>
    subst hplain
    have hnegative : ¬ (n : Int) < 0 := Int.not_lt.mpr (Int.natCast_nonneg n)
    have hunsigned : text.startsWith "-" = false := hsign.trans (decide_eq_false hnegative)
    have hnarrow : ¬ (n : Int) ≥ (Nat.pow 2 64 : Int) := Int.not_le.mpr (Int.ofNat_lt.mpr hwide)
    have hwithin : ¬ (n : Int) > bound := Int.not_lt.mpr (Int.ofNat_le.mpr hbound)
    simp only [isLiteral, decide_true, Bool.true_or, if_true, hi, hunsigned, hnarrow,
      hwithin, if_false]
    rfl

theorem variant_reads {variants : List (String × α)} {a : α} (h : variants.lookup s = some a) :
    ReadsAs (variant variants) (.text s) a := by
  intro d path node count hspells
  refine onNode_of_spells hspells ?_
  obtain ⟨m, style, rfl⟩ := spells_text hspells
  simp only [variantTag?, Data.named, h]
  rfl

theorem optional_reads {read : NodeReader α} {a : α} (h : ReadsAs read (.record ms) a) :
    ReadsAs (optional read) (.record ms) (some a) := by
  intro d path node count hspells
  have hread := h d path node count hspells
  obtain ⟨m, entries, rfl, -⟩ := spells_record hspells
  change (d.resolve (.mapping m none entries) count >>= fun p =>
    (read d path p.1 p.2 >>= fun q => .ok (some q.1, q.2))) = _
  rw [resolve_of_spells hspells, ok_bind, hread, ok_bind]

section

variable {names : List String} {member : Document → Path → σ → String → Node → Read σ}
  {members : List (String × Data)} {stage : List String → σ}

def takeIn (names : List String) (member : Document → Path → σ → String → Node → Read σ)
    (d : Document) (path : Path) (p : σ × List String) (entry : Node × Node) :
    Read (σ × List String) := do
  let name ← textOf "field identifier" d path entry.1
  if !names.contains name then
    if isWhole entry.2 then pure p else absent d
  else if p.2.contains name then Read.fail (.problem (.duplicateField name) none)
  else do
    let s ← member d (Document.memberPath path entry.1) p.1 name entry.2
    pure (s, name :: p.2)

theorem takeIn_ok {d : Document} {path : Path} {count : Nat} {key value : Node}
    {name : String} {v : Data} {seen : List String} {s s' : σ}
    (hkey : spells key (.text name) = true) (hvalue : spells value v = true)
    (hname : name ∈ names) (hnew : name ∉ seen)
    (hmember : ReadsAs (fun d path node => member d path s name node) v s') :
    takeIn names member d path (s, seen) (key, value) count = .ok ((s', name :: seen), count) := by
  have hknown : (!names.contains name) = false := by simpa using hname
  have hfresh : seen.contains name = false := by simpa using hnew
  change (textOf "field identifier" d path key count >>= fun p => _) = _
  rw [textOf_reads _ name d path key count hkey, ok_bind]
  simp only [hknown, hfresh, Bool.false_eq_true, if_false]
  have hread : member d (Document.memberPath path key) s name value count = .ok (s', count) :=
    hmember d _ value count hvalue
  change (member d (Document.memberPath path key) s name value count >>= fun p => _) = _
  rw [hread, ok_bind]
  rfl

/-- Entries are taken in one after another: what has been taken in is given by the names seen so
far. -/
theorem foldlM_takeIn {d : Document} {path : Path} {count : Nat} {entries : List (Node × Node)}
    {seen : List String}
    (hspells : entriesSpell entries (members.map fun m => (.text m.1, m.2)) = true)
    (hnames : ∀ m ∈ members, m.1 ∈ names) (hnew : ((members.map Prod.fst).reverse ++ seen).Nodup)
    (hmember : ∀ m ∈ members, ∀ seen,
      ReadsAs (fun d path node => member d path (stage seen) m.1 node) m.2 (stage (m.1 :: seen))) :
    entries.foldlM (takeIn names member d path) (stage seen, seen) count =
      .ok ((stage ((members.map Prod.fst).reverse ++ seen), (members.map Prod.fst).reverse ++ seen),
        count) := by
  induction members generalizing entries seen with
  | nil =>
    cases entries with
    | nil => rfl
    | cons => contradiction
  | cons m members ih =>
    cases entries with
    | nil => contradiction
    | cons entry entries =>
      simp only [List.map_cons, entriesSpell, Bool.and_eq_true] at hspells
      obtain ⟨⟨hkey, hvalue⟩, hrest⟩ := hspells
      obtain ⟨hname, hnames⟩ := List.forall_mem_cons.mp hnames
      obtain ⟨hfirst, hmember⟩ := List.forall_mem_cons.mp hmember
      rw [List.map_cons, List.reverse_cons, List.append_assoc] at hnew ⊢
      have hfresh : m.1 ∉ seen := (List.nodup_cons.mp hnew.of_append_right).1
      rw [List.foldlM_cons]
      change (takeIn names member d path (stage seen, seen) entry count >>= fun p => _) = _
      rw [takeIn_ok hkey hvalue hname hfresh (hfirst seen), ok_bind]
      exact ih hrest hnames hnew hmember

/-- A record is read from members of different names when each is taken in as `stage` says, and the
last stage makes the value. -/
theorem record_reads {type : String} {finish : σ → Decoded α} {a : α} (stage : List String → σ)
    (hnames : ∀ m ∈ members, m.1 ∈ names) (hdistinct : (members.map Prod.fst).Nodup)
    (hmember : ∀ m ∈ members, ∀ seen,
      ReadsAs (fun d path node => member d path (stage seen) m.1 node) m.2 (stage (m.1 :: seen)))
    (hfinish : finish (stage (members.map Prod.fst).reverse) = .ok a) :
    ReadsAs (record type names (stage []) member finish) (.object members) a := by
  intro d path node count h
  refine onNode_of_spells h ?_
  obtain ⟨m, entries, rfl, hspells⟩ := spells_record h
  change (entries.foldlM (takeIn names member d path) (stage [], []) count >>= fun p => _) = _
  have hnew : ((members.map Prod.fst).reverse ++ []).Nodup := by simpa using hdistinct
  rw [foldlM_takeIn hspells hnames hnew hmember, ok_bind, List.append_nil]
  simp only [hfinish]
  rfl

end

end NodeReader

end Yaml

end ModelTemplates
