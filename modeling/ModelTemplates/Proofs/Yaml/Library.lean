import ModelTemplates.Proofs.Data.Paths
import ModelTemplates.Proofs.Yaml.Spelling
/-! Libraries that read back what they write. -/
namespace ModelTemplates

/-- Truth values, counts of 64 bits, texts, and records of these with distinct names. -/
inductive Data.Basic : Data → Prop where
  | bool (b : Bool) : Basic (.bool b)
  | count {n : Nat} : n < UInt64.size → Basic (.int n)
  | text (s : String) : Basic (.text s)
  | object {members : List (String × Data)} :
      (members.map Prod.fst).Nodup → (∀ m ∈ members, Basic m.2) → Basic (.object members)

theorem Data.Basic.without {t : Data} (h : t.Basic) (paths : List (List String)) :
    (t.without paths).Basic := by
  induction h generalizing paths with
  | bool b => exact .bool b
  | count hn => exact .count hn
  | text s => exact .text s
  | @object members hdistinct hbasic ih =>
    rw [Data.without_object]
    refine .object ?_ ?_
    · rw [List.map_map]
      exact hdistinct.sublist (List.filter_sublist.map _)
    · intro member hmem
      obtain ⟨m, hm, rfl⟩ := List.mem_map.mp hmem
      exact ih m (List.mem_of_mem_filter hm) _

namespace Yaml

namespace Library

variable {α : Type} {y : Library} {s : String} {t : Data}

@[simp] theorem standard_write (t : Data) : standard.write t = Writer.write t := rfl

@[simp] theorem standard_documents (s : String) : standard.documents s = Yaml.documents s := rfl

/-- What is written of basic data is read back. -/
def RoundTrips (y : Library) : Prop := ∀ t : Data, t.Basic → y.tells (y.write t) t = true

def scalarCode (sign : Char) (s : String) : List Char :=
  s.toList.flatMap (fun c => ['|', c]) ++ [sign]

mutual

/-- A form of basic data that is not YAML. The sign of a scalar or a member stands behind it. -/
def code : Data → List Char
  | .bool b => scalarCode 'p' (if b then "true" else "false")
  | .int n => scalarCode 'p' (String.ofList ('0' :: 'b' :: Nat.toDigits 2 n.toNat))
  | .text s => scalarCode 't' s
  | .record ms => 'm' :: membersCode ms
  | _ => []

def membersCode : List (Data × Data) → List Char
  | [] => []
  | (k, v) :: ms => code k ++ (code v ++ 'e' :: membersCode ms)

end

def decode : List Char → List Char → List Node → Option Node
  | '|' :: c :: rest, cs, nodes => decode rest (c :: cs) nodes
  | 'p' :: rest, cs, nodes =>
    decode rest [] (.scalar ⟨0, 0, 0⟩ none (String.ofList cs.reverse) .plain :: nodes)
  | 't' :: rest, cs, nodes =>
    decode rest [] (.scalar ⟨0, 0, 0⟩ none (String.ofList cs.reverse) .doubleQuoted :: nodes)
  | 'm' :: rest, _, nodes => decode rest [] (.mapping ⟨0, 0, 0⟩ none [] :: nodes)
  | 'e' :: rest, _, value :: key :: .mapping mark tag entries :: nodes =>
    decode rest [] (.mapping mark tag (entries ++ [(key, value)]) :: nodes)
  | [], _, [node] => some node
  | _, _, _ => none

def mended (y : Library) : Library where
  write t :=
    let s := y.write t
    if y.tells s t ∧ s.toList.head? ≠ some '\x00' then s else String.ofList ('\x00' :: code t)
  documents s :=
    if s.toList.head? = some '\x00' then
      (decode s.toList.tail [] []).toList.map fun root => ⟨root, [], 0, none⟩
    else y.documents s

theorem foldlM_binary (n : Nat) :
    (Nat.toDigits 2 n).foldlM (fun n c => (Plain.digitValue? 2 c).map (2 * n + ·)) 0 = some n := by
  induction n using Nat.strongRecOn with
  | ind n ih =>
    have hdigit (b : Nat) (hb : b < 2) : Plain.digitValue? 2 b.digitChar = some b := by
      obtain rfl | rfl : b = 0 ∨ b = 1 := by omega
      all_goals rfl
    rw [Nat.toDigits_eq_if (by decide)]
    by_cases hsmall : n < 2
    · simp [hsmall, hdigit n hsmall]
    · have hhalf : n / 2 < n := Nat.div_lt_self (by omega) (by decide)
      have hlast : n % 2 < 2 := Nat.mod_lt n (by decide)
      rw [if_neg hsmall, List.foldlM_append, ih _ hhalf]
      simp [hdigit _ hlast, Nat.div_add_mod]

theorem integer?_binary (n : Nat) :
    Plain.integer? ('0' :: 'b' :: Nat.toDigits 2 n) = some (n : Int) := by
  have hbits : Plain.natural? 2 (Nat.toDigits 2 n) = some n := by
    have hsome := foldlM_binary n
    cases hdigits : Nat.toDigits 2 n with
    | nil => exact absurd hdigits Nat.toDigits_ne_nil
    | cons c cs =>
      rw [hdigits] at hsome
      exact hsome
  change (Plain.natural? 2 (Nat.toDigits 2 n)).map Int.ofNat = _
  rw [hbits]
  rfl

theorem scalarSpells_binary {n : Nat} (h : n < UInt64.size) :
    scalarSpells (String.ofList ('0' :: 'b' :: Nat.toDigits 2 n)) .plain (.int n) = true := by
  generalize hs : String.ofList ('0' :: 'b' :: Nat.toDigits 2 n) = s
  have hchars : s.toList = '0' :: 'b' :: Nat.toDigits 2 n := by rw [← hs, String.toList_ofList]
  have hint : Plain.integer? s.toList = some (n : Int) := by rw [hchars, integer?_binary]
  have hwide : Plain.isWide n = true := by
    have hlow : -(Nat.pow 2 127 : Int) ≤ n := Int.le_trans (by decide) (Int.natCast_nonneg n)
    have hhigh : (n : Int) < (Nat.pow 2 128 : Int) := Int.ofNat_lt.mpr (Nat.lt_trans h (by decide))
    rw [Plain.isWide, decide_eq_true hlow, decide_eq_true hhigh]
    rfl
  have hread : Plain.read s = .int n := by
    have htruth : Plain.truth? s = none := by simp [Plain.truth?, ← String.toList_inj, hchars]
    have hnull : Plain.isNull s.toList = false := by simp [Plain.isNull, hchars]
    simp only [Plain.read, hnull, htruth, hint, Option.filter_some, hwide]
    simp [hchars]
  have hsign : s.startsWith "-" = false := by simp [String.startsWith_string_eq_false_iff, hchars]
  simp [scalarSpells, scalarData_none, hread, sameScalar, signedAs, hsign]

theorem decode_scalarCode {sign : Char} (s : String) (rest cs : List Char) (nodes : List Node) :
    decode (scalarCode sign s ++ rest) cs nodes =
      decode (sign :: rest) (s.toList.reverse ++ cs) nodes := by
  rw [scalarCode, List.append_assoc]
  induction s.toList generalizing cs with
  | nil => rfl
  | cons c chars ih =>
    rw [List.reverse_cons, List.append_assoc]
    exact ih (c :: cs)

theorem decode_plain (s : String) (rest : List Char) (nodes : List Node) :
    decode (scalarCode 'p' s ++ rest) [] nodes =
      decode rest [] (.scalar ⟨0, 0, 0⟩ none s .plain :: nodes) := by
  rw [decode_scalarCode, List.append_nil]
  change decode rest [] (.scalar _ _ (String.ofList s.toList.reverse.reverse) _ :: nodes) = _
  rw [List.reverse_reverse, String.ofList_toList]

theorem decode_text (s : String) (rest : List Char) (nodes : List Node) :
    decode (scalarCode 't' s ++ rest) [] nodes =
      decode rest [] (.scalar ⟨0, 0, 0⟩ none s .doubleQuoted :: nodes) := by
  rw [decode_scalarCode, List.append_nil]
  change decode rest [] (.scalar _ _ (String.ofList s.toList.reverse.reverse) _ :: nodes) = _
  rw [List.reverse_reverse, String.ofList_toList]

theorem spells_doubleQuoted (mark : Mark) (s : String) :
    spells (.scalar mark none s .doubleQuoted) (.text s) = true := by
  simp [spells, scalarSpells, scalarData_none, sameScalar, signedAs]

theorem entriesSpell_append {entries : List (Node × Node)} {ms : List (Data × Data)}
    {key value : Node} {k v : Data} (h : entriesSpell entries ms = true)
    (hkey : spells key k = true) (hvalue : spells value v = true) :
    entriesSpell (entries ++ [(key, value)]) (ms ++ [(k, v)]) = true := by
  induction entries generalizing ms with
  | nil =>
    cases ms with
    | nil => simp [entriesSpell, hkey, hvalue]
    | cons => contradiction
  | cons entry entries ih =>
    cases ms with
    | nil => contradiction
    | cons m ms =>
      rw [entriesSpell, Bool.and_eq_true] at h
      rw [List.cons_append, List.cons_append, entriesSpell, h.1, ih h.2]
      rfl

/-- What is decoded of the code of basic data is a node that spells them. -/
theorem decode_code (h : t.Basic) (rest : List Char) (nodes : List Node) :
    ∃ node, spells node t = true ∧
      decode (code t ++ rest) [] nodes = decode rest [] (node :: nodes) := by
  induction h generalizing rest nodes with
  | bool b =>
    refine ⟨_, ?_, decode_plain _ rest nodes⟩
    cases b <;> decide +kernel
  | count hn =>
    refine ⟨_, ?_, decode_plain _ rest nodes⟩
    rw [spells, Int.toNat_natCast, scalarSpells_binary hn]
    rfl
  | text s => exact ⟨_, spells_doubleQuoted _ s, decode_text s rest nodes⟩
  | @object members hdistinct hbasic ih =>
    -- Each member joins the mapping that stands below its key and value.
    have hmembers (ms : List (String × Data)) (hsub : ms ⊆ members) (done : List (Data × Data))
        (entries : List (Node × Node)) (hdone : entriesSpell entries done = true) :
        ∃ entries', entriesSpell entries' (done ++ ms.map fun m => (.text m.1, m.2)) = true ∧
          decode (membersCode (ms.map fun m => (.text m.1, m.2)) ++ rest) []
              (.mapping ⟨0, 0, 0⟩ none entries :: nodes) =
            decode rest [] (.mapping ⟨0, 0, 0⟩ none entries' :: nodes) := by
      induction ms generalizing done entries with
      | nil => exact ⟨entries, by simpa using hdone, rfl⟩
      | cons m ms ihms =>
        obtain ⟨hm, hsub⟩ := List.cons_subset.mp hsub
        obtain ⟨value, hvalue, hdecode⟩ := ih m hm
          ('e' :: membersCode (ms.map fun m => (.text m.1, m.2)) ++ rest)
          (.scalar ⟨0, 0, 0⟩ none m.1 .doubleQuoted :: .mapping ⟨0, 0, 0⟩ none entries :: nodes)
        obtain ⟨entries', hspells, hrest⟩ := ihms hsub (done ++ [(.text m.1, m.2)])
          (entries ++ [(.scalar ⟨0, 0, 0⟩ none m.1 .doubleQuoted, value)])
          (entriesSpell_append hdone (spells_doubleQuoted _ _) hvalue)
        refine ⟨entries', by simpa using hspells, ?_⟩
        rw [List.map_cons, membersCode, List.append_assoc, List.append_assoc, code, decode_text]
        exact hdecode.trans hrest
    obtain ⟨entries, hspells, hdecode⟩ := hmembers members (List.Subset.refl _) [] [] rfl
    refine ⟨.mapping ⟨0, 0, 0⟩ none entries, ?_, hdecode⟩
    rw [Data.object, spells]
    exact hspells

theorem mended_documents (h : s.toList.head? ≠ some '\x00') :
    y.mended.documents s = y.documents s := if_neg h

theorem mended_write (htells : y.tells (y.write t) t = true)
    (hplain : (y.write t).toList.head? ≠ some '\x00') : y.mended.write t = y.write t :=
  if_pos ⟨htells, hplain⟩

theorem mended_readOne {r : Document → Node → Read α} (h : s.toList.head? ≠ some '\x00') :
    y.mended.readOne s r = y.readOne s r := by
  rw [readOne, readOne, mended_documents h]

theorem mended_tells (h : s.toList.head? ≠ some '\x00') : y.mended.tells s t = y.tells s t := by
  rw [tells, tells, mended_documents h]

theorem mended_roundTrips (y : Library) : y.mended.RoundTrips := by
  intro t ht
  by_cases h : y.tells (y.write t) t ∧ (y.write t).toList.head? ≠ some '\x00'
  · obtain ⟨htells, hplain⟩ := h
    rw [mended_write htells hplain, mended_tells hplain]
    exact htells
  · have hwrite : y.mended.write t = String.ofList ('\x00' :: code t) := if_neg h
    obtain ⟨node, hspells, hdecode⟩ := decode_code ht [] []
    have hdocuments : y.mended.documents (String.ofList ('\x00' :: code t)) =
        [⟨node, [], 0, none⟩] := by
      rw [List.append_nil] at hdecode
      simp [mended, hdecode, decode]
    rw [tells, hwrite, hdocuments]
    exact hspells

end Library
end Yaml
end ModelTemplates
