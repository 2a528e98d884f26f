import Mathlib.Tactic.Common
import ModelTemplates.Data
/-! Members of a tree by their paths, and trees from which members are taken away. -/
namespace ModelTemplates

namespace Data

variable {name : String} {path : List String} {paths : List (List String)}

def at? : Data → List String → Option Data
  | d, [] => some d
  | d, name :: path => (d.get? name).bind fun e => at? e path

def pathsBelow (name : String) (paths : List (List String)) : List (List String) :=
  (paths.filter fun path => path.head? = some name).map List.tail

theorem mem_pathsBelow : path ∈ pathsBelow name paths ↔ name :: path ∈ paths := by
  simp only [pathsBelow, List.mem_map, List.mem_filter, decide_eq_true_eq]
  constructor
  · rintro ⟨_ | ⟨first, rest⟩, ⟨hmem, hhead⟩, rfl⟩
    · contradiction
    · obtain rfl := Option.some.inj hhead
      exact hmem
  · intro hmem
    exact ⟨name :: path, ⟨hmem, rfl⟩, rfl⟩

mutual

def without : List (List String) → Data → Data
  | paths, .record ms => .record (membersWithout paths ms)
  | _, d => d

def membersWithout : List (List String) → List (Data × Data) → List (Data × Data)
  | _, [] => []
  | paths, (k, v) :: ms =>
    match k with
    | .text name =>
      if [name] ∈ paths then membersWithout paths ms
      else (k, without (pathsBelow name paths) v) :: membersWithout paths ms
    | _ => (k, v) :: membersWithout paths ms

end

/-- Of a record with names, the members stay that are not taken away, each without what is taken
away of it. -/
theorem without_object (paths : List (List String)) (ms : List (String × Data)) :
    (object ms).without paths =
      object ((ms.filter fun m => [m.1] ∉ paths).map fun m =>
        (m.1, m.2.without (pathsBelow m.1 paths))) := by
  rw [object, without, object]
  congr 1
  induction ms with
  | nil => rfl
  | cons m ms ih =>
    rw [List.map_cons, membersWithout]
    by_cases hgone : [m.1] ∈ paths
    · rw [List.filter_cons_of_neg (by simpa using hgone), ← ih]
      exact if_pos hgone
    · rw [List.filter_cons_of_pos (by simpa using hgone), List.map_cons, List.map_cons, ← ih]
      exact if_neg hgone

mutual

theorem without_nil : ∀ d : Data, d.without [] = d
  | .record ms => by rw [without, membersWithout_nil ms]
  | .null => rfl
  | .bool _ => rfl
  | .int _ => rfl
  | .float _ => rfl
  | .text _ => rfl
  | .list _ => rfl
  | .tagged _ _ => rfl

theorem membersWithout_nil : ∀ ms : List (Data × Data), membersWithout [] ms = ms
  | [] => rfl
  | (k, v) :: ms => by
    cases k with
    | text name =>
      have hbelow : pathsBelow name [] = [] := rfl
      rw [membersWithout, if_neg List.not_mem_nil, hbelow, without_nil v, membersWithout_nil ms]
    | _ => exact congrArg ((_, v) :: ·) (membersWithout_nil ms)

end

end Data

end ModelTemplates
