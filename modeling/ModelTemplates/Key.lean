import ModelTemplates.Table
/-! Names of stored objects: a namespace and a name, ordered by both. -/
namespace ModelTemplates

structure Key where
  space : String
  name : String
deriving DecidableEq, Inhabited

namespace Key

def lt (a b : Key) : Prop :=
  a.space < b.space ∨ (a.space = b.space ∧ a.name < b.name)

instance : LT Key := ⟨lt⟩

instance : DecidableLT Key := fun a b =>
  inferInstanceAs (Decidable (a.space < b.space ∨ (a.space = b.space ∧ a.name < b.name)))

instance : Ordered Key where
  irrefl a h := by
    rcases h with h | ⟨-, h⟩ <;> exact String.lt_irrefl _ h
  trans {a b c} h h' := by
    rcases h with h | ⟨e, h⟩ <;> rcases h' with h' | ⟨e', h'⟩
    · exact .inl (String.lt_trans h h')
    · exact .inl (e' ▸ h)
    · exact .inl (e ▸ h')
    · exact .inr ⟨e.trans e', String.lt_trans h h'⟩
  connected {a b} h h' := by
    have hn : a.space = b.space :=
      Ordered.connected (fun x => h (.inl x)) (fun x => h' (.inl x))
    have hm : a.name = b.name :=
      Ordered.connected (fun x => h (.inr ⟨hn, x⟩)) (fun x => h' (.inr ⟨hn.symm, x⟩))
    cases a; cases b; simp_all

/-- `namespace/name`, or a bare name in the default namespace. -/
def ofReference (reference defaultNamespace : String) : Key :=
  match reference.toList.span (· ≠ '/') with
  | (before, _ :: after) => ⟨String.ofList before, String.ofList after⟩
  | (_, []) => ⟨defaultNamespace, reference⟩

def text (k : Key) : String :=
  if k.space = "" then k.name else k.space ++ "/" ++ k.name

end Key

/-- The kinds of stored objects. -/
inductive Kind where
  | template
  | version
deriving DecidableEq, Inhabited

def Kind.text : Kind → String
  | .template => "ModelTemplate"
  | .version => "ModelTemplateVersion"

end ModelTemplates
