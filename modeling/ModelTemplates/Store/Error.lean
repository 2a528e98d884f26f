import ModelTemplates.Key
/-! Why a store refuses a request, and why a handler gives up. -/
namespace ModelTemplates

inductive StoreError where
  | notFound (kind : Kind) (key : Key)
  /-- The object was written since it was read. -/
  | conflict (kind : Kind) (key : Key) (expected actual : UInt64)
  | alreadyExists (kind : Kind) (key : Key)
  | backend (text : String)
deriving DecidableEq

namespace StoreError

def message : StoreError → String
  | notFound kind key => kind.text ++ " " ++ key.text ++ " not found"
  | conflict kind key expected actual =>
    kind.text ++ " " ++ key.text ++ " was modified concurrently (expected resource version "
      ++ toString expected.toNat ++ ", found " ++ toString actual.toNat ++ ")"
  | alreadyExists kind key => kind.text ++ " " ++ key.text ++ " already exists"
  | backend text => "Store backend error: " ++ text

def isConflict : StoreError → Bool
  | conflict .. => true
  | _ => false

def isNotFound : StoreError → Bool
  | notFound .. => true
  | _ => false

end StoreError

/-- Why a handler gives up. -/
inductive ReconcileError where
  /-- An object that is referred to is not there. -/
  | notFound (kind : Kind) (key : Key)
  | conflict (kind : Kind) (key : Key)
  | invalid (text : String)
  | store (e : StoreError)
  /-- It panicked when it counted past the last number. -/
  | overflow
deriving DecidableEq

namespace ReconcileError

def message : ReconcileError → String
  | notFound kind key => kind.text ++ " " ++ key.text ++ " not found"
  | conflict kind key => kind.text ++ " " ++ key.text ++ " was modified concurrently"
  | invalid text => "Validation failed: " ++ text
  | store e => e.message
  | overflow => "attempt to add with overflow"

def isConflict : ReconcileError → Bool
  | conflict .. => true
  | _ => false

def ofStore : StoreError → ReconcileError
  | .notFound kind key => notFound kind key
  | .conflict kind key _ _ => conflict kind key
  | e => store e

@[simp] theorem ofStore_ne_overflow (e : StoreError) : ofStore e ≠ overflow := by
  cases e <;> simp [ofStore]

end ReconcileError
end ModelTemplates
