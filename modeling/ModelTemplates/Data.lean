import ModelTemplates.Decimal.Shortest
import ModelTemplates.Text
/-! Untyped trees: what a text format says before it is read as a domain object. -/
namespace ModelTemplates

inductive Data where
  | null
  | bool (b : Bool)
  | int (n : Int)
  | float (x : Binary64)
  | text (s : String)
  | list (items : List Data)
  | record (members : List (Data × Data))
  | tagged (tag : String) (value : Data)
deriving Inhabited

namespace Data

/-- A record whose members have names. -/
def object (members : List (String × Data)) : Data :=
  .record (members.map fun m => (.text m.1, m.2))

def isNull : Data → Bool
  | .null => true
  | _ => false

/-- The first member of that name. -/
def member? (name : String) : List (Data × Data) → Option Data
  | [] => none
  | (.text k, v) :: ms => if k = name then some v else member? name ms
  | _ :: ms => member? name ms

def get? (d : Data) (name : String) : Option Data :=
  match d with
  | .record ms => member? name ms
  | _ => none

/-- Without tags around it. -/
def untagged : Data → Data
  | .tagged _ v => v.untagged
  | d => d

mutual

/-- Whether two keys of a mapping are the same. Zeros of both signs are the same key, and so are all
numbers that are not a number. -/
def sameKey : Data → Data → Bool
  | .null, .null => true
  | .bool a, .bool b => a == b
  | .int m, .int n => m == n
  | .float x, .float y => x == y || (x.isZero && y.isZero) || (x.isNaN && y.isNaN)
  | .text s, .text t => s == t
  | .list xs, .list ys => sameItems xs ys
  | .record ms, .record ns => ms.length == ns.length && sameMembers ms ns
  | .tagged s v, .tagged t w => s == t && sameKey v w
  | _, _ => false

def sameItems : List Data → List Data → Bool
  | [], [] => true
  | x :: xs, y :: ys => sameKey x y && sameItems xs ys
  | _, _ => false

/-- Every member of the first is one of the second, in any order. -/
def sameMembers : List (Data × Data) → List (Data × Data) → Bool
  | [], _ => true
  | (k, v) :: ms, ns => someMember k v ns && sameMembers ms ns

def someMember (k v : Data) : List (Data × Data) → Bool
  | [] => false
  | (l, w) :: ns => (sameKey k l && sameKey v w) || someMember k v ns

end

end Data
end ModelTemplates
