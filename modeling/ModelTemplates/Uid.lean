/-! Identifiers of 128 bits and their hexadecimal texts. -/
namespace ModelTemplates

structure Uid where
  bits : BitVec 128
deriving DecidableEq, Inhabited

/-- Why a text is no identifier. Positions count bytes of the whole text from 0. -/
inductive UidError where
  | badCharacter (found : Char) (position : Nat)
  | badLength (length : Nat)
  | badGroupCount (count : Nat)
  | badGroupLength (group expected length : Nat)
deriving DecidableEq

def UidError.message : UidError → String
  | .badCharacter c i =>
    "invalid character: found \x60" ++ String.ofList [c] ++ "\x60 at " ++ toString i
  | .badLength n => "invalid length: found " ++ toString n
  | .badGroupCount n => "invalid group count: expected 5, found " ++ toString n
  | .badGroupLength g e n =>
    "invalid group length in group " ++ toString g ++ ": expected " ++ toString e ++
      ", found " ++ toString n

namespace Uid

def hexDigit (n : Nat) : Char :=
  if n < 10 then Char.ofNat (48 + n) else Char.ofNat (87 + n)

def hexValue? (c : Char) : Option Nat :=
  if '0' ≤ c ∧ c ≤ '9' then some (c.toNat - 48)
  else if 'a' ≤ c ∧ c ≤ 'f' then some (c.toNat - 87)
  else if 'A' ≤ c ∧ c ≤ 'F' then some (c.toNat - 55)
  else none

/-- The last `count` hexadecimal digits of a number. -/
def hexDigits : Nat → Nat → List Char
  | 0, _ => []
  | count + 1, n => hexDigits count (n / 16) ++ [hexDigit (n % 16)]

def ofHex? (cs : List Char) : Option Nat :=
  cs.foldlM (fun n c => (hexValue? c).map (16 * n + ·)) 0

/-- Five groups of 8, 4, 4, 4 and 12 digits. -/
def hyphenate (cs : List Char) : List Char :=
  cs.take 8 ++ '-' :: ((cs.drop 8).take 4 ++ '-' :: ((cs.drop 12).take 4 ++ '-' ::
    ((cs.drop 16).take 4 ++ '-' :: cs.drop 20)))

def text (u : Uid) : String := String.ofList (hyphenate (hexDigits 32 u.bits.toNat))

/-- The digits of five well-formed groups. -/
def ofHyphenated? (cs : List Char) : Option Uid :=
  if cs.length = 36 ∧ cs[8]? = some '-' ∧ cs[13]? = some '-' ∧ cs[18]? = some '-' ∧
    cs[23]? = some '-' then
    (ofHex? (cs.take 8 ++ (cs.drop 9).take 4 ++ (cs.drop 14).take 4 ++ (cs.drop 19).take 4 ++
      cs.drop 24)).map fun n => ⟨BitVec.ofNat 128 n⟩
  else none

def urnPrefix : List Char := "urn:uuid:".toList

/-- Without the braces or the scheme around it: the inner text, its position, and whether it was
bare. -/
def unwrap (cs : List Char) : List Char × Nat × Bool :=
  match cs, cs.getLast? with
  | '{' :: rest, some '}' => if rest.isEmpty then (cs, 0, true) else (rest.dropLast, 1, false)
  | _, _ =>
    if urnPrefix.isPrefixOf cs then (cs.drop urnPrefix.length, urnPrefix.length, false)
    else (cs, 0, true)

def byteLength (cs : List Char) : Nat := cs.foldl (fun n c => n + c.utf8Size) 0

/-- The first character that is neither a digit nor a hyphen, with its byte position. -/
def badCharacter? (position : Nat) : List Char → Option (Char × Nat)
  | [] => none
  | c :: cs =>
    if c = '-' ∨ (hexValue? c).isSome then badCharacter? (position + c.utf8Size) cs
    else some (c, position)

/-- Positions of the hyphens. -/
def hyphens (cs : List Char) : List Nat :=
  cs.zipIdx.filterMap fun (c, i) => if c = '-' then some i else none

/-- What is wrong with a text that was refused. -/
def diagnose (cs : List Char) : UidError :=
  let (inner, offset, bare) := unwrap cs
  match badCharacter? offset inner with
  | some (c, i) => .badCharacter c i
  | none =>
    match hyphens inner with
    | [] => if bare then .badLength (byteLength cs) else .badGroupCount 1
    | [a, b, c, d] =>
      if a ≠ 8 then .badGroupLength 0 8 a
      else if b ≠ 13 then .badGroupLength 1 4 (b - 9)
      else if c ≠ 18 then .badGroupLength 2 4 (c - 14)
      else if d ≠ 23 then .badGroupLength 3 4 (d - 19)
      else .badGroupLength 4 12 (byteLength cs - 24)
    | hs => .badGroupCount (hs.length + 1)

/-- Hyphenated, 32 bare digits, hyphenated in braces, or hyphenated after `urn:uuid:`. -/
def ofText (s : String) : Except UidError Uid :=
  let cs := s.toList
  let found :=
    if cs.length = 32 then (ofHex? cs).map fun n => Uid.mk (BitVec.ofNat 128 n)
    else
      let (inner, _, bare) := unwrap cs
      if bare then ofHyphenated? cs else ofHyphenated? inner
  match found with
  | some u => .ok u
  | none => .error (diagnose cs)

end Uid
end ModelTemplates
