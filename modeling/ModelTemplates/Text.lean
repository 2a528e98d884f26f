import ModelTemplates.Text.Unprintable
/-! Texts inside texts, texts without the white space at their ends, and texts between double
quotes, as messages show them. -/
namespace ModelTemplates

namespace Text

/-- Whether `part` stands somewhere in a text. -/
def includes (part : List Char) : List Char → Bool
  | [] => part.isEmpty
  | c :: cs => part.isPrefixOf (c :: cs) || includes part cs

theorem includes_iff {part cs : List Char} : includes part cs = true ↔ part <:+: cs := by
  induction cs with
  | nil => simp [includes]
  | cons c cs ih => simp [includes, List.infix_cons_iff, ih]

/-- The standard's property `White_Space`. -/
def isBlank (c : Char) : Bool :=
  let n := c.toNat
  (9 ≤ n && n ≤ 13) || n == 0x20 || n == 0x85 || n == 0xA0 || n == 0x1680 ||
    (0x2000 ≤ n && n ≤ 0x200A) || n == 0x2028 || n == 0x2029 || n == 0x202F || n == 0x205F ||
    n == 0x3000

def trimLeft (cs : List Char) : List Char := cs.dropWhile isBlank

/-- Nothing but white space. -/
def allBlank (s : String) : Bool := s.toList.all isBlank

def hexText (n : Nat) : String := String.ofList (Nat.toDigits 16 n)

/-- Quotes, backslashes and control characters are escaped, and so is what has no form of its
own. -/
def quotedChar (c : Char) : String :=
  if c = '"' then "\\\""
  else if c = '\\' then "\\\\"
  else if c = '\n' then "\\n"
  else if c = '\r' then "\\r"
  else if c = '\t' then "\\t"
  else if c = '\x00' then "\\0"
  else if isExtend c || isUnprintable c then "\\u\x7b" ++ hexText c.toNat ++ "\x7d"
  else String.ofList [c]

def quoted (s : String) : String :=
  "\"" ++ String.join (s.toList.map quotedChar) ++ "\""

end Text

end ModelTemplates
