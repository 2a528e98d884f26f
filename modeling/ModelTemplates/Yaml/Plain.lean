import ModelTemplates.Data
import ModelTemplates.Yaml.ScalarText
/-! What an unquoted scalar stands for: null, a truth value, a number, or the text itself. -/
namespace ModelTemplates
namespace Yaml
namespace Plain

def isNull (cs : List Char) : Bool :=
  cs = ['~'] || cs = "null".toList || cs = "Null".toList || cs = "NULL".toList

def truth? (s : String) : Option Bool :=
  if s = "true" || s = "True" || s = "TRUE" then some true
  else if s = "false" || s = "False" || s = "FALSE" then some false
  else none

def digitValue? (radix : Nat) (c : Char) : Option Nat :=
  match hexValue? c with
  | some n => if n < radix then some n else none
  | none => none

/-- At least one digit, and only digits. -/
def natural? (radix : Nat) : List Char → Option Nat
  | [] => none
  | cs => cs.foldlM (fun n c => (digitValue? radix c).map (radix * n + ·)) 0

/-- Zeros before other digits make a text. -/
def hasLeadingZero (cs : List Char) : Bool :=
  let digits := match cs with
    | '-' :: rest => rest
    | '+' :: rest => rest
    | cs => cs
  match digits with
  | '0' :: rest => !rest.isEmpty && rest.all isDigit
  | _ => false

/-- Digits of base 16, 8 or 2 after `0x`, `0o` or `0b`, or else of base 10. -/
def magnitude? : List Char → Option Nat
  | '0' :: 'x' :: rest => natural? 16 rest
  | '0' :: 'o' :: rest => natural? 8 rest
  | '0' :: 'b' :: rest => natural? 2 rest
  | cs => if hasLeadingZero cs then none else natural? 10 cs

/-- An integer with an optional sign. -/
def integer? : List Char → Option Int
  | '+' :: cs => (magnitude? cs).map Int.ofNat
  | '-' :: cs => (magnitude? cs).map fun n => -(n : Int)
  | cs => (magnitude? cs).map Int.ofNat

def natOfDigits (cs : List Char) : Nat := cs.foldl (fun n c => 10 * n + (c.toNat - 48)) 0

/-- Digits around an optional point, at least one, and an optional exponent. -/
def decimal? (negative : Bool) (cs : List Char) : Option Binary64 :=
  let whole := cs.takeWhile isDigit
  let rest := cs.drop whole.length
  let (places, rest) := match rest with
    | '.' :: rest => (rest.takeWhile isDigit, rest.dropWhile isDigit)
    | rest => ([], rest)
  if whole.isEmpty && places.isEmpty then none
  else
    let exponent : Option Int := match rest with
      | [] => some 0
      | c :: rest =>
        if c = 'e' || c = 'E' then
          match rest with
          | '-' :: rest =>
            if rest.all isDigit && !rest.isEmpty then some (-(natOfDigits rest : Int)) else none
          | '+' :: rest =>
            if rest.all isDigit && !rest.isEmpty then some (natOfDigits rest : Int) else none
          | rest =>
            if rest.all isDigit && !rest.isEmpty then some (natOfDigits rest : Int) else none
        else none
    exponent.bind fun e =>
      let x :=
        Binary64.ofDecimal negative (natOfDigits (whole ++ places)) (e - (places.length : Int))
      if x.isInfinite then none else some x

/-- A finite decimal, an infinity or the number that is none. -/
def float? (cs : List Char) : Option Binary64 :=
  let (signed, negative, cs') := match cs with
    | '+' :: rest => (true, false, rest)
    | '-' :: rest => (true, true, rest)
    | cs => (false, false, cs)
  let s := String.ofList cs'
  if s = ".inf" || s = ".Inf" || s = ".INF" then some (.infinity negative)
  else if !signed && (s = ".nan" || s = ".NaN" || s = ".NAN") then some .nan
  else decimal? negative cs'

/-- Integers of at most 128 bits. -/
def isWide (n : Int) : Bool := -(Nat.pow 2 127 : Int) ≤ n && n < (Nat.pow 2 128 : Int)

/-- What an unquoted scalar stands for. -/
def read (s : String) : Data :=
  let cs := s.toList
  if cs.isEmpty || isNull cs then .null
  else match truth? s with
    | some b => .bool b
    | none =>
      match (integer? cs).filter isWide with
      | some n => .int n
      | none =>
        if hasLeadingZero cs then .text s
        else match float? cs with
          | some x => .float x
          | none => .text s

end Plain
end Yaml
end ModelTemplates
