/-! Binary floating point numbers of 64 bits, read from exact decimals. -/
namespace ModelTemplates

/-- A number by its bit pattern: sign, 11 bits of exponent, 52 bits of fraction. -/
structure Binary64 where
  bits : UInt64
deriving DecidableEq, Inhabited

namespace Binary64

def negative (x : Binary64) : Bool := x.bits.toNat ≥ Nat.pow 2 63

def exponentField (x : Binary64) : Nat := x.bits.toNat / Nat.pow 2 52 % 2048

def fractionField (x : Binary64) : Nat := x.bits.toNat % Nat.pow 2 52

def isNaN (x : Binary64) : Bool := x.exponentField == 2047 && x.fractionField != 0

def isInfinite (x : Binary64) : Bool := x.exponentField == 2047 && x.fractionField == 0

def isZero (x : Binary64) : Bool := x.exponentField == 0 && x.fractionField == 0

/-- The magnitude of a finite number is `significand * 2 ^ scale`. -/
def significand (x : Binary64) : Nat :=
  if x.exponentField = 0 then x.fractionField else x.fractionField + Nat.pow 2 52

def scale (x : Binary64) : Int :=
  if x.exponentField = 0 then -1074 else (x.exponentField : Int) - 1075

def ofFields (negative : Bool) (exponent fraction : Nat) : Binary64 :=
  ⟨UInt64.ofNat ((if negative then Nat.pow 2 63 else 0) + exponent * Nat.pow 2 52 + fraction)⟩

def infinity (negative : Bool) : Binary64 := ofFields negative 2047 0

def nan : Binary64 := ofFields false 2047 (Nat.pow 2 51)

def zero (negative : Bool) : Binary64 := ofFields negative 0 0

/-- The quotient to the nearest natural number, a tie to the even one. -/
def roundHalfEven (num den : Nat) : Nat :=
  let q := num / den
  let r := num % den
  if 2 * r < den then q else if 2 * r > den then q + 1 else q + q % 2

/-- `num / den / 2 ^ scale`, to the nearest natural number. -/
def scaledQuotient (num den : Nat) (scale : Int) : Nat :=
  if scale ≥ 0 then roundHalfEven num (den * Nat.pow 2 scale.toNat)
  else roundHalfEven (num * Nat.pow 2 (-scale).toNat) den

/-- The number nearest to `num / den`, infinity past the largest. -/
def ofRatio (negative : Bool) (num den : Nat) : Binary64 :=
  if num = 0 then zero negative
  else
    let guess : Int := (num.log2 : Int) - den.log2 - 52
    -- The quotient of the guessed scale has 52 or 53 bits; one bit less than 53 asks for a finer
    -- scale.
    let exact := if guess ≥ 0 then num / (den * Nat.pow 2 guess.toNat)
      else num * Nat.pow 2 (-guess).toNat / den
    let scale := max (if exact < Nat.pow 2 52 then guess - 1 else guess) (-1074)
    let q := scaledQuotient num den scale
    let (q, scale) := if q = Nat.pow 2 53 then (Nat.pow 2 52, scale + 1) else (q, scale)
    if scale > 971 then infinity negative
    else if q < Nat.pow 2 52 then ofFields negative 0 q
    else ofFields negative (scale + 1075).toNat (q - Nat.pow 2 52)

def digitCount (n : Nat) : Nat := (Nat.toDigits 10 n).length

/-- The number nearest to `digits * 10 ^ exponent`. -/
def ofDecimal (negative : Bool) (digits : Nat) (exponent : Int) : Binary64 :=
  let magnitude := (digitCount digits : Int) + exponent
  if digits = 0 ∨ magnitude < -330 then zero negative
  else if magnitude > 310 then infinity negative
  else if exponent ≥ 0 then ofRatio negative (digits * Nat.pow 10 exponent.toNat) 1
  else ofRatio negative digits (Nat.pow 10 (-exponent).toNat)

def ofInt (n : Int) : Binary64 := ofRatio (n < 0) n.natAbs 1

end Binary64
end ModelTemplates
