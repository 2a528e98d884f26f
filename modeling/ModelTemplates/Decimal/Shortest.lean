import ModelTemplates.Decimal.Binary64
/-! The fewest decimal digits that read back as a floating point number, and their written forms. -/
namespace ModelTemplates
namespace Binary64

/-- `digits * 10 ^ exponent`. -/
structure Decimal where
  digits : Nat
  exponent : Int
deriving DecidableEq, Inhabited

/-- Twice the magnitude, and twice the distance to the ends of the interval of reals that round to
the number, over a common power of two. -/
def interval (x : Binary64) : Nat × Nat × Nat :=
  let m := x.significand
  -- Below a power of two the numbers lie twice as close.
  if x.fractionField = 0 ∧ x.exponentField > 1 then (4 * m - 1, 4 * m, 4 * m + 2)
  else (4 * m - 2, 4 * m, 4 * m + 2)

/-- The point of the decimal grid `10 ^ grid` that is nearest to the number among those that round
to it. -/
def onGrid? (x : Binary64) (grid : Int) : Option Decimal :=
  let (low, mid, high) := x.interval
  let scale := x.scale - 2
  -- Everything over the common denominator: grid points are `d * unit`, the number is `mid *
  -- weight`.
  let weight :=
    (if scale ≥ 0 then Nat.pow 2 scale.toNat else 1) * (if grid ≥ 0 then 1
      else Nat.pow 10 (-grid).toNat)
  let unit :=
    (if scale ≥ 0 then 1 else Nat.pow 2 (-scale).toNat) * (if grid ≥ 0 then
      Nat.pow 10 grid.toNat else 1)
  let closed := x.significand % 2 = 0
  let inside (d : Nat) : Bool :=
    if closed then low * weight ≤ d * unit ∧ d * unit ≤ high * weight
    else low * weight < d * unit ∧ d * unit < high * weight
  let below := mid * weight / unit
  let above := below + 1
  let lowGap := mid * weight - below * unit
  let highGap := above * unit - mid * weight
  match inside below, inside above with
  | true, true =>
    some ⟨if lowGap < highGap ∨ (lowGap = highGap ∧ below % 2 = 0) then below else above, grid⟩
  | true, false => some ⟨below, grid⟩
  | false, true => some ⟨above, grid⟩
  | false, false => none

/-- Drop the zeros at the end of the digits. -/
def trimZeros : Nat → Decimal → Decimal
  | 0, d => d
  | fuel + 1, d =>
    if d.digits ≠ 0 ∧ d.digits % 10 = 0 then trimZeros fuel ⟨d.digits / 10, d.exponent + 1⟩ else d

/-- The decimal exponent of the first digit, one more than the exponent of ten just below. -/
def leadExponent (x : Binary64) : Int :=
  let m := x.significand
  let s := x.scale
  if s ≥ 0 then digitCount (m * Nat.pow 2 s.toNat)
  else
    let whole := m / Nat.pow 2 (-s).toNat
    if whole > 0 then digitCount whole
    else (digitCount (m * Nat.pow 10 400 / Nat.pow 2 (-s).toNat) : Int) - 400

/-- The first grid with a hit, from one digit to seventeen. -/
def shortestFrom (x : Binary64) (lead : Int) : Nat → Nat → Decimal
  | 0, _ => ⟨0, 0⟩
  | fuel + 1, count =>
    match x.onGrid? (lead - count) with
    | some d => d
    | none => shortestFrom x lead fuel (count + 1)

/-- The shortest decimal of a finite number. -/
def shortest (x : Binary64) : Decimal :=
  if x.isZero then ⟨0, 0⟩ else trimZeros 20 (shortestFrom x x.leadExponent 18 1)

/-- Zeros, as text. -/
def zeros (n : Nat) : String := String.ofList (List.replicate n '0')

def digitText (n : Nat) : String := String.ofList (Nat.toDigits 10 n)

/-- All digits around a point, at least one on each side. -/
def positional (d : Decimal) : String :=
  let text := digitText d.digits
  let point := (text.length : Int) + d.exponent
  if d.exponent ≥ 0 then text ++ zeros d.exponent.toNat ++ ".0"
  else if point > 0 then
    String.ofList (text.toList.take point.toNat) ++ "." ++
      String.ofList (text.toList.drop point.toNat)
  else "0." ++ zeros (-point).toNat ++ text

/-- One digit, a point and the rest, with the exponent of ten after an `e`. -/
def scientific (d : Decimal) : String :=
  let text := digitText d.digits
  let lead := (text.length : Int) + d.exponent - 1
  match text.toList with
  | [c] => String.ofList [c] ++ "e" ++ toString lead
  | c :: cs => String.ofList [c] ++ "." ++ String.ofList cs ++ "e" ++ toString lead
  | [] => ""

def signText (x : Binary64) : String := if x.negative then "-" else ""

/-- Positional while the exponent of the first digit is from -5 to 15, else scientific. -/
def toText (x : Binary64) : String :=
  let d := x.shortest
  let point := (digitCount d.digits : Int) + d.exponent
  if x.isZero then x.signText ++ "0.0"
  else x.signText ++ (if -5 < point ∧ point ≤ 16 then positional d else scientific d)

/-- Always positional. -/
def toPlainText (x : Binary64) : String :=
  if x.isNaN then "NaN"
  else if x.isInfinite then x.signText ++ "inf"
  else x.signText ++ positional x.shortest

end Binary64
end ModelTemplates
