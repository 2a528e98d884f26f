/-! Lengths of time in nanoseconds, with a longest one. -/
namespace ModelTemplates

/-- Seconds are counted in 64 bits. -/
structure Duration where
  nanos : Nat
  bounded : nanos < 18446744073709551616000000000
deriving DecidableEq

namespace Duration

def nanosPerSecond : Nat := 1000000000

def zero : Duration := ⟨0, by decide⟩

instance : Inhabited Duration := ⟨zero⟩

/-- That many nanoseconds, or the longest duration. -/
def ofNanos (n : Nat) : Duration := ⟨min n 18446744073709551615999999999, by omega⟩

def longest : Duration := ofNanos 18446744073709551615999999999

def ofSecs (n : UInt64) : Duration := ⟨n.toNat * 1000000000, by have := n.toNat_lt; omega⟩

def ofMillis (n : UInt64) : Duration := ⟨n.toNat * 1000000, by have := n.toNat_lt; omega⟩

def secs (d : Duration) : Nat := d.nanos / nanosPerSecond

def subsecNanos (d : Duration) : Nat := d.nanos % nanosPerSecond

instance : LE Duration := ⟨fun a b => a.nanos ≤ b.nanos⟩

instance : DecidableLE Duration := fun a b => inferInstanceAs (Decidable (a.nanos ≤ b.nanos))

instance : Min Duration := ⟨fun a b => if a ≤ b then a else b⟩

/-- A product past the longest duration is the longest duration. -/
def saturatingMul (d : Duration) (n : Nat) : Duration := ofNanos (d.nanos * n)

/-- `part / 10 ^ places` after a point, without zeros at the end. -/
def fractionText (part places : Nat) : String :=
  let digits := Nat.toDigits 10 part
  let padded := List.replicate (places - digits.length) '0' ++ digits
  let kept := (padded.reverse.dropWhile (· = '0')).reverse
  if kept.isEmpty then "" else "." ++ String.ofList kept

/-- In the largest unit of which there is at least one. -/
def text (d : Duration) : String :=
  let inUnit (places : Nat) (unit : String) : String :=
    toString (d.nanos / Nat.pow 10 places) ++
      fractionText (d.nanos % Nat.pow 10 places) places ++ unit
  if d.nanos ≥ 1000000000 then inUnit 9 "s"
  else if d.nanos ≥ 1000000 then inUnit 6 "ms"
  else if d.nanos ≥ 1000 then inUnit 3 "µs"
  else inUnit 0 "ns"

end Duration
end ModelTemplates
