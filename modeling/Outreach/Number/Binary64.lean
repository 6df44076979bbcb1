/-! Finite 64-bit binary floating-point numbers as exact dyadic values, rounded to nearest with ties to
the even significand. -/
namespace Outreach

/-- The number `± significand · 2 ^ exponent`. Normal numbers have `2 ^ 52 ≤ significand < 2 ^ 53`;
smaller significands occur at exponent `-1074` only. -/
structure Binary64 where
  negative : Bool
  significand : Nat
  exponent : Int
  deriving DecidableEq, Repr

namespace Binary64

def zero : Binary64 := ⟨false, 0, -1074⟩

def neg (x : Binary64) : Binary64 := { x with negative := !x.negative }

def isZero (x : Binary64) : Bool := x.significand == 0

def inUnits (num den : Nat) (e : Int) : Nat × Nat :=
  if 0 ≤ e then (num, den * Nat.pow 2 e.toNat) else (num * Nat.pow 2 (-e).toNat, den)

def roundHalfEven (a b : Nat) : Nat :=
  let q := a / b
  let r := 2 * (a % b)
  if r > b || (r == b && q % 2 == 1) then q + 1 else q

def ofFraction (num den : Nat) : Option Binary64 :=
  if num = 0 then some zero
  else
    let e₀ : Int := (Nat.log2 num : Int) - Nat.log2 den - 53
    let (a₀, b₀) := inUnits num den e₀
    let e := max (-1074) (if Nat.pow 2 53 ≤ a₀ / b₀ then e₀ + 1 else e₀)
    let (a, b) := inUnits num den e
    let q := roundHalfEven a b
    let (m, e) := if q = Nat.pow 2 53 then (Nat.pow 2 52, e + 1) else (q, e)
    if e ≤ 971 then some ⟨false, m, e⟩ else none

def ofNat (n : Nat) : Option Binary64 := ofFraction n 1

def fraction (x : Binary64) : Nat × Nat :=
  if 0 ≤ x.exponent then (x.significand * Nat.pow 2 x.exponent.toNat, 1)
  else (x.significand, Nat.pow 2 (-x.exponent).toNat)

def mul (x y : Binary64) : Option Binary64 :=
  let (a, b) := x.fraction
  let (c, d) := y.fraction
  (ofFraction (a * c) (b * d)).map fun z => { z with negative := x.negative != y.negative }

def div (x y : Binary64) : Option Binary64 :=
  let (a, b) := x.fraction
  let (c, d) := y.fraction
  (ofFraction (a * d) (b * c)).map fun z => { z with negative := x.negative != y.negative }

def pow10 (n : Nat) : Option Binary64 := ofFraction (Nat.pow 10 n) 1

/-- `x · 10 ^ e` by one multiplication or division with a rounded power of ten; an exponent below the
table of powers is first brought up in steps of 308. None on overflow. -/
def scale : Nat → Binary64 → Int → Option Binary64
  | 0, _, _ => some zero
  | steps + 1, x, e =>
    if e.natAbs ≤ 308 then do
      let p ← pow10 e.natAbs
      if 0 ≤ e then x.mul p else x.div p
    else if x.isZero then some x
    else if 0 ≤ e then none
    else do
      let p ← pow10 308
      scale steps (← x.div p) (e + 308)

/-- The reading of `significand · 10 ^ e` for a significand of at most 64 bits. Two steps of 308 bring any
such number to zero, so three are enough. -/
def ofDecimal (significand : Nat) (e : Int) : Option Binary64 := do
  scale 4 (← ofNat significand) e

end Binary64
end Outreach
