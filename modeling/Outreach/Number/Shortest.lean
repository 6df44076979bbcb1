import Outreach.Number.Binary64
import Outreach.Text.Basic

/-! The shortest decimal text that reads back as a given floating-point number. -/
namespace Outreach.Binary64

def reaches (num den : Nat) (p : Int) : Bool :=
  if 0 ≤ p then den * Nat.pow 10 p.toNat ≤ num else den ≤ num * Nat.pow 10 (-p).toNat

def leadingExponent (num den : Nat) : Int :=
  let p := (((Nat.log2 num : Int) - Nat.log2 den - 1) * 30103).fdiv 100000
  if reaches num den (p + 2) then p + 2
  else if reaches num den (p + 1) then p + 1
  else if reaches num den p then p
  else p - 1

/-- The two ends of the interval of reals that round to a positive number, over a common denominator,
and whether they belong to it. -/
def roundingInterval (x : Binary64) : Nat × Nat × Nat × Bool :=
  let below := if x.significand = Nat.pow 2 52 ∧ x.exponent > -1074 then 1 else 2
  let e := x.exponent - 2
  let m := 4 * x.significand
  let (num, den) := if 0 ≤ e then (Nat.pow 2 e.toNat, 1) else (1, Nat.pow 2 (-e).toNat)
  ((m - below) * num, (m + 2) * num, den, x.significand % 2 == 0)

def readsBack (x : Binary64) (c : Nat) (k : Int) : Bool :=
  let (lo, hi, den, closed) := x.roundingInterval
  let (a, b) := if 0 ≤ k then (c * Nat.pow 10 k.toNat * den, 1) else (c * den, Nat.pow 10 (-k).toNat)
  if closed then lo * b ≤ a && a ≤ hi * b else lo * b < a && a < hi * b

def atPrecision? (x : Binary64) (n : Nat) : Option (Nat × Int) :=
  let (num, den) := x.fraction
  let k := leadingExponent num den + 1 - n
  let (a, b) := if 0 ≤ k then (num, den * Nat.pow 10 k.toNat) else (num * Nat.pow 10 (-k).toNat, den)
  let c := a / b
  match x.readsBack c k, x.readsBack (c + 1) k with
  | true, true => some (roundHalfEven a b, k)
  | true, false => some (c, k)
  | false, true => some (c + 1, k)
  | false, false => none

/-- Digits and exponent of the shortest decimal of a number other than zero; seventeen digits always
read back. -/
def shortest (x : Binary64) : Nat × Int :=
  ((List.range 17).findSome? fun i => x.atPrecision? (i + 1)).getD (0, 0)

def stripZeros : List Char → List Char
  | '0' :: r => stripZeros r
  | s => s

/-- Positional notation from `0.00001` up to sixteen integer digits, always with a point; otherwise
scientific, with a sign on every exponent. -/
def text (x : Binary64) : String :=
  let sign := if x.negative then "-" else ""
  if x.isZero then sign ++ "0.0"
  else
    let (c, k) := x.shortest
    let all := Nat.toDigits 10 c
    let ds := (stripZeros all.reverse).reverse
    let k := k + (all.length - ds.length : Nat)
    let point : Int := ds.length + k
    let body : List Char :=
      if 0 ≤ k ∧ point ≤ 16 then ds ++ List.replicate k.toNat '0' ++ ['.', '0']
      else if 0 < point ∧ point ≤ 16 then ds.take point.toNat ++ '.' :: ds.drop point.toNat
      else if -5 < point ∧ point ≤ 0 then
        '0' :: '.' :: (List.replicate (-point).toNat '0' ++ ds)
      else
        let e := point - 1
        let exponent := (if e < 0 then ['-'] else ['+']) ++ Nat.toDigits 10 e.natAbs
        match ds with
        | [d] => d :: 'e' :: exponent
        | d :: r => d :: '.' :: (r ++ 'e' :: exponent)
        | [] => []
    sign ++ String.ofList body

end Outreach.Binary64
