import ScalarScript.Double

/-!
# `ScalarScript.Decimal.Shortest`: the fewest digits that read back

The decimal text of a double shows the fewest digits that still
identify it. The reals that round to `m · 2 ^ q` form an interval,
from halfway to the neighbour below to halfway to the neighbour above;
its ends belong to it exactly when `m` is even. On the grid of the
multiples of `10 ^ e` only the value's two neighbours can be nearest to
it, so for one digit, two digits and so on those two are tried. The
first grid with a neighbour inside the interval wins. Of two such
neighbours the nearer is taken, and the upper one when both are
equally near.

All comparisons are exact: both sides are scaled to natural numbers.
-/

set_option autoImplicit false

namespace ScalarScript

/-- The number `digits · 10 ^ exponent`. -/
structure Decimal where
  digits : Nat
  exponent : Int
  deriving DecidableEq, Repr

namespace Decimal

/-- The decimal digits of a natural number, the first one weighing most. -/
def digitsOf (n : Nat) : List Char :=
  Nat.toDigits 10 n

/-- The decimal equal to `m · 2 ^ q`. -/
def exact (m : Nat) (q : Int) : Decimal :=
  if 0 ≤ q then ⟨m * Nat.pow 2 q.toNat, 0⟩ else ⟨m * Nat.pow 5 (-q).toNat, q⟩

/-- The least power of ten above a decimal that is not zero, as an
exponent. -/
def magnitude (d : Decimal) : Int :=
  (digitsOf d.digits).length + d.exponent

/-- The value `m · 2 ^ q` on the grid of the multiples of `10 ^ e`: the
value is `value / unit` grid steps, and one step of `m` is
`step / unit` grid steps. -/
structure OnGrid where
  value : Nat
  step : Nat
  unit : Nat
  deriving DecidableEq, Repr

/-- `m · 2 ^ q` measured in multiples of `10 ^ e`. -/
def OnGrid.measure (m : Nat) (q e : Int) : OnGrid :=
  let step := Nat.pow 2 q.toNat * Nat.pow 10 (-e).toNat
  ⟨m * step, step, Nat.pow 2 (-q).toNat * Nat.pow 10 e.toNat⟩

/-- Whether the neighbour below is only half as far away as the one
above, which holds at the powers of two above the least normal one. -/
def narrowBelow (m : Nat) (q : Int) : Bool :=
  m == Double.leadingBit && -1074 < q

/-- Whether the `d`-th point of a grid rounds to `m · 2 ^ q`. -/
def readsBack (m : Nat) (q : Int) (g : OnGrid) (d : Nat) : Bool :=
  let low := 4 * g.value - (if narrowBelow m q then g.step else 2 * g.step)
  let high := 4 * g.value + 2 * g.step
  let point := 4 * d * g.unit
  if m % 2 = 0 then low ≤ point && point ≤ high else low < point && point < high

/-- The nearest of the value's neighbours on a grid that read back. -/
def onGrid? (m : Nat) (q e : Int) : Option Decimal :=
  let g := OnGrid.measure m q e
  let d := g.value / g.unit
  match readsBack m q g d, readsBack m q g (d + 1) with
  | true, true =>
    some ⟨if 2 * (g.value - d * g.unit) < g.unit then d else d + 1, e⟩
  | true, false => some ⟨d, e⟩
  | false, true => some ⟨d + 1, e⟩
  | false, false => none

/-- The same number without trailing zeros among its digits. -/
def strip (d : Decimal) : Decimal :=
  if h : d.digits ≠ 0 ∧ d.digits % 10 = 0 then
    strip ⟨d.digits / 10, d.exponent + 1⟩
  else d
termination_by d.digits
decreasing_by exact Nat.div_lt_self (Nat.pos_of_ne_zero h.1) (by decide)

/-- The shortest decimal that rounds to `m · 2 ^ q`, which is not zero.
Seventeen digits always suffice; the exact value stands behind them. -/
def shortest (m : Nat) (q : Int) : Decimal :=
  let top := magnitude (exact m q)
  let found := (List.range 17).findSome? fun (n : Nat) => onGrid? m q (top - (n + 1))
  strip (found.getD (exact m q))

/-- A decimal written without an exponent, filled up with zeros. -/
def positional (d : Decimal) : String :=
  let ds := digitsOf d.digits
  if 0 ≤ d.exponent then
    String.ofList (ds ++ List.replicate d.exponent.toNat '0')
  else
    let places := (-d.exponent).toNat
    if places < ds.length then
      String.ofList (ds.take (ds.length - places) ++ '.' :: ds.drop (ds.length - places))
    else
      String.ofList ('0' :: '.' :: (List.replicate (places - ds.length) '0' ++ ds))

end Decimal

end ScalarScript
