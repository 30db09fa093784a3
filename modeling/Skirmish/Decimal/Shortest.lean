/-!
# The shortest decimal of a double

A finite double is `significand * 2 ^ exponent`. The reals that round to it form an interval
around it, whose ends belong to it when the significand is even. `Dyadic.shortest` gives the
decimal with the fewest digits in that interval, and of those the one nearest to the double; a
tie goes up. It walks down the powers of ten and stops at the first whose multiples meet the
interval, all in whole numbers.
-/

namespace Skirmish.Decimal

/-- A finite non-negative double, `significand * 2 ^ exponent`. -/
structure Dyadic where
  significand : Nat
  exponent : Int
  /-- The next double below is only half as far away as the next one above. -/
  narrowBelow : Bool
  deriving Repr, DecidableEq

/-- A decimal, `digits * 10 ^ exponent`. -/
structure Scaled where
  digits : Nat
  exponent : Int
  deriving Repr, DecidableEq

namespace Dyadic

/-- Takes a finite double apart, dropping its sign. -/
def ofFloat (x : Float) : Dyadic :=
  let bits := x.toBits
  let e := ((bits >>> 52) &&& 0x7FF).toNat
  let f := (bits &&& 0xFFFFFFFFFFFFF).toNat
  if e = 0 then ⟨f, -1074, false⟩
  else ⟨0x10000000000000 + f, (e : Int) - 1075, f = 0 ∧ 1 < e⟩

/-- Numerator of `n * 2 ^ e` as a multiple of `10 ^ g`, over `denominator e g`. -/
def numerator (n : Nat) (e g : Int) : Nat := n * Nat.pow 2 e.toNat * Nat.pow 10 (-g).toNat

/-- Denominator that goes with `numerator`. -/
def denominator (e g : Int) : Nat := Nat.pow 2 (-e).toNat * Nat.pow 10 g.toNat

/-- Whether `a * 10 ^ g` rounds to `x`. Quarters of the last place hold both ends exactly. -/
def contains (x : Dyadic) (a : Nat) (g : Int) : Bool :=
  let low := if x.narrowBelow then 4 * x.significand - 1 else 4 * x.significand - 2
  let high := 4 * x.significand + 2
  let at_ := a * denominator (x.exponent - 2) g
  let l := numerator low (x.exponent - 2) g
  let h := numerator high (x.exponent - 2) g
  if x.significand % 2 = 0 then l ≤ at_ && at_ ≤ h else l < at_ && at_ < h

/-- The multiples of `10 ^ g` on either side of `x`, and whether the upper one is at least as
near as the lower one. -/
def neighbours (x : Dyadic) (g : Int) : Nat × Nat × Bool :=
  let n := numerator x.significand x.exponent g
  let d := denominator x.exponent g
  (n / d, n / d + 1, d ≤ 2 * (n % d))

/-- The first of the grids `g, g - 1, …` that meets the interval of `x`; the last of `steps`
grids is taken as it comes. -/
def onGrid (x : Dyadic) : (steps : Nat) → (g : Int) → Scaled
  | 0, g =>
    let (a, b, up) := x.neighbours g
    ⟨if up then b else a, g⟩
  | steps + 1, g =>
    let (a, b, up) := x.neighbours g
    let below := 0 < a && x.contains a g
    let above := x.contains b g
    if above && (up || !below) then ⟨b, g⟩
    else if below then ⟨a, g⟩
    else x.onGrid steps (g - 1)

/-- A power of ten above every decimal that rounds to `x`: two binary places of slack, and
`0.30103` for the logarithm of two. -/
def topGrid (x : Dyadic) : Int :=
  ((x.significand.log2 + x.exponent + 2) * 30103).fdiv 100000 + 1

/-- The shortest decimal that rounds to `x`. Seventeen digits always suffice. -/
def shortest (x : Dyadic) : Scaled :=
  if x.significand = 0 then ⟨0, 0⟩ else x.onGrid 20 x.topGrid

end Dyadic

end Skirmish.Decimal
