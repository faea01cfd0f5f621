import SessionRelay.Number.Binary64

/-!
The shortest decimal that reads back as a given number. The reals that round to a number form an
interval, which includes its ends iff the significand is even. Decimal grids are tried from coarse
to fine, and on each only the number's two neighbours: if any point of a grid lies in the interval,
one of them does.
-/

namespace SessionRelay

/-- A positive decimal number, `digits · 10 ^ power`. -/
structure Decimal where
  digits : Nat
  power : Int
  deriving DecidableEq, Repr

/-- Which of two equally near neighbours is taken. -/
inductive TieRule where
  | toEven
  | upward
  deriving DecidableEq, Repr

namespace Shortest

/-- The interval of a positive finite number over one denominator: its lower end, the number itself
and its upper end. Below a power of two the neighbours are half as far apart. -/
structure Interval where
  low : Nat
  value : Nat
  high : Nat
  den : Nat
  closed : Bool
  deriving Repr

def interval (x : Binary64) : Interval :=
  let m := x.significand
  let narrow := m = 1 <<< 52 ∧ x.exponent ≠ -1074
  let unit (quarters : Nat) := (Binary64.scale quarters 1 (x.exponent - 2)).1
  { low := unit (if narrow then 4 * m - 1 else 4 * m - 2)
    value := unit (4 * m)
    high := unit (4 * m + 2)
    den := (Binary64.scale 1 1 (x.exponent - 2)).2
    closed := m % 2 = 0 }

/-- Does `point / den` lie in the interval? -/
def Interval.holds (i : Interval) (point : Nat) : Bool :=
  if i.closed then i.low ≤ point && point ≤ i.high else i.low < point && point < i.high

/-- The better of a number's two neighbours on the grid of multiples of `10 ^ power`. -/
def Interval.onGrid? (i : Interval) (tie : TieRule) (power : Int) : Option Nat :=
  let value := if power < 0 then i.value * Nat.pow 10 (-power).toNat else i.value
  let scaled : Interval :=
    if power < 0 then
      let s := Nat.pow 10 (-power).toNat
      ⟨i.low * s, i.value * s, i.high * s, i.den, i.closed⟩
    else i
  let step := if power < 0 then i.den else i.den * Nat.pow 10 power.toNat
  let below := value / step
  match scaled.holds (below * step), scaled.holds ((below + 1) * step) with
  | false, false => none
  | true, false => some below
  | false, true => some (below + 1)
  | true, true =>
    let twice := 2 * (value % step)
    if twice < step then some below
    else if step < twice then some (below + 1)
    else if tie = .toEven ∧ below % 2 = 0 then some below
    else some (below + 1)

/-- Tries at most `grids` grids, each ten times finer than the one before. -/
def Interval.search (i : Interval) (tie : TieRule) : Nat → Int → Decimal
  | 0, power => ⟨i.value, power⟩
  | grids + 1, power =>
    match i.onGrid? tie power with
    | some digits => ⟨digits, power⟩
    | none => i.search tie grids (power - 1)

/-- A power of ten not below a positive finite number. -/
def start (x : Binary64) : Int :=
  let two : Int := (x.significand.log2 : Int) + 1 + x.exponent
  if 0 ≤ two then two * 30103 / 100000 + 1 else -(-two * 30102 / 100000) + 1

/-- The shortest decimal for a positive finite number: seventeen digits always suffice, and the
first grids may be too coarse to hold any. -/
def decimal (tie : TieRule) (x : Binary64) : Decimal :=
  (interval x).search tie 24 (start x)

end Shortest

/-- How many digits a decimal has. -/
def Decimal.count (d : Decimal) : Nat :=
  (Nat.toDigits 10 d.digits).length

/-- The power of ten of the first digit. -/
def Decimal.leading (d : Decimal) : Int :=
  d.power + (d.count : Int) - 1

end SessionRelay
