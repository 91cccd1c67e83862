import IntentRouter.Json.Double

/-!
# Shortest decimal text of a double

A double is written with the fewest digits that no other double is nearer to:
of the decimals with that many digits inside the interval of reals that round
to the double, the one nearest to it. The ends of the interval belong to it
when the significand is even. The notation is positional between `10^-5` and
`10^16`, with at least one digit on each side of the point, and scientific
outside.
-/

namespace IntentRouter.Json.Double

/-- The reals that round to a magnitude. All bounds are in quarters of a quantum. -/
structure Interval where
  /-- The lower end. -/
  low : Nat
  /-- The upper end. -/
  high : Nat
  /-- Whether the ends round to the magnitude as well. -/
  closed : Bool

/-- The interval of a positive magnitude. Below a power of two the doubles are
twice as dense as above it. -/
def interval (quanta : Nat) : Interval :=
  let step := Nat.pow 2 (scale quanta)
  let significand := quanta / step
  let below := if significand = Nat.pow 2 (precision - 1) ∧ 1 < step then step / 2 else step
  ⟨4 * quanta - 2 * below, 4 * quanta + 2 * step, significand % 2 = 0⟩

/-- A value lies in the interval. Value and bounds have the denominator `den`. -/
def Interval.contains (i : Interval) (value mult den : Nat) : Bool :=
  let scaled := value * den
  if i.closed then i.low * mult ≤ scaled && scaled ≤ i.high * mult
  else i.low * mult < scaled && scaled < i.high * mult

/-- The number of decimal digits. -/
def digitCount (n : Nat) : Nat := (Nat.toDigits 10 n).length

/-- The exponent of the leading decimal digit of a positive magnitude. -/
def leadingExponent (quanta : Nat) : Int :=
  if one ≤ quanta then (digitCount (quanta / one) - 1 : Nat)
  else -(digitCount ((one + quanta - 1) / quanta - 1) : Int)

/-- The decimal nearest to a magnitude among the multiples of `10^e` that round
to it, a tie going to the even multiple; `none` when no multiple does. -/
def onGrid? (quanta : Nat) (e : Int) : Option Nat :=
  let mult := Nat.pow 10 (-e).toNat
  let den := 4 * one * Nat.pow 10 e.toNat
  let num := 4 * quanta * mult
  let i := interval quanta
  let lower := num / den
  let upper := lower + 1
  match i.contains lower mult den, i.contains upper mult den with
  | true, true =>
    let (below, above) := (num - lower * den, upper * den - num)
    if below < above ∨ (below = above ∧ lower % 2 = 0) then some lower else some upper
  | true, false => some lower
  | false, true => some upper
  | false, false => none

/-- The decimal of the coarsest grid that meets the interval, from the grid `10^e`
downwards. Seventeen digits always suffice. -/
def coarsest (quanta : Nat) : Nat → Int → Nat × Int
  | 0, e => (4 * quanta * Nat.pow 10 (-e).toNat / (4 * one * Nat.pow 10 e.toNat), e)
  | more + 1, e =>
    match onGrid? quanta e with
    | some d => (d, e)
    | none => coarsest quanta more (e - 1)

/-- The significant digits of a positive magnitude, without zeros at the end, and
the exponent of the first one. -/
def shortest (quanta : Nat) : List Char × Int :=
  let (d, e) := coarsest quanta 17 (leadingExponent quanta)
  let digits := Nat.toDigits 10 d
  ((digits.reverse.dropWhile (· = '0')).reverse, e + (digits.length - 1 : Nat))

/-- A run of zeros. -/
def zeros (n : Nat) : List Char := List.replicate n '0'

/-- Digits with the point after the digit of exponent zero. -/
def positional (digits : List Char) (e : Int) : List Char :=
  if e < 0 then ['0', '.'] ++ zeros (e.natAbs - 1) ++ digits
  else
    let whole := e.toNat + 1
    let after := digits.drop whole
    digits.take whole ++ zeros (whole - digits.length) ++ '.' :: (if after = [] then ['0'] else after)

/-- Digits with the point after the first one, and a signed exponent. -/
def scientific (digits : List Char) (e : Int) : List Char :=
  let after := digits.drop 1
  digits.take 1 ++ (if after = [] then [] else '.' :: after) ++
    ['e', if e < 0 then '-' else '+'] ++ Nat.toDigits 10 e.natAbs

/-- The text of a double. -/
def text (x : Double) : String :=
  let magnitude :=
    if x.quanta = 0 then ['0', '.', '0']
    else
      let (digits, e) := shortest x.quanta
      if -5 ≤ e ∧ e < 16 then positional digits e else scientific digits e
  String.ofList ((if x.negative then ['-'] else []) ++ magnitude)

end IntentRouter.Json.Double
