import IntentRouter.Json.Numeral

/-!
# Binary floating-point numbers

A finite double-precision number is a sign and a whole number of quanta, where
a quantum is the smallest positive double, `2^-1074`. Every finite double is
such a number, so sums of exact naturals decide everything: rounding keeps 53
significant bits and sends a tie to the even neighbour.

A number literal is read in two steps: its leading digits, as many as fit 64
bits, are rounded to a double, and that double is multiplied or divided by a
power of ten, itself a double. Digits that do not fit are dropped.
-/

namespace IntentRouter.Json

/-- A finite double-precision number. -/
structure Double where
  /-- The sign; a zero has one too. -/
  negative : Bool
  /-- The magnitude as a multiple of `2^-1074`. -/
  quanta : Nat
deriving DecidableEq, Repr

namespace Double

/-- How many quanta make one. -/
def one : Nat := Nat.pow 2 1074

/-- The significant bits of a double. -/
def precision : Nat := 53

/-- The first magnitude that is too large for a double, in quanta. -/
def beyond : Nat := Nat.pow 2 (1024 + 1074)

/-- The number of binary digits; zero has none. -/
def bitLength (n : Nat) : Nat := if n = 0 then 0 else Nat.log2 n + 1

/-- The distance between doubles near a magnitude, as a power of two. -/
def scale (quanta : Nat) : Nat := bitLength quanta - precision

/-- The double nearest to a quotient of quanta, a tie going to the even significand. -/
def round (num den : Nat) : Nat :=
  let whole := num / den
  let step := Nat.pow 2 (scale whole)
  let significand := whole / step
  let excess := 2 * ((whole % step) * den + num % den)
  let unit := step * den
  if excess < unit ∨ (excess = unit ∧ significand % 2 = 0) then significand * step
  else (significand + 1) * step

/-- The magnitude of a natural number. -/
def ofNat (n : Nat) : Nat := round (n * one) 1

/-- The product of two magnitudes. -/
def mul (a b : Nat) : Nat := round (a * b) one

/-- The quotient of two magnitudes. -/
def div (a b : Nat) : Nat := round (a * one) b

/-- The largest power of ten that is a finite double. -/
def largestPower : Nat := 308

/-- The magnitude of a power of ten. -/
def power (e : Nat) : Nat := ofNat (Nat.pow 10 e)

/-- A magnitude times a power of ten; `none` when the product is too large. -/
def scaleUp? (a e : Nat) : Option Nat :=
  if e ≤ largestPower then
    let product := mul a (power e)
    if product < beyond then some product else none
  else if a = 0 then some 0 else none

/-- A magnitude divided by a power of ten, in steps of the largest power. -/
def scaleDown (a e : Nat) : Nat :=
  if e ≤ largestPower then div a (power e)
  else if a = 0 then 0
  else scaleDown (div a (power largestPower)) (e - largestPower)
termination_by e
decreasing_by simp only [largestPower] at *; omega

/-- Appends digits to a number while it fits 64 bits. Gives the number and the
digits that were left out. -/
def absorb (n : Nat) : List Char → Nat × List Char
  | [] => (n, [])
  | c :: rest =>
    let next := 10 * n + Numeral.digitValue c
    if next ≤ Numeral.largest then absorb next rest else (n, c :: rest)

/-- The value of an exponent, none being zero. -/
def exponentValue : Option Exponent → Int
  | none => 0
  | some e =>
    let value := (Numeral.digitsValue e.digits : Int)
    if e.sign = some false then -value else value

/-- The double that a literal denotes; `none` when it is too large. -/
def ofNumeral? (n : Numeral) : Option Double :=
  let (leading, dropped) := absorb 0 n.whole
  let decimals := n.fraction.getD []
  let (digits, unread) := absorb leading decimals
  let exponent : Int := dropped.length - (decimals.length - unread.length : Nat)
    + exponentValue n.exponent
  let magnitude :=
    if 0 ≤ exponent then scaleUp? (ofNat digits) exponent.toNat
    else some (scaleDown (ofNat digits) exponent.natAbs)
  magnitude.map fun quanta => ⟨n.negative, quanta⟩

/-- Numeric equality: the two zeros are equal. -/
def same (a b : Double) : Bool := a = b || (a.quanta = 0 && b.quanta = 0)

end Double

end IntentRouter.Json
