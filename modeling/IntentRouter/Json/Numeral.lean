/-!
# Number literals

A number is kept as it is written: sign, whole digits, fraction digits and
exponent. Whether it denotes an exact integer or a binary floating-point
number is decided later, by its spelling and its size.
-/

namespace IntentRouter.Json

/-- The power of ten written after a number. -/
structure Exponent where
  /-- The sign as written, `true` for a plus; `none` when there is no sign. -/
  sign : Option Bool
  /-- At least one decimal digit. -/
  digits : List Char
deriving DecidableEq, Repr

/-- Writes the exponent, with a small mark and the sign it was read with. -/
def Exponent.chars (e : Exponent) : List Char :=
  'e' :: (match e.sign with
    | some true => ['+']
    | some false => ['-']
    | none => []) ++ e.digits

/-- A number as it is written. -/
structure Numeral where
  /-- A minus sign stands in front. -/
  negative : Bool
  /-- The digits before the point: `0` alone, or digits that do not start with it. -/
  whole : List Char
  /-- The digits after the point; `none` when there is no point. -/
  fraction : Option (List Char)
  /-- The exponent, if one is written. -/
  exponent : Option Exponent
deriving DecidableEq, Repr

namespace Numeral

/-- The value of a decimal digit; other characters count as their distance from zero. -/
def digitValue (c : Char) : Nat := c.toNat - '0'.toNat

/-- The number that a run of decimal digits spells. -/
def digitsValue (digits : List Char) : Nat :=
  digits.foldl (fun n c => 10 * n + digitValue c) 0

/-- At least one digit, and no zero in front of another digit. -/
def wholeAllowed : List Char → Bool
  | [] => false
  | [_] => true
  | c :: _ :: _ => c ≠ '0'

/-- Reads an exponent mark with its sign and digits, up to the end. -/
def exponent? : List Char → Option (Option Exponent)
  | [] => some none
  | mark :: rest =>
    if mark = 'e' ∨ mark = 'E' then
      let (sign, digits) : Option Bool × List Char := match rest with
        | '+' :: ds => (some true, ds)
        | '-' :: ds => (some false, ds)
        | ds => (none, ds)
      if digits ≠ [] ∧ digits.all Char.isDigit then some (some ⟨sign, digits⟩) else none
    else none

/-- Reads what follows the whole digits: a fraction, then an exponent. -/
def tail? : List Char → Option (Option (List Char) × Option Exponent)
  | '.' :: rest =>
    let digits := rest.takeWhile Char.isDigit
    if digits = [] then none
    else (exponent? (rest.dropWhile Char.isDigit)).map (some digits, ·)
  | rest => (exponent? rest).map (none, ·)

/-- Reads a whole word as a number literal. -/
def ofChars? (word : List Char) : Option Numeral :=
  let (negative, unsigned) : Bool × List Char := match word with
    | '-' :: rest => (true, rest)
    | rest => (false, rest)
  let whole := unsigned.takeWhile Char.isDigit
  if wholeAllowed whole then
    (tail? (unsigned.dropWhile Char.isDigit)).map fun (fraction, exponent) =>
      ⟨negative, whole, fraction, exponent⟩
  else none

/-- The literal of a natural number. -/
def ofNat (n : Nat) : Numeral := ⟨false, Nat.toDigits 10 n, none, none⟩

/-- The literal of an integer: a minus sign only in front of a negative one. -/
def ofInt (i : Int) : Numeral := ⟨decide (i < 0), Nat.toDigits 10 i.natAbs, none, none⟩

/-- The literal's characters. -/
def chars (n : Numeral) : List Char :=
  (if n.negative then ['-'] else []) ++ n.whole ++
    (n.fraction.elim [] fun ds => '.' :: ds) ++ n.exponent.elim [] Exponent.chars

/-- The literal has neither point nor exponent. -/
def isInteger (n : Numeral) : Bool := n.fraction.isNone && n.exponent.isNone

/-- The largest number that fits 64 bits. -/
def largest : Nat := 18446744073709551615

/-- A count: no sign, point or exponent, and at most 64 bits. -/
def count? (n : Numeral) : Option Nat :=
  let value := digitsValue n.whole
  if n.isInteger ∧ ¬ n.negative ∧ value ≤ largest then some value else none

/-- An exact integer: neither point nor exponent, from `-2^63` to `2^64 - 1`,
and not a zero with a minus sign. -/
def int? (n : Numeral) : Option Int :=
  let value := digitsValue n.whole
  if n.isInteger = false then none
  else if n.negative then
    if 0 < value ∧ value ≤ 9223372036854775808 then some (-(value : Int)) else none
  else if value ≤ largest then some value else none

end IntentRouter.Json.Numeral
