import IntentRouter.Json.Node

/-!
# Decimal numbers

A number is written with its decimal digits, and with a minus sign in front if it is negative. What
is written is read as the same number, as far as 64 bits reach. Digits may also be padded with zeros
in front, which does not change what they spell.
-/

namespace IntentRouter.Json.Numeral

variable {n : Numeral}

/-! ## Digits -/

theorem digitsValue_toDigits (m : Nat) : digitsValue (Nat.toDigits 10 m) = m :=
  Nat.ofDigitChars_ten_toDigits

theorem isDigit_of_mem_toDigits {m : Nat} {c : Char} (h : c ∈ Nat.toDigits 10 m) :
    c.isDigit = true :=
  Nat.isDigit_of_mem_toDigits (by decide) (by decide) h

/-- Zeros in front of digits do not count. -/
theorem digitsValue_replicate_append (k : Nat) (ds : List Char) :
    digitsValue (List.replicate k '0' ++ ds) = digitsValue ds := by
  induction k with
  | zero => rfl
  | succ k ih => exact ih

/-- The digits of a positive number do not begin with a zero. -/
theorem head?_toDigits_ne {m : Nat} (h : 0 < m) : (Nat.toDigits 10 m).head? ≠ some '0' := by
  induction m using Nat.strongRecOn with
  | ind m ih =>
    rw [Nat.toDigits_eq_if (by decide)]
    by_cases hsmall : m < 10
    · rw [if_pos hsmall, List.head?_cons]
      intro hzero
      have hdigit := Option.some.inj hzero
      match m, h, hsmall with
      | 1, _, _ | 2, _, _ | 3, _, _ | 4, _, _ | 5, _, _ | 6, _, _ | 7, _, _ | 8, _, _ | 9, _, _ =>
        exact absurd hdigit (by decide)
    · have hrest := ih (m / 10) (Nat.div_lt_self h (by decide)) (by omega)
      obtain ⟨c, cs, hcs⟩ :=
        List.exists_cons_of_ne_nil (Nat.toDigits_ne_nil (n := m / 10) (b := 10))
      rw [if_neg hsmall, hcs]
      rwa [hcs] at hrest

/-- The digits of a number are allowed in a literal. -/
theorem wholeAllowed_toDigits (m : Nat) : wholeAllowed (Nat.toDigits 10 m) = true := by
  rcases Nat.eq_zero_or_pos m with rfl | hpos
  · rfl
  · have hhead := head?_toDigits_ne hpos
    have hsome : Nat.toDigits 10 m ≠ [] := Nat.toDigits_ne_nil
    match hdigits : Nat.toDigits 10 m with
    | [] => exact absurd hdigits hsome
    | [_] => rfl
    | c :: _ :: _ =>
      rw [hdigits] at hhead
      exact decide_eq_true fun hc => hhead (congrArg some hc)

/-! ## Literals of integers -/

/-- The literal consists of digits, with a minus sign in front or none. -/
structure Plain (n : Numeral) : Prop where
  /-- It has no point. -/
  fraction : n.fraction = none
  /-- It has no exponent. -/
  exponent : n.exponent = none
  /-- All the rest are digits. -/
  digits : ∀ c ∈ n.whole, c.isDigit = true
  /-- No zero stands in front of another digit. -/
  allowed : wholeAllowed n.whole = true

theorem plain_ofNat (m : Nat) : (ofNat m).Plain :=
  ⟨rfl, rfl, fun _ => isDigit_of_mem_toDigits, wholeAllowed_toDigits m⟩

theorem plain_ofInt (i : Int) : (ofInt i).Plain :=
  ⟨rfl, rfl, fun _ => isDigit_of_mem_toDigits, wholeAllowed_toDigits i.natAbs⟩

theorem Plain.chars (h : n.Plain) :
    n.chars = (if n.negative then ['-'] else []) ++ n.whole := by
  rw [Numeral.chars, h.fraction, h.exponent]
  exact (List.append_nil _).trans (List.append_nil _)

/-! ## What is read -/

theorem count?_ofNat {m : Nat} (h : m ≤ largest) : (ofNat m).count? = some m := by
  have hvalue : digitsValue (ofNat m).whole = m := digitsValue_toDigits m
  rw [count?, hvalue]
  exact if_pos ⟨rfl, Bool.false_ne_true, h⟩

/-- Integers of 64 bits are read as they are, with a sign or without. -/
theorem int?_ofInt {i : Int} (hlow : -9223372036854775808 ≤ i) (hhigh : i ≤ 18446744073709551615) :
    (ofInt i).int? = some i := by
  have hvalue : digitsValue (ofInt i).whole = i.natAbs := digitsValue_toDigits i.natAbs
  have hinteger : (ofInt i).isInteger = true := rfl
  have hsign : (ofInt i).negative = decide (i < 0) := rfl
  rw [int?, hvalue, hinteger, hsign, if_neg Bool.noConfusion]
  by_cases hneg : i < 0
  · rw [if_pos (decide_eq_true hneg), if_pos (by omega)]
    congr
    omega
  · have hfits : i.natAbs ≤ largest := by
      unfold largest
      omega
    rw [if_neg (by simpa using hneg), if_pos hfits]
    congr
    omega

end IntentRouter.Json.Numeral
