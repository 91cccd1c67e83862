import IntentRouter.Proofs.Spelling
import IntentRouter.RequestId
import IntentRouter.Timestamp
import Mathlib.Algebra.GroupWithZero.Nat

/-!
# Names and times are read back

The text of the name of a request is read as the name, and the text of a point in time as the point
in time, down to the nanosecond. A year in that text has four digits.
-/

namespace IntentRouter

open Json

/-! ## Names of requests -/

namespace RequestId

theorem hyphenate_cons (n m : Nat) (ns : List Nat) (cs : List Char) :
    hyphenate (n :: m :: ns) cs = cs.take n ++ '-' :: hyphenate (m :: ns) (cs.drop n) := rfl

theorem unhyphenate?_append {n : Nat} {front : List Char} (h : front.length = n) (m : Nat)
    (ns : List Nat) (tail : List Char) :
    unhyphenate? (n :: m :: ns) (front ++ '-' :: tail) =
      (unhyphenate? (m :: ns) tail).map (front ++ ·) := by
  simp only [unhyphenate?, List.drop_left' h, List.take_left' h]

/-- Between groups there is one hyphen each. -/
theorem length_hyphenate {n : Nat} {ns : List Nat} (cs : List Char)
    (h : (n :: ns).sum ≤ cs.length) : (hyphenate (n :: ns) cs).length = cs.length + ns.length := by
  induction ns generalizing n cs with
  | nil => rfl
  | cons m ns ih =>
    rw [List.sum_cons] at h
    have hrest := ih (n := m) (cs.drop n) (by rw [List.length_drop]; omega)
    rw [hyphenate_cons, List.length_append, List.length_cons, hrest, List.length_take,
      List.length_drop, List.length_cons]
    omega

/-- Groups that have been joined are taken apart again. -/
theorem unhyphenate?_hyphenate {n : Nat} {ns : List Nat} {cs : List Char}
    (h : (n :: ns).sum = cs.length) :
    unhyphenate? (n :: ns) (hyphenate (n :: ns) cs) = some cs := by
  induction ns generalizing n cs with
  | nil => exact if_pos h.symm
  | cons m ns ih =>
    rw [List.sum_cons] at h
    have htake : (cs.take n).length = n := by
      rw [List.length_take]
      omega
    have hdrop : (m :: ns).sum = (cs.drop n).length := by
      rw [List.length_drop]
      omega
    rw [hyphenate_cons, unhyphenate?_append htake, ih hdrop, Option.map_some,
      List.take_append_drop]

/-- The first digits of a number are read as the number without the others. -/
theorem hexNumber?_take {m k : Nat} (hm : m < Nat.pow 16 32) (hk : k ≤ 32) :
    hexNumber? ((List.range k).map fun i => Text.hexDigit (m / Nat.pow 16 (31 - i) % 16)) =
      some (m / Nat.pow 16 (32 - k)) := by
  induction k with
  | zero => exact congrArg some (Nat.div_eq_of_lt hm).symm
  | succ k ih =>
    -- Another digit moves those before it up by one place.
    have hlt : m / Nat.pow 16 (31 - k) % 16 < 16 := Nat.mod_lt _ (Nat.succ_pos 15)
    have hdigit := Text.hexValue?_eq_some_iff.mpr (Text.hexDigit_hexDigit hlt)
    have hshorter : m / Nat.pow 16 (32 - k) = m / Nat.pow 16 (31 - k) / 16 := by
      have hpow : 32 - k = 31 - k + 1 := by omega
      rw [hpow, Nat.div_div_eq_div_mul]
      rfl
    have hlast : 32 - (k + 1) = 31 - k := by omega
    have hfirst := ih (Nat.le_of_succ_le hk)
    rw [hexNumber?] at hfirst ⊢
    rw [List.range_succ, List.map_append, List.foldlM_append, hfirst, Option.bind_eq_bind,
      Option.bind_some, List.map_singleton, List.foldlM_cons, hdigit, hshorter, hlast]
    exact congrArg some (Nat.div_add_mod _ 16)

/-- The text of a name is read as the name. -/
theorem ofString?_text (r : RequestId) : ofString? r.text = some r := by
  have hlength : r.digits.length = 32 := by rw [digits, List.length_map, List.length_range]
  have hhyphens : (hyphenate groups r.digits).length = 36 := by
    rw [groups, @length_hyphenate 8 [4, 4, 4, 12] _ (Nat.le_of_eq hlength.symm), hlength]
    rfl
  have hspelled : spelled? (hyphenate groups r.digits) = some r.digits := by
    rw [spelled?, hhyphens]
    exact unhyphenate?_hyphenate hlength.symm
  have hnumber : hexNumber? r.digits = some r.bits.toNat := by
    rw [digits, hexNumber?_take r.bits.isLt (Nat.le_refl 32)]
    exact congrArg some (Nat.div_one _)
  rw [ofString?, text, String.toList_ofList, hspelled, Option.bind_some, hnumber, Option.map_some,
    ofNat, BitVec.ofNat_toNat, BitVec.setWidth_eq]

end RequestId

/-! ## Points in time -/

namespace Timestamp

/-! ### Numbers of a fixed width -/

theorem isDigit_of_mem_padded {width n : Nat} {c : Char} (h : c ∈ padded width n) :
    c.isDigit = true := by
  rcases List.mem_append.mp h with hzero | hdigit
  · rw [List.eq_of_mem_replicate hzero]
    rfl
  · exact Numeral.isDigit_of_mem_toDigits hdigit

theorem digitsValue_padded (width n : Nat) : Numeral.digitsValue (padded width n) = n :=
  (Numeral.digitsValue_replicate_append _ _).trans (Numeral.digitsValue_toDigits n)

theorem length_padded {width n : Nat} (hwidth : 0 < width) (h : n < 10 ^ width) :
    (padded width n).length = width := by
  have hdigits := (Nat.length_toDigits_le_iff (by decide : 1 < 10) hwidth).mpr h
  rw [padded, List.length_append, List.length_replicate]
  omega

/-- Digits are read up to the width that is looked for, or up to something that is no digit. -/
theorem digits?_append {width : Nat} {ds rest : List Char} (hdigits : ∀ c ∈ ds, c.isDigit = true)
    (hne : ds ≠ []) (hwidth : ds.length ≤ width)
    (hrest : ds.length = width ∨ rest.takeWhile Char.isDigit = []) :
    digits? (some width) (ds ++ rest) = some (ds, rest) := by
  have htaken : ((ds ++ rest).takeWhile Char.isDigit).take width = ds := by
    rw [List.takeWhile_append_of_pos hdigits]
    rcases hrest with rfl | hrest
    · exact List.take_left
    · rw [hrest, List.append_nil, List.take_of_length_le hwidth]
  rw [digits?]
  simp only [Option.elim_some, htaken, if_neg hne, List.drop_left]

/-- A number of the full width is read whatever follows. -/
theorem digits?_padded {width n : Nat} (hwidth : 0 < width) (h : n < 10 ^ width)
    (rest : List Char) :
    digits? (some width) (padded width n ++ rest) = some (padded width n, rest) := by
  have hlength := length_padded hwidth h
  refine digits?_append (fun _ => isDigit_of_mem_padded) (fun hnil => ?_) (Nat.le_of_eq hlength)
    (.inl hlength)
  rw [hnil] at hlength
  exact Nat.ne_of_lt hwidth hlength

/-! ### Blanks and marks -/

theorem isWhite_of_isDigit {c : Char} (h : c.isDigit = true) : isWhite c = false := by
  have hrange : 48 ≤ c.toNat ∧ c.toNat ≤ 57 := Char.isDigit_iff_toNat.mp h
  rw [Bool.eq_false_iff]
  intro hwhite
  simp only [isWhite, Bool.or_eq_true, Bool.and_eq_true, decide_eq_true_eq] at hwhite
  omega

theorem skipBlanks_cons {c : Char} (h : isWhite c = false) (rest : List Char) :
    skipBlanks (c :: rest) = c :: rest := List.dropWhile_cons_of_neg (Bool.eq_false_iff.mp h)

theorem exists_padded (width n : Nat) :
    ∃ c cs, padded width n = c :: cs ∧ c.isDigit = true := by
  have hne : padded width n ≠ [] := List.append_ne_nil_of_right_ne_nil _ Nat.toDigits_ne_nil
  obtain ⟨c, cs, hcs⟩ := List.exists_cons_of_ne_nil hne
  exact ⟨c, cs, hcs, isDigit_of_mem_padded (hcs ▸ List.mem_cons_self)⟩

theorem skipBlanks_padded (width n : Nat) (rest : List Char) :
    skipBlanks (padded width n ++ rest) = padded width n ++ rest := by
  obtain ⟨c, cs, hcs, hc⟩ := exists_padded width n
  rw [hcs]
  exact skipBlanks_cons (isWhite_of_isDigit hc) _

theorem two?_padded {n : Nat} (h : n < 100) (rest : List Char) :
    two? (padded 2 n ++ rest) = some (n, rest) := by
  have hdigits := digits?_padded Nat.two_pos h rest
  simp only [two?, skipBlanks_padded, hdigits, Option.map_some, digitsValue_padded]

theorem mark?_cons {c : Char} (h : isWhite c = false) (rest : List Char) :
    mark? c (c :: rest) = some rest := by
  simp only [mark?, skipBlanks_cons h, if_true]

/-! ### The parts of a text -/

theorem year?_yearChars {year : Int} (h : 0 ≤ year ∧ year ≤ 9999) (rest : List Char) :
    year? (yearChars year ++ rest) = some (year, rest) := by
  have hchars : yearChars year = padded 4 year.natAbs := by
    rw [yearChars, if_pos h, List.nil_append]
  have hsize : year.natAbs < 10 ^ 4 := by omega
  have hdigits := digits?_padded (by decide : 0 < 4) hsize rest
  obtain ⟨c, cs, hcs, hc⟩ := exists_padded 4 year.natAbs
  have hne : ∀ d : Char, d.isDigit = false → c ≠ d := by
    rintro d hd rfl
    exact Bool.noConfusion (hc.symm.trans hd)
  rw [hchars, year?, skipBlanks_padded]
  split
  · next heq =>
    rw [hcs] at heq
    cases heq
    exact absurd rfl (hne '-' rfl)
  · next heq =>
    rw [hcs] at heq
    cases heq
    exact absurd rfl (hne '+' rfl)
  · simp only [hdigits, Option.map_some, digitsValue_padded]
    rw [Int.natAbs_of_nonneg h.1]

/-- The fraction is read with as many zeros as are missing. -/
theorem fraction?_fractionChars {nanos : Nat} (h : nanos < 1000000000) :
    fraction? (fractionChars nanos ++ ['Z']) = some (nanos, ['Z']) := by
  have hread : ∀ width n, 0 < width → width ≤ 9 → n < 10 ^ width →
      fraction? ('.' :: padded width n ++ ['Z']) = some (n * Nat.pow 10 (9 - width), ['Z']) := by
    intro width n hpos hwidth hn
    have hlength := length_padded hpos hn
    obtain ⟨c, cs, hcs, -⟩ := exists_padded width n
    have hdigits : digits? (some 9) (padded width n ++ ['Z']) = some (padded width n, ['Z']) :=
      digits?_append (fun _ => isDigit_of_mem_padded) (hcs ▸ List.cons_ne_nil c cs)
        (Nat.le_trans (Nat.le_of_eq hlength) hwidth) (.inr rfl)
    simp only [List.cons_append, fraction?, hdigits, Option.map_some, digitsValue_padded, hlength]
    rfl
  have hpadded : ∀ k, nanos % k = 0 → nanos / k * k = nanos := fun k hk =>
    Nat.div_mul_cancel (Nat.dvd_of_mod_eq_zero hk)
  rw [fractionChars]
  split
  · next hzero =>
    rw [hzero]
    rfl
  · split
    · next hmillis =>
      rw [hread 3 _ (by decide) (by decide) (by omega)]
      exact congrArg (fun n => some (n, ['Z'])) (hpadded _ hmillis)
    · split
      · next hmicros =>
        rw [hread 6 _ (by decide) (by decide) (by omega)]
        exact congrArg (fun n => some (n, ['Z'])) (hpadded _ hmicros)
      · rw [hread 9 _ (by decide) (by decide) (by omega)]
        exact congrArg (fun n => some (n, ['Z'])) (Nat.mul_one _)

/-- A point in time that is written in universal time is not moved. -/
theorem fromZone?_zero (t : Timestamp) : t.fromZone? 0 = some t := by
  have ⟨hhour, hminute, _, _⟩ := t.exists_time
  have hearly : ¬ ((t.hour : Int) * 60 + t.minute - 0 < 0) := by omega
  have hlate : ¬ (1440 ≤ (t.hour : Int) * 60 + t.minute - 0) := by omega
  have hdiv : ((t.hour : Int) * 60 + t.minute - 0).toNat / 60 = t.hour := by omega
  have hmod : ((t.hour : Int) * 60 + t.minute - 0).toNat % 60 = t.minute := by omega
  rw [fromZone?]
  dsimp only
  rw [if_neg hearly, if_neg hlate, hdiv, hmod]
  exact dif_pos t.exists_time

/-- The text of a point in time is read as the point in time. -/
theorem ofString?_text {t : Timestamp} (h : 0 ≤ t.date.year ∧ t.date.year ≤ 9999) :
    ofString? t.text = some t := by
  have ⟨hhour, hminute, hsecond, hnanos⟩ := t.exists_time
  have ⟨_, _, _, hmonth, _, hday⟩ := t.date.exists_day
  have hmonthLength : daysInMonth t.date.year t.date.month ≤ 31 := by
    unfold daysInMonth
    split
    · split <;> decide
    all_goals decide
  have hdate : Date.of? t.date.year t.date.month t.date.day = some t.date :=
    dif_pos t.date.exists_day
  have hwritten : of? t.date t.hour t.minute t.second t.nanos = some t := dif_pos t.exists_time
  have htext : t.text.toList = yearChars t.date.year ++ '-' :: (padded 2 t.date.month ++
      '-' :: (padded 2 t.date.day ++ 'T' :: (padded 2 t.hour ++ ':' :: (padded 2 t.minute ++
        ':' :: (padded 2 t.second ++ (fractionChars t.nanos ++ ['Z'])))))) := by
    simp only [text, String.toList_ofList, List.append_assoc, List.cons_append]
  have hread : ∀ rest, date? (yearChars t.date.year ++ '-' :: (padded 2 t.date.month ++
      '-' :: (padded 2 t.date.day ++ 'T' :: rest))) = some (t.date, rest) := by
    intro rest
    simp only [date?, year?_yearChars h, mark?_cons (c := '-') rfl,
      two?_padded (Nat.lt_of_le_of_lt hmonth (by decide)),
      two?_padded (Nat.lt_of_le_of_lt (Nat.le_trans hday hmonthLength) (by decide)), hdate,
      Option.bind_eq_bind, Option.bind_some, true_or, if_true]
  have hmark : ∀ rest, mark? ':' (':' :: rest) = some rest := mark?_cons rfl
  have hzone : zone? (skipBlanks ['Z']) = some (0, []) := by decide
  have hend : skipBlanks [] = [] := rfl
  simp only [ofString?, htext, hread, hmark, two?_padded (Nat.lt_trans hhour (by decide)),
    two?_padded (Nat.lt_trans hminute (by decide)),
    two?_padded (Nat.lt_of_le_of_lt hsecond (by decide)), fraction?_fractionChars hnanos, hzone,
    hwritten, hend, fromZone?_zero, Option.bind_eq_bind, Option.bind_some, if_true]

end Timestamp

end IntentRouter
