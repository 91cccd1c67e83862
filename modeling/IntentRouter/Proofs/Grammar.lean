import IntentRouter.Proofs.Scanning
import Mathlib.Data.List.Forall2
import Mathlib.Data.List.TakeWhile

/-!
# The grammar of texts

A document can be spelled in many ways. Blanks may stand around every mark, a character of a text
may be escaped or not, and the letter of an exponent and the digits of a hexadecimal escape have
either case. All that the grammar allows is read, and it is read as the document that it spells.
-/

namespace IntentRouter.Json

/-! ## String literals -/

/-- The letters that may follow a backslash, each with the character for which it stands. -/
def Text.shortEscapes : List (Char × Char) :=
  [('"', '"'), ('\\', '\\'), ('/', '/'), ('b', '\x08'), ('f', '\x0c'), ('n', '\n'), ('r', '\r'),
    ('t', '\t')]

/-- The character is a hexadecimal digit of either case with the value. -/
def Text.HexDigit (c : Char) (n : Nat) : Prop :=
  n < 16 ∧ (c = Nat.digitChar n ∨ c = (Nat.digitChar n).toUpper)

instance (c : Char) (n : Nat) : Decidable (Text.HexDigit c n) :=
  inferInstanceAs (Decidable (_ ∧ _))

/-- The characters write one unit of a string literal. -/
inductive CodeUnit.SpelledBy : CodeUnit → List Char → Prop where
  /-- A character stands for itself if it is not a quote, a backslash or a control character. -/
  | plain {c : Char} (quote : c ≠ '"') (slash : c ≠ '\\') (visible : 0x20 ≤ c.toNat) :
    SpelledBy (.char c) [c]
  /-- A letter after a backslash may stand for a character. -/
  | short {c e : Char} (h : (c, e) ∈ Text.shortEscapes) : SpelledBy (.char e) ['\\', c]
  /-- Four hexadecimal digits of either case stand for sixteen bits. -/
  | hex {a b c d : Char} {i j k l : Nat} (ha : Text.HexDigit a i) (hb : Text.HexDigit b j)
    (hc : Text.HexDigit c k) (hd : Text.HexDigit d l) :
    SpelledBy (.unit16 (16 * (16 * (16 * i + j) + k) + l)) ['\\', 'u', a, b, c, d]

/-- The units make up the characters. Sixteen bits are a character by themselves, or two surrogates
are one that needs more. -/
inductive CodeUnit.Forms : List CodeUnit → List Char → Prop where
  /-- There are none. -/
  | nil : Forms [] []
  /-- A unit is a character. -/
  | char (c : Char) {us : List CodeUnit} {cs : List Char} (others : Forms us cs) :
    Forms (.char c :: us) (c :: cs)
  /-- Sixteen bits are no surrogate. -/
  | single {n : Nat} {us : List CodeUnit} {cs : List Char} (plain : n < 0xD800 ∨ 0xE000 ≤ n)
    (others : Forms us cs) : Forms (.unit16 n :: us) (Char.ofNat n :: cs)
  /-- A leading surrogate comes directly before a trailing one. -/
  | pair {m n : Nat} {us : List CodeUnit} {cs : List Char} (leading : 0xD800 ≤ m ∧ m < 0xDC00)
    (trailing : 0xDC00 ≤ n ∧ n < 0xE000) (others : Forms us cs) :
    Forms (.unit16 m :: .unit16 n :: us)
      (Char.ofNat (0x10000 + (m - 0xD800) * 0x400 + (n - 0xDC00)) :: cs)

/-- The characters are a literal of the text, which is unreadable if a surrogate has no partner. The
units stand one after another between quotes. -/
inductive Text.SpelledBy : Option String → List Char → Prop where
  /-- The units make up the text. -/
  | readable {units : List CodeUnit} {pieces : List (List Char)} {s : String}
    (each : List.Forall₂ CodeUnit.SpelledBy units pieces) (forms : CodeUnit.Forms units s.toList) :
    SpelledBy (some s) ('"' :: pieces.flatten ++ ['"'])
  /-- The units make up nothing. -/
  | unreadable {units : List CodeUnit} {pieces : List (List Char)}
    (each : List.Forall₂ CodeUnit.SpelledBy units pieces)
    (nothing : ∀ cs, ¬ CodeUnit.Forms units cs) : SpelledBy none ('"' :: pieces.flatten ++ ['"'])

/-! ## Numbers -/

/-- There is at least one digit, and nothing else. -/
structure Digits (ds : List Char) : Prop where
  /-- There is one. -/
  some : ds ≠ []
  /-- All are digits. -/
  all : ∀ c ∈ ds, c.isDigit = true

/-- The characters write a fraction, or that there is none. -/
inductive FractionSpelledBy : Option (List Char) → List Char → Prop where
  /-- There is none. -/
  | absent : FractionSpelledBy none []
  /-- Digits follow a point. -/
  | digits {ds : List Char} (digits : Digits ds) : FractionSpelledBy (some ds) ('.' :: ds)

/-- A letter announces an exponent. -/
def ExponentMark (c : Char) : Prop := c = 'e' ∨ c = 'E'

/-- The characters write an exponent, or that there is none. -/
inductive ExponentSpelledBy : Option Exponent → List Char → Prop where
  /-- There is none. -/
  | absent : ExponentSpelledBy none []
  /-- Digits follow the letter. -/
  | unsigned {mark : Char} {ds : List Char} (letter : ExponentMark mark) (digits : Digits ds) :
    ExponentSpelledBy (some ⟨none, ds⟩) (mark :: ds)
  /-- Digits follow the letter and a plus. -/
  | plus {mark : Char} {ds : List Char} (letter : ExponentMark mark) (digits : Digits ds) :
    ExponentSpelledBy (some ⟨some true, ds⟩) (mark :: '+' :: ds)
  /-- Digits follow the letter and a minus. -/
  | minus {mark : Char} {ds : List Char} (letter : ExponentMark mark) (digits : Digits ds) :
    ExponentSpelledBy (some ⟨some false, ds⟩) (mark :: '-' :: ds)

/-- The characters write the number: whole digits, of which a zero in front is the only one, then
perhaps a fraction and an exponent. -/
inductive Numeral.SpelledBy : Numeral → List Char → Prop where
  /-- There is no sign. -/
  | positive {ds fs es : List Char} {fraction : Option (List Char)} {exponent : Option Exponent}
    (whole : Digits ds) (zero : ds.head? = some '0' → ds = ['0'])
    (hfraction : FractionSpelledBy fraction fs) (hexponent : ExponentSpelledBy exponent es) :
    SpelledBy ⟨false, ds, fraction, exponent⟩ (ds ++ fs ++ es)
  /-- There is a minus sign. -/
  | negative {ds fs es : List Char} {fraction : Option (List Char)} {exponent : Option Exponent}
    (whole : Digits ds) (zero : ds.head? = some '0' → ds = ['0'])
    (hfraction : FractionSpelledBy fraction fs) (hexponent : ExponentSpelledBy exponent es) :
    SpelledBy ⟨true, ds, fraction, exponent⟩ ('-' :: (ds ++ fs ++ es))

/-! ## Documents -/

namespace Node

/-- The characters are a key with blanks around it. -/
inductive KeySpelledBy : Option String → List Char → Prop where
  /-- A literal stands between blanks. -/
  | mk {key : Option String} {before ks after : List Char} (hbefore : Blank before)
    (literal : Text.SpelledBy key ks) (hafter : Blank after) :
    KeySpelledBy key (before ++ ks ++ after)

mutual

/-- The characters spell the document, from its first token to its last one. -/
inductive SpelledBy : Node → List Char → Prop where
  /-- The name of the empty value. -/
  | null : SpelledBy .null ['n', 'u', 'l', 'l']
  /-- The name of what is true. -/
  | yes : SpelledBy (.bool true) ['t', 'r', 'u', 'e']
  /-- The name of what is false. -/
  | no : SpelledBy (.bool false) ['f', 'a', 'l', 's', 'e']
  /-- A number. -/
  | number {m : Numeral} {cs : List Char} (h : m.SpelledBy cs) : SpelledBy (.number m) cs
  /-- A text. -/
  | text {s : Option String} {cs : List Char} (h : Text.SpelledBy s cs) : SpelledBy (.text s) cs
  /-- Brackets with nothing in between. -/
  | noItems {bs : List Char} (blank : Blank bs) : SpelledBy (.list []) ('[' :: bs ++ [']'])
  /-- An opening bracket, an item and the others. -/
  | items {n : Node} {rest : List Node} {cs ds : List Char} (first : Fills n cs)
    (others : ItemsSpelledBy rest ds) : SpelledBy (.list (n :: rest)) ('[' :: cs ++ ds)
  /-- Braces with nothing in between. -/
  | noMembers {bs : List Char} (blank : Blank bs) : SpelledBy (.members []) ('{' :: bs ++ ['}'])
  /-- An opening brace, a member and the others. -/
  | members {key : Option String} {n : Node} {rest : List (Option String × Node)}
    {ks cs ds : List Char} (first : KeySpelledBy key ks) (value : Fills n cs)
    (others : MembersSpelledBy rest ds) :
    SpelledBy (.members ((key, n) :: rest)) ('{' :: (ks ++ ':' :: cs ++ ds))

/-- The characters are the document with blanks around it. -/
inductive Fills : Node → List Char → Prop where
  /-- The document stands between blanks. -/
  | mk {n : Node} {before cs after : List Char} (hbefore : Blank before) (h : SpelledBy n cs)
    (hafter : Blank after) : Fills n (before ++ cs ++ after)

/-- The characters spell the items after the first one, with the closing bracket. -/
inductive ItemsSpelledBy : List Node → List Char → Prop where
  /-- There are no more. -/
  | none : ItemsSpelledBy [] [']']
  /-- There is one more, and others. -/
  | next {n : Node} {rest : List Node} {cs ds : List Char} (item : Fills n cs)
    (others : ItemsSpelledBy rest ds) : ItemsSpelledBy (n :: rest) (',' :: cs ++ ds)

/-- The characters spell the members after the first one, with the closing brace. -/
inductive MembersSpelledBy : List (Option String × Node) → List Char → Prop where
  /-- There are no more. -/
  | none : MembersSpelledBy [] ['}']
  /-- There is one more, and others. -/
  | next {key : Option String} {n : Node} {rest : List (Option String × Node)}
    {ks cs ds : List Char} (first : KeySpelledBy key ks) (value : Fills n cs)
    (others : MembersSpelledBy rest ds) :
    MembersSpelledBy ((key, n) :: rest) (',' :: (ks ++ ':' :: cs ++ ds))

end

end Node

/-! ## Literals are read -/

theorem Text.shortEscape?_eq_some_iff {c e : Char} :
    shortEscape? c = some e ↔ (c, e) ∈ shortEscapes := by
  constructor
  · intro h
    unfold shortEscape? at h
    split at h <;> cases h <;> decide
  · intro h
    simp only [shortEscapes, List.mem_cons, List.not_mem_nil, or_false, Prod.mk.injEq] at h
    rcases h with ⟨rfl, rfl⟩ | ⟨rfl, rfl⟩ | ⟨rfl, rfl⟩ | ⟨rfl, rfl⟩ | ⟨rfl, rfl⟩ | ⟨rfl, rfl⟩ |
      ⟨rfl, rfl⟩ | ⟨rfl, rfl⟩ <;> rfl

theorem Text.hexValue?_eq_some_iff {c : Char} {n : Nat} :
    hexValue? c = some n ↔ HexDigit c n := by
  constructor
  · intro h
    have hascii : c.toNat < 128 := by
      unfold hexValue? at h
      split_ifs at h with hdigit hsmall hlarge
      · exact Nat.lt_of_le_of_lt (Char.le_def.mp hdigit.2) (by decide)
      · exact Nat.lt_of_le_of_lt (Char.le_def.mp hsmall.2) (by decide)
      · exact Nat.lt_of_le_of_lt (Char.le_def.mp hlarge.2) (by decide)
    have hall : ∀ k : Fin 128, (hexValue? (Char.ofNat k)).all fun n =>
        decide (HexDigit (Char.ofNat k) n) := by decide
    have hc := hall ⟨c.toNat, hascii⟩
    dsimp only at hc
    rw [Char.ofNat_toNat, h] at hc
    exact of_decide_eq_true hc
  · have hall : ∀ d : Fin 16, hexValue? (Nat.digitChar d) = some d.val ∧
        hexValue? (Nat.digitChar d).toUpper = some d.val := by decide
    rintro ⟨hlt, rfl | rfl⟩
    · exact (hall ⟨n, hlt⟩).1
    · exact (hall ⟨n, hlt⟩).2

namespace CodeUnit

variable {n : Nat} {us : List CodeUnit} {cs : List Char}

theorem isLeading_iff : isLeading n = true ↔ 0xD800 ≤ n ∧ n < 0xDC00 := by
  simp only [isLeading, Bool.and_eq_true, decide_eq_true_eq]

theorem isTrailing_iff : isTrailing n = true ↔ 0xDC00 ≤ n ∧ n < 0xE000 := by
  simp only [isTrailing, Bool.and_eq_true, decide_eq_true_eq]

theorem forms_of_chars? (h : chars? us = some cs) : Forms us cs := by
  induction us using chars?.induct generalizing cs with
  | case1 =>
    cases h
    exact .nil
  | case2 c rest ih =>
    obtain ⟨ds, hds, rfl⟩ := Option.map_eq_some_iff.mp h
    exact .char c (ih hds)
  | case3 m hleading n rest htrailing ih =>
    rw [chars?, if_pos hleading, if_pos htrailing] at h
    obtain ⟨ds, hds, rfl⟩ := Option.map_eq_some_iff.mp h
    exact .pair (isLeading_iff.mp hleading) (isTrailing_iff.mp htrailing) (ih hds)
  | case4 m hleading n rest htrailing =>
    rw [chars?, if_pos hleading, if_neg htrailing] at h
    cases h
  | case5 m rest hleading hnone =>
    rw [chars?, if_pos hleading] at h
    · cases h
    · exact hnone
  | case6 n rest hleading htrailing =>
    rw [chars?.eq_def] at h
    dsimp only at h
    rw [if_neg hleading, if_pos htrailing] at h
    cases h
  | case7 n rest hleading htrailing ih =>
    rw [chars?.eq_def] at h
    dsimp only at h
    rw [if_neg hleading, if_neg htrailing] at h
    obtain ⟨ds, hds, rfl⟩ := Option.map_eq_some_iff.mp h
    rw [isLeading_iff] at hleading
    rw [isTrailing_iff] at htrailing
    exact .single (by omega) (ih hds)

theorem Forms.chars? (h : Forms us cs) : chars? us = some cs := by
  induction h with
  | nil => rfl
  | char c _ ih => rw [CodeUnit.chars?, ih, Option.map_some]
  | @single n us cs plain _ ih =>
    have hleading : ¬ isLeading n = true := by
      rw [isLeading_iff]
      omega
    have htrailing : ¬ isTrailing n = true := by
      rw [isTrailing_iff]
      omega
    rw [CodeUnit.chars?.eq_def]
    dsimp only
    rw [if_neg hleading, if_neg htrailing, ih, Option.map_some]
  | pair leading trailing _ ih =>
    rw [CodeUnit.chars?, if_pos (isLeading_iff.mpr leading), if_pos (isTrailing_iff.mpr trailing),
      ih, Option.map_some, CodeUnit.pair]

end CodeUnit

/-- Units between quotes are a literal of what is read from them. -/
theorem Text.spelledBy_of_units {units : List CodeUnit} {pieces : List (List Char)}
    (each : List.Forall₂ CodeUnit.SpelledBy units pieces) :
    Text.SpelledBy ((CodeUnit.chars? units).map String.ofList)
      ('"' :: pieces.flatten ++ ['"']) := by
  cases hchars : CodeUnit.chars? units with
  | none =>
    refine .unreadable each fun cs hforms => ?_
    rw [hforms.chars?] at hchars
    cases hchars
  | some cs =>
    refine .readable each ?_
    rw [String.toList_ofList]
    exact CodeUnit.forms_of_chars? hchars

/-- A literal is read from its units. -/
theorem Text.SpelledBy.exists_units {s : Option String} {cs : List Char} (h : Text.SpelledBy s cs) :
    ∃ units pieces, cs = '"' :: pieces.flatten ++ ['"'] ∧
      List.Forall₂ CodeUnit.SpelledBy units pieces ∧ Token.ofUnits units = .text s := by
  cases h with
  | readable each forms =>
    refine ⟨_, _, rfl, each, ?_⟩
    rw [Token.ofUnits, forms.chars?, Option.map_some, String.ofList_toList]
  | @unreadable units _ each nothing =>
    have hnone : CodeUnit.chars? units = none :=
      Option.eq_none_iff_forall_ne_some.mpr fun cs hcs => nothing cs (CodeUnit.forms_of_chars? hcs)
    refine ⟨_, _, rfl, each, ?_⟩
    rw [Token.ofUnits, hnone, Option.map_none]

namespace Scan

variable {cs : List Char}

/-- What is written for a unit is read as the unit. -/
theorem run_codeUnit {u : CodeUnit} (h : u.SpelledBy cs) (units : List CodeUnit)
    (ts : List Token) : run ⟨.text units, ts⟩ cs = some ⟨.text (u :: units), ts⟩ := by
  cases h with
  | @plain c quote slash visible =>
    rw [run_cons, step]
    simp only [if_neg quote, if_neg slash, if_neg (Nat.not_lt.mpr visible)]
    rfl
  | @short c e h =>
    have hletter : c ≠ 'u' := by
      rintro rfl
      cases Text.shortEscape?_eq_some_iff.mpr h
    have hescape : step ⟨.text units, ts⟩ '\\' = some ⟨.escape units, ts⟩ := rfl
    rw [run_cons, hescape, Option.bind_some, run_cons, step]
    simp only [if_neg hletter, Text.shortEscape?_eq_some_iff.mpr h]
    rfl
  | @hex a b c d i j k l ha hb hc hd =>
    have hopening : run ⟨.text units, ts⟩ ['\\', 'u'] = some ⟨.hex units 0 4, ts⟩ := rfl
    have hdigits : run ⟨.hex units 0 4, ts⟩ [a, b, c, d] =
        some ⟨.text (.unit16 (16 * (16 * (16 * (16 * 0 + i) + j) + k) + l) :: units), ts⟩ := by
      rw [← Text.hexValue?_eq_some_iff] at ha hb hc hd
      simp only [run_cons, step, ha, hb, hc, hd, Option.map_some, Option.bind_some]
      rfl
    have hall := run_append ⟨.text units, ts⟩ ['\\', 'u'] [a, b, c, d]
    rw [hopening, Option.bind_some, hdigits, Nat.mul_zero, Nat.zero_add] at hall
    exact hall

theorem run_codeUnits {units : List CodeUnit} {pieces : List (List Char)}
    (h : List.Forall₂ CodeUnit.SpelledBy units pieces) (before : List CodeUnit) (ts : List Token) :
    run ⟨.text before, ts⟩ pieces.flatten = some ⟨.text (units.reverse ++ before), ts⟩ := by
  induction h generalizing before with
  | nil => rfl
  | cons hfirst _ ih =>
    rw [List.flatten_cons, run_append, run_codeUnit hfirst, Option.bind_some, ih,
      List.reverse_cons, List.append_assoc, List.singleton_append]

/-- A literal is a token. -/
theorem spells_literal {s : Option String} (h : Text.SpelledBy s cs) : Spells cs [.text s] := by
  obtain ⟨units, pieces, rfl, each, htoken⟩ := h.exists_units
  intro ts rest _
  have hopening : run ⟨.gap, ts⟩ ['"'] = some ⟨.text [], ts⟩ := rfl
  have hclosing : run ⟨.text units.reverse, ts⟩ ['"'] =
      some ⟨.gap, Token.ofUnits units.reverse.reverse :: ts⟩ := rfl
  have hall := run_append ⟨.gap, ts⟩ ['"'] (pieces.flatten ++ ['"'])
  rw [hopening, Option.bind_some, run_append ⟨.text [], ts⟩, run_codeUnits each, List.append_nil,
    Option.bind_some, hclosing, List.reverse_reverse, htoken] at hall
  exact read?_append hall rest

end Scan

/-! ## Numbers are read -/

theorem Digits.exists_cons {ds : List Char} (h : Digits ds) :
    ∃ d rest, ds = d :: rest ∧ d.isDigit = true := by
  obtain ⟨d, rest, rfl⟩ := List.exists_cons_of_ne_nil h.some
  exact ⟨d, rest, rfl, h.all d List.mem_cons_self⟩

theorem Digits.ne_cons {ds : List Char} {c : Char} (h : Digits ds) (hc : c.isDigit = false)
    (cs : List Char) : ds ≠ c :: cs := by
  rintro rfl
  exact Bool.noConfusion (hc.symm.trans (h.all c List.mem_cons_self))

/-- A run of digits ends where something else begins. -/
theorem Digits.takeWhile_append {ds cs : List Char} (h : Digits ds)
    (hcs : ∀ c ∈ cs.head?, c.isDigit = false) :
    (ds ++ cs).takeWhile Char.isDigit = ds ∧ (ds ++ cs).dropWhile Char.isDigit = cs := by
  rw [List.takeWhile_append_of_pos h.all, List.dropWhile_append_of_pos h.all]
  cases cs with
  | nil => exact ⟨List.append_nil ds, rfl⟩
  | cons c cs =>
    have hc := Bool.eq_false_iff.mp (hcs c rfl)
    rw [List.takeWhile_cons_of_neg hc, List.dropWhile_cons_of_neg hc]
    exact ⟨List.append_nil ds, rfl⟩

theorem ExponentMark.isDigit {c : Char} (h : ExponentMark c) : c.isDigit = false := by
  rcases h with rfl | rfl <;> rfl

/-- Numbers are written with digits, signs, a point and a letter. -/
def NumberChar (c : Char) : Prop := c.isDigit = true ∨ c ∈ ['-', '+', '.', 'e', 'E']

theorem FractionSpelledBy.mem {fraction : Option (List Char)} {fs : List Char}
    (h : FractionSpelledBy fraction fs) {c : Char} (hc : c ∈ fs) :
    NumberChar c := by
  cases h with
  | absent => cases hc
  | digits digits =>
    rcases List.mem_cons.mp hc with rfl | hc
    · exact .inr (by decide)
    · exact .inl (digits.all c hc)

namespace ExponentSpelledBy

variable {exponent : Option Exponent} {es : List Char}

/-- An exponent begins with its letter. -/
theorem head? (h : ExponentSpelledBy exponent es) : ∀ c ∈ es.head?, ExponentMark c := by
  intro c hc
  cases h with
  | absent => cases hc
  | unsigned letter _ | plus letter _ | minus letter _ =>
    cases hc
    exact letter

theorem exponent? (h : ExponentSpelledBy exponent es) : Numeral.exponent? es = some exponent := by
  cases h with
  | absent => rfl
  | unsigned letter digits =>
    rw [Numeral.exponent?, if_pos (show _ ∨ _ from letter)]
    · exact if_pos ⟨digits.some, List.all_eq_true.mpr digits.all⟩
    · exact digits.ne_cons rfl
    · exact digits.ne_cons rfl
  | plus letter digits | minus letter digits =>
    rw [Numeral.exponent?, if_pos (show _ ∨ _ from letter)]
    exact if_pos ⟨digits.some, List.all_eq_true.mpr digits.all⟩

theorem mem (h : ExponentSpelledBy exponent es) {c : Char} (hc : c ∈ es) :
    NumberChar c := by
  have hletter : ∀ {mark : Char}, ExponentMark mark → mark ∈ ['-', '+', '.', 'e', 'E'] := by
    rintro mark (rfl | rfl) <;> decide
  cases h with
  | absent => cases hc
  | unsigned letter digits =>
    rcases List.mem_cons.mp hc with rfl | hc
    · exact .inr (hletter letter)
    · exact .inl (digits.all c hc)
  | plus letter digits | minus letter digits =>
    rcases List.mem_cons.mp hc with rfl | hc
    · exact .inr (hletter letter)
    · rcases List.mem_cons.mp hc with rfl | hc
      · exact .inr (by decide)
      · exact .inl (digits.all c hc)

end ExponentSpelledBy

namespace Numeral

variable {m : Numeral} {ds fs es cs : List Char} {fraction : Option (List Char)}
  {exponent : Option Exponent}

theorem tail?_append (hfraction : FractionSpelledBy fraction fs)
    (hexponent : ExponentSpelledBy exponent es) : tail? (fs ++ es) = some (fraction, exponent) := by
  have hmarks : ∀ c ∈ es.head?, c.isDigit = false := fun c hc => (hexponent.head? c hc).isDigit
  cases hfraction with
  | absent =>
    rw [List.nil_append]
    unfold tail?
    split
    · rcases hexponent.head? '.' rfl with h | h <;> cases h
    · rw [hexponent.exponent?, Option.map_some]
  | digits digits =>
    obtain ⟨htake, hdrop⟩ := digits.takeWhile_append hmarks
    rw [List.cons_append, tail?, htake, hdrop, if_neg digits.some, hexponent.exponent?,
      Option.map_some]

theorem wholeAllowed_of_digits (whole : Digits ds) (zero : ds.head? = some '0' → ds = ['0']) :
    wholeAllowed ds = true := by
  match ds with
  | [] => exact absurd rfl whole.some
  | [_] => rfl
  | c :: d :: rest =>
    refine decide_eq_true fun hc => ?_
    cases zero (congrArg some hc)

theorem ne_nil_of_wholeAllowed (h : wholeAllowed ds = true) : ds ≠ [] := by
  rintro rfl
  cases h

theorem eq_zero_of_wholeAllowed (h : wholeAllowed ds = true) (hzero : ds.head? = some '0') :
    ds = ['0'] := by
  match ds with
  | [_] =>
    cases hzero
    rfl
  | _ :: _ :: _ => exact absurd (Option.some.inj hzero) (of_decide_eq_true h)

/-- After whole digits there is no other digit. -/
theorem head?_append (hfraction : FractionSpelledBy fraction fs)
    (hexponent : ExponentSpelledBy exponent es) : ∀ c ∈ (fs ++ es).head?, c.isDigit = false := by
  intro c hc
  cases hfraction with
  | absent => exact (hexponent.head? c hc).isDigit
  | digits _ =>
    cases hc
    rfl

/-- What is written for a number is read as the number. -/
theorem SpelledBy.ofChars? (h : m.SpelledBy cs) : ofChars? cs = some m := by
  cases h with
  | @positive ds fs es _ _ whole zero hfraction hexponent =>
    obtain ⟨htake, hdrop⟩ := whole.takeWhile_append (head?_append hfraction hexponent)
    obtain ⟨d, rest, rfl, hd⟩ := whole.exists_cons
    rw [List.append_assoc, Numeral.ofChars?]
    · rw [htake, hdrop, if_pos (wholeAllowed_of_digits whole zero),
        tail?_append hfraction hexponent, Option.map_some]
    · rintro unsigned heq
      cases heq
      cases hd
  | negative whole zero hfraction hexponent =>
    obtain ⟨htake, hdrop⟩ := whole.takeWhile_append (head?_append hfraction hexponent)
    rw [Numeral.ofChars?, List.append_assoc]
    dsimp only
    rw [htake, hdrop, if_pos (wholeAllowed_of_digits whole zero), tail?_append hfraction hexponent,
      Option.map_some]

/-! ## Texts are read as what they spell -/

theorem endsWord_of_isDigit {c : Char} (h : c.isDigit = true) : Scan.endsWord c = false := by
  have hne : ∀ d : Char, d.isDigit = false → c ≠ d := by
    rintro d hd rfl
    exact Bool.noConfusion (h.symm.trans hd)
  have hmark : Token.ofMark? c = none := by
    unfold Token.ofMark?
    split <;> first | rfl | exact absurd rfl (hne _ rfl)
  simp only [Scan.endsWord, Token.isBlank, hmark, hne ' ' rfl, hne '\t' rfl, hne '\n' rfl,
    hne '\r' rfl, hne '"' rfl, decide_false, Option.isSome_none, Bool.or_false]

theorem SpelledBy.mem (h : m.SpelledBy cs) {c : Char} (hc : c ∈ cs) :
    NumberChar c := by
  have hparts : ∀ {ds fs es : List Char} {fraction : Option (List Char)}
      {exponent : Option Exponent}, Digits ds → FractionSpelledBy fraction fs →
      ExponentSpelledBy exponent es → c ∈ ds ++ fs ++ es →
        NumberChar c := by
    intro ds fs es fraction exponent whole hfraction hexponent hc
    rcases List.mem_append.mp hc with hc | hc
    · rcases List.mem_append.mp hc with hc | hc
      · exact .inl (whole.all c hc)
      · exact hfraction.mem hc
    · exact hexponent.mem hc
  cases h with
  | positive whole _ hfraction hexponent => exact hparts whole hfraction hexponent hc
  | negative whole _ hfraction hexponent =>
    rcases List.mem_cons.mp hc with rfl | hc
    · exact .inr List.mem_cons_self
    · exact hparts whole hfraction hexponent hc

/-- A number begins with a digit or a minus sign. -/
theorem SpelledBy.exists_cons (h : m.SpelledBy cs) :
    ∃ c rest, cs = c :: rest ∧ (c.isDigit = true ∨ c = '-') := by
  cases h with
  | positive whole _ _ _ =>
    obtain ⟨d, rest, rfl, hd⟩ := whole.exists_cons
    exact ⟨d, _, rfl, .inl hd⟩
  | negative whole _ _ _ => exact ⟨'-', _, rfl, .inr rfl⟩

/-- A number is a word, and none of the names. -/
theorem SpelledBy.spells (h : m.SpelledBy cs) : Scan.Spells cs [.number m] := by
  have hends : cs.any Scan.endsWord = false := by
    refine List.any_eq_false.mpr fun c hc => Bool.eq_false_iff.mp ?_
    rcases h.mem hc with hdigit | hmark
    · exact endsWord_of_isDigit hdigit
    · have hmarks : ['-', '+', '.', 'e', 'E'].any Scan.endsWord = false := rfl
      exact Bool.eq_false_iff.mpr (List.any_eq_false.mp hmarks c hmark)
  have hread := h.ofChars?
  obtain ⟨c, rest, rfl, hc⟩ := h.exists_cons
  have hname : ∀ (d : Char) (name : List Char), ¬ (d.isDigit = true ∨ d = '-') →
      c :: rest ≠ d :: name := by
    rintro d name hd heq
    cases heq
    exact hd hc
  have hword : Token.ofWord? (c :: rest) = some (.number m) := by
    rw [Token.ofWord?, if_neg (hname _ _ (by decide)), if_neg (hname _ _ (by decide)),
      if_neg (hname _ _ (by decide)), hread, Option.map_some]
  exact Scan.spells_word hends hword

end Numeral

namespace Node

theorem KeySpelledBy.spells {key : Option String} {ks : List Char} (h : KeySpelledBy key ks) :
    Scan.Spells ks [.text key] := by
  cases h with
  | mk hbefore literal hafter =>
    exact .between hbefore (Scan.spells_literal literal) hafter

theorem ItemsSpelledBy.ends {ns : List Node} {cs : List Char} (h : ItemsSpelledBy ns cs) :
    Scan.Ends cs := by
  cases h with
  | none => exact Scan.ends_cons rfl _
  | next => exact Scan.ends_cons rfl _

theorem MembersSpelledBy.ends {fields : List (Option String × Node)} {cs : List Char}
    (h : MembersSpelledBy fields cs) : Scan.Ends cs := by
  cases h with
  | none => exact Scan.ends_cons rfl _
  | next => exact Scan.ends_cons rfl _

/-- A key, a colon and a value make a member. -/
theorem KeySpelledBy.member {key : Option String} {ks cs ds : List Char} {us vs : List Token}
    (h : KeySpelledBy key ks) (hcs : Scan.Spells cs us) (hends : Scan.Ends ds)
    (hds : Scan.Spells ds vs) :
    Scan.Spells (ks ++ ':' :: cs ++ ds) (.text key :: .colon :: us ++ vs) := by
  rw [List.append_assoc]
  exact h.spells.append (Scan.ends_cons rfl _) ((hcs.append hends hds).mark_cons rfl)

mutual

/-- What spells a document spells its tokens. -/
theorem SpelledBy.spells {n : Node} {cs : List Char} (h : n.SpelledBy cs) :
    Scan.Spells cs n.tokens := by
  cases n with
  | null =>
    cases h
    exact Scan.spells_word rfl rfl
  | bool b =>
    cases h with
    | yes => exact Scan.spells_word rfl rfl
    | no => exact Scan.spells_word rfl rfl
  | number m =>
    cases h with
    | number h => exact h.spells
  | text s =>
    cases h with
    | text h => exact Scan.spells_literal h
  | list items =>
    cases items with
    | nil =>
      cases h with
      | noItems blank => exact ((Scan.spells_mark rfl).blank_append blank).mark_cons rfl
    | cons n rest =>
      cases h with
      | items first others =>
        cases first with
        | mk hbefore hn hafter =>
          have hitem := Scan.Spells.between hbefore hn.spells hafter
          -- A comma or the closing bracket follows the item, so a word at its end is over.
          exact (hitem.append others.ends others.spells).mark_cons rfl
  | members fields =>
    cases fields with
    | nil =>
      cases h with
      | noMembers blank => exact ((Scan.spells_mark rfl).blank_append blank).mark_cons rfl
    | cons field rest =>
      obtain ⟨key, n⟩ := field
      cases h with
      | members first value others =>
        cases value with
        | mk hbefore hn hafter =>
          have hvalue := Scan.Spells.between hbefore hn.spells hafter
          exact (first.member hvalue others.ends others.spells).mark_cons rfl

theorem ItemsSpelledBy.spells {ns : List Node} {cs : List Char} (h : ItemsSpelledBy ns cs) :
    Scan.Spells cs (tokensItems ns) := by
  cases ns with
  | nil =>
    cases h
    exact Scan.spells_mark rfl
  | cons n rest =>
    cases h with
    | next item others =>
      cases item with
      | mk hbefore hn hafter =>
        have hitem := Scan.Spells.between hbefore hn.spells hafter
        exact (hitem.append others.ends others.spells).mark_cons rfl

theorem MembersSpelledBy.spells {fields : List (Option String × Node)} {cs : List Char}
    (h : MembersSpelledBy fields cs) : Scan.Spells cs (tokensMembers fields) := by
  cases fields with
  | nil =>
    cases h
    exact Scan.spells_mark rfl
  | cons field rest =>
    obtain ⟨key, n⟩ := field
    cases h with
    | next first value others =>
      cases value with
      | mk hbefore hn hafter =>
        have hvalue := Scan.Spells.between hbefore hn.spells hafter
        exact (first.member hvalue others.ends others.spells).mark_cons rfl

end

theorem Fills.spells {n : Node} {cs : List Char} (h : n.Fills cs) : Scan.Spells cs n.tokens := by
  cases h with
  | mk hbefore hn hafter => exact .between hbefore hn.spells hafter

/-- A text is read as the document that fills it, however that is spelled. -/
theorem Fills.parse? {n : Node} {text : String} (h : n.Fills text.toList) :
    parse? text = some n := parse?_of_spells h.spells

end Node

end IntentRouter.Json
