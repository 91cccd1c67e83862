import IntentRouter.Proofs.Grammar
import IntentRouter.Proofs.Numbers
import Mathlib.Tactic.SplitIfs

/-!
# Compact texts are read back

The compact text of a document is one of the texts that spell it: characters are escaped only where
they have to be, and there are no blanks. So it is read as the document.
-/

namespace IntentRouter.Json

theorem Text.hexDigit_hexDigit {d : Nat} (h : d < 16) : HexDigit (hexDigit d) d := ⟨h, .inl rfl⟩

/-! ## Literals -/

/-- A character is written as a unit that stands for it. -/
theorem Text.exists_escape (c : Char) :
    ∃ u : CodeUnit, u.SpelledBy (Text.escape c) ∧
      ∀ us cs, CodeUnit.Forms us cs → CodeUnit.Forms (u :: us) (c :: cs) := by
  unfold Text.escape
  split_ifs with hquote hslash _ _ _ _ _ hcontrol
  -- The characters with a short escape.
  any_goals
    subst c
    exact ⟨.char _, .short (by decide), fun _ _ => .char _⟩
  · -- A control character that has none is written with two zeros and two other digits.
    have hlow : c.toNat % 16 < 16 := Nat.mod_lt _ (by decide)
    have hhigh : c.toNat / 16 < 16 := by omega
    have hzero : HexDigit '0' 0 := by decide
    have hspelled := CodeUnit.SpelledBy.hex hzero hzero (Text.hexDigit_hexDigit hhigh)
      (Text.hexDigit_hexDigit hlow)
    rw [Nat.mul_zero, Nat.zero_add, Nat.div_add_mod] at hspelled
    refine ⟨.unit16 c.toNat, hspelled, fun us cs hforms => ?_⟩
    have hsingle := CodeUnit.Forms.single (n := c.toNat) (.inl (by omega)) hforms
    rwa [Char.ofNat_toNat] at hsingle
  · exact ⟨.char c, .plain hquote hslash (Nat.not_lt.mp hcontrol), fun _ _ => .char c⟩

theorem Text.exists_escapes (cs : List Char) :
    ∃ units : List CodeUnit, List.Forall₂ CodeUnit.SpelledBy units (cs.map Text.escape) ∧
      CodeUnit.Forms units cs := by
  induction cs with
  | nil => exact ⟨[], .nil, .nil⟩
  | cons c cs ih =>
    obtain ⟨units, heach, hforms⟩ := ih
    obtain ⟨u, hu, hone⟩ := Text.exists_escape c
    exact ⟨u :: units, .cons hu heach, hone _ _ hforms⟩

/-- A quoted text is a literal of it. -/
theorem Text.quote_spelledBy (s : String) : Text.SpelledBy (some s) (Text.quote s) := by
  obtain ⟨units, heach, hforms⟩ := Text.exists_escapes s.toList
  have hspelled := Text.SpelledBy.readable heach hforms
  rwa [← List.flatMap_def] at hspelled

/-- The literal of an integer is one that the grammar allows. -/
theorem Numeral.Plain.spelledBy {n : Numeral} (h : n.Plain) : n.SpelledBy n.chars := by
  have hchars := h.chars
  obtain ⟨negative, whole, fraction, exponent⟩ := n
  obtain ⟨rfl, rfl, hdigits, hallowed⟩ := h
  have hwhole : Digits whole := ⟨ne_nil_of_wholeAllowed hallowed, hdigits⟩
  rw [hchars]
  cases negative with
  | true =>
    have h := SpelledBy.negative hwhole (eq_zero_of_wholeAllowed hallowed) .absent .absent
    rwa [List.append_nil, List.append_nil] at h
  | false =>
    have h := SpelledBy.positive hwhole (eq_zero_of_wholeAllowed hallowed) .absent .absent
    rwa [List.append_nil, List.append_nil] at h

/-! ## Documents -/

namespace Node

mutual

/-- All texts and keys are readable, and all numbers are literals of integers. -/
def Printable : Node → Prop
  | .number n => n.Plain
  | .text s => s.isSome
  | .list items => PrintableItems items
  | .members fields => PrintableMembers fields
  | _ => True

/-- All items are printable. -/
def PrintableItems : List Node → Prop
  | [] => True
  | n :: rest => Printable n ∧ PrintableItems rest

/-- All keys are readable, and all values are printable. -/
def PrintableMembers : List (Option String × Node) → Prop
  | [] => True
  | (key, n) :: rest => key.isSome ∧ Printable n ∧ PrintableMembers rest

end

theorem SpelledBy.fills {n : Node} {cs : List Char} (h : n.SpelledBy cs) : n.Fills cs := by
  have hfills := @Fills.mk n [] cs [] blank_nil h blank_nil
  rwa [List.nil_append, List.append_nil] at hfills

theorem keySpelledBy_quote (key : String) : KeySpelledBy (some key) (Text.quote key) := by
  have hkey := @KeySpelledBy.mk (some key) [] (Text.quote key) [] blank_nil
    (Text.quote_spelledBy key) blank_nil
  rwa [List.nil_append, List.append_nil] at hkey

mutual

/-- The compact text of a document spells it. -/
theorem Printable.spelledBy {n : Node} (h : n.Printable) : n.SpelledBy n.chars := by
  cases n with
  | null => exact .null
  | bool b =>
    cases b with
    | true => exact .yes
    | false => exact .no
  | number m => exact .number (Numeral.Plain.spelledBy h)
  | text s =>
    obtain ⟨s, rfl⟩ := Option.isSome_iff_exists.mp h
    exact .text (Text.quote_spelledBy s)
  | list items =>
    cases items with
    | nil => exact @SpelledBy.noItems [] blank_nil
    | cons n rest => exact .items h.1.spelledBy.fills (PrintableItems.spelledBy h.2)
  | members fields =>
    cases fields with
    | nil => exact @SpelledBy.noMembers [] blank_nil
    | cons field rest =>
      obtain ⟨key, n⟩ := field
      obtain ⟨hkey, hn, hrest⟩ := h
      obtain ⟨key, rfl⟩ := Option.isSome_iff_exists.mp hkey
      exact .members (keySpelledBy_quote key) hn.spelledBy.fills (PrintableMembers.spelledBy hrest)

theorem PrintableItems.spelledBy {ns : List Node} (h : PrintableItems ns) :
    ItemsSpelledBy ns (charsItems ns) := by
  cases ns with
  | nil => exact .none
  | cons n rest => exact .next h.1.spelledBy.fills (PrintableItems.spelledBy h.2)

theorem PrintableMembers.spelledBy {fields : List (Option String × Node)}
    (h : PrintableMembers fields) : MembersSpelledBy fields (charsMembers fields) := by
  cases fields with
  | nil => exact .none
  | cons field rest =>
    obtain ⟨key, n⟩ := field
    obtain ⟨hkey, hn, hrest⟩ := h
    obtain ⟨key, rfl⟩ := Option.isSome_iff_exists.mp hkey
    exact .next (keySpelledBy_quote key) hn.spelledBy.fills (PrintableMembers.spelledBy hrest)

end

theorem Printable.fills {n : Node} (h : n.Printable) : n.Fills n.render.toList := by
  rw [render, String.toList_ofList]
  exact h.spelledBy.fills

/-- The compact text of a document is read as the document. -/
theorem Printable.parse? {n : Node} (h : n.Printable) : parse? n.render = some n := h.fills.parse?

end Node

end IntentRouter.Json
