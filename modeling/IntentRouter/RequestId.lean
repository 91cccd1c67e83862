import IntentRouter.Json.Text

/-!
# Request identifiers

A request is named by 128 bits. Their text is 32 hexadecimal digits in five
groups joined by hyphens, written small and read in either case. The digits may
also be given without hyphens, and the hyphenated form may stand in braces or
after a fixed mark for names of this kind.
-/

namespace IntentRouter

/-- The name of a request. -/
structure RequestId where
  /-- The bits of the name. -/
  bits : BitVec 128
deriving DecidableEq, Repr

namespace RequestId

/-- The name with the given number, counted modulo `2^128`. -/
def ofNat (n : Nat) : RequestId := ⟨BitVec.ofNat 128 n⟩

instance : Inhabited RequestId := ⟨ofNat 0⟩

/-- The lengths of the five groups of digits. -/
def groups : List Nat := [8, 4, 4, 4, 12]

/-- The 32 digits, most significant first. -/
def digits (r : RequestId) : List Char :=
  (List.range 32).map fun i => Json.Text.hexDigit (r.bits.toNat / Nat.pow 16 (31 - i) % 16)

/-- Cuts digits into groups joined by hyphens. -/
def hyphenate : List Nat → List Char → List Char
  | [], cs => cs
  | [_], cs => cs
  | n :: rest, cs => cs.take n ++ '-' :: hyphenate rest (cs.drop n)

/-- The text of the name. -/
def text (r : RequestId) : String := String.ofList (hyphenate groups r.digits)

/-- Takes groups of the given lengths out of a text that joins them by hyphens. -/
def unhyphenate? : List Nat → List Char → Option (List Char)
  | [], cs => if cs = [] then some [] else none
  | [n], cs => if cs.length = n then some cs else none
  | n :: rest, cs =>
    match cs.drop n with
    | '-' :: tail => (unhyphenate? rest tail).map (cs.take n ++ ·)
    | _ => none

/-- The number that hexadecimal digits spell. -/
def hexNumber? (cs : List Char) : Option Nat :=
  cs.foldlM (fun n c => (Json.Text.hexValue? c).map (16 * n + ·)) 0

/-- The mark in front of the hyphenated form in a uniform resource name. Its letters
count in either case. -/
def resourceMark : List Char := "urn:uuid:".toList

/-- The digits of any of the accepted forms. -/
def spelled? (cs : List Char) : Option (List Char) :=
  if cs.length = 32 then some cs
  else if cs.length = 36 then unhyphenate? groups cs
  else if cs.length = 38 then
    if cs.head? = some '{' ∧ cs.getLast? = some '}' then
      unhyphenate? groups ((cs.drop 1).take 36)
    else none
  else if cs.length = 45 then
    if (cs.take 9).map Char.toLower = resourceMark then unhyphenate? groups (cs.drop 9) else none
  else none

/-- Reads a name in one of its accepted forms. -/
def ofString? (s : String) : Option RequestId :=
  ((spelled? s.toList).bind hexNumber?).map ofNat

end RequestId

end IntentRouter
