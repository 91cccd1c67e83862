/-!
# Quoted texts

The inside of a string literal is a run of code units: characters written as
they are or by a short escape, and sixteen-bit units written in hexadecimal.
Two units that form a surrogate pair make one character; a surrogate without
its partner makes the text unreadable.
-/

namespace IntentRouter.Json

/-- One element of a string literal, after its escape has been read. -/
inductive CodeUnit where
  /-- A character that stands for itself or was written by a short escape. -/
  | char (c : Char)
  /-- A sixteen-bit unit written by four hexadecimal digits. -/
  | unit16 (n : Nat)
deriving DecidableEq, Repr

namespace CodeUnit

/-- The unit is the first half of a surrogate pair. -/
def isLeading (n : Nat) : Bool := 0xD800 ≤ n && n < 0xDC00

/-- The unit is the second half of a surrogate pair. -/
def isTrailing (n : Nat) : Bool := 0xDC00 ≤ n && n < 0xE000

/-- The character of a surrogate pair. -/
def pair (high low : Nat) : Char :=
  Char.ofNat (0x10000 + (high - 0xD800) * 0x400 + (low - 0xDC00))

/-- The characters of a run of units; `none` when a surrogate has no partner
directly after or before it. -/
def chars? : List CodeUnit → Option (List Char)
  | [] => some []
  | .char c :: rest => (chars? rest).map (c :: ·)
  | .unit16 n :: rest =>
    if isLeading n then
      match rest with
      | .unit16 m :: rest' => if isTrailing m then (chars? rest').map (pair n m :: ·) else none
      | _ => none
    else if isTrailing n then none
    else (chars? rest).map (Char.ofNat n :: ·)

end CodeUnit

namespace Text

/-- The character that a one-letter escape stands for. -/
def shortEscape? : Char → Option Char
  | '"' => some '"'
  | '\\' => some '\\'
  | '/' => some '/'
  | 'b' => some '\x08'
  | 'f' => some '\x0c'
  | 'n' => some '\n'
  | 'r' => some '\r'
  | 't' => some '\t'
  | _ => none

/-- The value of a hexadecimal digit of either case. -/
def hexValue? (c : Char) : Option Nat :=
  if '0' ≤ c ∧ c ≤ '9' then some (c.toNat - '0'.toNat)
  else if 'a' ≤ c ∧ c ≤ 'f' then some (c.toNat - 'a'.toNat + 10)
  else if 'A' ≤ c ∧ c ≤ 'F' then some (c.toNat - 'A'.toNat + 10)
  else none

/-- The small hexadecimal digit of a value below sixteen. -/
def hexDigit (n : Nat) : Char := Nat.digitChar n

/-- A character as it is written inside a literal: only the quote, the
backslash and the control characters below the blank are escaped. -/
def escape (c : Char) : List Char :=
  if c = '"' then ['\\', '"']
  else if c = '\\' then ['\\', '\\']
  else if c = '\x08' then ['\\', 'b']
  else if c = '\x0c' then ['\\', 'f']
  else if c = '\n' then ['\\', 'n']
  else if c = '\r' then ['\\', 'r']
  else if c = '\t' then ['\\', 't']
  else if c.toNat < 0x20 then
    ['\\', 'u', '0', '0', hexDigit (c.toNat / 16), hexDigit (c.toNat % 16)]
  else [c]

/-- A text as a string literal. -/
def quote (s : String) : List Char :=
  '"' :: s.toList.flatMap escape ++ ['"']

end Text

end IntentRouter.Json
