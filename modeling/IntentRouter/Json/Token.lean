import IntentRouter.Json.Numeral
import IntentRouter.Json.Text

/-!
# Tokens of a JSON text

The text is read one character at a time. A scan holds the tokens that are
complete and the one that is under way; a word (a number or one of the three
names) ends where a blank, a quote or a punctuation mark begins. The reading is
strict: no comments, no byte order mark, and no control character inside a
string literal.
-/

namespace IntentRouter.Json

/-- The tokens of a JSON text. -/
inductive Token where
  /-- An opening brace. -/
  | openBrace
  /-- A closing brace. -/
  | closeBrace
  /-- An opening bracket. -/
  | openBracket
  /-- A closing bracket. -/
  | closeBracket
  /-- The colon after a key. -/
  | colon
  /-- The comma between members or items. -/
  | comma
  /-- The name of the empty value. -/
  | null
  /-- One of the two truth values. -/
  | bool (b : Bool)
  /-- A number literal. -/
  | number (n : Numeral)
  /-- A string literal; `none` when a surrogate in it has no partner. -/
  | text (s : Option String)
deriving DecidableEq, Repr

namespace Token

/-- A blank between tokens: space, tabulator, line feed or carriage return. -/
def isBlank (c : Char) : Bool := c = ' ' || c = '\t' || c = '\n' || c = '\r'

/-- The token that a punctuation mark stands for. -/
def ofMark? : Char → Option Token
  | '{' => some .openBrace
  | '}' => some .closeBrace
  | '[' => some .openBracket
  | ']' => some .closeBracket
  | ':' => some .colon
  | ',' => some .comma
  | _ => none

/-- The token of a complete word: one of the three names, or a number. -/
def ofWord? (word : List Char) : Option Token :=
  if word = ['n', 'u', 'l', 'l'] then some .null
  else if word = ['t', 'r', 'u', 'e'] then some (.bool true)
  else if word = ['f', 'a', 'l', 's', 'e'] then some (.bool false)
  else (Numeral.ofChars? word).map .number

/-- The token of a complete string literal. -/
def ofUnits (units : List CodeUnit) : Token :=
  .text ((CodeUnit.chars? units).map String.ofList)

end Token

/-- What the scan is in the middle of. Runs under way are kept last element first. -/
inductive Under where
  /-- Between tokens. -/
  | gap
  /-- Inside a word. -/
  | word (reversed : List Char)
  /-- Inside a string literal. -/
  | text (reversed : List CodeUnit)
  /-- After a backslash in a string literal. -/
  | escape (reversed : List CodeUnit)
  /-- Inside a hexadecimal escape: its value so far, and how many digits are still to come. -/
  | hex (reversed : List CodeUnit) (value : Nat) (remaining : Nat)
deriving DecidableEq, Repr

/-- A scan part way through a text. -/
structure Scan where
  /-- What the next character belongs to. -/
  under : Under
  /-- The complete tokens, last one first. -/
  reversed : List Token
deriving DecidableEq, Repr

namespace Scan

/-- A scan before the first character. -/
def start : Scan := ⟨.gap, []⟩

/-- Reads a character between tokens. -/
def opening (tokens : List Token) (c : Char) : Scan :=
  if Token.isBlank c then ⟨.gap, tokens⟩
  else match Token.ofMark? c with
    | some mark => ⟨.gap, mark :: tokens⟩
    | none => if c = '"' then ⟨.text [], tokens⟩ else ⟨.word [c], tokens⟩

/-- Whether a character ends a word. -/
def endsWord (c : Char) : Bool := Token.isBlank c || (Token.ofMark? c).isSome || c = '"'

/-- Reads one character; `none` when no JSON text goes on like this. -/
def step (s : Scan) (c : Char) : Option Scan :=
  match s.under with
  | .gap => some (opening s.reversed c)
  | .word cs =>
    if endsWord c then
      (Token.ofWord? cs.reverse).map fun token => opening (token :: s.reversed) c
    else some ⟨.word (c :: cs), s.reversed⟩
  | .text units =>
    if c = '"' then some ⟨.gap, Token.ofUnits units.reverse :: s.reversed⟩
    else if c = '\\' then some ⟨.escape units, s.reversed⟩
    else if c.toNat < 0x20 then none
    else some ⟨.text (.char c :: units), s.reversed⟩
  | .escape units =>
    if c = 'u' then some ⟨.hex units 0 4, s.reversed⟩
    else (Text.shortEscape? c).map fun e => ⟨.text (.char e :: units), s.reversed⟩
  | .hex units value remaining =>
    (Text.hexValue? c).map fun digit =>
      let value := 16 * value + digit
      if remaining ≤ 1 then ⟨.text (.unit16 value :: units), s.reversed⟩
      else ⟨.hex units value (remaining - 1), s.reversed⟩

/-- Reads characters from where the scan stands. -/
def run (s : Scan) (cs : List Char) : Option Scan := cs.foldlM step s

/-- The tokens of a text that has been read to its end. -/
def finish (s : Scan) : Option (List Token) :=
  match s.under with
  | .gap => some s.reversed.reverse
  | .word cs => (Token.ofWord? cs.reverse).map fun token => (token :: s.reversed).reverse
  | _ => none

/-- Reading two pieces of text in turn is reading them joined. -/
theorem run_append (s : Scan) (cs ds : List Char) :
    s.run (cs ++ ds) = (s.run cs).bind fun t => t.run ds := by
  simp [run, List.foldlM_append, bind]

end Scan

/-- The tokens of a text, if it consists of tokens and blanks. -/
def tokens? (text : List Char) : Option (List Token) :=
  (Scan.start.run text).bind Scan.finish

end IntentRouter.Json
