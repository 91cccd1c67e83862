import IntentRouter.Json.Token

/-!
# Uninterpreted JSON documents

A node is a JSON text without its blanks: members keep their order and their
repetitions, numbers their spelling, and a text with an unpaired surrogate is
kept as unreadable. What a document means, and which of its parts have to be
readable, is decided by whoever reads it.

The tree is built from tokens with the open containers held in a list, so the
depth of a document is bounded by nothing but its length.
-/

namespace IntentRouter.Json

/-- A JSON document as it is written. -/
inductive Node where
  /-- The empty value. -/
  | null
  /-- A truth value. -/
  | bool (b : Bool)
  /-- A number literal. -/
  | number (n : Numeral)
  /-- A text; `none` when a surrogate in it has no partner. -/
  | text (s : Option String)
  /-- An array. -/
  | list (items : List Node)
  /-- An object: its members in order, with any repetition. -/
  | members (fields : List (Option String × Node))
deriving Inhabited, Repr

/-- A container that has been opened and not yet closed, last element first. -/
inductive Frame where
  /-- An array with its complete items. -/
  | list (items : List Node)
  /-- An object with its complete members. -/
  | members (fields : List (Option String × Node))
  /-- An object in which the value of a key is still to come. -/
  | member (fields : List (Option String × Node)) (key : Option String)

/-- What may follow in a document that is part way through. -/
inductive Expected where
  /-- A value. -/
  | value
  /-- A value, or the end of an array that has just been opened. -/
  | valueOrEnd
  /-- A key. -/
  | key
  /-- A key, or the end of an object that has just been opened. -/
  | keyOrEnd
  /-- The colon after a key. -/
  | colon
  /-- A comma, or the end of the innermost container. -/
  | commaOrEnd
  /-- Nothing: the document is complete. -/
  | nothing (document : Node)

/-- A document part way through. -/
structure Draft where
  /-- What may follow. -/
  expected : Expected
  /-- The open containers, innermost first. -/
  frames : List Frame

namespace Draft

/-- A document of which nothing has been read. -/
def start : Draft := ⟨.value, []⟩

/-- A complete value takes its place in the innermost open container. -/
def place (n : Node) : List Frame → Option Draft
  | [] => some ⟨.nothing n, []⟩
  | .list items :: frames => some ⟨.commaOrEnd, .list (n :: items) :: frames⟩
  | .member fields key :: frames => some ⟨.commaOrEnd, .members ((key, n) :: fields) :: frames⟩
  | .members _ :: _ => none

/-- Reads a token where a value has to begin. -/
def begin (frames : List Frame) : Token → Option Draft
  | .openBracket => some ⟨.valueOrEnd, .list [] :: frames⟩
  | .openBrace => some ⟨.keyOrEnd, .members [] :: frames⟩
  | .null => place .null frames
  | .bool b => place (.bool b) frames
  | .number n => place (.number n) frames
  | .text s => place (.text s) frames
  | _ => none

/-- Closes the innermost container, if the mark fits it. -/
def close (frames : List Frame) (t : Token) : Option Draft :=
  match t, frames with
  | .closeBracket, .list items :: rest => place (.list items.reverse) rest
  | .closeBrace, .members fields :: rest => place (.members fields.reverse) rest
  | _, _ => none

/-- Reads one token; `none` when no document goes on like this. -/
def step (d : Draft) (t : Token) : Option Draft :=
  match d.expected, t, d.frames with
  | .value, t, frames => begin frames t
  | .valueOrEnd, .closeBracket, frames => close frames .closeBracket
  | .valueOrEnd, t, frames => begin frames t
  | .keyOrEnd, .closeBrace, frames => close frames .closeBrace
  | .keyOrEnd, .text s, .members fields :: frames => some ⟨.colon, .member fields s :: frames⟩
  | .key, .text s, .members fields :: frames => some ⟨.colon, .member fields s :: frames⟩
  | .colon, .colon, frames => some ⟨.value, frames⟩
  | .commaOrEnd, .comma, .list items :: frames => some ⟨.value, .list items :: frames⟩
  | .commaOrEnd, .comma, .members fields :: frames => some ⟨.key, .members fields :: frames⟩
  | .commaOrEnd, t, frames => close frames t
  | _, _, _ => none

/-- Reads tokens from where the draft stands. -/
def run (d : Draft) (ts : List Token) : Option Draft := ts.foldlM step d

/-- The document, once it is complete. -/
def finish (d : Draft) : Option Node :=
  match d.expected with
  | .nothing n => some n
  | _ => none

/-- Reading two runs of tokens in turn is reading them joined. -/
theorem run_append (d : Draft) (ts us : List Token) :
    d.run (ts ++ us) = (d.run ts).bind fun e => e.run us := by
  simp [run, List.foldlM_append, bind]

end Draft

namespace Node

/-- The document that a run of tokens spells. -/
def ofTokens? (ts : List Token) : Option Node := (Draft.start.run ts).bind Draft.finish

/-- The document that a text spells, with blanks around it and nothing else. -/
def parse? (text : String) : Option Node := (tokens? text.toList).bind ofTokens?

/-- The natural number as a node. -/
def ofNat (n : Nat) : Node := .number (.ofNat n)

/-- The integer as a node. -/
def ofInt (i : Int) : Node := .number (.ofInt i)

/-- The readable text as a node. -/
def ofString (s : String) : Node := .text (some s)

/-- A text or the empty value. -/
def ofString? (s : Option String) : Node := s.elim .null ofString

/-- An array of readable texts. -/
def ofStrings (ss : List String) : Node := .list (ss.map ofString)

/-- An object with readable keys, in the given order. -/
def object (fields : List (String × Node)) : Node :=
  .members (fields.map fun (key, value) => (some key, value))

mutual

/-- The compact text: no blank anywhere, members in their order. An unreadable
text is written as an empty one. -/
def chars : Node → List Char
  | .null => ['n', 'u', 'l', 'l']
  | .bool true => ['t', 'r', 'u', 'e']
  | .bool false => ['f', 'a', 'l', 's', 'e']
  | .number n => n.chars
  | .text s => Text.quote (s.getD "")
  | .list [] => ['[', ']']
  | .list (n :: rest) => '[' :: chars n ++ charsItems rest
  | .members [] => ['{', '}']
  | .members ((key, n) :: rest) =>
    '{' :: Text.quote (key.getD "") ++ ':' :: chars n ++ charsMembers rest

/-- The items after the first one, with the closing bracket. -/
def charsItems : List Node → List Char
  | [] => [']']
  | n :: rest => ',' :: chars n ++ charsItems rest

/-- The members after the first one, with the closing brace. -/
def charsMembers : List (Option String × Node) → List Char
  | [] => ['}']
  | (key, n) :: rest => ',' :: Text.quote (key.getD "") ++ ':' :: chars n ++ charsMembers rest

end

/-- The compact text as a string. -/
def render (n : Node) : String := String.ofList n.chars

end Node

end IntentRouter.Json
