import IntentRouter.Proofs.Grammar

/-!
# What is read is spelled

Only what the grammar allows is read. A draft remembers in its open containers which tokens have led
to it, and a scan remembers in its tokens, and in what is under way, which characters have: so a
document that has been read is the one that its tokens make up, and these tokens are spelled by the
text with blanks in between. Together with the other direction, a text is read as a document just if
it spells this document.
-/

namespace IntentRouter.Json

/-! ## The tokens that have led to a draft -/

namespace Node

/-- The tokens of a member: its key, a colon and its value. -/
def tokensMember (field : Option String × Node) : List Token :=
  .text field.1 :: .colon :: field.2.tokens

theorem tokensItems_eq (ns : List Node) :
    tokensItems ns = ns.flatMap (fun n => .comma :: n.tokens) ++ [.closeBracket] := by
  induction ns with
  | nil => rfl
  | cons n rest ih => rw [tokensItems, ih, List.flatMap_cons, List.append_assoc]

theorem tokensMembers_eq (fields : List (Option String × Node)) :
    tokensMembers fields =
      fields.flatMap (fun field => .comma :: tokensMember field) ++ [.closeBrace] := by
  induction fields with
  | nil => rfl
  | cons field rest ih => rw [tokensMembers, ih, List.flatMap_cons, List.append_assoc]; rfl

/-- A comma before every element but the first, and one at the end, is a comma after every one. -/
theorem flatMap_comma {α : Type} (f : α → List Token) (a : α) (as : List α) :
    f a ++ as.flatMap (fun b => .comma :: f b) ++ [.comma] =
      (a :: as).flatMap fun b => f b ++ [.comma] := by
  induction as generalizing a with
  | nil => rw [List.flatMap_nil, List.append_nil, List.flatMap_singleton]
  | cons b as ih =>
    rw [List.flatMap_cons, List.flatMap_cons, ← ih b]
    simp only [List.cons_append, List.append_assoc, List.nil_append]

/-- Where a comma comes next in a container, there are elements. -/
theorem exists_of_comma {α : Type} {f : α → List Token} {as : List α} {opening : Token}
    {before ts : List Token} (hopening : opening ≠ .comma)
    (h : before ++ opening :: as.flatMap (fun a => f a ++ [.comma]) = ts ++ [.comma]) :
    ∃ a rest, as = a :: rest ∧
      ts = before ++ opening :: (f a ++ rest.flatMap fun b => .comma :: f b) := by
  cases as with
  | nil =>
    -- Without an element, the last token would be the opening mark.
    rw [List.flatMap_nil] at h
    cases (List.append_inj' h rfl).2
    exact absurd rfl hopening
  | cons a rest =>
    refine ⟨a, rest, rfl, ?_⟩
    rw [← flatMap_comma, ← List.cons_append, ← List.append_assoc] at h
    exact (List.append_cancel_right h).symm

end Node

/-- The tokens that have led into a container, up to where its next value or key begins. -/
def Frame.tokens : Frame → List Token
  | .list items => .openBracket :: items.reverse.flatMap fun n => n.tokens ++ [.comma]
  | .members fields =>
    .openBrace :: fields.reverse.flatMap fun field => Node.tokensMember field ++ [.comma]
  | .member fields key =>
    .openBrace :: fields.reverse.flatMap (fun field => Node.tokensMember field ++ [.comma]) ++
      [.text key, .colon]

namespace Draft

/-- The tokens that have led into the open containers, of which the innermost comes first here and
has been opened last. -/
def opened : List Frame → List Token
  | [] => []
  | frame :: frames => opened frames ++ frame.tokens

/-- The tokens have led to the draft. -/
inductive Reads : Draft → List Token → Prop where
  /-- They end where a value begins. -/
  | value (frames : List Frame) : Reads ⟨.value, frames⟩ (opened frames)
  /-- They end at the beginning of an array. -/
  | valueOrEnd (frames : List Frame) :
    Reads ⟨.valueOrEnd, .list [] :: frames⟩ (opened (.list [] :: frames))
  /-- They end where a key begins. -/
  | key (frames : List Frame) : Reads ⟨.key, frames⟩ (opened frames)
  /-- They end at the beginning of an object. -/
  | keyOrEnd (frames : List Frame) :
    Reads ⟨.keyOrEnd, .members [] :: frames⟩ (opened (.members [] :: frames))
  /-- A value begins after a colon. -/
  | colon {frames : List Frame} {ts : List Token} (h : opened frames = ts ++ [.colon]) :
    Reads ⟨.colon, frames⟩ ts
  /-- A value or a key begins after a comma. -/
  | commaOrEnd {frames : List Frame} {ts : List Token} (h : opened frames = ts ++ [.comma]) :
    Reads ⟨.commaOrEnd, frames⟩ ts
  /-- They make up the document. -/
  | nothing (n : Node) (frames : List Frame) : Reads ⟨.nothing n, frames⟩ n.tokens

variable {frames : List Frame} {d d' : Draft} {t : Token} {ts us : List Token}

/-- A complete value is followed by a comma, or it is the document. -/
theorem reads_place {n : Node} (h : place n frames = some d) :
    Reads d (opened frames ++ n.tokens) := by
  cases frames with
  | nil =>
    cases h
    exact .nothing n []
  | cons frame frames =>
    cases frame with
    | list items =>
      cases h
      refine .commaOrEnd ?_
      simp only [opened, Frame.tokens, List.reverse_cons, List.flatMap_append,
        List.flatMap_singleton, List.append_assoc, List.cons_append]
    | member fields key =>
      cases h
      refine .commaOrEnd ?_
      simp only [opened, Frame.tokens, Node.tokensMember, List.reverse_cons, List.flatMap_append,
        List.flatMap_singleton, List.append_assoc, List.cons_append, List.nil_append]
    | members fields => cases h

/-- A value begins with its first token. -/
theorem reads_begin (h : begin frames t = some d) : Reads d (opened frames ++ [t]) := by
  cases t with
  | openBracket =>
    cases h
    exact .valueOrEnd frames
  | openBrace =>
    cases h
    exact .keyOrEnd frames
  | null => exact reads_place (n := .null) h
  | bool b => exact reads_place (n := .bool b) h
  | number m => exact reads_place (n := .number m) h
  | text s => exact reads_place (n := .text s) h
  | closeBracket | closeBrace | colon | comma => cases h

/-- A container is closed where a comma could stand. -/
theorem reads_close (hopened : opened frames = ts ++ [.comma]) (h : close frames t = some d) :
    Reads d (ts ++ [t]) := by
  unfold close at h
  split at h
  · next items rest =>
    obtain ⟨n, others, hitems, rfl⟩ := Node.exists_of_comma (f := Node.tokens) (by decide) hopened
    have hreads := reads_place h
    rw [hitems, Node.tokens, Node.tokensItems_eq] at hreads
    simpa only [List.append_assoc, List.cons_append] using hreads
  · next fields rest =>
    obtain ⟨⟨key, n⟩, others, hfields, rfl⟩ :=
      Node.exists_of_comma (f := Node.tokensMember) (by decide) hopened
    have hreads := reads_place h
    rw [hfields, Node.tokens, Node.tokensMembers_eq] at hreads
    simpa only [Node.tokensMember, List.append_assoc, List.cons_append] using hreads
  · cases h

/-- A key begins a member. -/
theorem reads_key (h : step ⟨.key, frames⟩ t = some d) : Reads d (opened frames ++ [t]) := by
  cases t with
  | text s =>
    cases frames with
    | nil => cases h
    | cons frame frames =>
      cases frame with
      | members fields =>
        cases h
        refine .colon ?_
        simp only [opened, Frame.tokens, List.append_assoc, List.cons_append, List.nil_append]
      | list | member => cases h
  | _ => cases h

/-- In an object that has just been opened, anything but its end begins a member. -/
theorem step_keyOrEnd (h : t ≠ .closeBrace) :
    step ⟨.keyOrEnd, frames⟩ t = step ⟨.key, frames⟩ t := by
  cases t with
  | closeBrace => exact absurd rfl h
  | text s =>
    cases frames with
    | nil => rfl
    | cons frame frames => cases frame <;> rfl
  | _ => rfl

/-- Anything but a comma has to close the container. -/
theorem step_commaOrEnd (h : t ≠ .comma) : step ⟨.commaOrEnd, frames⟩ t = close frames t := by
  cases t <;> first | rfl | exact absurd rfl h

/-- A comma is followed by a value in an array and by a key in an object. -/
theorem reads_comma (hopened : opened frames = ts ++ [.comma])
    (h : step ⟨.commaOrEnd, frames⟩ .comma = some d) : Reads d (ts ++ [.comma]) := by
  rw [← hopened]
  cases frames with
  | nil => cases h
  | cons frame frames =>
    cases frame with
    | list items =>
      cases h
      exact .value _
    | members fields =>
      cases h
      exact .key _
    | member => cases h

/-- Every token is remembered. -/
theorem Reads.step (hreads : Reads d ts) (h : d.step t = some d') : Reads d' (ts ++ [t]) := by
  cases hreads with
  | value frames => exact reads_begin h
  | valueOrEnd frames =>
    -- Here an array ends without items, so this is not the end after an item.
    by_cases ht : t = .closeBracket
    · subst ht
      have hplace := reads_place (show place (.list []) frames = some d' from h)
      rwa [opened, List.append_assoc]
    · rw [step_valueOrEnd ht] at h
      exact reads_begin h
  | key frames => exact reads_key h
  | keyOrEnd frames =>
    by_cases ht : t = .closeBrace
    · subst ht
      have hplace := reads_place (show place (.members []) frames = some d' from h)
      rwa [opened, List.append_assoc]
    · rw [step_keyOrEnd ht] at h
      exact reads_key h
  | colon hopened =>
    cases t with
    | colon =>
      cases h
      rw [← hopened]
      exact .value _
    | _ => cases h
  | commaOrEnd hopened =>
    by_cases ht : t = .comma
    · subst ht
      exact reads_comma hopened h
    · rw [step_commaOrEnd ht] at h
      exact reads_close hopened h
  | nothing n frames => cases t <;> cases h

/-- So are all of them. -/
theorem Reads.run (hreads : Reads d ts) (h : d.run us = some d') : Reads d' (ts ++ us) := by
  induction us generalizing d ts with
  | nil =>
    cases h
    rwa [List.append_nil]
  | cons t us ih =>
    rw [run_cons, Option.bind_eq_some_iff] at h
    obtain ⟨e, hstep, hrun⟩ := h
    have hall := ih (hreads.step hstep) hrun
    rwa [List.append_assoc, List.singleton_append] at hall

end Draft

/-- A document that has been read is the one that the tokens make up. -/
theorem Node.ofTokens?_eq_some_iff {ts : List Token} {n : Node} :
    ofTokens? ts = some n ↔ ts = n.tokens := by
  constructor
  · intro h
    rw [ofTokens?, Option.bind_eq_some_iff] at h
    obtain ⟨⟨expected, frames⟩, hrun, hfinish⟩ := h
    have hreads := (Draft.Reads.value []).run hrun
    cases hreads with
    | nothing n frames =>
      cases hfinish
      rfl
    | _ => cases hfinish
  · rintro rfl
    exact ofTokens?_tokens n

/-! ## Numbers that have been read -/

theorem digits_takeWhile {cs : List Char} (h : cs.takeWhile Char.isDigit ≠ []) :
    Digits (cs.takeWhile Char.isDigit) := ⟨h, fun _ => List.mem_takeWhile_imp⟩

namespace Numeral

variable {cs : List Char} {fraction : Option (List Char)} {exponent : Option Exponent}
  {m : Numeral}

theorem spelledBy_of_exponent? (h : exponent? cs = some exponent) :
    ExponentSpelledBy exponent cs := by
  unfold exponent? at h
  split at h
  · cases h
    exact .absent
  · split at h
    · next hmark =>
      split at h
      next hsign =>
        split at h
        · next hdigits =>
          cases h
          have hall := List.all_eq_true.mp hdigits.2
          split at hsign <;> cases hsign
          · exact .plus hmark ⟨hdigits.1, hall⟩
          · exact .minus hmark ⟨hdigits.1, hall⟩
          · exact .unsigned hmark ⟨hdigits.1, hall⟩
        · cases h
    · cases h

theorem exists_of_tail? (h : tail? cs = some (fraction, exponent)) :
    ∃ fs es, cs = fs ++ es ∧ FractionSpelledBy fraction fs ∧ ExponentSpelledBy exponent es := by
  unfold tail? at h
  split at h
  · dsimp only at h
    split at h
    · cases h
    · next hsome =>
      obtain ⟨_, hexponent, hboth⟩ := Option.map_eq_some_iff.mp h
      cases hboth
      refine ⟨_, _, ?_, .digits (digits_takeWhile hsome), spelledBy_of_exponent? hexponent⟩
      rw [List.cons_append, List.takeWhile_append_dropWhile]
  · obtain ⟨_, hexponent, hboth⟩ := Option.map_eq_some_iff.mp h
    cases hboth
    exact ⟨[], cs, rfl, .absent, spelledBy_of_exponent? hexponent⟩

/-- A word that is read as a number is written like this number. -/
theorem spelledBy_of_ofChars? (h : ofChars? cs = some m) : m.SpelledBy cs := by
  unfold ofChars? at h
  split at h
  next unsigned hsign =>
    dsimp only at h
    split at h
    · next hwhole =>
      obtain ⟨⟨fraction, exponent⟩, htail, rfl⟩ := Option.map_eq_some_iff.mp h
      obtain ⟨fs, es, hrest, hfraction, hexponent⟩ := exists_of_tail? htail
      have hunsigned : unsigned.takeWhile Char.isDigit ++ fs ++ es = unsigned := by
        rw [List.append_assoc, ← hrest, List.takeWhile_append_dropWhile]
      have hdigits := digits_takeWhile (ne_nil_of_wholeAllowed hwhole)
      have hzero := @eq_zero_of_wholeAllowed _ hwhole
      split at hsign <;> cases hsign
      · have hspelled := SpelledBy.negative hdigits hzero hfraction hexponent
        rwa [hunsigned] at hspelled
      · have hspelled := SpelledBy.positive hdigits hzero hfraction hexponent
        rwa [hunsigned] at hspelled
    · cases h

end Numeral

/-! ## The characters that have led to a scan -/

/-- The characters write the token. -/
inductive Token.SpelledBy : Token → List Char → Prop where
  /-- A mark. -/
  | mark {t : Token} {c : Char} (h : ofMark? c = some t) : SpelledBy t [c]
  /-- The name of the empty value. -/
  | null : SpelledBy .null ['n', 'u', 'l', 'l']
  /-- The name of what is true. -/
  | yes : SpelledBy (.bool true) ['t', 'r', 'u', 'e']
  /-- The name of what is false. -/
  | no : SpelledBy (.bool false) ['f', 'a', 'l', 's', 'e']
  /-- A number. -/
  | number {m : Numeral} {cs : List Char} (h : m.SpelledBy cs) : SpelledBy (.number m) cs
  /-- A literal. -/
  | text {s : Option String} {cs : List Char} (h : Text.SpelledBy s cs) : SpelledBy (.text s) cs

/-- The characters write the tokens, one after another with blanks before, between and after. -/
inductive Written : List Token → List Char → Prop where
  /-- There are only blanks. -/
  | blank {bs : List Char} (h : Blank bs) : Written [] bs
  /-- There are a token and others. -/
  | token {t : Token} {ts : List Token} {bs cs ds : List Char} (before : Blank bs)
    (first : t.SpelledBy cs) (others : Written ts ds) : Written (t :: ts) (bs ++ cs ++ ds)

theorem Token.spelledBy_of_ofWord? {word : List Char} {t : Token} (h : ofWord? word = some t) :
    t.SpelledBy word := by
  unfold ofWord? at h
  split_ifs at h with hnull hyes hno
  · cases h
    exact hnull ▸ .null
  · cases h
    exact hyes ▸ .yes
  · cases h
    exact hno ▸ .no
  · obtain ⟨m, hnumber, rfl⟩ := Option.map_eq_some_iff.mp h
    exact .number (Numeral.spelledBy_of_ofChars? hnumber)

namespace Written

variable {t : Token} {ts : List Token} {bs cs ds : List Char}

theorem append_blank (h : Written ts cs) (hafter : Blank bs) : Written ts (cs ++ bs) := by
  induction h with
  | blank hblank => exact .blank (List.forall_mem_append.mpr ⟨hblank, hafter⟩)
  | token before first _ ih =>
    rw [List.append_assoc]
    exact .token before first ih

theorem append_token (h : Written ts cs) (hlast : t.SpelledBy ds) :
    Written (ts ++ [t]) (cs ++ ds) := by
  induction h with
  | blank hblank =>
    have hwritten := Written.token hblank hlast (.blank blank_nil)
    rwa [List.append_nil] at hwritten
  | token before first _ ih =>
    rw [List.append_assoc]
    exact .token before first ih

end Written

/-- The number that has the hexadecimal digits with these values. -/
def Text.ofHexDigits (values : List Nat) : Nat := values.foldl (fun n d => 16 * n + d) 0

/-- Four hexadecimal digits write a unit. -/
theorem CodeUnit.spelledBy_hex {ds : List Char} {values : List Nat}
    (h : List.Forall₂ Text.HexDigit ds values) (hlength : ds.length = 4) :
    (CodeUnit.unit16 (Text.ofHexDigits values)).SpelledBy ('\\' :: 'u' :: ds) := by
  match ds, values, h with
  | [_, _, _, _], [_, _, _, _], .cons ha (.cons hb (.cons hc (.cons hd .nil))) =>
    have hspelled := SpelledBy.hex ha hb hc hd
    simpa only [Text.ofHexDigits, List.foldl_cons, List.foldl_nil, Nat.mul_zero, Nat.zero_add]

namespace Scan

/-- The characters write the tokens and the beginning of a literal with the units. -/
inductive Quoted : List CodeUnit → List Token → List Char → Prop where
  /-- The literal begins after the tokens. -/
  | mk {units : List CodeUnit} {ts : List Token} {cs : List Char} {pieces : List (List Char)}
    (written : Written ts cs) (each : List.Forall₂ CodeUnit.SpelledBy units pieces) :
    Quoted units ts (cs ++ '"' :: pieces.flatten)

/-- The characters have led to the scan. -/
inductive Reads : Scan → List Char → Prop where
  /-- They write the tokens. -/
  | gap {ts : List Token} {cs : List Char} (written : Written ts.reverse cs) : Reads ⟨.gap, ts⟩ cs
  /-- A word comes after the tokens. -/
  | word {ts : List Token} {cs : List Char} (word : List Char) (written : Written ts.reverse cs) :
    Reads ⟨.word word, ts⟩ (cs ++ word.reverse)
  /-- They end in a literal. -/
  | text {units : List CodeUnit} {ts : List Token} {cs : List Char}
    (quoted : Quoted units.reverse ts.reverse cs) : Reads ⟨.text units, ts⟩ cs
  /-- There is a backslash in a literal. -/
  | escape {units : List CodeUnit} {ts : List Token} {cs : List Char}
    (quoted : Quoted units.reverse ts.reverse cs) : Reads ⟨.escape units, ts⟩ (cs ++ ['\\'])
  /-- Some of four digits follow a backslash and a letter. -/
  | hex {units : List CodeUnit} {ts : List Token} {cs ds : List Char} {values : List Nat}
    {remaining : Nat} (quoted : Quoted units.reverse ts.reverse cs)
    (digits : List.Forall₂ Text.HexDigit ds values) (four : ds.length + remaining = 4)
    (more : 0 < remaining) :
    Reads ⟨.hex units (Text.ofHexDigits values) remaining, ts⟩ (cs ++ '\\' :: 'u' :: ds)

variable {units : List CodeUnit} {ts : List Token} {cs ds : List Char} {s s' : Scan} {c : Char}

theorem Quoted.append {u : CodeUnit} (h : Quoted units ts cs) (hu : u.SpelledBy ds) :
    Quoted (units ++ [u]) ts (cs ++ ds) := by
  cases h with
  | mk written each =>
    have hquoted := Quoted.mk written (List.rel_append each (.cons hu .nil))
    rwa [List.flatten_append, List.flatten_singleton, ← List.cons_append, ← List.append_assoc]
      at hquoted

theorem reads_opening (h : Written ts.reverse cs) (c : Char) :
    Reads (opening ts c) (cs ++ [c]) := by
  unfold opening
  split
  · next hblank =>
    have hafter : Blank [c] := List.forall_mem_singleton.mpr (Token.isBlank_iff.mp hblank)
    exact .gap (h.append_blank hafter)
  · split
    · next mark hmark =>
      refine .gap ?_
      rw [List.reverse_cons]
      exact h.append_token (.mark hmark)
    · split
      · next hquote =>
        subst hquote
        exact .text (.mk h .nil)
      · exact .word [c] h

/-- A quote ends a literal. -/
theorem Quoted.written (h : Quoted units ts cs) :
    Written (ts ++ [Token.ofUnits units]) (cs ++ ['"']) := by
  cases h with
  | mk written each =>
    rw [List.append_assoc]
    exact written.append_token (.text (Text.spelledBy_of_units each))

theorem Quoted.text {u : CodeUnit} (h : Quoted units.reverse ts.reverse cs) (hu : u.SpelledBy ds) :
    Reads ⟨.text (u :: units), ts⟩ (cs ++ ds) := by
  refine .text ?_
  rw [List.reverse_cons]
  exact h.append hu

/-- Every character is remembered. -/
theorem Reads.step (hreads : Reads s cs) (h : s.step c = some s') : Reads s' (cs ++ [c]) := by
  cases hreads with
  | gap written =>
    cases h
    exact reads_opening written c
  | word word written =>
    rw [Scan.step] at h
    dsimp only at h
    split at h
    · obtain ⟨token, htoken, rfl⟩ := Option.map_eq_some_iff.mp h
      have hwritten := written.append_token (Token.spelledBy_of_ofWord? htoken)
      rw [← List.reverse_cons] at hwritten
      exact reads_opening hwritten c
    · cases h
      rw [List.append_assoc, ← List.reverse_cons]
      exact .word (c :: word) written
  | text quoted =>
    rw [Scan.step] at h
    dsimp only at h
    split_ifs at h with hquote hslash hcontrol
    · cases h
      subst hquote
      refine .gap ?_
      rw [List.reverse_cons]
      exact quoted.written
    · cases h
      subst hslash
      exact .escape quoted
    · cases h
      exact quoted.text (.plain hquote hslash (Nat.not_lt.mp hcontrol))
  | escape quoted =>
    rw [Scan.step] at h
    dsimp only at h
    rw [List.append_assoc]
    split at h
    · next hletter =>
      cases h
      subst hletter
      exact .hex quoted .nil rfl (by decide)
    · obtain ⟨e, hescape, rfl⟩ := Option.map_eq_some_iff.mp h
      exact quoted.text (.short (Text.shortEscape?_eq_some_iff.mp hescape))
  | @hex units ts cs ds values remaining quoted digits four more =>
    obtain ⟨digit, hdigit, rfl⟩ := Option.map_eq_some_iff.mp h
    rw [Text.hexValue?_eq_some_iff] at hdigit
    have hdigits := List.rel_append digits (.cons hdigit .nil)
    have hvalue : 16 * Text.ofHexDigits values + digit = Text.ofHexDigits (values ++ [digit]) := by
      rw [Text.ofHexDigits, Text.ofHexDigits, List.foldl_append]
      rfl
    have hlength : (ds ++ [c]).length = ds.length + 1 := List.length_append
    rw [List.append_assoc, List.cons_append, List.cons_append]
    dsimp only
    rw [hvalue]
    split
    · exact quoted.text (CodeUnit.spelledBy_hex hdigits (by omega))
    · exact .hex quoted hdigits (by omega) (by omega)

theorem Reads.run (hreads : Reads s cs) (h : s.run ds = some s') : Reads s' (cs ++ ds) := by
  induction ds generalizing s cs with
  | nil =>
    cases h
    rwa [List.append_nil]
  | cons c ds ih =>
    rw [run_cons, Option.bind_eq_some_iff] at h
    obtain ⟨e, hstep, hrun⟩ := h
    have hall := ih (hreads.step hstep) hrun
    rwa [List.append_assoc, List.singleton_append] at hall

theorem Reads.finish {us : List Token} (hreads : Reads s cs) (h : s.finish = some us) :
    Written us cs := by
  cases hreads with
  | gap written =>
    cases h
    exact written
  | word word written =>
    obtain ⟨token, htoken, rfl⟩ := Option.map_eq_some_iff.mp h
    rw [List.reverse_cons]
    exact written.append_token (Token.spelledBy_of_ofWord? htoken)
  | text | escape | hex => cases h

end Scan

/-- The tokens that a text has been split into are written in it. -/
theorem written_of_tokens? {cs : List Char} {ts : List Token} (h : tokens? cs = some ts) :
    Written ts cs := by
  obtain ⟨s, hrun, hfinish⟩ := Option.bind_eq_some_iff.mp h
  have hstart : Scan.Reads Scan.start [] := .gap (.blank blank_nil)
  exact (hstart.run hrun).finish hfinish

/-! ## Documents that have been read -/

namespace Token

/-- The document that a token is by itself. -/
def document? : Token → Option Node
  | .null => some .null
  | .bool b => some (.bool b)
  | .number m => some (.number m)
  | .text s => some (.text s)
  | _ => none

variable {c d : Char} {t : Token} {cs : List Char}

/-- No two marks stand for one token. -/
theorem ofMark?_injective (hc : ofMark? c = some t) (hd : ofMark? d = some t) : c = d := by
  unfold ofMark? at hc
  split at hc <;> cases hc <;> unfold ofMark? at hd <;> split at hd <;> first | rfl | cases hd

/-- The token of a mark is written as the mark. -/
theorem SpelledBy.eq_mark (h : t.SpelledBy cs) (hc : ofMark? c = some t) : cs = [c] := by
  cases h with
  | mark hmark => rw [ofMark?_injective hmark hc]
  | _ =>
    unfold ofMark? at hc
    split at hc <;> cases hc

/-- A token that is a document is written as the document. -/
theorem SpelledBy.document {n : Node} (h : t.SpelledBy cs) (hn : t.document? = some n) :
    n.SpelledBy cs := by
  cases h with
  | mark hmark =>
    unfold ofMark? at hmark
    split at hmark <;> cases hmark <;> cases hn
  | null =>
    cases hn
    exact .null
  | yes =>
    cases hn
    exact .yes
  | no =>
    cases hn
    exact .no
  | number h =>
    cases hn
    exact .number h
  | text h =>
    cases hn
    exact .text h

end Token

namespace Written

variable {t : Token} {ts : List Token} {cs : List Char}

/-- The characters are blanks and something of a kind, and the tokens are written after it. -/
def After (P : List Char → Prop) (ts : List Token) (cs : List Char) : Prop :=
  ∃ bs ks ds, cs = bs ++ ks ++ ds ∧ Blank bs ∧ P ks ∧ Written ts ds

theorem after_token (h : Written (t :: ts) cs) : After t.SpelledBy ts cs := by
  cases h with
  | token before first others => exact ⟨_, _, _, rfl, before, first, others⟩

theorem After.mono {P Q : List Char → Prop} (h : After P ts cs) (hmono : ∀ ks, P ks → Q ks) :
    After Q ts cs := by
  obtain ⟨bs, ks, ds, rfl, hbs, hks, hds⟩ := h
  exact ⟨bs, ks, ds, rfl, hbs, hmono ks hks, hds⟩

/-- A mark is written for its token. -/
theorem exists_mark {c : Char} (hc : Token.ofMark? c = some t) (h : Written (t :: ts) cs) :
    ∃ bs ds, cs = bs ++ c :: ds ∧ Blank bs ∧ Written ts ds := by
  obtain ⟨bs, ks, ds, rfl, hbs, hks, hds⟩ := h.after_token
  rw [hks.eq_mark hc]
  exact ⟨bs, ds, by rw [List.append_assoc, List.singleton_append], hbs, hds⟩

end Written

namespace Node

open Written

variable {ts : List Token} {cs : List Char}

/-- A key is written before a colon. -/
theorem exists_key {key : Option String} (h : Written (.text key :: .colon :: ts) cs) :
    ∃ ks ds, cs = ks ++ ':' :: ds ∧ KeySpelledBy key ks ∧ Written ts ds := by
  obtain ⟨bs, ks, rest, rfl, hbs, hks, hrest⟩ := h.after_token
  obtain ⟨after, ds, rfl, hafter, hds⟩ := exists_mark (c := ':') rfl hrest
  cases hks.document rfl with
  | text hliteral => exact ⟨_, ds, (List.append_assoc ..).symm, .mk hbs hliteral hafter, hds⟩

/-- A document is filled with the blanks before it and those before what comes next. -/
theorem exists_fills {n : Node} {P : List Char → Prop} {us : List Token}
    (h : After n.SpelledBy us cs) (hothers : ∀ {ds}, Written us ds → After P ts ds) :
    ∃ ks is ds, cs = ks ++ is ++ ds ∧ n.Fills ks ∧ P is ∧ Written ts ds := by
  obtain ⟨before, ks, others, rfl, hbefore, hks, hwritten⟩ := h
  obtain ⟨after, is, ds, rfl, hafter, his, hds⟩ := hothers hwritten
  refine ⟨_, is, ds, ?_, .mk hbefore hks hafter, his, hds⟩
  simp only [List.append_assoc]

mutual

/-- A document is written where its tokens are. -/
theorem after_tokens (n : Node) {ts : List Token} {cs : List Char}
    (h : Written (n.tokens ++ ts) cs) : After n.SpelledBy ts cs := by
  cases n with
  | list items =>
    cases items with
    | nil =>
      obtain ⟨bs, rest, rfl, hbs, hrest⟩ := exists_mark (c := '[') rfl h
      obtain ⟨inner, ds, rfl, hinner, hds⟩ := exists_mark (c := ']') rfl hrest
      exact ⟨bs, _, ds, by simp, hbs, .noItems hinner, hds⟩
    | cons n rest =>
      rw [tokens, List.append_assoc] at h
      obtain ⟨bs, inner, rfl, hbs, hinner⟩ := exists_mark (c := '[') rfl h
      have hfirst := after_tokens n hinner
      obtain ⟨ks, is, ds, rfl, hks, his, hds⟩ := exists_fills hfirst (after_tokensItems rest)
      exact ⟨bs, _, ds, by simp, hbs, .items hks his, hds⟩
  | members fields =>
    cases fields with
    | nil =>
      obtain ⟨bs, rest, rfl, hbs, hrest⟩ := exists_mark (c := '{') rfl h
      obtain ⟨inner, ds, rfl, hinner, hds⟩ := exists_mark (c := '}') rfl hrest
      exact ⟨bs, _, ds, by simp, hbs, .noMembers hinner, hds⟩
    | cons field rest =>
      obtain ⟨key, n⟩ := field
      rw [tokens, List.append_assoc] at h
      obtain ⟨bs, inner, rfl, hbs, hinner⟩ := exists_mark (c := '{') rfl h
      obtain ⟨ks, others, rfl, hks, hothers⟩ := exists_key hinner
      have hfirst := after_tokens n hothers
      obtain ⟨vs, is, ds, rfl, hvs, his, hds⟩ := exists_fills hfirst (after_tokensMembers rest)
      exact ⟨bs, _, ds, by simp, hbs, .members hks hvs his, hds⟩
  | _ => exact h.after_token.mono fun _ htoken => htoken.document rfl

/-- So are the items after the first one. -/
theorem after_tokensItems (ns : List Node) {ts : List Token} {cs : List Char}
    (h : Written (tokensItems ns ++ ts) cs) : After (ItemsSpelledBy ns) ts cs := by
  cases ns with
  | nil =>
    obtain ⟨bs, ds, rfl, hbs, hds⟩ := exists_mark (c := ']') rfl h
    exact ⟨bs, _, ds, by simp, hbs, .none, hds⟩
  | cons n rest =>
    rw [tokensItems, List.append_assoc] at h
    obtain ⟨bs, others, rfl, hbs, hothers⟩ := exists_mark (c := ',') rfl h
    have hfirst := after_tokens n hothers
    obtain ⟨ks, is, ds, rfl, hks, his, hds⟩ := exists_fills hfirst (after_tokensItems rest)
    exact ⟨bs, _, ds, by simp, hbs, .next hks his, hds⟩

/-- So are the members after the first one. -/
theorem after_tokensMembers (fields : List (Option String × Node)) {ts : List Token}
    {cs : List Char} (h : Written (tokensMembers fields ++ ts) cs) :
    After (MembersSpelledBy fields) ts cs := by
  cases fields with
  | nil =>
    obtain ⟨bs, ds, rfl, hbs, hds⟩ := exists_mark (c := '}') rfl h
    exact ⟨bs, _, ds, by simp, hbs, .none, hds⟩
  | cons field rest =>
    obtain ⟨key, n⟩ := field
    rw [tokensMembers, List.append_assoc] at h
    obtain ⟨bs, inner, rfl, hbs, hinner⟩ := exists_mark (c := ',') rfl h
    obtain ⟨ks, others, rfl, hks, hothers⟩ := exists_key hinner
    have hfirst := after_tokens n hothers
    obtain ⟨vs, is, ds, rfl, hvs, his, hds⟩ := exists_fills hfirst (after_tokensMembers rest)
    exact ⟨bs, _, ds, by simp, hbs, .next hks hvs his, hds⟩

end

/-- A text is read as a document just if it is one of those that spell the document. -/
theorem parse?_eq_some_iff {text : String} {n : Node} :
    parse? text = some n ↔ n.Fills text.toList := by
  refine ⟨fun h => ?_, Fills.parse?⟩
  obtain ⟨ts, htokens, hdocument⟩ := Option.bind_eq_some_iff.mp h
  rw [ofTokens?_eq_some_iff] at hdocument
  have hwritten := written_of_tokens? htokens
  rw [hdocument, ← List.append_nil n.tokens] at hwritten
  obtain ⟨before, ks, after, heq, hbefore, hks, hrest⟩ := after_tokens n hwritten
  cases hrest with
  | blank hafter => exact heq ▸ .mk hbefore hks hafter

/-- A text spells at most one document. -/
theorem Fills.unique {text : String} {n m : Node} (hn : n.Fills text.toList)
    (hm : m.Fills text.toList) : n = m := Option.some.inj (hn.parse?.symm.trans hm.parse?)

end Node

end IntentRouter.Json
