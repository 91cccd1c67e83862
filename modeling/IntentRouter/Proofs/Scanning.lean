import IntentRouter.Json.Node

/-!
# Scanning

A scan makes a token of every literal and of every mark, in the order in which they are written, and
drops the blanks in between. A word goes on until something else begins. The tokens of a document
make up the document again.
-/

namespace IntentRouter.Json

/-- There is nothing in between tokens but blanks. -/
def Blank (bs : List Char) : Prop := ∀ b ∈ bs, b = ' ' ∨ b = '\t' ∨ b = '\n' ∨ b = '\r'

theorem Token.isBlank_iff {c : Char} :
    isBlank c = true ↔ c = ' ' ∨ c = '\t' ∨ c = '\n' ∨ c = '\r' := by
  simp only [isBlank, Bool.or_eq_true, decide_eq_true_eq, or_assoc]

theorem blank_nil : Blank [] := List.forall_mem_nil _

namespace Scan

variable {ts : List Token} {rest : List Char} {t : Token}

/-- The tokens of the rest of a text. -/
def read? (s : Scan) (cs : List Char) : Option (List Token) := (s.run cs).bind finish

theorem run_cons (s : Scan) (c : Char) (cs : List Char) :
    s.run (c :: cs) = (s.step c).bind fun t => t.run cs := List.foldlM_cons

/-- What has been scanned does not matter any more. -/
theorem read?_append {s s' : Scan} {cs : List Char} (h : s.run cs = some s') (rest : List Char) :
    s.read? (cs ++ rest) = s'.read? rest := by
  rw [read?, run_append, h, Option.bind_some, read?]

/-- A mark is a token wherever a token may begin. -/
theorem run_mark {c : Char} (h : Token.ofMark? c = some t) (ts : List Token) :
    run ⟨.gap, ts⟩ [c] = some ⟨.gap, t :: ts⟩ := by
  have hblank : ¬ Token.isBlank c = true := by
    unfold Token.ofMark? at h
    split at h <;> first | decide | cases h
  rw [run_cons, step, opening, if_neg hblank, h]
  rfl

/-! ### Words -/

/-- The text is at its end or goes on with something that ends a word. -/
def Ends (rest : List Char) : Prop := ∀ c cs, rest = c :: cs → endsWord c = true

theorem ends_cons {c : Char} (h : endsWord c = true) (cs : List Char) : Ends (c :: cs) := by
  rintro _ _ ⟨⟩
  exact h

theorem ends_blank {bs : List Char} (h : Blank bs) : Ends bs := by
  rintro b cs rfl
  rw [endsWord, Token.isBlank_iff.mpr (h b List.mem_cons_self)]
  rfl

theorem Ends.append {cs : List Char} (hcs : Ends cs) (hrest : Ends rest) : Ends (cs ++ rest) := by
  cases cs with
  | nil => exact hrest
  | cons c cs => exact ends_cons (hcs c cs rfl) _

theorem run_word {word : List Char} (hword : word.any endsWord = false) (cs : List Char)
    (ts : List Token) : run ⟨.word cs, ts⟩ word = some ⟨.word (word.reverse ++ cs), ts⟩ := by
  induction word generalizing cs with
  | nil => rfl
  | cons c word ih =>
    rw [List.any_cons, Bool.or_eq_false_iff] at hword
    obtain ⟨hc, hrest⟩ := hword
    have hstep : step ⟨.word cs, ts⟩ c = some ⟨.word (c :: cs), ts⟩ :=
      if_neg (Bool.eq_false_iff.mp hc)
    rw [run_cons, hstep, Option.bind_some, ih hrest, List.reverse_cons, List.append_assoc,
      List.singleton_append]

/-- A word is a token where it ends. -/
theorem read?_word {c : Char} {word : List Char}
    (hword : (c :: word).any endsWord = false) (ht : Token.ofWord? (c :: word) = some t)
    (ts : List Token) (hrest : Ends rest) :
    read? ⟨.gap, ts⟩ (c :: word ++ rest) = read? ⟨.gap, t :: ts⟩ rest := by
  rw [List.any_cons, Bool.or_eq_false_iff] at hword
  obtain ⟨hc, hword⟩ := hword
  have hopening : step ⟨.gap, ts⟩ c = some ⟨.word [c], ts⟩ := by
    rw [endsWord, Bool.or_eq_false_iff, Bool.or_eq_false_iff, Option.isSome_eq_false_iff,
      Option.isNone_iff_eq_none] at hc
    obtain ⟨⟨hblank, hmark⟩, hquote⟩ := hc
    rw [step, opening, if_neg (Bool.eq_false_iff.mp hblank), hmark]
    exact congrArg some (if_neg (of_decide_eq_false hquote))
  have hrun : run ⟨.gap, ts⟩ (c :: word) = some ⟨.word (c :: word).reverse, ts⟩ := by
    rw [run_cons, hopening, Option.bind_some, run_word hword, List.reverse_cons]
  rw [read?_append hrun]
  cases rest with
  | nil =>
    rw [read?, read?]
    simp only [run, List.foldlM_nil, Option.pure_def, Option.bind_some, finish,
      List.reverse_reverse, ht, Option.map_some]
  | cons d cs =>
    have hd := hrest d cs rfl
    rw [read?, read?, run_cons, run_cons]
    simp only [step, if_pos hd, List.reverse_reverse, ht, Option.map_some]

/-! ### Texts of several tokens -/

/-- Wherever a token may begin, the characters are read as the tokens, unless a word goes on after
them. -/
def Spells (cs : List Char) (us : List Token) : Prop :=
  ∀ (ts : List Token) (rest : List Char), Ends rest →
    read? ⟨.gap, ts⟩ (cs ++ rest) = read? ⟨.gap, us.reverse ++ ts⟩ rest

variable {c : Char} {bs cs ds : List Char} {us vs : List Token}

theorem spells_mark (h : Token.ofMark? c = some t) : Spells [c] [t] := fun ts rest _ =>
  read?_append (run_mark h ts) rest

theorem spells_word {word : List Char} (hword : (c :: word).any endsWord = false)
    (ht : Token.ofWord? (c :: word) = some t) : Spells (c :: word) [t] := fun ts _ hrest =>
  read?_word hword ht ts hrest

theorem Spells.mark_cons (h : Token.ofMark? c = some t) (hcs : Spells cs us) :
    Spells (c :: cs) (t :: us) := by
  intro ts rest hrest
  have hmark := read?_append (run_mark h ts) (cs ++ rest)
  rw [List.reverse_cons, List.append_assoc]
  exact hmark.trans (hcs _ rest hrest)

/-- Texts may stand next to each other if a word in the first one does not go on in the second. -/
theorem Spells.append (hcs : Spells cs us) (hends : Ends ds) (hds : Spells ds vs) :
    Spells (cs ++ ds) (us ++ vs) := by
  intro ts rest hrest
  rw [List.append_assoc, hcs ts _ (hends.append hrest), hds _ rest hrest, List.reverse_append,
    List.append_assoc]

/-- Nothing happens at blanks. -/
theorem run_blank (h : Blank bs) (ts : List Token) : run ⟨.gap, ts⟩ bs = some ⟨.gap, ts⟩ := by
  induction bs with
  | nil => rfl
  | cons b bs ih =>
    obtain ⟨hb, hbs⟩ := List.forall_mem_cons.mp h
    have hstep : step ⟨.gap, ts⟩ b = some ⟨.gap, ts⟩ :=
      congrArg some (if_pos (Token.isBlank_iff.mpr hb))
    rw [run_cons, hstep, Option.bind_some, ih hbs]

theorem Spells.blank_append (h : Blank bs) (hcs : Spells cs us) : Spells (bs ++ cs) us := by
  intro ts rest hrest
  rw [List.append_assoc, read?_append (run_blank h ts), hcs ts rest hrest]

/-- Blanks around a text make no difference. -/
theorem Spells.between {after : List Char} (hbefore : Blank bs) (hcs : Spells cs us)
    (hafter : Blank after) : Spells (bs ++ cs ++ after) us := by
  intro ts rest hrest
  have hends : Ends (after ++ rest) := (ends_blank hafter).append hrest
  rw [List.append_assoc, hcs.blank_append hbefore ts _ hends, read?_append (run_blank hafter _)]

/-- A text that spells tokens consists of them. -/
theorem Spells.tokens? (h : Spells cs us) : tokens? cs = some us := by
  have hall := h [] [] (ends_blank blank_nil)
  rw [List.append_nil, List.append_nil] at hall
  refine hall.trans ?_
  rw [read?]
  exact congrArg some us.reverse_reverse

end Scan

/-! ## From tokens to documents -/

namespace Node

mutual

/-- The tokens that make up the document. -/
def tokens : Node → List Token
  | .null => [.null]
  | .bool b => [.bool b]
  | .number n => [.number n]
  | .text s => [.text s]
  | .list [] => [.openBracket, .closeBracket]
  | .list (n :: rest) => .openBracket :: tokens n ++ tokensItems rest
  | .members [] => [.openBrace, .closeBrace]
  | .members ((key, n) :: rest) =>
    .openBrace :: .text key :: .colon :: tokens n ++ tokensMembers rest

/-- The tokens of the items after the first one, with the closing bracket. -/
def tokensItems : List Node → List Token
  | [] => [.closeBracket]
  | n :: rest => .comma :: tokens n ++ tokensItems rest

/-- The tokens of the members after the first one, with the closing brace. -/
def tokensMembers : List (Option String × Node) → List Token
  | [] => [.closeBrace]
  | (key, n) :: rest => .comma :: .text key :: .colon :: tokens n ++ tokensMembers rest

end

end Node

namespace Draft

variable {frames : List Frame} {t : Token}

theorem run_cons (d : Draft) (t : Token) (ts : List Token) :
    d.run (t :: ts) = (d.step t).bind fun e => e.run ts := List.foldlM_cons

theorem run_singleton (d : Draft) (t : Token) : d.run [t] = d.step t :=
  (run_cons d t []).trans (Option.bind_fun_some _)

/-- In an array that has just been opened, anything but its end is the beginning of an item. -/
theorem step_valueOrEnd (h : t ≠ .closeBracket) :
    step ⟨.valueOrEnd, frames⟩ t = step ⟨.value, frames⟩ t := by
  cases t <;> first | rfl | exact absurd rfl h

/-- The first item of an array is read like any value. -/
theorem run_tokens_valueOrEnd (n : Node) (ts : List Token) :
    run ⟨.valueOrEnd, frames⟩ (n.tokens ++ ts) = run ⟨.value, frames⟩ (n.tokens ++ ts) := by
  have hfirst : ∃ t us, n.tokens = t :: us ∧ t ≠ .closeBracket := by
    cases n with
    | list items => cases items <;> exact ⟨_, _, rfl, nofun⟩
    | members fields => cases fields <;> exact ⟨_, _, rfl, nofun⟩
    | _ => exact ⟨_, _, rfl, nofun⟩
  obtain ⟨t, us, htokens, ht⟩ := hfirst
  rw [htokens, List.cons_append, run_cons, run_cons, step_valueOrEnd ht]

mutual

/-- The tokens of a document are read as the document. -/
theorem run_tokens (n : Node) (frames : List Frame) :
    run ⟨.value, frames⟩ n.tokens = place n frames := by
  cases n with
  | list items =>
    cases items with
    | nil => exact run_singleton ⟨.valueOrEnd, .list [] :: frames⟩ .closeBracket
    | cons n rest =>
      rw [Node.tokens, List.cons_append, run_cons]
      change run ⟨.valueOrEnd, .list [] :: frames⟩ (n.tokens ++ Node.tokensItems rest) = _
      rw [run_tokens_valueOrEnd, run_append, run_tokens n, place, Option.bind_some,
        run_tokensItems rest]
      rfl
  | members fields =>
    cases fields with
    | nil => exact run_singleton ⟨.keyOrEnd, .members [] :: frames⟩ .closeBrace
    | cons field rest =>
      obtain ⟨key, n⟩ := field
      rw [Node.tokens]
      change run ⟨.value, .member [] key :: frames⟩ (n.tokens ++ Node.tokensMembers rest) = _
      rw [run_append, run_tokens n, place, Option.bind_some, run_tokensMembers rest]
      rfl
  | _ => exact run_singleton ⟨.value, frames⟩ _

/-- The tokens after the first item are read as the other items. -/
theorem run_tokensItems (ns items : List Node) (frames : List Frame) :
    run ⟨.commaOrEnd, .list items :: frames⟩ (Node.tokensItems ns) =
      place (.list (items.reverse ++ ns)) frames := by
  cases ns with
  | nil =>
    rw [List.append_nil]
    exact run_singleton ⟨.commaOrEnd, .list items :: frames⟩ .closeBracket
  | cons n rest =>
    rw [Node.tokensItems]
    change run ⟨.value, .list items :: frames⟩ (n.tokens ++ Node.tokensItems rest) = _
    rw [run_append, run_tokens n, place, Option.bind_some, run_tokensItems rest, List.reverse_cons,
      List.append_assoc, List.singleton_append]

/-- The tokens after the first member are read as the other members. -/
theorem run_tokensMembers (rest fields : List (Option String × Node)) (frames : List Frame) :
    run ⟨.commaOrEnd, .members fields :: frames⟩ (Node.tokensMembers rest) =
      place (.members (fields.reverse ++ rest)) frames := by
  cases rest with
  | nil =>
    rw [List.append_nil]
    exact run_singleton ⟨.commaOrEnd, .members fields :: frames⟩ .closeBrace
  | cons field rest =>
    obtain ⟨key, n⟩ := field
    rw [Node.tokensMembers]
    change run ⟨.value, .member fields key :: frames⟩ (n.tokens ++ Node.tokensMembers rest) = _
    rw [run_append, run_tokens n, place, Option.bind_some, run_tokensMembers rest,
      List.reverse_cons, List.append_assoc, List.singleton_append]

end

end Draft

/-- The tokens of a document make up the document. -/
theorem Node.ofTokens?_tokens (n : Node) : ofTokens? n.tokens = some n := by
  rw [ofTokens?, Draft.start, Draft.run_tokens]
  rfl

/-- A text that spells the tokens of a document is read as the document. -/
theorem Node.parse?_of_spells {n : Node} {text : String}
    (h : Scan.Spells text.toList n.tokens) : parse? text = some n := by
  rw [Node.parse?, h.tokens?, Option.bind_some, ofTokens?_tokens]

end IntentRouter.Json
