import IntentRouter.Proofs.Reading
import IntentRouter.Proofs.Records
import IntentRouter.Proofs.Spelling
import IntentRouter.Proofs.Timeouts

/-!
# Settings are laid over the defaults

A text says something about some of the settings, in an object whose members may stand in any order
and among any others, or in an array of the first fields; and so it does about logging inside. What
it says replaces the defaults, and nothing else does. A text that says something twice, or too much,
or something else than a count of milliseconds is unreadable, whatever else it says. Only what could
be read is checked: the settings are accepted if all timeouts are positive, and otherwise the first
field is named of which the timeout is zero. A file means what the text in it means.
-/

namespace IntentRouter

open Json

/-! ## What a text can say -/

namespace Json.Node

/-- The document names a case that has no content, by its name alone or by an object that gives the
empty value to it. -/
inductive Names : Node → String → Prop where
  /-- The name alone. -/
  | text (name : String) : Names (.ofString name) name
  /-- The name with the empty value. -/
  | member (name : String) : Names (.object [(name, .null)]) name

/-- The document is a number written with digits only, which fits 64 bits. -/
structure Counts (n : Node) (value : Nat) : Prop where
  /-- It has neither a sign nor a point nor an exponent. -/
  digits : ∃ whole, n = .number ⟨false, whole, none, none⟩ ∧ Nat.ofDigitChars 10 whole 0 = value
  /-- It is not too large. -/
  fits : value < 18446744073709551616

theorem caseName?_eq_some_iff {depth : Nat} {n : Node} {name : String} :
    n.caseName? (depth + 1) = some name ↔ n.Names name := by
  constructor
  · intro h
    unfold caseName? at h
    split at h
    · cases h
      exact .text name
    · rw [if_pos (Nat.succ_pos depth)] at h
      cases h
      exact .member name
    · cases h
  · rintro (_ | _) <;> rfl

/-- The cases have different names, and one is looked up by its name. -/
theorem caseName?_bind_eq_some_iff {α : Type} {text : α → String} (all : List α)
    (hinjective : Function.Injective text) (hall : ∀ a, a ∈ all) {depth : Nat} {n : Node} {a : α} :
    ((n.caseName? (depth + 1)).bind fun name => all.find? fun a => text a = name) = some a ↔
      n.Names (text a) := by
  have hfind : ∀ name, (all.find? fun a => text a = name) = some a ↔ name = text a := by
    intro name
    constructor
    · intro h
      have hfound := List.find?_some h
      exact (of_decide_eq_true hfound).symm
    · rintro rfl
      cases h : all.find? fun b => text b = text a with
      | none => exact absurd (decide_eq_true rfl) (List.find?_eq_none.mp h a (hall a))
      | some b =>
        have hfound := List.find?_some h
        rw [hinjective (of_decide_eq_true hfound)]
  rw [Option.bind_eq_some_iff]
  simp only [caseName?_eq_some_iff, hfind, exists_eq_right]

theorem count?_eq_some_iff {n : Node} {value : Nat} : n.count? = some value ↔ n.Counts value := by
  constructor
  · intro h
    cases n with
    | number m =>
      obtain ⟨negative, whole, fraction, exponent⟩ := m
      rw [count?, Numeral.count?] at h
      dsimp only at h
      split at h
      · next hcount =>
        cases h
        obtain ⟨hinteger, hpositive, hfits⟩ := hcount
        rw [Numeral.isInteger, Bool.and_eq_true, Option.isNone_iff_eq_none,
          Option.isNone_iff_eq_none] at hinteger
        obtain ⟨rfl, rfl⟩ := hinteger
        rw [Bool.not_eq_true] at hpositive
        subst hpositive
        exact ⟨⟨whole, rfl, rfl⟩, Nat.lt_succ_of_le hfits⟩
      · cases h
    | _ => cases h
  · rintro ⟨⟨whole, rfl, rfl⟩, hfits⟩
    exact if_pos ⟨rfl, Bool.false_ne_true, Nat.le_of_lt_succ hfits⟩

theorem bool?_eq_some_iff {n : Node} {b : Bool} : n.bool? = some b ↔ n = .bool b := by
  cases n <;> simp [bool?]

end Json.Node

/-- What can be said about logging. -/
structure Logging.Overlay where
  /-- The level. -/
  level : Option LogLevel
  /-- The format. -/
  format : Option LogFormat
  /-- Whether a line names its module. -/
  withTarget : Option Bool

namespace Logging.Overlay

/-- What is logged where it is said so much. -/
def applied (o : Overlay) : Logging where
  level := o.level.getD standard.level
  format := o.format.getD standard.format
  withTarget := o.withTarget.getD standard.withTarget

/-- The fields say so much. -/
structure WrittenIn (o : Overlay) (fields : Fields) : Prop where
  /-- A level is named. -/
  level : Option.Rel (fun n l => Node.Names n (LogLevel.text l)) (fields.lookup "level") o.level
  /-- A format is named. -/
  format : Option.Rel (fun n f => Node.Names n (LogFormat.text f)) (fields.lookup "format") o.format
  /-- It is true or false that lines name their modules. -/
  withTarget : Option.Rel (fun n b => n = .bool b) (fields.lookup "with_target") o.withTarget

/-- The document says so much. -/
def SaidBy (o : Overlay) (n : Node) : Prop :=
  ∃ fields, n.Gives fieldNames fields ∧ o.WrittenIn fields

end Logging.Overlay

/-- What can be said about settings. -/
structure Settings.Overlay where
  /-- The timeouts of some stages. -/
  timeout : Stage → Option Nat
  /-- What is said about logging. -/
  logging : Option Logging.Overlay

namespace Settings.Overlay

/-- What is said about the timeouts of the three stages. -/
def ofStages (choice start reply : Option Nat) : Stage → Option Nat
  | .choice => choice
  | .start => start
  | .reply => reply

/-- The settings where it is said so much. -/
def applied (o : Overlay) : Settings where
  choiceMillis := (o.timeout .choice).getD standard.choiceMillis
  startMillis := (o.timeout .start).getD standard.startMillis
  replyMillis := (o.timeout .reply).getD standard.replyMillis
  logging := (o.logging.map Logging.Overlay.applied).getD standard.logging

/-- The fields say so much. -/
structure WrittenIn (o : Overlay) (fields : Fields) : Prop where
  /-- Timeouts are counts. -/
  timeout : ∀ stage : Stage,
    Option.Rel Node.Counts (fields.lookup stage.fieldName) (o.timeout stage)
  /-- Something is said about logging. -/
  logging : Option.Rel (fun n l => Logging.Overlay.SaidBy l n) (fields.lookup "logging") o.logging

/-- The document says so much. -/
def SaidBy (o : Overlay) (n : Node) : Prop :=
  ∃ fields, n.Gives fieldNames fields ∧ o.WrittenIn fields

end Settings.Overlay

/-! ## Reading -/

theorem LogLevel.ofNode?_eq_some_iff {depth : Nat} {n : Node} {l : LogLevel} :
    ofNode? (depth + 1) n = some l ↔ n.Names l.text :=
  Node.caseName?_bind_eq_some_iff all (fun a b => by cases a <;> cases b <;> decide)
    fun a => by cases a <;> decide

theorem LogFormat.ofNode?_eq_some_iff {depth : Nat} {n : Node} {f : LogFormat} :
    ofNode? (depth + 1) n = some f ↔ n.Names f.text :=
  Node.caseName?_bind_eq_some_iff [plain, json]
    (fun a b => by cases a <;> cases b <;> decide) fun a => by cases a <;> decide

/-- What is read about logging is what is said, laid over the defaults. -/
theorem Logging.ofNode?_eq_some_iff {depth : Nat} {n : Node} {l : Logging} :
    ofNode? (depth + 2) n = some l ↔ ∃ o : Overlay, o.SaidBy n ∧ o.applied = l := by
  rw [ofNode?, Option.bind_eq_bind, Option.bind_eq_some_iff]
  constructor
  · rintro ⟨fields, hfields, h⟩
    obtain ⟨level, hlevel, h⟩ := Option.bind_eq_some_iff.mp h
    obtain ⟨format, hformat, h⟩ := Option.bind_eq_some_iff.mp h
    obtain ⟨withTarget, htarget, h⟩ := Option.bind_eq_some_iff.mp h
    obtain ⟨level?, hlevel?, rfl⟩ := (Fields.defaulted?_eq_some_iff
      fun _ _ => LogLevel.ofNode?_eq_some_iff).mp hlevel
    obtain ⟨format?, hformat?, rfl⟩ := (Fields.defaulted?_eq_some_iff
      fun _ _ => LogFormat.ofNode?_eq_some_iff).mp hformat
    obtain ⟨withTarget?, htarget?, rfl⟩ := (Fields.defaulted?_eq_some_iff
      fun _ _ => Node.bool?_eq_some_iff).mp htarget
    exact ⟨⟨level?, format?, withTarget?⟩,
      ⟨fields, .of_fields? hfields, hlevel?, hformat?, htarget?⟩, Option.some.inj h⟩
  · rintro ⟨o, ⟨written, hgives, hwritten⟩, rfl⟩
    obtain ⟨fields, hfields, hlookup⟩ := hgives.fields? (depth + 1)
    have hlevel : fields.defaulted? "level" (LogLevel.ofNode? (depth + 1)) standard.level =
        some o.applied.level :=
      (Fields.defaulted?_eq_some_iff fun _ _ => LogLevel.ofNode?_eq_some_iff).mpr
        ⟨o.level, hlookup "level" ▸ hwritten.level, rfl⟩
    have hformat : fields.defaulted? "format" (LogFormat.ofNode? (depth + 1)) standard.format =
        some o.applied.format :=
      (Fields.defaulted?_eq_some_iff fun _ _ => LogFormat.ofNode?_eq_some_iff).mpr
        ⟨o.format, hlookup "format" ▸ hwritten.format, rfl⟩
    have htarget : fields.defaulted? "with_target" (·.bool?) standard.withTarget =
        some o.applied.withTarget :=
      (Fields.defaulted?_eq_some_iff fun _ _ => Node.bool?_eq_some_iff).mpr
        ⟨o.withTarget, hlookup "with_target" ▸ hwritten.withTarget, rfl⟩
    exact ⟨fields, hfields, Option.bind_eq_some_iff.mpr ⟨_, hlevel, Option.bind_eq_some_iff.mpr
      ⟨_, hformat, Option.bind_eq_some_iff.mpr ⟨_, htarget, rfl⟩⟩⟩⟩

/-- What is read of settings is what is said, laid over the defaults. -/
theorem Settings.ofNode?_eq_some_iff {depth : Nat} {n : Node} {c : Settings} :
    ofNode? (depth + 3) n = some c ↔ ∃ o : Overlay, o.SaidBy n ∧ o.applied = c := by
  have hcounts : ∀ (fields : Fields) (stage : Stage) (default value : Nat),
      fields.defaulted? stage.fieldName (·.count?) default = some value ↔
        ∃ said, Option.Rel Node.Counts (fields.lookup stage.fieldName) said ∧
          said.getD default = value :=
    fun fields stage default value => Fields.defaulted?_eq_some_iff
      fun _ _ => Node.count?_eq_some_iff
  have hlogging : ∀ (fields : Fields) (l : Logging),
      fields.defaulted? "logging" (Logging.ofNode? (depth + 2)) .standard = some l ↔
        ∃ said, Option.Rel (fun n (l : Logging.Overlay) => l.SaidBy n)
          (fields.lookup "logging") said ∧
            (said.map Logging.Overlay.applied).getD .standard = l :=
    fun _ _ => Fields.defaulted?_eq_some_iff_map fun _ _ => Logging.ofNode?_eq_some_iff
  rw [ofNode?, Option.bind_eq_bind, Option.bind_eq_some_iff]
  constructor
  · rintro ⟨fields, hfields, h⟩
    obtain ⟨choice, hchoice, h⟩ := Option.bind_eq_some_iff.mp h
    obtain ⟨start, hstart, h⟩ := Option.bind_eq_some_iff.mp h
    obtain ⟨reply, hreply, h⟩ := Option.bind_eq_some_iff.mp h
    obtain ⟨logging, hlog, h⟩ := Option.bind_eq_some_iff.mp h
    obtain ⟨choice?, hchoice?, rfl⟩ := (hcounts ..).mp hchoice
    obtain ⟨start?, hstart?, rfl⟩ := (hcounts ..).mp hstart
    obtain ⟨reply?, hreply?, rfl⟩ := (hcounts ..).mp hreply
    obtain ⟨logging?, hlogging?, rfl⟩ := (hlogging ..).mp hlog
    refine ⟨⟨Overlay.ofStages choice? start? reply?, logging?⟩,
      ⟨fields, .of_fields? hfields, fun stage => ?_, hlogging?⟩, Option.some.inj h⟩
    cases stage
    · exact hchoice?
    · exact hstart?
    · exact hreply?
  · rintro ⟨o, ⟨written, hgives, hwritten⟩, rfl⟩
    obtain ⟨fields, hfields, hlookup⟩ := hgives.fields? (depth + 2)
    have htimeout := fun stage : Stage => (hcounts fields stage (standard.timeout stage) _).mpr
      ⟨o.timeout stage, hlookup stage.fieldName ▸ hwritten.timeout stage, rfl⟩
    have hlog := (hlogging fields _).mpr ⟨o.logging, hlookup "logging" ▸ hwritten.logging, rfl⟩
    exact ⟨fields, hfields, Option.bind_eq_some_iff.mpr ⟨_, htimeout .choice,
      Option.bind_eq_some_iff.mpr ⟨_, htimeout .start, Option.bind_eq_some_iff.mpr
        ⟨_, htimeout .reply, Option.bind_eq_some_iff.mpr ⟨_, hlog, rfl⟩⟩⟩⟩⟩

/-- An array of the first fields says the same about logging as the object with these fields. -/
theorem Logging.ofNode?_list {items : List Node} (hfew : items.length ≤ fieldNames.length)
    (depth : Nat) :
    ofNode? depth (.list items) = ofNode? depth (.object (fieldNames.zip items)) := by
  cases depth with
  | zero => rfl
  | succ depth => rw [ofNode?, ofNode?, Node.fields?_list (by decide) hfew]

namespace Settings

theorem nodup_fieldNames : fieldNames.Nodup := by decide

/-- So it does about settings. -/
theorem ofNode?_list {items : List Node} (hfew : items.length ≤ fieldNames.length) (depth : Nat) :
    ofNode? depth (.list items) = ofNode? depth (.object (fieldNames.zip items)) := by
  cases depth with
  | zero => rfl
  | succ depth => rw [ofNode?, ofNode?, Node.fields?_list nodup_fieldNames hfew]

/-! ## What cannot be read -/

/-- The document is none for settings: it writes too much, or too much about logging, or a timeout
that is not a count. -/
inductive Garbles : Node → Prop where
  /-- A known field is repeated, or there is an item too many. -/
  | overwrites {n : Node} (h : n.Overwrites fieldNames) : Garbles n
  /-- So it is inside, about logging. -/
  | overwritesLogging {n m : Node} (written : n.Writes fieldNames "logging" m)
    (h : m.Overwrites Logging.fieldNames) : Garbles n
  /-- A timeout is empty, or no integer, or out of range. -/
  | timeout {n m : Node} (stage : Stage) (written : n.Writes fieldNames stage.fieldName m)
    (h : ∀ value, ¬ m.Counts value) : Garbles n

/-- Whatever else such a document says, it says nothing of settings. -/
theorem Garbles.not_saidBy {n : Node} (h : Garbles n) (o : Overlay) : ¬ o.SaidBy n := by
  rintro ⟨fields, hgives, hwritten⟩
  cases h with
  | overwrites h => exact h.not_gives hgives
  | overwritesLogging hwrites h =>
    have hlogging := hwritten.logging
    rw [hgives.lookup nodup_fieldNames hwrites] at hlogging
    generalize o.logging = said at hlogging
    cases hlogging with
    | some hsaid =>
      obtain ⟨_, hinner, -⟩ := hsaid
      exact h.not_gives hinner
  | timeout stage hwrites h =>
    have htimeout := hwritten.timeout stage
    rw [hgives.lookup nodup_fieldNames hwrites] at htimeout
    generalize o.timeout stage = said at htimeout
    cases htimeout with
    | some hcounts => exact h _ hcounts

/-! ## Texts and files -/

/-- Settings are checked once they have been read. -/
theorem ofText_of_saidBy {text : String} {n : Node} {o : Overlay}
    (hfills : n.Fills text.toList) (h : o.SaidBy n) : ofText text = o.applied.check := by
  have hread : ofNode? nestingLimit n = some o.applied := ofNode?_eq_some_iff.mpr ⟨o, h, rfl⟩
  rw [ofText, hfills.parse?, Option.bind_some, hread]

/-- Nothing is checked where nothing can be read. -/
theorem ofText_eq_unreadable {text : String}
    (h : ∀ n : Node, n.Fills text.toList → ∀ o : Overlay, ¬ o.SaidBy n) :
    ofText text = .error .unreadable := by
  have hread : (Node.parse? text).bind (ofNode? nestingLimit) = none := by
    refine Option.eq_none_iff_forall_ne_some.mpr fun c hc => ?_
    obtain ⟨n, hparse, hread⟩ := Option.bind_eq_some_iff.mp hc
    obtain ⟨o, hsaid, -⟩ := ofNode?_eq_some_iff.mp hread
    exact h n (Node.parse?_eq_some_iff.mp hparse) o hsaid
  rw [ofText, hread]

/-- Bytes that are the text of a string are read as this string. -/
theorem ofFile_toUTF8 (text : String) : ofFile (some text.toUTF8) = ofText text := by
  have hutf8 : String.fromUTF8? text.toUTF8 = some text := dif_pos text.isValidUTF8
  rw [ofFile, Option.bind_some, hutf8]

/-- Bytes that are not the text of any string cannot be read. -/
theorem ofFile_eq_noFile {bytes : ByteArray} (h : ∀ text : String, text.toUTF8 ≠ bytes) :
    ofFile (some bytes) = .error .noFile := by
  have hutf8 : String.fromUTF8? bytes = none :=
    dif_neg fun hvalid => h (String.fromUTF8 bytes hvalid) rfl
  rw [ofFile, Option.bind_some, hutf8]

/-- What a text says of settings is laid over the defaults, whichever fields it writes, in whatever
order and among whatever other members, with an object or an array about logging inside, and however
it is spelled. The settings are accepted if all timeouts are positive; otherwise the first field is
named of which the timeout is zero. An array of the first fields means the same as the object with
these fields, for settings and for logging. A text that repeats a known field, has an item too many
or writes something else than a count for a timeout is unreadable whatever its timeouts are, and so
is every text that spells no document or one that says nothing of settings. The bytes of a text in a
file mean what the text means, and bytes that are no text cannot be read. -/
theorem overlay_defaults :
    (∀ (text : String) (n : Node) (o : Overlay), n.Fills text.toList → o.SaidBy n →
      ofNode? nestingLimit n = some o.applied ∧
        (∀ c, ofText text = .ok c ↔ (∀ stage, o.applied.timeout stage ≠ 0) ∧ c = o.applied) ∧
        ∀ reason, ofText text = .error reason ↔
          ∃ stage, o.applied.FirstZero stage ∧ reason = .invalidSetting (.zero stage.fieldName)) ∧
      (∀ (items : List Node) (depth : Nat), items.length ≤ fieldNames.length →
        ofNode? depth (.list items) = ofNode? depth (.object (fieldNames.zip items))) ∧
      (∀ (items : List Node) (depth : Nat), items.length ≤ Logging.fieldNames.length →
        Logging.ofNode? depth (.list items) =
          Logging.ofNode? depth (.object (Logging.fieldNames.zip items))) ∧
      (∀ (text : String) (n : Node), n.Fills text.toList → Garbles n →
        ofText text = .error .unreadable) ∧
      (∀ text : String, ofText text = .error .unreadable ↔
        ¬ ∃ (n : Node) (o : Overlay), n.Fills text.toList ∧ o.SaidBy n) ∧
      (∀ text : String, ofFile (some text.toUTF8) = ofText text) ∧
      ∀ bytes : ByteArray, (∀ text : String, text.toUTF8 ≠ bytes) →
        ofFile (some bytes) = .error .noFile := by
  refine ⟨fun text n o hfills hsaid => ⟨ofNode?_eq_some_iff.mpr ⟨o, hsaid, rfl⟩, ?_, ?_⟩,
    fun _ depth hfew => ofNode?_list hfew depth,
    fun _ depth hfew => Logging.ofNode?_list hfew depth,
    fun text n hfills hgarbles => ofText_eq_unreadable ?_, fun text => ⟨?_, ?_⟩, ofFile_toUTF8,
    fun _ => ofFile_eq_noFile⟩
  · intro c
    rw [ofText_of_saidBy hfills hsaid, check_eq_ok_iff, And.comm]
  · intro reason
    rw [ofText_of_saidBy hfills hsaid, check_eq_error_iff]
  · intro other hother o
    rw [← hfills.unique hother]
    exact hgarbles.not_saidBy o
  · rintro hunreadable ⟨n, o, hfills, hsaid⟩
    rw [ofText_of_saidBy hfills hsaid, check_eq_error_iff] at hunreadable
    obtain ⟨_, -, hreason⟩ := hunreadable
    cases hreason
  · exact fun h => ofText_eq_unreadable fun n hfills o hsaid => h ⟨n, o, hfills, hsaid⟩

/-- A text about the last timeout and the level, with something else in between of which the name is
escaped. -/
def partialText : String :=
  "\x7b\"reply_timeout_ms\" : 250,\"\\u0078\":[1e999],\"logging\":\x7b\"level\": \"trace\"\x7d\x7d"

/-- A text with a timeout of zero and one that is empty. -/
def garbledText : String :=
  "\x7b\"reply_timeout_ms\": 0, \"start_application_timeout_ms\": null\x7d"

/-- What the first text says. -/
def partialOverlay : Overlay where
  timeout
    | .reply => some 250
    | _ => none
  logging := some ⟨some .trace, none, none⟩

/-- The document of the first text. -/
def partialNode : Node :=
  .object [("reply_timeout_ms", .number ⟨false, ['2', '5', '0'], none, none⟩),
    ("x", .list [.number ⟨false, ['1'], none, some ⟨none, ['9', '9', '9']⟩⟩]),
    ("logging", .object [("level", .ofString "trace")])]

theorem partialNode_fills : partialNode.Fills partialText.toList := by
  have hnone : Blank [] := blank_nil
  have hblank : Blank [' '] := List.forall_mem_singleton.mpr (.inl rfl)
  have hwhole : Digits ['2', '5', '0'] := ⟨List.cons_ne_nil _ _, List.all_eq_true.mp rfl⟩
  have hone : Digits ['1'] := ⟨List.cons_ne_nil _ _, List.all_eq_true.mp rfl⟩
  have hnines : Digits ['9', '9', '9'] := ⟨List.cons_ne_nil _ _, List.all_eq_true.mp rfl⟩
  have hreply := Node.KeySpelledBy.mk hnone (Text.quote_spelledBy "reply_timeout_ms") hblank
  have hcount : Node.Fills (.number ⟨false, ['2', '5', '0'], none, none⟩) " 250".toList :=
    .mk hblank (.number (.positive hwhole (by decide) .absent .absent)) hnone
  have hescaped : Text.SpelledBy (some "x") "\"\\u0078\"".toList :=
    .readable (.cons (.hex (i := 0) (j := 0) (k := 7) (l := 8) (by decide) (by decide)
      (by decide) (by decide)) .nil) (.single (.inl (by decide)) .nil)
  have hunknown := Node.KeySpelledBy.mk hnone hescaped hnone
  have hhuge : Node.SpelledBy (.number ⟨false, ['1'], none, some ⟨none, ['9', '9', '9']⟩⟩)
      "1e999".toList :=
    .number (.positive hone (by decide) .absent (.unsigned (.inl rfl) hnines))
  have hlogging := Node.keySpelledBy_quote "logging"
  have hlevel := Node.keySpelledBy_quote "level"
  have htrace : Node.Fills (.ofString "trace") " \"trace\"".toList :=
    .mk hblank (.text (Text.quote_spelledBy "trace")) hnone
  have hunread := Node.SpelledBy.items hhuge.fills .none
  have hinner := Node.SpelledBy.members hlevel htrace .none
  have hall := Node.SpelledBy.members hreply hcount
    (.next hunknown hunread.fills (.next hlogging hinner.fills .none))
  exact hall.fills

theorem saidBy_partialOverlay : partialOverlay.SaidBy partialNode := by
  have hlogging : Logging.Overlay.SaidBy ⟨some .trace, none, none⟩
      (.object [("level", .ofString "trace")]) :=
    ⟨[("level", .ofString "trace")], .object (.refl _) (by decide) (by decide) fun _ => nofun,
      .some (Node.Names.text "trace"), .none, .none⟩
  refine ⟨[("reply_timeout_ms", .number ⟨false, ['2', '5', '0'], none, none⟩),
      ("logging", .object [("level", .ofString "trace")])],
    .object (.cons _ (.swap _ _ [])) (by decide) (by decide) (by decide), ?_, .some hlogging⟩
  intro stage
  cases stage with
  | choice => exact .none
  | start => exact .none
  | reply => exact .some ⟨⟨['2', '5', '0'], rfl, rfl⟩, by decide⟩

/-- The first text changes the defaults of a timeout and of the level. The second one is unreadable
before its timeouts are checked, in a file as well. -/
theorem overlay_defaults_partial :
    ofText partialText = .ok ⟨10000, 3000, 250, ⟨.trace, .plain, true⟩⟩ ∧
      ofFile (some garbledText.toUTF8) = .error .unreadable := by
  obtain ⟨hmeans, -, -, hgarbles, -, hfile, -⟩ := overlay_defaults
  constructor
  · refine ((hmeans _ _ _ partialNode_fills saidBy_partialOverlay).2.1 _).mpr ⟨fun stage => ?_, rfl⟩
    cases stage <;> decide
  · have hfills : Node.Fills (.object [("reply_timeout_ms", .number ⟨false, ['0'], none, none⟩),
        ("start_application_timeout_ms", .null)]) garbledText.toList :=
      Node.parse?_eq_some_iff.mp rfl
    rw [hfile]
    refine hgarbles garbledText _ hfills (.timeout (m := .null) .start ?_ ?_)
    · exact .member (by decide) (.tail _ (.head _))
    · rintro _ ⟨⟨_, hnull, _⟩, _⟩
      cases hnull

end Settings

end IntentRouter
