import IntentRouter.Counters
import IntentRouter.Connection
import IntentRouter.Request
import IntentRouter.Settings
import IntentRouter.Proofs.Stamps
import IntentRouter.Proofs.Timeouts
import IntentRouter.Proofs.Values

/-!
# What is written is read back

All that is written as a document is read back from the text of the document, whatever the order in
which the members of objects are written: intents and requests with all that belongs to them, offers
and outcomes, counters, channels, and settings.
-/

namespace IntentRouter

open Json

/-! ## What can be written -/

/-- All constraints are exact values. -/
def Intent.Exact (i : Intent) : Prop := i.constraints.Exact

/-- All values are exact. -/
def Outcome.Exact : Outcome → Prop
  | .succeeded payload => payload.Exact
  | .failed _ => True

/-- All values in the request are exact, and its time has a year of four digits. -/
structure Request.Exact (r : Request) : Prop where
  /-- The parameters are exact. -/
  parameters : r.parameters.Exact
  /-- The candidates are exact. -/
  candidates : ∀ i ∈ r.candidates, i.Exact
  /-- The outcome is exact, if there is one. -/
  outcome : ∀ o, r.outcome = some o → o.Exact
  /-- The year is not before zero and has at most four digits. -/
  year : 0 ≤ r.created.date.year ∧ r.created.date.year ≤ 9999

/-- All values in the offer are exact. -/
structure Offer.Exact (o : Offer) : Prop where
  /-- The parameters are exact. -/
  parameters : o.parameters.Exact
  /-- The candidates are exact. -/
  candidates : ∀ i ∈ o.candidates, i.Exact

/-- All counters fit 64 bits. -/
def Counters.Fits (m : Counters) : Prop := ∀ count ∈ m.toList, count ≤ Numeral.largest

/-- All timeouts fit 64 bits. -/
def Settings.Fits (c : Settings) : Prop := ∀ stage, c.timeout stage ≤ Numeral.largest

/-! ## Documents can be printed -/

theorem Json.Node.printable_ofString? (s : Option String) : (Node.ofString? s).Printable := by
  cases s with
  | none => trivial
  | some s => exact rfl

theorem Intent.Exact.printable {i : Intent} (h : i.Exact) : i.toNode.Printable := by
  refine Node.printable_object ?_
  simp only [List.forall_mem_cons]
  exact ⟨rfl, rfl, Node.printable_ofString? _, Node.printable_map fun _ _ => rfl, rfl,
    Parameters.Exact.printable h, fun _ => nofun⟩

theorem Outcome.Exact.printable {o : Outcome} (h : o.Exact) : o.toNode.Printable := by
  cases o with
  | succeeded payload => exact ⟨rfl, Parameters.Exact.printable h, trivial⟩
  | failed message => exact ⟨rfl, rfl, trivial⟩

theorem Request.Exact.printable {r : Request} (h : r.Exact) : r.toNode.Printable := by
  have houtcome : (r.outcome.elim .null Outcome.toNode).Printable := by
    cases hr : r.outcome with
    | none => trivial
    | some o => exact (h.outcome o hr).printable
  refine Node.printable_object ?_
  simp only [List.forall_mem_cons]
  exact ⟨rfl, rfl, rfl, h.parameters.printable,
    Node.printable_map fun i hi => (h.candidates i hi).printable, Node.printable_ofString? _, rfl,
    houtcome, rfl, fun _ => nofun⟩

theorem Offer.Exact.printable {o : Offer} (h : o.Exact) : o.toNode.Printable := by
  refine Node.printable_object ?_
  simp only [List.forall_mem_cons]
  exact ⟨rfl, Node.printable_map fun i hi => (h.candidates i hi).printable,
    h.parameters.printable, fun _ => nofun⟩

theorem Counters.printable (m : Counters) : m.toNode.Printable := by
  refine Node.printable_object fun field hfield => ?_
  obtain ⟨count, -, hcount⟩ := List.mem_map.mp (List.of_mem_zip hfield).2
  rw [← hcount]
  exact Numeral.plain_ofNat count

theorem Connection.printable (c : Connection) : c.toNode.Printable :=
  ⟨rfl, rfl, rfl, rfl, trivial⟩

theorem Logging.printable (l : Logging) : l.toNode.Printable :=
  ⟨rfl, rfl, rfl, rfl, rfl, trivial, trivial⟩

theorem Settings.printable (c : Settings) : c.toNode.Printable :=
  ⟨rfl, Numeral.plain_ofNat _, rfl, Numeral.plain_ofNat _, rfl, Numeral.plain_ofNat _, rfl,
    c.logging.printable, trivial⟩

/-! ## Documents are read -/

theorem Visibility.reads (v : Visibility) : Node.Reads ofNode? v.toNode v :=
  Node.reads_caseName (by cases v <;> rfl)

theorem RequestState.reads (s : RequestState) : Node.Reads ofNode? s.toNode s :=
  Node.reads_caseName (by cases s <;> rfl)

theorem LogLevel.reads (l : LogLevel) : Node.Reads ofNode? l.toNode l :=
  Node.reads_caseName (by cases l <;> rfl)

theorem LogFormat.reads (f : LogFormat) : Node.Reads ofNode? f.toNode f :=
  Node.reads_caseName (by cases f <;> rfl)

theorem Intent.Exact.reads {i : Intent} (h : i.Exact) : Node.Reads ofNode? i.toNode i := by
  intro n depth hn hdepth
  obtain ⟨found, hfields, hfound⟩ := hn.fields? fieldNames .complete rfl (by decide) hdepth
  simp only [List.forall_mem_cons] at hfound
  obtain ⟨hid, howner, hhandler, hcapabilities, hvisibility, hconstraints, -⟩ := hfound
  simp only [ofNode?, hfields, Option.bind_eq_bind, Option.bind_some,
    hid.required? (Node.reads_string _), howner.required? (Node.reads_string _),
    hhandler.optional? (fun _ => nofun) fun s _ => Node.reads_string s,
    hcapabilities.required? (Node.reads_strings _), hvisibility.required? i.visibility.reads,
    hconstraints.required? (Parameters.Exact.reads h), NameSet.ofList_members]

theorem Outcome.Exact.reads {o : Outcome} (h : o.Exact) : Node.Reads ofNode? o.toNode o := by
  intro n depth hn hdepth
  cases o with
  | succeeded payload =>
    obtain ⟨content, hcase, hcontent, hnesting⟩ := Node.Reordered.case? hn hdepth
    have hpayload := Parameters.Exact.reads h content (depth - 1) hcontent hnesting
    simp only [ofNode?, hcase, hpayload, Option.map_some]
  | failed message =>
    obtain ⟨content, hcase, hcontent, -⟩ := Node.Reordered.case? hn hdepth
    cases hcontent
    simp only [ofNode?, hcase]
    rfl

theorem Outcome.toNode_ne_null (o : Outcome) : o.toNode ≠ .null := by
  cases o <;> exact nofun

theorem Request.Exact.reads {r : Request} (h : r.Exact) : Node.Reads ofNode? r.toNode r := by
  intro n depth hn hdepth
  obtain ⟨found, hfields, hfound⟩ := hn.fields? fieldNames .complete rfl (by decide) hdepth
  simp only [List.forall_mem_cons] at hfound
  obtain ⟨hid, hrequester, hintent, hparameters, hcandidates, hhandler, hstate, houtcome, hcreated,
    -⟩ := hfound
  simp only [ofNode?, hfields, Option.bind_eq_bind, Option.bind_some,
    hid.required? (Node.reads_text r.id.ofString?_text),
    hrequester.required? (Node.reads_string _), hintent.required? (Node.reads_string _),
    hparameters.required? h.parameters.reads,
    hcandidates.required? (Node.reads_items fun i hi => (h.candidates i hi).reads),
    hhandler.optional? (fun _ => nofun) fun s _ => Node.reads_string s,
    hstate.required? r.state.reads,
    houtcome.optional? Outcome.toNode_ne_null fun o ho => (h.outcome o ho).reads,
    hcreated.required? (Node.reads_text (Timestamp.ofString?_text h.year))]

theorem Offer.Exact.reads {o : Offer} (h : o.Exact) : Node.Reads ofNode? o.toNode o := by
  intro n depth hn hdepth
  obtain ⟨found, hfields, hfound⟩ := hn.fields? fieldNames .complete rfl (by decide) hdepth
  simp only [List.forall_mem_cons] at hfound
  obtain ⟨hrequest, hcandidates, hparameters, -⟩ := hfound
  simp only [ofNode?, hfields, Option.bind_eq_bind, Option.bind_some,
    hrequest.required? (Node.reads_text o.request.ofString?_text),
    hcandidates.required? (Node.reads_items fun i hi => (h.candidates i hi).reads),
    hparameters.required? h.parameters.reads]

theorem Counters.Fits.reads {m : Counters} (h : m.Fits) : Node.Reads ofNode? m.toNode m := by
  intro n depth hn hdepth
  obtain ⟨found, hfields, hfound⟩ := hn.fields? fieldNames .complete rfl (by decide) hdepth
  simp only [fieldNames, toList, List.map_cons, List.zip_cons_cons, List.forall_mem_cons] at hfound
  obtain ⟨hsubmitted, hrejected, hsucceeded, hfailed, hundeliverable, -⟩ := hfound
  simp only [Fits, toList, List.forall_mem_cons] at h
  obtain ⟨hsubmitted', hrejected', hsucceeded', hfailed', hundeliverable', -⟩ := h
  simp only [ofNode?, hfields, Option.bind_eq_bind, Option.bind_some,
    hsubmitted.required? (Node.reads_count hsubmitted'),
    hrejected.required? (Node.reads_count hrejected'),
    hsucceeded.required? (Node.reads_count hsucceeded'),
    hfailed.required? (Node.reads_count hfailed'),
    hundeliverable.required? (Node.reads_count hundeliverable')]

theorem Connection.reads (c : Connection) : Node.Reads ofNode? c.toNode c := by
  intro n depth hn hdepth
  obtain ⟨found, hfields, hfound⟩ := hn.fields? fieldNames .complete rfl (by decide) hdepth
  simp only [List.forall_mem_cons] at hfound
  obtain ⟨happlication, hconnection, -⟩ := hfound
  simp only [ofNode?, hfields, Option.bind_eq_bind, Option.bind_some,
    happlication.required? (Node.reads_string _), hconnection.required? (Node.reads_string _)]

theorem Logging.reads (l : Logging) : Node.Reads ofNode? l.toNode l := by
  intro n depth hn hdepth
  obtain ⟨found, hfields, hfound⟩ := hn.fields? fieldNames .defaulted rfl (by decide) hdepth
  simp only [List.forall_mem_cons] at hfound
  obtain ⟨hlevel, hformat, htarget, -⟩ := hfound
  simp only [ofNode?, hfields, Option.bind_eq_bind, Option.bind_some,
    hlevel.defaulted? l.level.reads, hformat.defaulted? l.format.reads,
    htarget.defaulted? (Node.reads_bool _)]

theorem Settings.Fits.reads {c : Settings} (h : c.Fits) : Node.Reads ofNode? c.toNode c := by
  intro n depth hn hdepth
  obtain ⟨found, hfields, hfound⟩ := hn.fields? fieldNames .defaulted rfl (by decide) hdepth
  simp only [List.forall_mem_cons] at hfound
  obtain ⟨hchoice, hstart, hreply, hlogging, -⟩ := hfound
  simp only [ofNode?, hfields, Option.bind_eq_bind, Option.bind_some,
    hchoice.defaulted? (Node.reads_count (h .choice)),
    hstart.defaulted? (Node.reads_count (h .start)),
    hreply.defaulted? (Node.reads_count (h .reply)), hlogging.defaulted? c.logging.reads]

/-! ## Texts are read -/

/-- What is written as the text of a document is read back from it, whatever characters are in the
texts of it and in whatever order the members of objects are written. Values must not contain
floating-point numbers, numbers have to fit 64 bits, the year has four digits, and the document must
not be nested too deeply. Settings with positive timeouts are also accepted. -/
theorem written_read_back :
    (∀ i : Intent, i.Exact → i.toNode.nesting ≤ nestingLimit →
      i.toNode.Decodes Intent.ofNode? i) ∧
    (∀ r : Request, r.Exact → r.toNode.nesting ≤ nestingLimit →
      r.toNode.Decodes Request.ofNode? r) ∧
    (∀ o : Outcome, o.Exact → o.toNode.nesting ≤ nestingLimit →
      o.toNode.Decodes Outcome.ofNode? o) ∧
    (∀ o : Offer, o.Exact → o.toNode.nesting ≤ nestingLimit →
      o.toNode.Decodes Offer.ofNode? o) ∧
    (∀ m : Counters, m.Fits → m.toNode.Decodes Counters.ofNode? m) ∧
    (∀ c : Connection, c.toNode.Decodes Connection.ofNode? c) ∧
    (∀ l : Logging, l.toNode.Decodes Logging.ofNode? l) ∧
    (∀ c : Settings, c.Fits → c.toNode.Decodes Settings.ofNode? c) ∧
    (∀ s : RequestState, s.toNode.Decodes RequestState.ofNode? s) ∧
    (∀ v : Visibility, v.toNode.Decodes Visibility.ofNode? v) ∧
    (∀ l : LogLevel, l.toNode.Decodes LogLevel.ofNode? l) ∧
    (∀ f : LogFormat, f.toNode.Decodes LogFormat.ofNode? f) ∧
    ∀ c : Settings, c.Fits → (∀ stage, 0 < c.timeout stage) →
      ∀ n, c.toNode.Reordered n → Settings.ofText n.render = .ok c := by
  have hone : 1 ≤ nestingLimit := by decide
  have htwo : 2 ≤ nestingLimit := by decide
  have hsettings : ∀ c : Settings, c.Fits → c.toNode.Decodes Settings.ofNode? c := fun c h =>
    h.reads.decodes c.printable htwo
  refine ⟨fun i h => h.reads.decodes h.printable, fun r h => h.reads.decodes h.printable,
    fun o h => h.reads.decodes h.printable, fun o h => h.reads.decodes h.printable,
    fun m h => h.reads.decodes m.printable hone, fun c => c.reads.decodes c.printable hone,
    fun l => l.reads.decodes l.printable hone, hsettings,
    fun s => s.reads.decodes rfl (Nat.zero_le _), fun v => v.reads.decodes rfl (Nat.zero_le _),
    fun l => l.reads.decodes rfl (Nat.zero_le _), fun f => f.reads.decodes rfl (Nat.zero_le _),
    fun c h hpositive n hn => ?_⟩
  rw [Settings.ofText, hsettings c h n hn]
  exact Settings.check_eq_ok_iff.mpr ⟨rfl, fun stage => Nat.ne_of_gt (hpositive stage)⟩

/-- What is printed: values are nested, texts hold characters that are escaped, and integers stand
at both ends of what fits. -/
def printedPages : Parameters where
  entries := [
    ("copies", .int 18446744073709551615),
    ("pages", .arr [
      .int (-9223372036854775808),
      .obj [("last", .bool true), ("title", .str "\"\n⌘")]])]
  normal := ⟨by decide, trivial, ⟨trivial, ⟨by decide, trivial, trivial, trivial⟩, trivial⟩,
    trivial⟩

theorem printedPages_exact : printedPages.Exact :=
  ⟨⟨by decide, by decide⟩, ⟨⟨by decide, by decide⟩, ⟨trivial, trivial, trivial⟩, trivial⟩, trivial⟩

/-- An intent that prints these pages only. -/
def printPages : Intent :=
  ⟨"print", "printer", none, .ofList ["ink", "colour"], .owner, printedPages⟩

/-- A request that the printer has handled on a leap day. -/
def printedRequest : Request where
  id := .ofNat 2026
  requester := "editor"
  intentId := "print"
  parameters := printedPages
  candidates := [printPages]
  handler := some "printer"
  state := .settled
  outcome := some (.succeeded printedPages)
  created := ⟨⟨2024, 2, 29, by decide⟩, 23, 59, 59, 120000, by decide⟩

theorem printedRequest_exact : printedRequest.Exact where
  parameters := printedPages_exact
  candidates := List.forall_mem_singleton.mpr printedPages_exact
  outcome := fun _ h => Option.some.inj h ▸ printedPages_exact
  year := by decide

/-- The document of the standard settings with the last field first. -/
def standardReversed : Node :=
  .object [
    ("logging", Logging.standard.toNode),
    (Stage.reply.fieldName, .ofNat 5000),
    (Stage.start.fieldName, .ofNat 3000),
    (Stage.choice.fieldName, .ofNat 10000)]

theorem standard_reordered : Settings.standard.toNode.Reordered standardReversed :=
  .members (Node.Reordered.refl_members _) (List.reverse_perm _).symm

/-- The request and all that belongs to it are read back, and so are counters at both ends of what
fits and the standard settings in reversed order. -/
theorem written_read_back_printing :
    (Node.parse? printPages.toNode.render).bind (Intent.ofNode? nestingLimit) = some printPages ∧
    (Node.parse? printedRequest.toNode.render).bind (Request.ofNode? nestingLimit) =
      some printedRequest ∧
    (Node.parse? (Outcome.succeeded printedPages).toNode.render).bind
      (Outcome.ofNode? nestingLimit) = some (.succeeded printedPages) ∧
    (Node.parse? (Offer.ofRequest printedRequest).toNode.render).bind
      (Offer.ofNode? nestingLimit) = some (.ofRequest printedRequest) ∧
    (Node.parse? (Counters.mk 18446744073709551615 0 1 2 3).toNode.render).bind
      (Counters.ofNode? nestingLimit) = some ⟨18446744073709551615, 0, 1, 2, 3⟩ ∧
    (Node.parse? standardReversed.render).bind (Settings.ofNode? nestingLimit) = some .standard ∧
    Settings.ofText standardReversed.render = .ok .standard := by
  obtain ⟨hintent, hrequest, houtcome, hoffer, hcounters, -, -, hsettings, -, -, -, -, htext⟩ :=
    written_read_back
  have hcandidates : ∀ i ∈ [printPages], i.Exact := List.forall_mem_singleton.mpr printedPages_exact
  have hlimits : ∀ m ∈ [18446744073709551615, 0, 1, 2, 3], m ≤ Numeral.largest := by decide
  have hfits : Settings.standard.Fits := fun stage => by cases stage <;> decide
  have hpositive : ∀ stage, 0 < Settings.standard.timeout stage := fun stage => by
    cases stage <;> decide
  exact ⟨hintent printPages printedPages_exact (by decide) _ (.refl _),
    hrequest printedRequest printedRequest_exact (by decide) _ (.refl _),
    houtcome (.succeeded printedPages) printedPages_exact (by decide) _ (.refl _),
    hoffer (.ofRequest printedRequest) ⟨printedPages_exact, hcandidates⟩ (by decide) _ (.refl _),
    hcounters ⟨18446744073709551615, 0, 1, 2, 3⟩ hlimits _ (.refl _),
    hsettings .standard hfits _ standard_reordered,
    htext .standard hfits hpositive _ standard_reordered⟩

end IntentRouter
