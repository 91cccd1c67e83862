import IntentRouter.Proofs.Complete
import IntentRouter.Proofs.Grammar
import IntentRouter.Proofs.RoundTrip

/-!
# All notations of a record agree

An intent, a request, an offer, counters and a channel can be written as objects, with their fields
in any order and among others that are not known, or as arrays of their fields, and their texts can
be spelled in many ways. Every text is read as what it says. It is none of them if it writes a known
field twice or leaves out one that is needed, if it is an array of another length, or if there is
such an intent among the candidates in it.
-/

namespace IntentRouter

open Json

/-! ## Intents -/

namespace Intent

/-- The fields that may be left out of an object. -/
def optionalNames : List String := ["background_handler_id"]

/-- The fields say the intent, and at most so many containers are nested in each. -/
structure WrittenIn (depth : Nat) (i : Intent) (field : String → Option Node) : Prop where
  /-- The id. -/
  intentId : Option.Rel Node.Tells (field "intent_id") (some i.intentId)
  /-- The owner. -/
  owner : Option.Rel Node.Tells (field "application_id") (some i.owner)
  /-- The background handler, if there is one. -/
  backgroundHandler : Optionally Node.Tells (field "background_handler_id") i.backgroundHandler
  /-- The required capabilities. -/
  capabilities : Option.Rel Node.TellsSet (field "required_capabilities")
    (some i.requiredCapabilities)
  /-- Who may see it. -/
  visibility : Option.Rel (fun n v => Node.Names n (Visibility.caseName v)) (field "visibility")
    (some i.visibility)
  /-- The constraints. -/
  constraints : Option.Rel (fun n p => Parameters.SaidBy depth p n) (field "parameter_match")
    (some i.constraints)

/-- The document says the intent, and at most so many containers are nested in it, those in members
that are not known aside. -/
def SaidBy (depth : Nat) (i : Intent) (n : Node) : Prop :=
  ∃ fields, n.GivesAll fieldNames fields ∧ i.WrittenIn (depth - 1) fun name => fields.lookup name

theorem ofNode?_eq_some_iff {depth : Nat} {n : Node} {i : Intent} :
    ofNode? (depth + 2) n = some i ↔ i.SaidBy (depth + 2) n := by
  refine Node.fields?_bind_eq_some_iff fun fields => ?_
  have hinner : depth + 2 - 1 = depth + 1 := rfl
  have hcapabilities : ∀ names,
      fields.required? "required_capabilities" (·.strings? (depth + 1)) = some names ↔
        Option.Rel (Node.Lists Node.Tells) (fields.lookup "required_capabilities") (some names) :=
    fun _ => Fields.required?_eq_some_iff fun _ _ => Node.strings?_eq_some_iff
  have hvisibility : ∀ v, fields.required? "visibility" (Visibility.ofNode? (depth + 1)) = some v ↔
      Option.Rel (fun n v => Node.Names n (Visibility.caseName v)) (fields.lookup "visibility")
        (some v) := fun _ => Fields.required?_eq_some_iff fun _ _ => Visibility.ofNode?_eq_some_iff
  simp only [Option.bind_eq_bind, Option.bind_eq_some_iff, hinner, Fields.text_eq_some_iff,
    Fields.optionalText_eq_some_iff, Fields.parameters_eq_some_iff,
    hcapabilities, hvisibility]
  constructor
  · rintro ⟨_, hid, _, howner, _, hhandler, _, hnames, _, hvisible, _, hmatch, ⟨⟩⟩
    exact ⟨hid, howner, hhandler, Node.exists_lists_iff.mp ⟨_, hnames, rfl⟩, hvisible, hmatch⟩
  · rintro ⟨hid, howner, hhandler, hset, hvisible, hmatch⟩
    obtain ⟨names, hnames, hset⟩ := Node.exists_lists_iff.mpr hset
    refine ⟨_, hid, _, howner, _, hhandler, names, hnames, _, hvisible, _, hmatch, ?_⟩
    rw [hset]

/-- All fields but the optional one are written. -/
theorem WrittenIn.needed {depth : Nat} {i : Intent} (field : String → Option Node)
    (h : i.WrittenIn depth field) :
    ∀ name ∈ fieldNames, name ∉ optionalNames → field name ≠ none := by
  simp only [fieldNames, List.forall_mem_cons]
  exact ⟨fun _ => Node.ne_none_of_rel h.intentId, fun _ => Node.ne_none_of_rel h.owner,
    fun hneeded => absurd (by decide) hneeded, fun _ => Node.ne_none_of_rel h.capabilities,
    fun _ => Node.ne_none_of_rel h.visibility, fun _ => Node.ne_none_of_rel h.constraints,
    List.forall_mem_nil _⟩

/-- A garbled document says no intent. -/
theorem not_saidBy_of_garbles {depth : Nat} {i : Intent} {n : Node}
    (h : n.Garbles fieldNames optionalNames) : ¬ i.SaidBy depth n :=
  h.not_said WrittenIn.needed

end Intent

/-! ## Requests and offers -/

/-- Candidates are read from a field that lists them. -/
theorem Json.Fields.candidates_eq_some_iff {fields : Fields} {name : String} {depth : Nat}
    {candidates : List Intent} :
    fields.required? name (·.items? Intent.ofNode? (depth + 3)) = some candidates ↔
      Option.Rel (Node.Lists fun n i => Intent.SaidBy (depth + 2) i n) (fields.lookup name)
        (some candidates) :=
  Fields.required?_eq_some_iff fun _ _ => Node.items?_eq_some_iff fun _ _ =>
    Intent.ofNode?_eq_some_iff

/-- The document says the outcome, and at most so many containers are nested in it. -/
inductive Outcome.SaidBy (depth : Nat) : Outcome → Node → Prop where
  /-- The only member has the payload. -/
  | succeeded {payload : Parameters} {n : Node} (h : payload.SaidBy (depth - 1) n) :
    SaidBy depth (.succeeded payload) (.object [("Succeeded", n)])
  /-- The only member has the message. -/
  | failed (message : String) :
    SaidBy depth (.failed message) (.object [("Failed", .ofString message)])

theorem Outcome.ofNode?_eq_some_iff {depth : Nat} {n : Node} {o : Outcome} :
    ofNode? (depth + 1) n = some o ↔ o.SaidBy (depth + 1) n := by
  constructor
  · intro h
    unfold ofNode? at h
    split at h
    · next content hcase =>
      rw [Node.case?_eq_some_iff.mp hcase]
      obtain ⟨payload, hpayload, rfl⟩ := Option.map_eq_some_iff.mp h
      exact .succeeded (Parameters.ofNode?_eq_some_iff.mp hpayload)
    · next content hcase =>
      rw [Node.case?_eq_some_iff.mp hcase]
      obtain ⟨message, hmessage, rfl⟩ := Option.map_eq_some_iff.mp h
      rw [Node.string?_eq_some_iff.mp hmessage]
      exact .failed message
    · cases h
  · rintro (⟨h⟩ | _)
    · exact Option.map_eq_some_iff.mpr ⟨_, Parameters.ofNode?_eq_some_iff.mpr h, rfl⟩
    · rfl

namespace Request

/-- The fields that may be left out of an object. -/
def optionalNames : List String := ["handling_application_id", "result"]

/-- The fields say the request, and at most so many containers are nested in each. -/
structure WrittenIn (depth : Nat) (r : Request) (field : String → Option Node) : Prop where
  /-- The name of the request. -/
  id : Option.Rel (Node.TellsBy RequestId.ofString?) (field "id") (some r.id)
  /-- The requester. -/
  requester : Option.Rel Node.Tells (field "requesting_application_id") (some r.requester)
  /-- The id of the intent. -/
  intentId : Option.Rel Node.Tells (field "intent_id") (some r.intentId)
  /-- The parameters. -/
  parameters : Option.Rel (fun n p => Parameters.SaidBy depth p n) (field "parameters")
    (some r.parameters)
  /-- The candidates. -/
  candidates : Option.Rel (Node.Lists fun n i => Intent.SaidBy (depth - 1) i n)
    (field "potential_intents") (some r.candidates)
  /-- The handler, if there is one. -/
  handler : Optionally Node.Tells (field "handling_application_id") r.handler
  /-- Where it stands. -/
  state : Option.Rel (fun n s => Node.Names n (RequestState.text s)) (field "state") (some r.state)
  /-- The outcome, if there is one. -/
  outcome : Optionally (fun n o => Outcome.SaidBy depth o n) (field "result") r.outcome
  /-- When it was submitted. -/
  created : Option.Rel (Node.TellsBy Timestamp.ofString?) (field "created") (some r.created)

/-- The document says the request, and at most so many containers are nested in it, those in members
that are not known aside. -/
def SaidBy (depth : Nat) (r : Request) (n : Node) : Prop :=
  ∃ fields, n.GivesAll fieldNames fields ∧ r.WrittenIn (depth - 1) fun name => fields.lookup name

theorem ofNode?_eq_some_iff {depth : Nat} {n : Node} {r : Request} :
    ofNode? (depth + 4) n = some r ↔ r.SaidBy (depth + 4) n := by
  refine Node.fields?_bind_eq_some_iff fun fields => ?_
  have hinner : depth + 4 - 1 = depth + 3 := rfl
  have hstate : ∀ s, fields.required? "state" (RequestState.ofNode? (depth + 3)) = some s ↔
      Option.Rel (fun n s => Node.Names n (RequestState.text s)) (fields.lookup "state")
        (some s) := fun _ =>
    Fields.required?_eq_some_iff fun _ _ => RequestState.ofNode?_eq_some_iff
  have houtcome : ∀ o, fields.optional? "result" (Outcome.ofNode? (depth + 3)) = some o ↔
      Optionally (fun n o => Outcome.SaidBy (depth + 3) o n) (fields.lookup "result") o := fun _ =>
    Fields.optional?_eq_some_iff (fun _ _ => Outcome.ofNode?_eq_some_iff) rfl
  simp only [Option.bind_eq_bind, Option.bind_eq_some_iff, hinner, Fields.text_eq_some_iff,
    Fields.textBy_eq_some_iff, Fields.optionalText_eq_some_iff, Fields.parameters_eq_some_iff,
    Fields.candidates_eq_some_iff, hstate, houtcome]
  constructor
  · rintro ⟨_, hid, _, hrequester, _, hintent, _, hparams, _, hintents, _, hhandler, _, hwhere, _,
      hresult, _, hcreated, ⟨⟩⟩
    exact ⟨hid, hrequester, hintent, hparams, hintents, hhandler, hwhere, hresult, hcreated⟩
  · rintro ⟨hid, hrequester, hintent, hparams, hintents, hhandler, hwhere, hresult, hcreated⟩
    exact ⟨_, hid, _, hrequester, _, hintent, _, hparams, _, hintents, _, hhandler, _, hwhere, _,
      hresult, _, hcreated, rfl⟩

/-- All fields but the optional ones are written. -/
theorem WrittenIn.needed {depth : Nat} {r : Request} (field : String → Option Node)
    (h : r.WrittenIn depth field) :
    ∀ name ∈ fieldNames, name ∉ optionalNames → field name ≠ none := by
  simp only [fieldNames, List.forall_mem_cons]
  exact ⟨fun _ => Node.ne_none_of_rel h.id, fun _ => Node.ne_none_of_rel h.requester,
    fun _ => Node.ne_none_of_rel h.intentId, fun _ => Node.ne_none_of_rel h.parameters,
    fun _ => Node.ne_none_of_rel h.candidates, fun hneeded => absurd (by decide) hneeded,
    fun _ => Node.ne_none_of_rel h.state, fun hneeded => absurd (by decide) hneeded,
    fun _ => Node.ne_none_of_rel h.created, List.forall_mem_nil _⟩

end Request

namespace Offer

/-- The fields say the offer, and at most so many containers are nested in each. -/
structure WrittenIn (depth : Nat) (o : Offer) (field : String → Option Node) : Prop where
  /-- The request. -/
  request : Option.Rel (Node.TellsBy RequestId.ofString?) (field "request_id") (some o.request)
  /-- The candidates. -/
  candidates : Option.Rel (Node.Lists fun n i => Intent.SaidBy (depth - 1) i n)
    (field "potential_intents") (some o.candidates)
  /-- The parameters. -/
  parameters : Option.Rel (fun n p => Parameters.SaidBy depth p n) (field "parameters")
    (some o.parameters)

/-- The document says the offer, and at most so many containers are nested in it, those in members
that are not known aside. -/
def SaidBy (depth : Nat) (o : Offer) (n : Node) : Prop :=
  ∃ fields, n.GivesAll fieldNames fields ∧ o.WrittenIn (depth - 1) fun name => fields.lookup name

theorem ofNode?_eq_some_iff {depth : Nat} {n : Node} {o : Offer} :
    ofNode? (depth + 4) n = some o ↔ o.SaidBy (depth + 4) n := by
  refine Node.fields?_bind_eq_some_iff fun fields => ?_
  have hinner : depth + 4 - 1 = depth + 3 := rfl
  simp only [Option.bind_eq_bind, Option.bind_eq_some_iff, hinner, Fields.textBy_eq_some_iff,
    Fields.candidates_eq_some_iff, Fields.parameters_eq_some_iff]
  constructor
  · rintro ⟨_, hrequest, _, hintents, _, hparams, ⟨⟩⟩
    exact ⟨hrequest, hintents, hparams⟩
  · rintro ⟨hrequest, hintents, hparams⟩
    exact ⟨_, hrequest, _, hintents, _, hparams, rfl⟩

theorem WrittenIn.needed {depth : Nat} {o : Offer} (field : String → Option Node)
    (h : o.WrittenIn depth field) : ∀ name ∈ fieldNames, name ∉ [] → field name ≠ none := by
  simp only [fieldNames, List.forall_mem_cons]
  exact ⟨fun _ => Node.ne_none_of_rel h.request, fun _ => Node.ne_none_of_rel h.candidates,
    fun _ => Node.ne_none_of_rel h.parameters, List.forall_mem_nil _⟩

end Offer

/-! ## Counters and channels -/

namespace Counters

/-- The fields say the counters. -/
structure WrittenIn (m : Counters) (field : String → Option Node) : Prop where
  /-- How many requests were admitted. -/
  submitted : Option.Rel Node.Counts (field "submitted_requests") (some m.submitted)
  /-- How many were refused. -/
  rejected : Option.Rel Node.Counts (field "rejected_requests") (some m.rejected)
  /-- How many succeeded. -/
  succeeded : Option.Rel Node.Counts (field "succeeded_requests") (some m.succeeded)
  /-- How many failed. -/
  failed : Option.Rel Node.Counts (field "failed_requests") (some m.failed)
  /-- How many outcomes were dropped. -/
  undeliverable : Option.Rel Node.Counts (field "undeliverable_replies") (some m.undeliverable)

/-- The document says the counters. -/
def SaidBy (m : Counters) (n : Node) : Prop :=
  ∃ fields, n.GivesAll fieldNames fields ∧ m.WrittenIn fun name => fields.lookup name

theorem ofNode?_eq_some_iff {depth : Nat} {n : Node} {m : Counters} :
    ofNode? (depth + 1) n = some m ↔ m.SaidBy n := by
  refine Node.fields?_bind_eq_some_iff fun fields => ?_
  have hcount : ∀ name count, fields.required? name (·.count?) = some count ↔
      Option.Rel Node.Counts (fields.lookup name) (some count) := fun _ _ =>
    Fields.required?_eq_some_iff fun _ _ => Node.count?_eq_some_iff
  simp only [Option.bind_eq_bind, Option.bind_eq_some_iff, hcount]
  constructor
  · rintro ⟨_, hsubmitted, _, hrejected, _, hsucceeded, _, hfailed, _, hundeliverable, ⟨⟩⟩
    exact ⟨hsubmitted, hrejected, hsucceeded, hfailed, hundeliverable⟩
  · rintro ⟨hsubmitted, hrejected, hsucceeded, hfailed, hundeliverable⟩
    exact ⟨_, hsubmitted, _, hrejected, _, hsucceeded, _, hfailed, _, hundeliverable, rfl⟩

theorem WrittenIn.needed {m : Counters} (field : String → Option Node) (h : m.WrittenIn field) :
    ∀ name ∈ fieldNames, name ∉ [] → field name ≠ none := by
  simp only [fieldNames, List.forall_mem_cons]
  exact ⟨fun _ => Node.ne_none_of_rel h.submitted, fun _ => Node.ne_none_of_rel h.rejected,
    fun _ => Node.ne_none_of_rel h.succeeded, fun _ => Node.ne_none_of_rel h.failed,
    fun _ => Node.ne_none_of_rel h.undeliverable, List.forall_mem_nil _⟩

end Counters

namespace Connection

/-- The fields say the channel. -/
structure WrittenIn (c : Connection) (field : String → Option Node) : Prop where
  /-- The application. -/
  application : Option.Rel Node.Tells (field "application_id") (some c.application)
  /-- The host's name for the connection. -/
  connection : Option.Rel Node.Tells (field "connection_id") (some c.connection)

/-- The document says the channel. -/
def SaidBy (c : Connection) (n : Node) : Prop :=
  ∃ fields, n.GivesAll fieldNames fields ∧ c.WrittenIn fun name => fields.lookup name

theorem ofNode?_eq_some_iff {depth : Nat} {n : Node} {c : Connection} :
    ofNode? (depth + 1) n = some c ↔ c.SaidBy n := by
  refine Node.fields?_bind_eq_some_iff fun fields => ?_
  simp only [Option.bind_eq_bind, Option.bind_eq_some_iff, Fields.text_eq_some_iff]
  constructor
  · rintro ⟨_, happlication, _, hconnection, ⟨⟩⟩
    exact ⟨happlication, hconnection⟩
  · rintro ⟨happlication, hconnection⟩
    exact ⟨_, happlication, _, hconnection, rfl⟩

theorem WrittenIn.needed {c : Connection} (field : String → Option Node) (h : c.WrittenIn field) :
    ∀ name ∈ fieldNames, name ∉ [] → field name ≠ none := by
  simp only [fieldNames, List.forall_mem_cons]
  exact ⟨fun _ => Node.ne_none_of_rel h.application, fun _ => Node.ne_none_of_rel h.connection,
    List.forall_mem_nil _⟩

end Connection

/-! ## Candidates -/

/-- One of the candidates that the document writes is garbled. -/
inductive Json.Node.GarblesCandidate (names : List String) (n : Node) : Prop where
  /-- It is an item of the array that is written for them. -/
  | mk {items : List Node} {m : Node} (written : n.Writes names "potential_intents" (.list items))
    (mem : m ∈ items) (h : m.Garbles Intent.fieldNames Intent.optionalNames)

/-- A document with a garbled candidate says nothing to which candidates belong. -/
theorem Json.Node.GarblesCandidate.not_said {names : List String} {n : Node} {depth : Nat}
    {Written : (String → Option Node) → Prop} (hnames : names.Nodup)
    (h : n.GarblesCandidate names)
    (hcandidates : ∀ field, Written field → ∃ candidates,
      Option.Rel (Lists fun n i => Intent.SaidBy depth i n) (field "potential_intents")
        (some candidates)) :
    ¬ ∃ fields, n.GivesAll names fields ∧ Written fun name => fields.lookup name := by
  rintro ⟨fields, hgives, hwritten⟩
  obtain ⟨hwrites, hmem, hgarbles⟩ := h
  obtain ⟨candidates, hlists⟩ := hcandidates _ hwritten
  rw [hgives.gives.lookup hnames hwrites] at hlists
  obtain ⟨hlists⟩ := hlists
  obtain ⟨i, hsaid⟩ := hlists.exists_of_mem hmem
  exact Intent.not_saidBy_of_garbles hgarbles hsaid

/-! ## Texts are read as what they say -/

/-- All notations of records of one kind agree. -/
structure Json.Node.NotationsAgree {α : Type} (read : Nat → Node → Option α) (names : List String)
    (Says : α → Node → Prop) (Garbled : Node → Prop) : Prop where
  /-- However a text is spelled, it is read as what it says, and as nothing else. -/
  said : ∀ (text : String) (n : Node) (a : α), n.Fills text.toList →
    ((parse? text).bind (read nestingLimit) = some a ↔ Says a n)
  /-- However a garbled text is spelled, it is not read. -/
  garbled : ∀ (text : String) (n : Node), n.Fills text.toList → Garbled n →
    (parse? text).bind (read nestingLimit) = none
  /-- An array of all fields says the same as the object with the fields at their places. -/
  array : ∀ (items : List Node) (depth : Nat), items.length = names.length →
    read depth (.list items) = read depth (.object (names.zip items))

theorem Json.Node.NotationsAgree.of_iff {α : Type} {read : Nat → Node → Option α}
    {names : List String} {Says : α → Node → Prop} {Garbled : Node → Prop}
    (hread : ∀ n a, read nestingLimit n = some a ↔ Says a n)
    (hgarbled : ∀ n a, Garbled n → ¬ Says a n)
    (harray : ∀ (items : List Node) (depth : Nat), items.length = names.length →
      read depth (.list items) = read depth (.object (names.zip items))) :
    NotationsAgree read names Says Garbled where
  said text n a hfills := by
    rw [hfills.parse?, Option.bind_some, hread]
  garbled text n hfills h := by
    rw [hfills.parse?, Option.bind_some]
    exact Option.eq_none_iff_forall_ne_some.mpr fun a ha => hgarbled n a h ((hread n a).mp ha)
  array := harray

/-- All notations of intents, requests, offers, counters and channels agree. What a text is read as
depends on what it says alone: on the fields that it gives, in an object in any order and among
members that are not known, however deep, or in an array of all fields; on the values in them, where
the last of several members of one name counts; on the names in a set; and not on blanks and
escapes. A text is not read if a known field is repeated or one that is needed is missing, in it or
in a candidate, or if an array has another length. Every value without floating-point numbers that
is not nested too deeply is said by the document that is written for it. -/
theorem notations_agree :
    Node.NotationsAgree Intent.ofNode? Intent.fieldNames (Intent.SaidBy nestingLimit)
      (Node.Garbles Intent.fieldNames Intent.optionalNames) ∧
    Node.NotationsAgree Request.ofNode? Request.fieldNames (Request.SaidBy nestingLimit)
      (fun n => n.Garbles Request.fieldNames Request.optionalNames ∨
        n.GarblesCandidate Request.fieldNames) ∧
    Node.NotationsAgree Offer.ofNode? Offer.fieldNames (Offer.SaidBy nestingLimit)
      (fun n => n.Garbles Offer.fieldNames [] ∨ n.GarblesCandidate Offer.fieldNames) ∧
    Node.NotationsAgree Counters.ofNode? Counters.fieldNames Counters.SaidBy
      (Node.Garbles Counters.fieldNames []) ∧
    Node.NotationsAgree Connection.ofNode? Connection.fieldNames Connection.SaidBy
      (Node.Garbles Connection.fieldNames []) ∧
    (∀ i : Intent, i.Exact → i.toNode.nesting ≤ nestingLimit → i.SaidBy nestingLimit i.toNode) ∧
    (∀ r : Request, r.Exact → r.toNode.nesting ≤ nestingLimit →
      r.SaidBy nestingLimit r.toNode) ∧
    (∀ o : Offer, o.Exact → o.toNode.nesting ≤ nestingLimit → o.SaidBy nestingLimit o.toNode) ∧
    (∀ m : Counters, m.Fits → m.SaidBy m.toNode) ∧
    ∀ c : Connection, c.SaidBy c.toNode := by
  refine ⟨?_, ?_, ?_, ?_, ?_, ?_, ?_, ?_, ?_, ?_⟩
  · refine .of_iff (fun _ _ => Intent.ofNode?_eq_some_iff)
      (fun _ _ => Intent.not_saidBy_of_garbles) fun items depth h => ?_
    rw [Intent.ofNode?, Intent.ofNode?, Node.fields?_list_complete (by decide) h]
  · refine .of_iff (fun _ _ => Request.ofNode?_eq_some_iff) (fun n r h => ?_)
      fun items depth h => ?_
    · rcases h with h | h
      · exact h.not_said Request.WrittenIn.needed
      · exact h.not_said (by decide) fun _ hwritten => ⟨_, hwritten.candidates⟩
    · rw [Request.ofNode?, Request.ofNode?, Node.fields?_list_complete (by decide) h]
  · refine .of_iff (fun _ _ => Offer.ofNode?_eq_some_iff) (fun n o h => ?_)
      fun items depth h => ?_
    · rcases h with h | h
      · exact h.not_said Offer.WrittenIn.needed
      · exact h.not_said (by decide) fun _ hwritten => ⟨_, hwritten.candidates⟩
    · rw [Offer.ofNode?, Offer.ofNode?, Node.fields?_list_complete (by decide) h]
  · refine .of_iff (fun _ _ => Counters.ofNode?_eq_some_iff)
      (fun _ _ h => h.not_said Counters.WrittenIn.needed) fun items depth h => ?_
    rw [Counters.ofNode?, Counters.ofNode?, Node.fields?_list_complete (by decide) h]
  · refine .of_iff (fun _ _ => Connection.ofNode?_eq_some_iff)
      (fun _ _ h => h.not_said Connection.WrittenIn.needed) fun items depth h => ?_
    rw [Connection.ofNode?, Connection.ofNode?, Node.fields?_list_complete (by decide) h]
  · exact fun i h hnesting => Intent.ofNode?_eq_some_iff.mp (h.reads _ _ (.refl _) hnesting)
  · exact fun r h hnesting => Request.ofNode?_eq_some_iff.mp (h.reads _ _ (.refl _) hnesting)
  · exact fun o h hnesting => Offer.ofNode?_eq_some_iff.mp (h.reads _ _ (.refl _) hnesting)
  · exact fun m h => Counters.ofNode?_eq_some_iff.mp (h.reads _ _ (.refl _) (Nat.le_refl _))
  · exact fun c => Connection.ofNode?_eq_some_iff.mp (c.reads _ _ (.refl _) (Nat.le_refl _))

/-- An intent to print so many copies. -/
def printCopies : Intent where
  intentId := "print"
  owner := "printer"
  backgroundHandler := none
  requiredCapabilities := .ofList ["ink", "colour"]
  visibility := .owner
  constraints := ⟨[("copies", .int 2)], by decide, trivial, trivial⟩

/-- Its fields in another order, without the optional one. A capability and a parameter are
repeated. -/
def printFields : Fields := [
  ("parameter_match", .object [("copies", .null), ("copies", .ofInt 2)]),
  ("visibility", .object [("Private", .null)]),
  ("required_capabilities", .ofStrings ["ink", "colour", "ink"]),
  ("application_id", .ofString "printer"),
  ("intent_id", .ofString "print")]

/-- Arrays in one another. -/
def nested : Nat → Node
  | 0 => .list []
  | k + 1 => .list [nested k]

/-- A document of the intent, in which a member that is not known is nested more deeply than
anything that is read. -/
def printNoted : Node := .object (("note", nested 200) :: printFields)

theorem printNoted_printable : printNoted.Printable := by
  have hnested : ∀ k, (nested k).Printable := fun k => by
    induction k with
    | zero => trivial
    | succ k ih => exact ⟨ih, trivial⟩
  exact ⟨rfl, hnested 200, rfl, ⟨rfl, trivial, rfl, Numeral.plain_ofInt 2, trivial⟩, rfl,
    ⟨rfl, trivial, trivial⟩, rfl, ⟨rfl, rfl, rfl, trivial⟩, rfl, rfl, rfl, rfl, trivial⟩

theorem printNoted_says : printCopies.SaidBy nestingLimit printNoted := by
  have hmixed : (("note", nested 200) :: printFields).Perm
      (printFields ++ [("note", nested 200)]) := (List.perm_append_singleton _ printFields).symm
  have hgives : printNoted.GivesAll Intent.fieldNames printFields :=
    .of_object (.object hmixed (by decide) (by decide) (by decide))
  have hlists : (Node.ofStrings ["ink", "colour", "ink"]).Lists Node.Tells
      ["ink", "colour", "ink"] := .mk (.cons rfl (.cons rfl (.cons rfl .nil)))
  have hset : ∀ name, name ∈ ["ink", "colour", "ink"] ↔
      name ∈ printCopies.requiredCapabilities.members := NameSet.ofList_eq_iff.mp (by decide)
  have hput : Ascending.insertAll Prod.fst [("copies", .null), ("copies", .int 2)] [] =
      printCopies.constraints.entries := rfl
  obtain ⟨hordered, hlast⟩ := Value.insertAll_eq_iff.mp hput
  have hparameters : printCopies.constraints.SaidBy (nestingLimit - 1)
      (.object [("copies", .null), ("copies", .ofInt 2)]) :=
    ⟨.obj (.cons .null (.cons (.int rfl) .nil)) hordered hlast, by decide⟩
  exact ⟨printFields, hgives, .some rfl, .some rfl, .omitted, .some ⟨_, hlists, hset⟩,
    .some (.member _), .some hparameters⟩

/-- A text of a channel with blanks, a character that is escaped, and a member that is not known. -/
def channelText : String :=
  "\x7b \"connection_id\" :\"\\u2318\",\t\"x\":1E999,\"application_id\":\"a\"\x7d\n"

/-- A number with an exponent. -/
def hugeNumeral : Numeral := ⟨false, ['1'], none, some ⟨none, ['9', '9', '9']⟩⟩

/-- The document of the text. -/
def channelNode : Node :=
  .object [("connection_id", .ofString "⌘"), ("x", .number hugeNumeral),
    ("application_id", .ofString "a")]

theorem channelNode_fills : channelNode.Fills channelText.toList := by
  have hnone : Blank [] := blank_nil
  have hblank : Blank [' '] := List.forall_mem_singleton.mpr (.inl rfl)
  have htab : Blank ['\t'] := List.forall_mem_singleton.mpr (.inr (.inl rfl))
  have hline : Blank ['\n'] := List.forall_mem_singleton.mpr (.inr (.inr (.inl rfl)))
  have hone : Digits ['1'] := ⟨List.cons_ne_nil _ _, List.all_eq_true.mp rfl⟩
  have hnines : Digits ['9', '9', '9'] := ⟨List.cons_ne_nil _ _, List.all_eq_true.mp rfl⟩
  have hconnection := Node.KeySpelledBy.mk hblank (Text.quote_spelledBy "connection_id") hblank
  have hsign : Node.SpelledBy (.ofString "⌘") "\"\\u2318\"".toList :=
    .text (.readable (.cons (.hex (i := 2) (j := 3) (k := 1) (l := 8) (by decide) (by decide)
      (by decide) (by decide)) .nil) (.single (.inl (by decide)) .nil))
  have hunknown := Node.KeySpelledBy.mk htab (Text.quote_spelledBy "x") hnone
  have hnumber : Node.SpelledBy (.number hugeNumeral) "1E999".toList :=
    .number (.positive hone (by decide) .absent (.unsigned (.inr rfl) hnines))
  have happlication := Node.keySpelledBy_quote "application_id"
  have hname : Node.SpelledBy (.ofString "a") "\"a\"".toList := .text (Text.quote_spelledBy "a")
  exact .mk hnone (.members hconnection hsign.fills (.next hunknown hnumber.fills
    (.next happlication hname.fills .none))) hline

theorem channelNode_says : (Connection.mk "a" "⌘").SaidBy channelNode := by
  have hmixed : [("connection_id", Node.ofString "⌘"), ("x", .number hugeNumeral),
      ("application_id", .ofString "a")].Perm
        ([("connection_id", .ofString "⌘"), ("application_id", .ofString "a")] ++
          [("x", .number hugeNumeral)]) := .cons _ (.swap _ _ [])
  have hgives : channelNode.GivesAll Connection.fieldNames
      [("connection_id", .ofString "⌘"), ("application_id", .ofString "a")] :=
    .of_object (.object hmixed (by decide) (by decide) (by decide))
  exact ⟨_, hgives, .some rfl, .some rfl⟩

/-- The intent is read from the document with the deep member and from the one that is written for
it, the channel from its text, and none from an array of one name. -/
theorem notations_agree_printing :
    (Node.parse? printNoted.render).bind (Intent.ofNode? nestingLimit) = some printCopies ∧
    (Node.parse? printCopies.toNode.render).bind (Intent.ofNode? nestingLimit) =
      some printCopies ∧
    (Node.parse? channelText).bind (Connection.ofNode? nestingLimit) = some ⟨"a", "⌘"⟩ ∧
    (Node.parse? (Node.ofStrings ["a"]).render).bind (Connection.ofNode? nestingLimit) = none := by
  obtain ⟨hintent, -, -, -, hchannel, hwritten, -⟩ := notations_agree
  have hexact : printCopies.Exact := ⟨⟨by decide, by decide⟩, trivial⟩
  refine ⟨?_, ?_, ?_, ?_⟩
  · exact (hintent.said _ _ _ printNoted_printable.fills).mpr printNoted_says
  · exact (hintent.said _ _ _ hexact.printable.fills).mpr (hwritten _ hexact (by decide))
  · exact (hchannel.said _ _ _ channelNode_fills).mpr channelNode_says
  · have hprintable : (Node.ofStrings ["a"]).Printable := ⟨rfl, trivial⟩
    exact hchannel.garbled _ _ hprintable.fills (.length (by decide))

end IntentRouter
