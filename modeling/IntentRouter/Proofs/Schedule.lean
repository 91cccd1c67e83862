import Mathlib.Data.List.Forall2
import IntentRouter.Session.Service

/-!
# A service does what its router would do

A service takes messages from its mailbox and posted events from the inbox, in whatever order they
come to it, while calls are made through any of its handles and the world around it goes on. All
that is done one thing after another. What is done, and in which order, follows from the schedule
alone: the calls are carried out in the order in which they have been made, whoever has made them.
A plain world in which the same is done in the same order ends in the same state, with the same
effects and the same answers. A session drives a service by one schedule among many.
-/

namespace IntentRouter

/-- Does one thing after another in a world. Gives all answers. -/
def World.performEach : List Op → World → Turn World (List Answer)
  | [], w => .quiet [] w
  | op :: ops, w =>
    let t := World.perform op w
    ((performEach ops t.state).map (t.value :: ·)).after t.effects

/-- One thing after the others. -/
theorem World.performEach_concat (ops : List Op) (op : Op) (w : World) :
    let u := World.performEach ops w
    let t := World.perform op u.state
    World.performEach (ops ++ [op]) w =
      ⟨u.value ++ [t.value], t.state, u.effects ++ t.effects⟩ := by
  induction ops generalizing w with
  | nil => simp [performEach, Turn.map, Turn.after, Turn.quiet]
  | cons first ops ih =>
    simp only [List.cons_append, performEach, ih, Turn.map, Turn.after, List.append_assoc]

/-- There is one answer to each thing that is done. -/
theorem World.length_performEach (ops : List Op) (w : World) :
    (World.performEach ops w).value.length = ops.length := by
  induction ops generalizing w with
  | nil => rfl
  | cons op ops ih => exact congrArg Nat.succ (ih (World.perform op w).state)

/-! ## Calls through a handle -/

/-- Whether a call of the catalog can be made through a handle: what is known of applications and of
their handlers cannot be asked. -/
def CatalogCall.isForHandles : CatalogCall → Bool
  | .isKnown _ | .applications | .handlersOf _ => false
  | _ => true

namespace Op

/-- Whether something can be asked through a handle: most of the calls of the catalog, a submission,
a listener, its choice and its rejection, the start and the reply of an application, other timeouts,
and the counters. A request that is meant is named. -/
def isForHandles : Op → Bool
  | .catalog call => call.isForHandles
  | .submit _ | .attach | .announceStart _ | .setTimeout .. | .counters => true
  | .resolve ref _ | .reject ref | .reply _ ref _ _ => ref.isSome
  | _ => false

/-- Whether something is only told: nobody waits for an answer when an application or a handler is
to be forgotten or when an application has started. -/
def isTold : Op → Bool
  | .catalog (.removeApplication _) | .catalog (.removeHandler ..) | .announceStart _ => true
  | _ => false

end Op

/-- A handle sends a message whatever can be asked through it, and nothing else. -/
theorem Message.isSome_ofOp? (op : Op) : (ofOp? op).isSome = op.isForHandles := by
  cases op with
  | catalog call => cases call <;> rfl
  | resolve request selected => cases request <;> rfl
  | reject request => cases request <;> rfl
  | reply application request isError payload => cases request <;> rfl
  | _ => rfl

/-- A message asks for what the call asks for of which it has been made, with the same answer if
somebody waits for one. -/
theorem World.carryOut_eq {op : Op} {m : Message} (h : Message.ofOp? op = some m) (w : World) :
    w.carryOut m = (World.perform op w).map fun a => if op.isTold then none else some a := by
  unfold Message.ofOp? at h
  split at h
  all_goals cases h
  all_goals
    simp only [World.perform]
    rfl

/-! ## Schedules -/

/-- Something that happens to a service or around it. -/
inductive Beat where
  /-- A call is made through the handle with a number, if there is one. -/
  | call (handle : Nat) (op : Op)
  /-- One more handle. -/
  | clone
  /-- The service takes the next thing to do from a source. -/
  | serve (source : Source)
  /-- Something happens around the service. -/
  | outside (op : Op)

/-- Whether the service looks into its mailbox. -/
def Beat.servesMailbox : Beat → Bool
  | .serve .mailbox => true
  | _ => false

namespace Service

/-- What comes of a beat. -/
def beat (s : Service) : Beat → Turn Service Unit
  | .call handle op => .quiet () (if handle < s.handles then s.call op else s)
  | .clone => .quiet () { s with handles := s.handles + 1 }
  | .serve source => s.serve source
  | .outside op => ((World.perform op s.world).lift s.withWorld).map fun _ => ()

/-- What comes of one beat after another. -/
def live (s : Service) (beats : List Beat) : Turn Service Unit :=
  beats.foldl (fun t b => (t.state.beat b).after t.effects) (.quiet () s)

end Service

/-! ## Sessions -/

namespace Service

/-- A schedule that goes on after what has happened so far. -/
theorem foldl_beat (t : Turn Service Unit) (beats : List Beat) :
    beats.foldl (fun t b => (t.state.beat b).after t.effects) t =
      (t.state.live beats).after t.effects := by
  induction beats generalizing t with
  | nil => simp [live, Turn.after, Turn.quiet]
  | cons b beats ih =>
    rw [live, List.foldl_cons, List.foldl_cons, ih, ih]
    simp [Turn.after, Turn.quiet]

/-- One schedule after another. -/
theorem live_append (s : Service) (beats later : List Beat) :
    s.live (beats ++ later) = ((s.live beats).state.live later).after (s.live beats).effects := by
  rw [live, List.foldl_append]
  exact foldl_beat (s.live beats) later

/-- The first beat and those after it. -/
theorem live_cons (s : Service) (b : Beat) (beats : List Beat) :
    s.live (b :: beats) = ((s.beat b).state.live beats).after (s.beat b).effects :=
  foldl_beat _ beats

/-- To carry out so many messages is a schedule. -/
theorem serveMailbox_eq_live (n : Nat) (s : Service) :
    s.serveMailbox n = s.live (List.replicate n (.serve .mailbox)) := by
  induction n generalizing s with
  | zero => rfl
  | succ n ih =>
    rw [List.replicate_succ, live_cons, ← ih]
    rfl

/-- To handle posted events until none is left is a schedule. -/
theorem exists_settle_eq_live (s : Service) :
    ∃ n, s.settle = s.live (List.replicate n (.serve .inbox)) := by
  rw [settle, World.pump]
  -- The induction is on the bound of the pump; which number it is does not matter.
  generalize s.world.workload = bound
  induction bound generalizing s with
  | zero => exact ⟨0, rfl⟩
  | succ bound ih =>
    rw [World.pumpAtMost]
    split
    · exact ⟨0, rfl⟩
    · obtain ⟨n, hn⟩ := ih (s.withWorld s.world.step.state)
      refine ⟨n + 1, ?_⟩
      rw [List.replicate_succ, live_cons]
      exact congrArg (Turn.after s.world.step.effects) hn

/-- To make a call and then work until nothing is left to do is a schedule. -/
theorem exists_work_eq_live (s : Service) (op : Op) (hhandle : 0 < s.handles) :
    ∃ beats, (s.work op).map (fun _ => ()) = s.live beats := by
  let called := s.call (op.numbered s.world)
  let carried := called.serveMailbox called.mailbox.length
  obtain ⟨n, hsettle⟩ := carried.state.exists_settle_eq_live
  refine ⟨.call 0 (op.numbered s.world) ::
    (List.replicate called.mailbox.length (.serve .mailbox) ++
      List.replicate n (.serve .inbox)), ?_⟩
  have hcall : s.beat (.call 0 (op.numbered s.world)) = .quiet () called := by
    rw [beat, if_pos hhandle]
  rw [live_cons, hcall, live_append]
  simp only [Turn.quiet]
  rw [← serveMailbox_eq_live, ← hsettle]
  rfl

/-- To let something happen around a service, which then works until nothing is left to do, is a
schedule. -/
theorem exists_witness_eq_live (s : Service) (op : Op) :
    ∃ beats, (s.witness op).map (fun _ => ()) = s.live beats := by
  obtain ⟨n, hsettle⟩ := (s.withWorld (World.perform op s.world).state).exists_settle_eq_live
  refine ⟨.outside op :: List.replicate n (.serve .inbox), ?_⟩
  rw [live_cons]
  exact congrArg (Turn.after (World.perform op s.world).effects) hsettle

/-- Whatever a session asks of a service that works is a schedule, as long as it does not end the
service. -/
theorem exists_perform_eq_live (s : Service) (op : ServiceOp) (hrunning : s.running = true)
    (hhandle : 0 < s.handles) (hdrop : op ≠ .drop) (hshut : op ≠ .shutDown) :
    ∃ beats, (s.perform op).map (fun _ => ()) = s.live beats := by
  have hwith : ∀ use, s.withHandle use = use := fun _ => if_neg (Nat.ne_of_gt hhandle)
  have hwhile : ∀ use, s.whileRunning use = use := by
    intro use
    rw [whileRunning, hwith, if_pos hrunning]
  cases op with
  | outside op => exact s.exists_witness_eq_live op
  | call op =>
    rw [perform, hwhile]
    exact s.exists_work_eq_live op hhandle
  | tell op =>
    rw [perform, hwhile]
    exact s.exists_work_eq_live op hhandle
  | subscribe =>
    rw [perform, hwith]
    exact s.exists_witness_eq_live .subscribe
  | isClosed =>
    rw [perform, hwith]
    exact ⟨[], rfl⟩
  | clone =>
    rw [perform, hwith]
    exact ⟨[.clone], rfl⟩
  | drop => exact absurd rfl hdrop
  | shutDown => exact absurd rfl hshut

end Service

/-! ## Ledgers -/

/-- A call that has been made. -/
structure Call where
  /-- How many have been made before it. -/
  number : Nat
  /-- What is asked. -/
  op : Op

/-- Whether whoever has made the call waits for the answer. -/
def Call.isAwaited (c : Call) : Bool := ! c.op.isTold

/-- Something that is done. -/
inductive Deed where
  /-- A call is carried out. -/
  | call (c : Call)
  /-- The next posted event is handled. -/
  | step
  /-- Something happens around the service. -/
  | outside (op : Op)

namespace Deed

/-- What is done, as it is done in a plain world. -/
def op : Deed → Op
  | .call c => c.op
  | .step => .step
  | .outside op => op

/-- The call that is carried out, if one is. -/
def call? : Deed → Option Call
  | .call c => some c
  | _ => none

/-- The number of the call that is carried out with the answer, if one is and waits for it. -/
def answer? : Deed → Answer → Option (Nat × Answer)
  | .call c, a => if c.isAwaited then some (c.number, a) else none
  | _, _ => none

/-- What comes of doing the same in a plain world. -/
def plain (deeds : List Deed) (w : World) : Turn World (List Answer) :=
  World.performEach (deeds.map op) w

/-- The answers that those get who wait for one, each under the number of its call, in the order in
which the calls are carried out. -/
def answers (deeds : List Deed) (w : World) : List (Nat × Answer) :=
  (deeds.zip (plain deeds w).value).filterMap fun d => d.1.answer? d.2

/-- The calls that are carried out, in order. -/
def calls (deeds : List Deed) : List Call := deeds.filterMap call?

/-- One more deed. -/
theorem calls_concat (deeds : List Deed) (d : Deed) :
    calls (deeds ++ [d]) = calls deeds ++ d.call?.toList := by
  rw [calls, List.filterMap_append, List.filterMap_cons, calls]
  cases d.call? <;> rfl

/-- What is done without a call carries out none. -/
theorem calls_concat_quiet (deeds : List Deed) {d : Deed} (hd : d.call? = none) :
    calls (deeds ++ [d]) = calls deeds := by
  rw [calls_concat, hd, Option.toList_none, List.append_nil]

/-- A call is carried out where there is a deed for it. -/
theorem mem_calls_iff {deeds : List Deed} {c : Call} :
    c ∈ calls deeds ↔ ∃ i : Nat, deeds[i]? = some (.call c) := by
  rw [calls, List.mem_filterMap]
  constructor
  · rintro ⟨d, hd, hc⟩
    cases d with
    | call c' =>
      cases hc
      exact List.mem_iff_getElem?.mp hd
    | step => cases hc
    | outside op => cases hc
  · rintro ⟨i, hi⟩
    exact ⟨.call c, List.mem_of_getElem? hi, rfl⟩

/-- What comes of one more deed. -/
theorem plain_concat (deeds : List Deed) (d : Deed) (w : World) :
    let u := plain deeds w
    let t := World.perform d.op u.state
    plain (deeds ++ [d]) w = ⟨u.value ++ [t.value], t.state, u.effects ++ t.effects⟩ := by
  have hall := World.performEach_concat (deeds.map op) d.op w
  simp only [plain, List.map_append]
  exact hall

/-- There is one answer to each deed. -/
theorem length_plain (deeds : List Deed) (w : World) :
    (plain deeds w).value.length = deeds.length := by
  rw [plain, World.length_performEach, List.length_map]

/-- One more deed has one more answer at most. -/
theorem answers_concat (deeds : List Deed) (d : Deed) (w : World) :
    answers (deeds ++ [d]) w = answers deeds w ++
      (d.answer? (World.perform d.op (plain deeds w).state).value).toList := by
  rw [answers, plain_concat, List.zip_append (length_plain deeds w).symm, List.filterMap_append,
    answers]
  refine congrArg _ ?_
  rw [List.zip_cons_cons, List.zip_nil_left, List.filterMap_cons]
  cases d.answer? (World.perform d.op (plain deeds w).state).value <;> rfl

/-- An answer is that of a call whose sender waits for it. -/
theorem mem_answers_iff {deeds : List Deed} {w : World} {n : Nat} {a : Answer} :
    (n, a) ∈ answers deeds w ↔
      ∃ (i : Nat) (c : Call), deeds[i]? = some (.call c) ∧ (plain deeds w).value[i]? = some a ∧
        c.isAwaited = true ∧ c.number = n := by
  rw [answers, List.mem_filterMap]
  constructor
  · rintro ⟨⟨d, a'⟩, hmem, hanswer⟩
    obtain ⟨i, hi⟩ := List.mem_iff_getElem?.mp hmem
    obtain ⟨hdeed, hvalue⟩ := List.getElem?_zip_eq_some.mp hi
    cases d with
    | call c =>
      obtain ⟨hawaited, hpair⟩ := Option.ite_none_right_eq_some.mp hanswer
      cases hpair
      exact ⟨i, c, hdeed, hvalue, hawaited, rfl⟩
    | step => cases hanswer
    | outside op => cases hanswer
  · rintro ⟨i, c, hdeed, hvalue, hawaited, rfl⟩
    have hzip := List.getElem?_zip_eq_some (z := (Deed.call c, a)).mpr ⟨hdeed, hvalue⟩
    exact ⟨(.call c, a), List.mem_of_getElem? hzip, if_pos hawaited⟩

end Deed

/-- What follows from a schedule without a look at any service. -/
structure Ledger where
  /-- How many handles there are. -/
  handles : Nat
  /-- The calls that have been made, in order. -/
  made : List Call
  /-- Those of them that have not yet been carried out, in order. -/
  waiting : List Call
  /-- What has been done, in order. -/
  deeds : List Deed

namespace Ledger

/-- The ledger of a service with one handle that has just begun to work. -/
def start : Ledger := ⟨1, [], [], []⟩

/-- The ledger after one more beat. -/
def beat (l : Ledger) : Beat → Ledger
  | .call handle op =>
    if handle < l.handles ∧ op.isForHandles = true then
      { l with
        made := l.made ++ [⟨l.made.length, op⟩]
        waiting := l.waiting ++ [⟨l.made.length, op⟩] }
    else l
  | .clone => { l with handles := l.handles + 1 }
  | .serve .mailbox =>
    match l.waiting with
    | [] => l
    | c :: rest => { l with waiting := rest, deeds := l.deeds ++ [.call c] }
  | .serve .inbox => { l with deeds := l.deeds ++ [.step] }
  | .outside op => { l with deeds := l.deeds ++ [.outside op] }

/-- The ledger of a schedule. -/
def ofBeats (beats : List Beat) : Ledger := beats.foldl beat start

/-- A ledger that is in order. -/
structure Orderly (l : Ledger) : Prop where
  /-- The calls that have been carried out and those that wait are those that have been made, in
  this order. -/
  fifo : Deed.calls l.deeds ++ l.waiting = l.made
  /-- Calls are numbered as they are made. -/
  numbered : l.made.map Call.number = List.range l.made.length

/-- A ledger stays in order when something is done without a call. -/
theorem Orderly.quiet {l : Ledger} (h : l.Orderly) (d : Deed) (hd : d.call? = none) :
    ({ l with deeds := l.deeds ++ [d] } : Ledger).Orderly := by
  refine ⟨?_, h.numbered⟩
  rw [Deed.calls_concat_quiet _ hd]
  exact h.fifo

/-- A ledger stays in order. -/
theorem Orderly.beat {l : Ledger} (h : l.Orderly) (b : Beat) : (l.beat b).Orderly := by
  cases b with
  | call handle op =>
    rw [Ledger.beat]
    split
    · refine ⟨?_, ?_⟩
      · rw [← List.append_assoc, h.fifo]
      · rw [List.map_append, h.numbered, List.length_append, List.length_singleton, List.range_succ]
        rfl
    · exact h
  | clone => exact ⟨h.fifo, h.numbered⟩
  | serve source =>
    cases source with
    | mailbox =>
      rw [Ledger.beat]
      split
      · exact h
      · next c rest hwaiting =>
        refine ⟨?_, h.numbered⟩
        rw [Deed.calls_concat, List.append_assoc, ← h.fifo, hwaiting]
        rfl
    | inbox => exact h.quiet .step rfl
  | outside op => exact h.quiet (.outside op) rfl

/-- The ledger of a schedule is in order. -/
theorem orderly_ofBeats (beats : List Beat) : (ofBeats beats).Orderly := by
  rw [ofBeats]
  have hstart : start.Orderly := ⟨rfl, rfl⟩
  generalize start = l at hstart
  induction beats generalizing l with
  | nil => exact hstart
  | cons b beats ih => exact ih _ (hstart.beat b)

variable {l : Ledger}

/-- Calls that have been made one after another have ascending numbers. -/
theorem Orderly.ascending (h : l.Orderly) :
    l.made.Pairwise fun c c' => c.number < c'.number := by
  rw [← List.pairwise_map, h.numbered]
  exact List.pairwise_lt_range

/-- Calls are carried out in the order of their numbers. -/
theorem Orderly.number_lt (h : l.Orderly) {i j : Nat} {c c' : Call} (hij : i < j)
    (hi : l.deeds[i]? = some (.call c)) (hj : l.deeds[j]? = some (.call c')) :
    c.number < c'.number := by
  have hmade := h.ascending
  rw [← h.fifo, List.pairwise_append, Deed.calls, List.pairwise_filterMap] at hmade
  obtain ⟨hi', hi⟩ := List.getElem?_eq_some_iff.mp hi
  obtain ⟨hj', hj⟩ := List.getElem?_eq_some_iff.mp hj
  refine List.pairwise_iff_getElem.mp hmade.1 i j hi' hj' hij c ?_ c' ?_
  · rw [hi]
    rfl
  · rw [hj]
    rfl

/-- No call is carried out twice. -/
theorem Orderly.index_unique (h : l.Orderly) {i j : Nat} {c c' : Call}
    (hi : l.deeds[i]? = some (.call c)) (hj : l.deeds[j]? = some (.call c'))
    (hnumber : c.number = c'.number) : i = j := by
  rcases Nat.lt_trichotomy i j with hij | hij | hij
  · exact absurd hnumber (Nat.ne_of_lt (h.number_lt hij hi hj))
  · exact hij
  · exact absurd hnumber (Nat.ne_of_gt (h.number_lt hij hj hi))

/-- When a call is carried out, all that have been made before it have been. -/
theorem Orderly.earlier (h : l.Orderly) {i : Nat} {c e : Call}
    (hi : l.deeds[i]? = some (.call c)) (he : e ∈ l.made) (hnumber : e.number < c.number) :
    ∃ j < i, l.deeds[j]? = some (.call e) := by
  have hc : c ∈ Deed.calls l.deeds := Deed.mem_calls_iff.mpr ⟨i, hi⟩
  rw [← h.fifo, List.mem_append] at he
  rcases he with he | he
  · obtain ⟨j, hj⟩ := Deed.mem_calls_iff.mp he
    refine ⟨j, ?_, hj⟩
    rcases Nat.lt_trichotomy j i with hji | rfl | hij
    · exact hji
    · rw [hi] at hj
      cases hj
      exact absurd hnumber (Nat.lt_irrefl _)
    · exact absurd hnumber (Nat.lt_asymm (h.number_lt hij hi hj))
  · have hmade := h.ascending
    rw [← h.fifo, List.pairwise_append] at hmade
    exact absurd hnumber (Nat.lt_asymm (hmade.2.2 c hc e he))

/-- A call that has been made stays made. -/
theorem made_beat (l : Ledger) (b : Beat) : l.made <+: (l.beat b).made := by
  cases b with
  | call handle op =>
    rw [beat]
    split
    · exact List.prefix_append ..
    · exact List.prefix_rfl
  | serve source =>
    cases source with
    | mailbox =>
      rw [beat]
      split <;> exact List.prefix_rfl
    | inbox => exact List.prefix_rfl
  | clone => exact List.prefix_rfl
  | outside op => exact List.prefix_rfl

theorem made_foldl (l : Ledger) (beats : List Beat) : l.made <+: (beats.foldl beat l).made := by
  induction beats generalizing l with
  | nil => exact List.prefix_rfl
  | cons b beats ih => exact (made_beat l b).trans (ih (l.beat b))

/-- Whatever can be asked through a handle is asked through every handle that there is. -/
theorem mem_made {earlier later : List Beat} {handle : Nat} {op : Op}
    (hhandle : handle < (ofBeats earlier).handles) (hop : op.isForHandles = true) :
    ⟨(ofBeats earlier).made.length, op⟩ ∈ (ofBeats (earlier ++ .call handle op :: later)).made := by
  have hbeat : ((ofBeats earlier).beat (.call handle op)).made =
      (ofBeats earlier).made ++ [⟨(ofBeats earlier).made.length, op⟩] := by
    rw [beat, if_pos ⟨hhandle, hop⟩]
  have hlater := made_foldl ((ofBeats earlier).beat (.call handle op)) later
  rw [ofBeats, List.foldl_append]
  refine hlater.subset ?_
  rw [hbeat]
  exact List.mem_concat_self

/-- With each look into the mailbox one more call is carried out of those that wait. -/
theorem calls_beat (l : Ledger) (b : Beat) (n : Nat) :
    Deed.calls l.deeds ++ l.waiting.take (n + if b.servesMailbox then 1 else 0) <+:
      Deed.calls (l.beat b).deeds ++ (l.beat b).waiting.take n := by
  cases b with
  | call handle op =>
    simp only [Beat.servesMailbox, Bool.false_eq_true, if_false, Nat.add_zero, beat]
    split
    · rw [List.prefix_append_right_inj, List.take_append]
      exact List.prefix_append ..
    · exact List.prefix_rfl
  | clone => exact List.prefix_rfl
  | serve source =>
    cases source with
    | mailbox =>
      simp only [Beat.servesMailbox, if_true, beat]
      split
      · next hwaiting =>
        simp only [hwaiting, List.take_nil, List.prefix_rfl]
      · next c rest hwaiting =>
        rw [hwaiting, Deed.calls_concat, List.append_assoc]
        exact List.prefix_rfl
    | inbox =>
      rw [beat, Deed.calls_concat_quiet _ rfl]
      exact List.prefix_rfl
  | outside op =>
    rw [beat, Deed.calls_concat_quiet _ rfl]
    exact List.prefix_rfl

/-- However a schedule goes on, as many of the calls that wait are carried out as there are looks
into the mailbox. -/
theorem calls_foldl (l : Ledger) (beats : List Beat) :
    Deed.calls l.deeds ++ l.waiting.take (beats.countP Beat.servesMailbox) <+:
      Deed.calls (beats.foldl beat l).deeds := by
  induction beats generalizing l with
  | nil =>
    rw [List.countP_nil, List.take_zero, List.append_nil]
    exact List.prefix_rfl
  | cons b beats ih =>
    rw [List.countP_cons]
    exact (calls_beat l b _).trans (ih (l.beat b))

end Ledger

/-! ## What a service does -/

namespace Service

/-- What a service has done so far is what a plain world has done. -/
structure Agrees (w : World) (t : Turn Service Unit) (deeds : List Deed) : Prop where
  /-- The world is the same. -/
  world : t.state.world = (Deed.plain deeds w).state
  /-- So are the effects. -/
  effects : t.effects = (Deed.plain deeds w).effects
  /-- Those who wait for an answer have got the one that is given there. -/
  answers : t.state.answers = Deed.answers deeds w

/-- A service has come as far as a ledger says. -/
structure Follows (w : World) (t : Turn Service Unit) (l : Ledger) : Prop where
  /-- The same has been done as in a plain world. -/
  agrees : Agrees w t l.deeds
  /-- There are as many handles. -/
  handles : t.state.handles = l.handles
  /-- As many messages have been sent as calls have been made. -/
  sent : t.state.sent = l.made.length
  /-- The messages in the mailbox are those of the calls that wait. -/
  mailbox : List.Forall₂
    (fun letter c => letter.number = c.number ∧ Message.ofOp? c.op = some letter.message)
    t.state.mailbox l.waiting

variable {w : World} {t t' : Turn Service Unit} {l : Ledger} {deeds : List Deed}

/-- A service and a plain world do one more thing. -/
theorem Agrees.concat (h : Agrees w t deeds) (d : Deed)
    (world : t'.state.world = (World.perform d.op t.state.world).state)
    (effects : t'.effects = t.effects ++ (World.perform d.op t.state.world).effects)
    (answers : t'.state.answers = t.state.answers ++
      (d.answer? (World.perform d.op t.state.world).value).toList) :
    Agrees w t' (deeds ++ [d]) := by
  rw [h.world] at world effects answers
  rw [h.effects] at effects
  rw [h.answers] at answers
  refine ⟨?_, ?_, ?_⟩
  · rw [world, Deed.plain_concat]
  · rw [effects, Deed.plain_concat]
  · rw [answers, Deed.answers_concat]

/-- A service that does nothing stays as far as it is. -/
theorem Follows.idle (h : Follows w t l) :
    Follows w ((Turn.quiet () t.state).after t.effects) l := by
  rw [Turn.after, Turn.quiet, List.append_nil]
  exact h

/-- A message that is sent is that of the call that is made. -/
theorem Follows.send (h : Follows w t l) {op : Op} {m : Message} (hm : Message.ofOp? op = some m) :
    Follows w ⟨(), t.state.send m, t.effects⟩
      { l with
        made := l.made ++ [⟨l.made.length, op⟩]
        waiting := l.waiting ++ [⟨l.made.length, op⟩] } := by
  refine ⟨⟨h.agrees.world, h.agrees.effects, h.agrees.answers⟩, h.handles, ?_, ?_⟩
  · rw [List.length_append, ← h.sent]
    rfl
  · exact List.rel_append h.mailbox (.cons ⟨h.sent, hm⟩ .nil)

/-- The message that is carried out is that of the call that has waited longest. -/
theorem Follows.serve_mailbox (h : Follows w t l) :
    Follows w ((t.state.serve .mailbox).after t.effects) (l.beat (.serve .mailbox)) := by
  have hmailbox := h.mailbox
  simp only [serve, Ledger.beat]
  cases hwaiting : l.waiting with
  | nil =>
    rw [hwaiting, List.forall₂_nil_right_iff] at hmailbox
    rw [hmailbox]
    exact h.idle
  | cons c rest =>
    rw [hwaiting, List.forall₂_cons_right_iff] at hmailbox
    obtain ⟨letter, letters, ⟨hnumber, hm⟩, hrest, hall⟩ := hmailbox
    simp only [hall, World.carryOut_eq hm, Turn.map]
    refine ⟨h.agrees.concat (.call c) rfl rfl ?_, h.handles, h.sent, hrest⟩
    simp only [Deed.answer?, Deed.op, Call.isAwaited, ← hnumber]
    -- An answer for which nobody waits is neither kept here nor asked for there.
    cases htold : c.op.isTold with
    | true => rfl
    | false => rfl

/-- Whatever is done without a message leaves the mailbox as it is. -/
theorem Follows.deed (h : Follows w t l) (d : Deed) (hd : ∀ a, d.answer? a = none)
    (hstate : t'.state = t.state.withWorld (World.perform d.op t.state.world).state)
    (heffects : t'.effects = t.effects ++ (World.perform d.op t.state.world).effects) :
    Follows w t' { l with deeds := l.deeds ++ [d] } := by
  refine ⟨h.agrees.concat d ?_ heffects ?_, ?_, ?_, ?_⟩
  · rw [hstate]
    rfl
  · rw [hstate, hd]
    exact (List.append_nil _).symm
  · rw [hstate]
    exact h.handles
  · rw [hstate]
    exact h.sent
  · rw [hstate]
    exact h.mailbox

/-- Each beat takes a service as far as it takes the ledger. -/
theorem Follows.beat (h : Follows w t l) (b : Beat) :
    Follows w ((t.state.beat b).after t.effects) (l.beat b) := by
  cases b with
  | call handle op =>
    rw [Service.beat, Ledger.beat, Service.call, h.handles, ← Message.isSome_ofOp?]
    cases hm : Message.ofOp? op with
    | none =>
      rw [Option.elim_none, ite_self, if_neg fun hboth => by cases hboth.2]
      exact h.idle
    | some m =>
      by_cases hhandle : handle < l.handles
      · rw [if_pos hhandle, if_pos ⟨hhandle, rfl⟩, Option.elim_some, Turn.after, Turn.quiet,
          List.append_nil]
        exact h.send hm
      · rw [if_neg hhandle, if_neg fun hboth => hhandle hboth.1]
        exact h.idle
  | clone =>
    refine ⟨⟨h.agrees.world, ?_, h.agrees.answers⟩, ?_, h.sent, h.mailbox⟩
    · exact (List.append_nil _).trans h.agrees.effects
    · exact congrArg Nat.succ h.handles
  | serve source =>
    cases source with
    | mailbox => exact h.serve_mailbox
    | inbox => exact h.deed .step (fun _ => rfl) rfl rfl
  | outside op => exact h.deed (.outside op) (fun _ => rfl) rfl rfl

/-- A service follows the ledger of its schedule. -/
theorem follows_live (w : World) (beats : List Beat) :
    Follows w ((start w).live beats) (.ofBeats beats) := by
  have hstart : Follows w (.quiet () (start w)) .start :=
    ⟨⟨rfl, rfl, rfl⟩, rfl, rfl, .nil⟩
  rw [live, Ledger.ofBeats]
  generalize Turn.quiet () (start w) = t at hstart
  generalize Ledger.start = l at hstart
  induction beats generalizing t l with
  | nil => exact hstart
  | cons b beats ih => exact ih _ _ (hstart.beat b)

/-- The sender of a call that has been carried out is told the answer that is given there. -/
theorem Follows.answerTo_eq (h : Follows w t l) (hl : l.Orderly) {i : Nat} {c : Call} {a : Answer}
    (hdeed : l.deeds[i]? = some (.call c)) (hvalue : (Deed.plain l.deeds w).value[i]? = some a)
    (hawaited : c.isAwaited = true) : t.state.answerTo c.number = a := by
  have hmem := Deed.mem_answers_iff.mpr ⟨i, c, hdeed, hvalue, hawaited, rfl⟩
  rw [answerTo, h.agrees.answers]
  cases hlookup : (Deed.answers l.deeds w).lookup c.number with
  | none => exact absurd (List.lookup_eq_none_iff.mp hlookup _ hmem) (by simp)
  | some b =>
    obtain ⟨before, rest, hall, -⟩ := List.lookup_eq_some_iff.mp hlookup
    have hmem' : (c.number, b) ∈ Deed.answers l.deeds w := by
      rw [hall]
      exact List.mem_append_right _ List.mem_cons_self
    obtain ⟨j, c', hdeed', hvalue', -, hnumber⟩ := Deed.mem_answers_iff.mp hmem'
    cases hl.index_unique hdeed hdeed' hnumber.symm
    rw [hvalue] at hvalue'
    exact (Option.some.inj hvalue').symm

/-- The messages that wait have the numbers of the calls that wait. -/
theorem Follows.map_mailbox (h : Follows w t l) :
    t.state.mailbox.map Letter.number = l.waiting.map Call.number := by
  rw [← List.forall₂_eq_eq_eq, List.forall₂_map_left_iff, List.forall₂_map_right_iff]
  exact h.mailbox.imp fun _ _ hboth => hboth.1

/-- What a service does under a schedule is what a plain world does that is asked the same, one
thing after another, in the order in which the service has come to it. -/
structure Refines (t : Turn Service Unit) (l : Ledger) (u : Turn World (List Answer)) : Prop where
  /-- The service leaves the same world: router, host, catalog, bus, inbox, timers and all. -/
  world : t.state.world = u.state
  /-- It has had the same effects: commands, offers, published and posted events, timers, log. -/
  effects : t.effects = u.effects
  /-- Calls are carried out in the order in which they have been made, each of them once; those
  that have not been carried out yet wait in the mailbox. -/
  fifo : Deed.calls l.deeds ++ l.waiting = l.made
  /-- No two calls have the same number. -/
  numbered : l.made.map Call.number = List.range l.made.length
  /-- The messages in the mailbox are those of the calls that wait. -/
  mailbox : t.state.mailbox.map Letter.number = l.waiting.map Call.number
  /-- There is an answer to whatever is done. -/
  complete : u.value.length = l.deeds.length
  /-- Whoever waits for the answer to a call that has been carried out is told the answer that the
  plain world gives. -/
  answered : ∀ (i : Nat) (c : Call) (a : Answer), l.deeds[i]? = some (.call c) →
    u.value[i]? = some a → c.isAwaited = true → t.state.answerTo c.number = a
  /-- Nobody is told anything else. -/
  honest : ∀ (n : Nat) (a : Answer), (n, a) ∈ t.state.answers →
    ∃ (i : Nat) (c : Call), l.deeds[i]? = some (.call c) ∧ u.value[i]? = some a ∧
      c.isAwaited = true ∧ c.number = n
  /-- By the time at which a call is carried out, so have been all calls made before it, whether or
  not anybody waits for the answers. -/
  earlier : ∀ (i : Nat) (c e : Call), l.deeds[i]? = some (.call c) → e ∈ l.made →
    e.number < c.number → ∃ j < i, l.deeds[j]? = some (.call e)

/-- **A service does what its router would do.** Whatever calls are made through whatever handles,
and however the service turns to its mailbox and to the inbox in between, it does what a plain world
does that is asked the same in the same order: with the same answers, the same effects and the same
world in the end. Everything that can be asked through a handle is asked in this way. However the
schedule goes on, all calls that wait have been carried out once the service has looked into its
mailbox as often as there are such calls. -/
theorem refines_plain (w : World) (beats : List Beat) :
    let l := Ledger.ofBeats beats
    Refines ((start w).live beats) l (Deed.plain l.deeds w) ∧
      (∀ (earlier later : List Beat) (handle : Nat) (op : Op),
        beats = earlier ++ .call handle op :: later →
          handle < (Ledger.ofBeats earlier).handles → op.isForHandles = true →
            ⟨(Ledger.ofBeats earlier).made.length, op⟩ ∈ l.made) ∧
      ∀ later : List Beat, l.waiting.length ≤ later.countP Beat.servesMailbox →
        l.made <+: Deed.calls (Ledger.ofBeats (beats ++ later)).deeds := by
  intro l
  have hfollows : Follows w ((start w).live beats) l := follows_live w beats
  have horderly : l.Orderly := Ledger.orderly_ofBeats beats
  refine ⟨?_, ?_, ?_⟩
  · exact {
      world := hfollows.agrees.world
      effects := hfollows.agrees.effects
      fifo := horderly.fifo
      numbered := horderly.numbered
      mailbox := hfollows.map_mailbox
      complete := Deed.length_plain l.deeds w
      answered := fun _ _ _ => hfollows.answerTo_eq horderly
      honest := fun _ _ hmem => Deed.mem_answers_iff.mp (hfollows.agrees.answers ▸ hmem)
      earlier := fun _ _ _ => horderly.earlier }
  · rintro earlier later handle op rfl hhandle hop
    exact Ledger.mem_made hhandle hop
  · intro later hlater
    have hcalls := Ledger.calls_foldl l later
    rw [List.take_of_length_le hlater, horderly.fifo] at hcalls
    rw [Ledger.ofBeats, List.foldl_append]
    exact hcalls

/-- The editor is running. The printer registers an intent through one handle and the editor submits
a request through another. Then the start of the archive is announced and the counters are asked
for. -/
def registerAndAsk : List Beat :=
  [.outside (.host (.run "editor" none)), .clone, .call 1 (.catalog (.addApplication "printer")),
    .serve .mailbox, .call 1 (.catalog (.add (.plain "print" "printer"))),
    .call 0 (.submit ⟨"editor", "print", none, .empty⟩), .call 1 (.announceStart "archive"),
    .serve .inbox, .call 0 .counters]

/-- The service looks into its mailbox four times. -/
def fourLooks : List Beat := List.replicate 4 (.serve .mailbox)

/-- The printer is told that its intent is registered, and the editor that a request has been
admitted. Nobody waits for the announcement, but it is carried out before the question is
answered. -/
theorem refines_plain_registerAndAsk :
    let s := ((start (.fresh (.fresh .standard))).live (registerAndAsk ++ fourLooks)).state
    let l := Ledger.ofBeats (registerAndAsk ++ fourLooks)
    s.answerTo 1 = .intent (some (.plain "print" "printer")) ∧
      s.answerTo 4 = .counters { Counters.zero with submitted := 1 } ∧
      (∃ j < 6, l.deeds[j]? = some (.call ⟨3, .announceStart "archive"⟩)) ∧
      ⟨2, .submit ⟨"editor", "print", none, .empty⟩⟩ ∈ l.made ∧
      (Ledger.ofBeats registerAndAsk).made <+: Deed.calls l.deeds := by
  intro s l
  obtain ⟨hrefines, hmade, -⟩ :=
    refines_plain (.fresh (.fresh .standard)) (registerAndAsk ++ fourLooks)
  have hregistered : l.deeds[3]? = some (.call ⟨1, .catalog (.add (.plain "print" "printer"))⟩) :=
    rfl
  have hasked : l.deeds[6]? = some (.call ⟨4, .counters⟩) := rfl
  have hannounced : (⟨3, .announceStart "archive"⟩ : Call) ∈ l.made :=
    hmade (registerAndAsk.take 6) _ 1 _ rfl (by decide) rfl
  refine ⟨?_, ?_, ?_, ?_, ?_⟩
  · exact hrefines.answered 3 _ _ hregistered rfl rfl
  · exact hrefines.answered 6 _ _ hasked rfl rfl
  · exact hrefines.earlier 6 _ _ hasked hannounced (by decide)
  · exact hmade (registerAndAsk.take 5) _ 0 _ rfl (by decide) rfl
  · exact (refines_plain (.fresh (.fresh .standard)) registerAndAsk).2.2 fourLooks (by decide)

end Service

end IntentRouter
