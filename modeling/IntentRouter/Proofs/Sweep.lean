import IntentRouter.Proofs.Course
import IntentRouter.Proofs.Wake

/-!
# Rounds of steps

The steps that are posted are made one after another, each in surroundings of its own, until none
is left. If one is posted while anyone stands in the main lane, then everyone who stands there is
taken through one step, in the order of the lane and with the record from the beginning, since
nobody joins the lane meanwhile. Whatever has happened to a request has happened in its round.
-/

namespace IntentRouter

open Effect

/-- A step that is made with a router. -/
structure Round where
  /-- The router before the step. -/
  router : Router
  /-- What it sees of the world around it. -/
  around : Surroundings

namespace Round

/-- What comes of the step. -/
def turn (x : Round) : Turn Router Unit := x.router.process x.around

/-- The request that the step is made with, if anyone stands in the main lane. -/
def taken? (x : Round) : Option RequestId := x.router.lanes.main.head?

/-- What the step returns, if it takes its request to the end. -/
def returned? (x : Round) : Option Return := x.router.returned? x.around

/-- What goes out. -/
def outs (x : Round) : List Output := outputs x.turn.effects

end Round

namespace Output

/-- The request that is sent to its handler, if the output does that. -/
def delivers? : Output → Option RequestId
  | .sent _ q => some q.id
  | _ => none

/-- The request that is sent back to its requester, if the output does that. -/
def returns? : Output → Option RequestId
  | .returned _ q => some q.id
  | _ => none

/-- What is sent or sent back is the request that the output belongs to. -/
theorem Marks.id_eq {around : Surroundings} {q : Request} {o : Output} {id : RequestId}
    (h : o.Marks around q) (hid : o.delivers? = some id ∨ o.returns? = some id) : q.id = id := by
  cases o with
  | sent channel request | returned channel request =>
    obtain ⟨-, rfl, -⟩ := h
    simpa [delivers?, returns?] using hid
  | _ => simp [delivers?, returns?] at hid

end Output

/-- What can become of a router when so many steps are posted, and these steps and those that they
post are made until none is left. The rounds tell in which surroundings each of them is made. -/
inductive Sweeps : Router → Nat → List Round → Router → Prop where
  /-- No step is posted. -/
  | done {r : Router} : Sweeps r 0 [] r
  /-- A step is made. -/
  | step {r s : Router} {k : Nat} {rounds : List Round} (around : Surroundings)
    (isOpen : around.inboxOpen = true)
    (rest : Sweeps (r.process around).state (k + (posted (r.process around).effects).count .process)
      rounds s) :
    Sweeps r (k + 1) (⟨r, around⟩ :: rounds) s

namespace Router

variable {r s : Router} {around : Surroundings} {p q : Request} {id : RequestId} {k : Nat}

/-- So many steps are posted, and one is while anyone stands in the main lane. -/
structure Due (r : Router) (k : Nat) : Prop where
  /-- The requests are coupled with the lanes. -/
  coupled : Coupled r.requests r.lanes
  /-- A step is posted while anyone stands in the main lane. -/
  wake : r.lanes.main ≠ [] → 0 < k

/-- A step takes somebody out of the main lane and posts another one, or does neither. -/
theorem length_main_process (h : Coupled r.requests r.lanes) (isOpen : around.inboxOpen = true) :
    (r.process around).state.lanes.main.length +
      (posted (r.process around).effects).count .process = r.lanes.main.length := by
  have hline := congrArg List.length (main_process around h)
  rw [List.length_append] at hline
  rw [posted_process h isOpen, hline, Nat.add_comm]
  cases r.lanes.main <;> rfl

/-- After a step another one is posted if anyone is left in the main lane. -/
theorem Due.process (h : r.Due (k + 1)) (isOpen : around.inboxOpen = true) :
    (r.process around).state.Due (k + (posted (r.process around).effects).count .process) := by
  refine ⟨coupled_process around h.coupled, fun hleft => ?_⟩
  have hmain : r.lanes.main ≠ [] := by
    intro hnone
    have hline := main_process around h.coupled
    rw [hnone] at hline
    exact hleft hline.symm
  rw [posted_process h.coupled isOpen, if_neg hmain, List.count_singleton_self]
  exact Nat.succ_pos k

/-- A step leaves the records as they are of those who do not stand in the main lane. -/
theorem mem_process_iff (around : Surroundings) (h : Coupled r.requests r.lanes)
    (hid : q.id ∉ r.lanes.main) : q ∈ (r.process around).state.requests ↔ q ∈ r.requests := by
  rcases idle_or_steps h around with hmain | ⟨p, pass, hs⟩
  · rw [process_of_idle hmain]
    exact Iff.rfl
  · have hne : q.id ≠ p.id := by
      intro he
      rw [he, hs.main_eq] at hid
      exact hid List.mem_cons_self
    exact (hs.spares h).mem_iff hne

/-- Whoever is left in the main lane after a step has stood there before, with the same record. -/
theorem of_mem_main_process (around : Surroundings) (h : Coupled r.requests r.lanes)
    (hid : q.id ∈ (r.process around).state.lanes.main) :
    q.id ∈ r.lanes.main ∧ (q ∈ (r.process around).state.requests ↔ q ∈ r.requests) := by
  rcases idle_or_steps h around with hmain | ⟨p, pass, hs⟩
  · rw [process_of_idle hmain] at hid ⊢
    exact ⟨hid, Iff.rfl⟩
  · have honce : (p.id :: r.lanes.main.tail).Nodup := hs.main_eq ▸ h.once .main
    rw [(hs.visited h).main] at hid
    have hne : q.id ≠ p.id := fun he => (List.nodup_cons.mp honce).1 (he ▸ hid)
    exact ⟨List.mem_of_mem_tail hid, (hs.spares h).mem_iff hne⟩

end Router

namespace Round

variable {x : Round} {p : Request} {pass : Router.Passage} {o : Output} {y : Return}
  {id : RequestId}

/-- What goes out in a round belongs to the request that the round is made with. -/
theorem taken?_of_mem_outs (h : Coupled x.router.requests x.router.lanes) (ho : o ∈ x.outs)
    (hid : o.delivers? = some id ∨ o.returns? = some id) : x.taken? = some id := by
  rcases Router.idle_or_steps h x.around with hmain | ⟨p, pass, hs⟩
  · rw [outs, turn, Router.process_of_idle hmain] at ho
    cases ho
  · have hmarks : o.Marks x.around pass.request := by
      rw [outs, turn, (hs.leaves h).outputs_eq] at ho
      split at ho
      · next settled => exact (Host.parting_spec x.around settled).2 o ho
      · exact (hs.onWay h).marks o ho
    rw [taken?, hs.next, ← (hs.onWay h).id_eq, hmarks.id_eq hid]

/-- What a round returns is the request that the round is made with. -/
theorem taken?_of_returned? (h : Coupled x.router.requests x.router.lanes)
    (hy : x.returned? = some y) : x.taken? = some y.request.id := by
  obtain ⟨p, pass, hs, -, rfl⟩ := Router.exists_steps h hy
  rw [taken?, hs.next, ← (hs.onWay h).id_eq]
  rfl

end Round

namespace Sweeps

open Router

variable {r s : Router} {k : Nat} {rounds before after : List Round} {x : Round} {p q : Request}
  {pass : Passage} {id : RequestId}

/-- The requests are coupled with the lanes at the end. -/
theorem coupled (h : Sweeps r k rounds s) (hd : r.Due k) : Coupled s.requests s.lanes := by
  induction h with
  | done => exact hd.coupled
  | step around isOpen _ ih => exact ih (hd.process isOpen)

/-- Those in the main lane are taken through a step each, in their order, and nobody else is. -/
theorem taken (h : Sweeps r k rounds s) (hd : r.Due k) :
    rounds.filterMap Round.taken? = r.lanes.main := by
  induction h with
  | done =>
    by_contra hne
    exact Nat.lt_irrefl 0 (hd.wake (Ne.symm hne))
  | @step r s k rounds around isOpen _ ih =>
    have hhead : (⟨r, around⟩ : Round).taken? = r.lanes.main.head? := rfl
    rw [main_process around hd.coupled, ← ih (hd.process isOpen), List.filterMap_cons, hhead]
    cases r.lanes.main.head? <;> rfl

/-- Whoever does not stand in the main lane keeps the record. -/
theorem mem_iff (h : Sweeps r k rounds s) (hd : r.Due k) (hid : q.id ∉ r.lanes.main) :
    q ∈ s.requests ↔ q ∈ r.requests := by
  induction h with
  | done => exact Iff.rfl
  | @step r s k rounds around isOpen _ ih =>
    have hlane := mem_lane_process_iff around hd.coupled hid .main
    exact (ih (hd.process isOpen) (mt hlane.mp hid)).trans (mem_process_iff around hd.coupled hid)

/-- From each round on the rest of the steps is made. -/
theorem split (h : Sweeps r k (before ++ x :: after) s) (hd : r.Due k) :
    ∃ k' l, x.router.Due k' ∧ x.turn.state.Due l ∧ Sweeps x.turn.state l after s := by
  induction before generalizing r k with
  | nil =>
    cases h with
    | step around isOpen rest => exact ⟨_, _, hd, hd.process isOpen, rest⟩
  | cons y before ih =>
    cases h with
    | step around isOpen rest => exact ih rest (hd.process isOpen)

/-- In each round the requests are coupled with the lanes. -/
theorem coupled_of_mem (h : Sweeps r k rounds s) (hd : r.Due k) (hx : x ∈ rounds) :
    Coupled x.router.requests x.router.lanes := by
  obtain ⟨before, after, rfl⟩ := List.append_of_mem hx
  obtain ⟨k', l, hdue, -, -⟩ := h.split hd
  exact hdue.coupled

/-- A step is made with a request that has stood in the main lane from the beginning, and with the
record it had then. -/
theorem of_steps (h : Sweeps r k rounds s) (hd : r.Due k) (hx : x ∈ rounds)
    (hs : x.router.Steps x.around p pass) : p ∈ r.requests ∧ p.id ∈ r.lanes.main := by
  induction h with
  | done => cases hx
  | @step r s k rounds around isOpen _ ih =>
    rcases List.mem_cons.mp hx with rfl | hx
    · have hmem : p.id ∈ r.lanes.main := by
        rw [hs.main_eq]
        exact List.mem_cons_self
      exact ⟨hs.known, hmem⟩
    · obtain ⟨hp, hmain⟩ := ih (hd.process isOpen) hx
      obtain ⟨hbefore, hiff⟩ := of_mem_main_process around hd.coupled hmain
      exact ⟨hiff.mp hp, hbefore⟩

/-- There is a round for everyone in the main lane. -/
theorem exists_round (h : Sweeps r k rounds s) (hd : r.Due k) (hq : q ∈ r.requests)
    (hmain : q.id ∈ r.lanes.main) :
    ∃ before x after pass, rounds = before ++ x :: after ∧ x.router.Steps x.around q pass ∧
      ∀ y ∈ before ++ after, y.taken? ≠ some q.id := by
  have htaken := h.taken hd
  obtain ⟨x, hx, hid⟩ := List.mem_filterMap.mp (htaken ▸ hmain)
  obtain ⟨before, after, rfl⟩ := List.append_of_mem hx
  obtain ⟨k', l, hdue, -, -⟩ := h.split hd
  rcases idle_or_steps hdue.coupled x.around with hnone | ⟨p, pass, hs⟩
  · rw [Round.taken?, hnone] at hid
    cases hid
  · -- The record of that name is the one from the beginning.
    obtain ⟨hp, -⟩ := h.of_steps hd hx hs
    have hname : p.id = q.id := Option.some.inj (hs.next.symm.trans hid)
    obtain rfl := hd.coupled.eq_of_id hp hq hname
    refine ⟨before, x, after, pass, rfl, hs, fun y hy hsame => ?_⟩
    have honce : (r.lanes.get .main).Nodup := hd.coupled.once .main
    change r.lanes.main.Nodup at honce
    rw [← htaken, List.filterMap_append, List.filterMap_cons_some hid, List.nodup_middle,
      List.nodup_cons, ← List.filterMap_append] at honce
    exact honce.1 (List.mem_filterMap.mpr ⟨y, hy, hsame⟩)

/-- Once a request is settled in its round, nobody is in flight under its name. -/
theorem gone_of_settled (h : Sweeps r k (before ++ x :: after) s) (hd : r.Due k)
    (hs : x.router.Steps x.around p pass) (hsettled : pass.request.state = .settled) :
    ∀ q ∈ s.requests, q.id ≠ p.id := by
  obtain ⟨k', l, hdue, hafter, hrest⟩ := h.split hd
  have hturn : x.turn = _ := process_of_settled hs hdue.coupled hsettled
  have habsent : p.id ∉ x.turn.state.lanes.main := by
    rw [hturn]
    exact hs.absent hdue.coupled .main
  intro q hq hid
  have hmem : q ∈ x.turn.state.requests := (hrest.mem_iff hafter (hid ▸ habsent)).mp hq
  rw [hturn] at hmem
  exact of_decide_eq_true (List.mem_filter.mp hmem).2 hid

/-- Once a request waits after its round, it is in flight in the end with the record it has then. -/
theorem mem_of_waits {stage : Stage} (h : Sweeps r k (before ++ x :: after) s) (hd : r.Due k)
    (hs : x.router.Steps x.around p pass) (hw : pass.request.state.stage? = some stage) :
    pass.request ∈ s.requests := by
  obtain ⟨k', l, hdue, hafter, hrest⟩ := h.split hd
  have hid := (hs.onWay hdue.coupled).id_eq
  have hturn : x.turn = _ := process_of_waits hs hdue.coupled hw
  have hmem : pass.request ∈ x.turn.state.requests := by
    rw [hturn]
    exact Request.mem_replaceIn_self hs.known hid
  have habsent : pass.request.id ∉ x.turn.state.lanes.get .main := by
    rw [hafter.coupled.mem_lane_iff hmem, RequestState.lane_eq_main, hw]
    exact nofun
  exact (hrest.mem_iff hafter habsent).mpr hmem

/-- The counters have counted what the rounds have returned. -/
theorem counters (h : Sweeps r k rounds s) (hd : r.Due k) :
    s.counters = r.counters.plus (.tally [] (rounds.filterMap Round.returned?)) := by
  induction h with
  | done => rfl
  | @step r s k rounds around isOpen _ ih =>
    have hhead : (⟨r, around⟩ : Round).returned? = r.returned? around := rfl
    rw [ih (hd.process isOpen), counters_process hd.coupled, Counters.plus_assoc,
      Counters.plus_tally, List.nil_append, List.filterMap_cons, hhead]
    cases r.returned? around <;> rfl

/-- What can come of no round but one comes of that one. -/
theorem filter_flatMap_of_split {β : Type} {f : Round → List β} {P : β → Bool}
    (others : ∀ y ∈ before ++ after, (f y).filter P = []) :
    ((before ++ x :: after).flatMap f).filter P = (f x).filter P := by
  have hnone : ∀ l : List Round, (∀ y ∈ l, (f y).filter P = []) → (l.flatMap f).filter P = [] := by
    intro l hl
    rw [List.filter_flatMap, List.flatMap_eq_nil_iff]
    exact hl
  obtain ⟨hbefore, hafter⟩ := List.forall_mem_append.mp others
  rw [List.flatMap_append, List.flatMap_cons, List.filter_append, List.filter_append,
    hnone before hbefore, hnone after hafter, List.nil_append, List.append_nil]

/-- If everything that comes of a round bears the name of its request, and one thing comes of the
round of each of some requests, then these things come in the order of the main lane. -/
theorem filter_flatMap_eq_map {β : Type} {f : Round → List β} {name : β → RequestId}
    {make : RequestId → β} {ids : List RequestId} (h : Sweeps r k rounds s) (hd : r.Due k)
    (named : ∀ x ∈ rounds, ∀ b ∈ f x, x.taken? = some (name b))
    (each : ∀ x ∈ rounds, ∀ p pass, x.router.Steps x.around p pass → p.id ∈ ids →
      f x = [make p.id]) :
    (rounds.flatMap f).filter (fun b => name b ∈ ids) =
      (r.lanes.main.filter (· ∈ ids)).map make := by
  rw [← h.taken hd, List.filterMap_eq_flatMap_toList, List.filter_flatMap, List.filter_flatMap,
    List.map_flatMap]
  refine List.flatMap_congr fun x hx => ?_
  have hnone : (∀ id ∈ ids, x.taken? ≠ some id) → (f x).filter (fun b => name b ∈ ids) = [] := by
    intro hout
    rw [List.filter_eq_nil_iff]
    exact fun b hb hid => hout _ (of_decide_eq_true hid) (named x hx b hb)
  rcases idle_or_steps (h.coupled_of_mem hd hx) x.around with hmain | ⟨p, pass, hs⟩
  · have htaken : x.taken? = none := by rw [Round.taken?, hmain]; rfl
    rw [hnone (fun _ _ => htaken ▸ nofun), htaken]
    rfl
  · have htaken : x.taken? = some p.id := hs.next
    by_cases hid : p.id ∈ ids
    · have hmade := each x hx p pass hs hid
      have hname : name (make p.id) = p.id := by
        have hsame := named x hx (make p.id) (hmade ▸ List.mem_cons_self)
        exact Option.some.inj (hsame.symm.trans htaken)
      rw [hmade, htaken, Option.toList_some, List.filter_singleton, List.filter_singleton, hname,
        decide_eq_true hid]
      rfl
    · rw [hnone fun id hmem he => hid (Option.some.inj (htaken.symm.trans he) ▸ hmem), htaken,
        Option.toList_some, List.filter_singleton, decide_eq_false hid]
      rfl

/-- The posted steps can be made in any surroundings in which events are taken. -/
theorem exists_sweeps {world : List Surroundings} (hd : r.Due k)
    (isOpen : ∀ around ∈ world, around.inboxOpen = true)
    (hlength : world.length = r.lanes.main.length + k) :
    ∃ rounds s, Sweeps r k rounds s ∧ rounds.map Round.around = world := by
  induction world generalizing r k with
  | nil =>
    obtain ⟨-, rfl⟩ := Nat.add_eq_zero_iff.mp hlength.symm
    exact ⟨[], r, .done, rfl⟩
  | cons around world ih =>
    obtain ⟨hopen, hrest⟩ := List.forall_mem_cons.mp isOpen
    have hpos : 0 < k := by
      by_contra hzero
      have hmain := not_not.mp (mt hd.wake hzero)
      rw [hmain, List.length_cons, List.length_nil] at hlength
      omega
    obtain ⟨k, rfl⟩ := Nat.exists_eq_add_one.mpr hpos
    have hmade := length_main_process hd.coupled hopen
    rw [List.length_cons] at hlength
    obtain ⟨rounds, s, hsweeps, hworld⟩ := ih (hd.process hopen) hrest (by omega)
    exact ⟨_, s, .step around hopen hsweeps, congrArg (around :: ·) hworld⟩

end Sweeps

/-- However many steps are posted, if any, they can be made until none is left, one after another in
any surroundings in which events are taken. -/
def Router.Sweepable (r : Router) : Prop :=
  ∀ k world, 0 < k → (∀ around ∈ world, around.inboxOpen = true) →
    world.length = r.lanes.main.length + k →
      ∃ rounds s, Sweeps r k rounds s ∧ rounds.map Round.around = world

/-- Posted steps can be made while the requests are coupled with the lanes. -/
theorem Router.sweepable {r : Router} (h : Coupled r.requests r.lanes) : r.Sweepable :=
  fun _ _ hk isOpen hlength => Sweeps.exists_sweeps ⟨h, fun _ => hk⟩ isOpen hlength

end IntentRouter
