import IntentRouter.Proofs.Origin
import IntentRouter.Proofs.Return
import IntentRouter.Proofs.Rivals

/-!
# Where an outcome comes from

A request that is returned with a success owes it to a reply of its own handler: the request
was sent to the handler before, and no other reply to it has been accepted. Whatever else
settles a request makes it a failure, and the outcome that a request has is the one it is
returned with, whatever happens until then.
-/

namespace IntentRouter

open Router

namespace Request

variable {q : Request} {call : RouterCall} {stage : Stage} {message : String}
  {payload : Json.Parameters}

/-- A report that settles a waiting request as a failure, with the reason for it. -/
inductive FailsBy (q : Request) : RouterCall → String → Prop where
  /-- The wait has taken too long. -/
  | timer (stage : Stage) (millis : Nat) (waits : q.state.stage? = some stage) :
    FailsBy q (.handle (.timeout stage q.id millis)) (stage.timeoutMessage millis)
  /-- The listener rejects all candidates. -/
  | rejection (waits : q.state = .awaitingChoice) : FailsBy q (.reject q.id) rejectedMessage
  /-- The listener selects an intent that was not offered. -/
  | unoffered (selected : Intent) (waits : q.state = .awaitingChoice)
    (other : ∀ i ∈ q.candidates, i.same selected = false) :
    FailsBy q (.resolve q.id selected) invalidChoiceMessage
  /-- Another application than the handler replies. -/
  | stranger (application : String) (isError : Bool) (payload : Json.Parameters)
    (waits : q.state = .awaitingReply) (other : q.handler ≠ some application) :
    FailsBy q (.reply application q.id isError payload) wrongReplierMessage
  /-- The handler reports an error. -/
  | error (handler : String) (payload : Json.Parameters) (waits : q.state = .awaitingReply)
    (handled : q.handler = some handler) :
    FailsBy q (.reply handler q.id true payload)
      (((payload.get? errorMessageName).bind Json.Value.str?).getD handlerErrorMessage)

/-- What such a report leaves of the request is its failure. -/
theorem FailsBy.resumedBy_eq (h : q.FailsBy call message) :
    ∃ stage, call.wait? = some (stage, q.id) ∧ q.state.stage? = some stage ∧
      q.resumedBy call = q.fail message := by
  cases h with
  | timer stage millis waits => exact ⟨stage, rfl, waits, rfl⟩
  | rejection waits => exact ⟨.choice, rfl, by rw [waits]; rfl, rfl⟩
  | unoffered selected waits other =>
    have hnone : ¬ (q.candidates.any fun i => i.same selected) = true := by
      rw [List.any_eq_true]
      rintro ⟨i, hi, hsame⟩
      rw [other i hi] at hsame
      cases hsame
    exact ⟨.choice, rfl, by rw [waits]; rfl, if_neg hnone⟩
  | stranger application isError payload waits other =>
    refine ⟨.reply, rfl, by rw [waits]; rfl, ?_⟩
    rw [resumedBy, settleBy, if_pos other]
  | error handler payload waits handled =>
    refine ⟨.reply, rfl, by rw [waits]; rfl, ?_⟩
    rw [resumedBy, settleBy, if_neg (not_not_intro handled), if_pos rfl]

/-- Only a reply of its handler that reports no error makes a request a success. -/
theorem reply_of_succeeded (hcall : call.wait? = some (stage, q.id)) (hn : q.outcome = none)
    (ho : (q.resumedBy call).outcome = some (.succeeded payload)) :
    stage = .reply ∧ ∃ handler, q.handler = some handler ∧
      call = .reply handler q.id false payload ∧ (q.resumedBy call).handler = some handler := by
  have hfail : ∀ message, (q.fail message).outcome ≠ some (.succeeded payload) := by
    intro message he
    rw [fail, outcome_settle hn] at he
    cases he
  cases call with
  | resolve id selected =>
    rw [resumedBy] at ho
    by_cases hany : (q.candidates.any fun i => i.same selected) = true
    · rw [if_pos hany] at ho
      change q.outcome = _ at ho
      rw [hn] at ho
      cases ho
    · rw [if_neg hany] at ho
      exact absurd ho (hfail _)
  | reject id => exact absurd ho (hfail _)
  | reply application id isError payload' =>
    obtain ⟨rfl, rfl⟩ := Prod.mk.inj (Option.some.inj hcall)
    rw [resumedBy, settleBy] at ho ⊢
    by_cases hwrong : q.handler ≠ some application
    · rw [if_pos hwrong] at ho
      exact absurd ho (hfail _)
    · rw [if_neg hwrong] at ho ⊢
      have hhandler := not_not.mp hwrong
      by_cases herror : isError = true
      · rw [if_pos herror] at ho
        exact absurd ho (hfail _)
      · rw [if_neg herror] at ho ⊢
        have hpayload : payload' = payload := by
          rw [outcome_settle hn] at ho
          exact Outcome.succeeded.inj (Option.some.inj ho)
        rw [hpayload, Bool.eq_false_iff.mpr herror]
        exact ⟨rfl, application, hhandler, rfl, hhandler⟩
  | handle event =>
    cases event with
    | process => cases hcall
    | timeout stage id millis => exact absurd ho (hfail _)
  | _ => cases hcall

end Request

namespace Run

variable {run : Run} {i j n : Nat} {id : RequestId} {q : Request} {m : Move}

/-- A step hands a request over to its handler, on the channel on which the handler is reached
then. Afterwards the request waits for the reply. -/
def Sends (run : Run) (i : Nat) (id : RequestId) (handler : String) : Prop :=
  ∃ m channel q, run.moves[i]? = some m ∧ run.taken? i = some id ∧
    m.around.host.connection? handler = some channel ∧
      (q ∈ (run.router (i + 1)).requests ∧ q.id = id ∧ q.handler = some handler ∧
        q.state = .awaitingReply) ∧
        m.around.host.issue (.deliverRequest channel q) ∈ run.effects i

/-- A move is a reply to a request, and it is accepted. -/
def Replies (run : Run) (j : Nat) (application : String) (id : RequestId) (isError : Bool)
    (payload : Json.Parameters) : Prop :=
  ∃ m, run.moves[j]? = some m ∧ m.ask = .router (.reply application id isError payload) ∧
    (m.turn (run.router j)).value = .done

/-- A reply that is accepted ends the wait for it. -/
theorem Replies.endsWait {application : String} {isError : Bool} {payload : Json.Parameters}
    (h : run.Replies j application id isError payload) : run.EndsWait .reply id j := by
  obtain ⟨m, hm, hask, hvalue⟩ := h
  have hdone : ((run.router j).perform m.around (.reply application id isError payload)).value =
      .done := by
    rwa [Move.turn, hask] at hvalue
  obtain ⟨q, hq, hid, hs⟩ := ((arbitrates (run.coupled j) id).reply _ _ _ _).mp hdone
  exact ⟨m, _, hm, hask, q, hq, hid, hs, .inl rfl⟩

/-- What a record in flight owes to earlier moves: a request that waits for a reply has been sent
to its handler, and one that has succeeded has also been answered by it. -/
structure Earned (run : Run) (n : Nat) (q : Request) : Prop where
  /-- The handler has been sent the request for whose reply it waits. -/
  sent : q.state = .awaitingReply →
    ∃ handler, q.handler = some handler ∧ ∃ i < n, run.Sends i q.id handler
  /-- The handler has given the reply that made the request a success. -/
  replied : ∀ payload, q.outcome = some (.succeeded payload) →
    ∃ handler, q.handler = some handler ∧ ∃ i j, i < j ∧ j < n ∧ run.Sends i q.id handler ∧
      run.Replies j handler q.id false payload

/-- What has been earned stays so. -/
theorem Earned.succ (h : run.Earned n q) : run.Earned (n + 1) q where
  sent := fun hs => by
    obtain ⟨handler, hh, i, hi, hsends⟩ := h.sent hs
    exact ⟨handler, hh, i, Nat.lt_succ_of_lt hi, hsends⟩
  replied := fun payload ho => by
    obtain ⟨handler, hh, i, j, hij, hj, hsends, hreplies⟩ := h.replied payload ho
    exact ⟨handler, hh, i, j, hij, Nat.lt_succ_of_lt hj, hsends, hreplies⟩

/-- A record that waits for no reply and has no outcome owes nothing. -/
theorem Earned.of_none (hs : q.state ≠ .awaitingReply) (ho : q.outcome = none) :
    run.Earned n q where
  sent := fun he => absurd he hs
  replied := fun payload he => by
    rw [ho] at he
    cases he

/-- A record made by a report has earned its outcome if the request has earned its wait. -/
theorem earned_resumed {p : Request} {stage : Stage} {call : RouterCall}
    (hm : run.moves[n]? = some m) (hask : m.ask = .router call)
    (hcall : call.wait? = some (stage, p.id)) (hp : p ∈ (run.router n).requests)
    (hw : p.state.stage? = some stage) (h : run.Earned n p) :
    run.Earned (n + 1) (p.resumedBy call) := by
  have hsound := (run.coupled n).sound p hp
  obtain ⟨hbecomes, -, hready⟩ := Request.resumedBy_spec hsound hw hcall
  constructor
  · intro hs
    rw [hs] at hready
    cases hready
  · intro payload ho
    have hnone := hsound.outcome_none (RequestState.ne_settled_of_stage hw)
    obtain ⟨rfl, handler, hh, rfl, hh'⟩ := Request.reply_of_succeeded hcall hnone ho
    obtain ⟨handler', hsame, i, hi, hsends⟩ := h.sent (RequestState.stage?_eq_some.mp hw)
    obtain rfl := Option.some.inj (hsame.symm.trans hh)
    obtain ⟨es, -, hperform⟩ := perform_of_waits m.around (run.coupled n) hp hw hcall
    refine ⟨handler', hh', i, n, hi, Nat.lt_succ_self n, ?_, ?_⟩
    · rwa [hbecomes.alike.id]
    · refine ⟨m, hm, by rw [hbecomes.alike.id]; exact hask, ?_⟩
      rw [Move.turn, hask]
      change ((run.router n).perform m.around _).value = .done
      rw [hperform]
      rfl

/-- A step after which a request waits for a reply has sent it to its handler. -/
theorem exists_sends {p : Request} {pass : Passage} (hm : run.moves[n]? = some m)
    (steps : (run.router n).Steps m.around p pass)
    (takes : m.taken? (run.router n) = some p.id)
    (causes : pass.effects ⊆ (m.turn (run.router n)).effects)
    (hq : pass.request ∈ (run.router (n + 1)).requests)
    (hs : pass.request.state = .awaitingReply) :
    ∃ handler, pass.request.handler = some handler ∧ run.Sends n pass.request.id handler := by
  have hsound := (run.coupled n).sound p steps.known
  obtain ⟨handler, channel, hh, hc, hissue⟩ :=
    advance_awaitingReply hsound steps.ready steps.pass_eq hs
  refine ⟨handler, hh, m, channel, pass.request, hm, ?_, hc, ⟨hq, rfl, hh, hs⟩, ?_⟩
  · rw [taken?_eq hm, takes, (steps.onWay (run.coupled n)).id_eq]
  · rw [effects_eq hm]
    exact causes hissue

/-- Every record in flight has earned what it has. -/
theorem earned (run : Run) (n : Nat) : ∀ q ∈ (run.router n).requests, run.Earned n q := by
  induction n with
  | zero =>
    rw [router_zero, start_eq_fresh]
    intro q hq
    cases hq
  | succ n ih =>
    intro q hq
    have hsound := (run.coupled (n + 1)).sound q hq
    cases hm : run.moves[n]? with
    | none =>
      rw [router_succ_of_none hm] at hq
      exact (ih q hq).succ
    | some m =>
      have hmem := hq
      rw [router_succ hm] at hmem
      cases m.makes_of_mem (run.coupled n) hmem with
      | kept known => exact (ih q known).succ
      | admitted admits =>
        have hchange := run.change hm
        rw [admitted?_eq hm, admits] at hchange
        have hs := hchange.of_admitted.2
        exact .of_none (by rw [hs]; decide) (hsound.outcome_none (by rw [hs]; decide))
      | resumed p stage call asks reports known waits result =>
        rw [result]
        exact earned_resumed hm asks reports known waits (ih p known)
      | released p application asks known waits handled result =>
        have hs : q.state = .started := by rw [result]; rfl
        exact .of_none (by rw [hs]; decide) (hsound.outcome_none (by rw [hs]; decide))
      | advanced p pass stage steps takes causes waits result =>
        have hnone := hsound.outcome_none
          (by rw [result]; exact RequestState.ne_settled_of_stage waits)
        refine ⟨fun hs => ?_, fun payload ho => ?_⟩
        · rw [result] at hq hs ⊢
          obtain ⟨handler, hh, hsends⟩ := exists_sends hm steps takes causes hq hs
          exact ⟨handler, hh, n, Nat.lt_succ_self n, hsends⟩
        · rw [hnone] at ho
          cases ho

/-- A report that fails a request settles it at once. -/
theorem fail_of_failsBy {call : RouterCall} {message : String} (hm : run.moves[n]? = some m)
    (hask : m.ask = .router call) (hq : q ∈ (run.router n).requests)
    (hfails : q.FailsBy call message) :
    q.fail message ∈ (run.router (n + 1)).requests ∧
      (q.fail message).outcome = some (.failed message) := by
  obtain ⟨stage, hcall, hw, heq⟩ := hfails.resumedBy_eq
  obtain ⟨es, -, hperform⟩ := perform_of_waits m.around (run.coupled n) hq hw hcall
  have hnone := ((run.coupled n).sound q hq).outcome_none (RequestState.ne_settled_of_stage hw)
  refine ⟨?_, Request.outcome_settle hnone (.failed message)⟩
  rw [router_succ hm, Move.turn, hask]
  change _ ∈ ((run.router n).perform m.around call).state.requests
  rw [hperform, heq]
  exact Request.mem_replaceIn_self hq rfl

/-- A request returned with a success owes it to its handler, the owner of one of its candidates.
The request was sent to the handler earlier in the run. After that the handler gave the reply whose
payload is that of the success, and no other reply to the request is ever accepted. A report that
fails a request settles it at once, as a failure for its own reason. The request stays settled in
this way and is returned so, whatever happens until then. A request that a step both settles and
returns is a failure for want of a channel to its handler. -/
theorem success_authentic (run : Run) :
    (∀ n x payload, run.returned? n = some x → x.request.outcome = some (.succeeded payload) →
      ∃ handler i j, i < j ∧ j < n ∧ x.request.handler = some handler ∧
        (∃ c ∈ x.request.candidates, c.owner = handler) ∧
        run.Sends i x.request.id handler ∧ run.Replies j handler x.request.id false payload ∧
        ∀ j' application isError payload',
          run.Replies j' application x.request.id isError payload' → j' = j) ∧
      (∀ n m call q message, run.moves[n]? = some m → m.ask = .router call →
        q ∈ (run.router n).requests → q.FailsBy call message →
          q.fail message ∈ (run.router (n + 1)).requests ∧
          (∀ k, n < k → ∀ q' ∈ (run.router k).requests, q'.id = q.id →
            q'.state = .settled ∧ q'.outcome = some (.failed message)) ∧
          (∀ k, n < k → run.taken? k = some q.id →
            ∃ x, run.returned? k = some x ∧ x.request.id = q.id) ∧
          ∀ k x, run.returned? k = some x → x.request.id = q.id →
            n < k ∧ x.request.outcome = some (.failed message)) ∧
      ∀ n m x, run.moves[n]? = some m → run.returned? n = some x →
        (∀ p ∈ (run.router n).requests, p.id = x.request.id → p.state ≠ .settled) →
          ∃ handler, x.request.handler = some handler ∧
            m.around.host.connection? handler = none ∧
            x.request.outcome = some (.failed noChannelMessage) := by
  refine ⟨?_, ?_, ?_⟩
  · intro n x payload hx ho
    obtain ⟨m, p, pass, hm, -⟩ := exists_steps hx
    rcases returned_cases hm hx with ⟨hq, -⟩ | ⟨-, -, -, hfailed⟩
    · have hsound := (run.coupled n).sound x.request hq
      obtain ⟨handler, hh, i, j, hij, hj, hsends, hreplies⟩ :=
        (run.earned n x.request hq).replied payload ho
      exact ⟨handler, i, j, hij, hj, hh, hsound.owner handler hh, hsends, hreplies,
        fun j' application isError payload' h => endsWait_unique h.endsWait hreplies.endsWait⟩
    · rw [hfailed] at ho
      cases ho
  · intro n m call q message hm hask hq hfails
    obtain ⟨hnow, ho⟩ := fail_of_failsBy hm hask hq hfails
    have hlater : ∀ k, n < k → ∀ q' ∈ (run.router k).requests, q'.id = q.id →
        q'.state = .settled ∧ q'.outcome = some (.failed message) :=
      fun k hk q' hq' hid => settled_of_le hnow ho hk hq' hid
    refine ⟨hnow, hlater, ?_, ?_⟩
    · intro k hk htaken
      exact returned_of_taken htaken fun p hp hid => (hlater k hk p hp hid).1
    · intro k x hx hid
      exact ⟨le_of_returned hnow hx hid, outcome_of_returned hnow ho hx hid⟩
  · intro n m x hm hx hopen
    rcases returned_cases hm hx with ⟨hq, hs⟩ | hlost
    · exact absurd hs (hopen x.request hq rfl)
    · exact hlost

/-- An errand is returned with the success that the printer's reply has made it. -/
theorem success_errand :
    ∃ x, errand.returned? 5 = some x ∧ x.request.outcome = some (.succeeded .empty) ∧
      ∃ j < 5, errand.Replies j "printer" printing.id false .empty := by
  have hreturned : errand.returned? 5 = some
      ⟨((printing.choose "printer").moveTo .awaitingReply).settle (.succeeded .empty),
        some ⟨"editor", "e"⟩⟩ := rfl
  obtain ⟨handler, i, j, -, hj, hh, -, -, hreplies, -⟩ :=
    errand.success_authentic.1 5 _ .empty hreturned rfl
  obtain rfl : "printer" = handler := Option.some.inj hh
  exact ⟨_, hreturned, rfl, j, hj, hreplies⟩

end Run

end IntentRouter
