import IntentRouter.Proofs.Faults
import IntentRouter.Proofs.Notation

/-!
# Capabilities are the grants since the last revocation

What an application holds is told by what the host has been asked: everything that it was granted
after the last time that all was taken from it. A grant that breaks off counts for what came before
the break. Nothing else that is asked of the host has a part in it, be it about this application or
another one, and nothing that is asked of the catalog or of the router.
-/

namespace IntentRouter

/-! ## What is asked of the host -/

/-- What an operation asks of the host. -/
def Op.hostCall? : Op → Option HostCall
  | .host call => some call
  | _ => none

/-- What is asked of the host where operations are carried out. -/
def Op.hostCalls (ops : List Op) : List HostCall := (Op.unrolledAll ops).filterMap Op.hostCall?

namespace HostCall

/-- The capabilities that a call grants to an application, up to the break if it breaks off. -/
def granted (application : String) : HostCall → List String
  | .grant receiver names | .grantBroken receiver names =>
    if receiver = application then names else []
  | _ => []

/-- Whether a call grants capabilities to an application or takes all from it. -/
def concerns (application : String) : HostCall → Bool
  | .grant receiver _ | .grantBroken receiver _ | .revoke receiver => receiver = application
  | _ => false

/-- A call that does not concern an application grants it nothing. -/
theorem granted_of_not_concerns {application : String} {call : HostCall}
    (h : call.concerns application = false) : call.granted application = [] := by
  cases call with
  | grant receiver names => exact if_neg (of_decide_eq_false h)
  | grantBroken receiver names => exact if_neg (of_decide_eq_false h)
  | _ => rfl

end HostCall

/-- Among the calls is one that grants a capability to an application, with no revocation of its
capabilities after it. -/
def Granted (calls : List HostCall) (application name : String) : Prop :=
  ∃ before call after, calls = before ++ call :: after ∧ name ∈ call.granted application ∧
    .revoke application ∉ after

/-- A capability is granted by the first call or by the others. -/
theorem granted_cons {first : HostCall} {calls : List HostCall} {application name : String} :
    Granted (first :: calls) application name ↔
      Granted calls application name ∨
        (name ∈ first.granted application ∧ .revoke application ∉ calls) := by
  constructor
  · rintro ⟨before, call, after, hcalls, hname, hafter⟩
    cases before with
    | nil =>
      obtain ⟨rfl, rfl⟩ := List.cons.inj hcalls
      exact .inr ⟨hname, hafter⟩
    | cons other before =>
      obtain ⟨-, hrest⟩ := List.cons.inj hcalls
      exact .inl ⟨before, call, after, hrest, hname, hafter⟩
  · rintro (⟨before, call, after, hcalls, hname, hafter⟩ | ⟨hname, hafter⟩)
    · exact ⟨first :: before, call, after, congrArg (first :: ·) hcalls, hname, hafter⟩
    · exact ⟨[], first, calls, rfl, hname, hafter⟩

/-- Without a revocation a capability is granted if some call grants it. -/
theorem granted_iff_of_notMem {calls : List HostCall} {application : String}
    (h : .revoke application ∉ calls) (name : String) :
    Granted calls application name ↔ ∃ call ∈ calls, name ∈ call.granted application := by
  constructor
  · rintro ⟨before, call, after, rfl, hname, -⟩
    exact ⟨call, List.mem_append_right before List.mem_cons_self, hname⟩
  · rintro ⟨call, hcall, hname⟩
    obtain ⟨before, after, rfl⟩ := List.append_of_mem hcall
    exact ⟨before, call, after, rfl, hname,
      fun hmem => h (List.mem_append_right before (List.mem_cons_of_mem call hmem))⟩

/-! ## What an application holds -/

/-- Sets of names with the same members are the same. -/
theorem NameSet.ext {s t : NameSet} (h : ∀ name, name ∈ s.members ↔ name ∈ t.members) : s = t :=
  (ofList_eq_iff.mpr fun _ => Iff.rfl).symm.trans (ofList_eq_iff.mpr h)

namespace Host

variable {application other : String}

theorem capabilities_grant_self (h : Host) (application : String) (names : List String) :
    (h.grant application names).capabilities application =
      (h.capabilities application).insertAll names := by
  have hfind := Ascending.find?_insert_self Prod.fst
    (application, (h.capabilities application).insertAll names) h.granted
  rw [capabilities, grant, hfind]
  rfl

theorem capabilities_grant_of_ne (h : Host) (hne : other ≠ application) (names : List String) :
    (h.grant other names).capabilities application = h.capabilities application := by
  rw [capabilities, grant, Ascending.find?_insert_of_ne hne, capabilities]

theorem capabilities_revoke_self (h : Host) (application : String) :
    (h.revoke application).capabilities application = .empty := by
  rw [capabilities, revoke, Ascending.find?_erase_self]
  rfl

theorem capabilities_revoke_of_ne (h : Host) (hne : other ≠ application) :
    (h.revoke other).capabilities application = h.capabilities application := by
  rw [capabilities, revoke, Ascending.find?_erase_of_ne hne, capabilities]

/-- A call that does not concern an application changes nothing of what it holds. -/
theorem capabilities_perform_of_not_concerns (h : Host) {call : HostCall}
    (hcall : call.concerns application = false) :
    (h.perform call).state.capabilities application = h.capabilities application := by
  cases call with
  | grant receiver names => exact h.capabilities_grant_of_ne (of_decide_eq_false hcall) names
  | grantBroken receiver names => exact h.capabilities_grant_of_ne (of_decide_eq_false hcall) names
  | revoke receiver => exact h.capabilities_revoke_of_ne (of_decide_eq_false hcall)
  | _ => rfl

/-- After a grant an application holds what is granted besides what it held. -/
theorem mem_capabilities_grant (h : Host) {application name : String} {names : List String} :
    name ∈ ((h.grant application names).capabilities application).members ↔
      name ∈ names ∨ name ∈ (h.capabilities application).members := by
  rw [capabilities_grant_self]
  exact Ascending.mem_insertAll_id

/-- After a call an application holds what the call grants to it, and what it held unless the call
takes all from it. -/
theorem mem_capabilities_perform (h : Host) (call : HostCall) (application name : String) :
    name ∈ ((h.perform call).state.capabilities application).members ↔
      name ∈ call.granted application ∨
        (.revoke application ≠ call ∧ name ∈ (h.capabilities application).members) := by
  by_cases hcall : call.concerns application = true
  · cases call with
    | grant receiver names | grantBroken receiver names =>
      obtain rfl : receiver = application := of_decide_eq_true hcall
      have hgranted : (if receiver = receiver then names else []) = names := if_pos rfl
      rw [HostCall.granted, hgranted, and_iff_right nofun]
      exact h.mem_capabilities_grant
    | revoke receiver =>
      obtain rfl : receiver = application := of_decide_eq_true hcall
      have hnothing : (h.perform (.revoke receiver)).state.capabilities receiver = .empty :=
        h.capabilities_revoke_self receiver
      rw [hnothing]
      refine iff_of_false List.not_mem_nil ?_
      rintro (hname | ⟨hne, -⟩)
      · cases hname
      · exact hne rfl
    | _ => cases hcall
  · have hnot := Bool.eq_false_iff.mpr hcall
    have hne : HostCall.revoke application ≠ call := by
      rintro rfl
      exact hcall (decide_eq_true rfl)
    rw [h.capabilities_perform_of_not_concerns hnot, HostCall.granted_of_not_concerns hnot,
      and_iff_right hne]
    exact (or_iff_right List.not_mem_nil).symm

/-- What is held after calls one after another. -/
theorem mem_capabilities_foldl (calls : List HostCall) (h : Host) (application name : String) :
    name ∈ ((calls.foldl (fun h call => (h.perform call).state) h).capabilities
        application).members ↔
      Granted calls application name ∨
        (.revoke application ∉ calls ∧ name ∈ (h.capabilities application).members) := by
  induction calls generalizing h with
  | nil =>
    have hnone : ¬ Granted [] application name := by
      rintro ⟨before, call, after, hnil, -⟩
      exact List.append_ne_nil_of_right_ne_nil before (List.cons_ne_nil call after) hnil.symm
    simp only [List.foldl_nil, hnone, List.not_mem_nil, not_false_eq_true, true_and, false_or]
  | cons call calls ih =>
    rw [List.foldl_cons, ih, mem_capabilities_perform, granted_cons, List.mem_cons]
    tauto

end Host

/-! ## Operations -/

namespace World

theorem host_pumpAtMost (n : Nat) (w : World) : (pumpAtMost n w).state.host = w.host := by
  induction n generalizing w with
  | zero => rfl
  | succ n ih =>
    rw [pumpAtMost]
    cases w.step.value with
    | none => rfl
    | some event => exact (ih w.step.state).trans w.host_step

theorem host_submit (w : World) (s : Router.Submission) : (w.submit s).state.host = w.host := by
  unfold submit
  dsimp only
  split
  · exact w.host_callRouter _
  · exact w.host_callRouter _

theorem host_receive (w : World) (subscriber : Nat) (limit : Option Nat) :
    (w.receive subscriber limit).state.host = w.host := by
  unfold receive
  split <;> rfl

/-- The host makes its turn if an operation asks something of it, and is the same otherwise. -/
theorem host_perform {op : Op} (hsingle : op.isSingle = true) (w : World) :
    (perform op w).state.host =
      op.hostCall?.elim w.host fun call => (w.host.perform call).state := by
  cases op with
  | host call => exact host_absorb _ _
  | catalog call => exact host_absorb _ _
  | submit s => exact w.host_submit s
  | attach => exact host_callRouter _ _
  | step => exact w.host_step
  | pump => exact w.host_pumpAtMost w.workload
  | receive subscriber limit => exact w.host_receive subscriber limit
  | again times ops => cases hsingle
  | hasListener | resolve | reject | reply | setTimeout | announceStart | settings | counters
  | request | timeOut | process => exact w.host_callRouter _
  | _ => rfl

/-- What single operations do to the host is told by what they ask of it, one after another. -/
theorem host_performEach {singles : List Op} (h : ∀ op ∈ singles, op.isSingle = true) (w : World) :
    (performEach singles w).state.host =
      (singles.filterMap Op.hostCall?).foldl (fun h call => (h.perform call).state) w.host := by
  induction singles generalizing w with
  | nil => rfl
  | cons op rest ih =>
    obtain ⟨hop, hrest⟩ := List.forall_mem_cons.mp h
    have hhost := host_perform hop w
    have hafter := ih hrest (perform op w).state
    rw [hhost] at hafter
    rw [List.filterMap_cons]
    cases hcall : op.hostCall? with
    | none =>
      rw [hcall] at hafter
      exact hafter
    | some call =>
      rw [hcall] at hafter
      exact hafter

/-- What becomes of the host is told by what is asked of it. -/
theorem host_performAll (ops : List Op) (w : World) :
    (performAll ops w).host =
      (Op.hostCalls ops).foldl (fun h call => (h.perform call).state) w.host := by
  have hunrolls := unrolls.2 ops
  rw [← hunrolls.same w]
  exact host_performEach hunrolls.single w

/-- What is held after operations: what they grant and do not take away again, and, unless they take
all away, what was held before. -/
theorem mem_capabilities_performAll (ops : List Op) (w : World) (application name : String) :
    name ∈ ((performAll ops w).host.capabilities application).members ↔
      Granted (Op.hostCalls ops) application name ∨
        (.revoke application ∉ Op.hostCalls ops ∧
          name ∈ (w.host.capabilities application).members) := by
  rw [host_performAll]
  exact Host.mem_capabilities_foldl (Op.hostCalls ops) w.host application name

/-- Of operations that take nothing from an application only what they grant to it matters. -/
theorem capabilities_eq_of_granted {these those : List Op} (w : World) {application : String}
    (hthese : .revoke application ∉ Op.hostCalls these)
    (hthose : .revoke application ∉ Op.hostCalls those)
    (hsame : ∀ name, (∃ call ∈ Op.hostCalls these, name ∈ call.granted application) ↔
      ∃ call ∈ Op.hostCalls those, name ∈ call.granted application) :
    (performAll these w).host.capabilities application =
      (performAll those w).host.capabilities application := by
  refine NameSet.ext fun name => ?_
  rw [mem_capabilities_performAll these w, mem_capabilities_performAll those w,
    granted_iff_of_notMem hthese, granted_iff_of_notMem hthose, hsame, and_iff_right hthese,
    and_iff_right hthose]

/-- Operations that do not concern what an application holds change nothing of it. -/
theorem capabilities_eq_of_not_concerns {others : List Op} (w : World) {application : String}
    (hothers : ∀ call ∈ Op.hostCalls others, call.concerns application = false) :
    (performAll others w).host.capabilities application = w.host.capabilities application := by
  have hkept : .revoke application ∉ Op.hostCalls others := by
    intro hmem
    have hconcerns : (HostCall.revoke application).concerns application = true :=
      decide_eq_true rfl
    rw [hothers _ hmem] at hconcerns
    cases hconcerns
  have hnothing : ∀ name, (∃ call ∈ Op.hostCalls others, name ∈ call.granted application) ↔
      ∃ call ∈ Op.hostCalls [], name ∈ call.granted application := by
    refine fun name => iff_of_false ?_ ?_
    · rintro ⟨call, hcall, hname⟩
      rw [HostCall.granted_of_not_concerns (hothers call hcall)] at hname
      cases hname
    · rintro ⟨call, hcall, -⟩
      cases hcall
  rw [capabilities_eq_of_granted w hkept List.not_mem_nil hnothing, performAll]

/-- What an application holds is exactly what has been granted to it since all was last taken from
it, once each and in ascending order. Of operations that take nothing from it only the capabilities
that they grant it matter, not in how many calls and in which order. Operations that neither grant
nor revoke anything of its own change nothing. -/
theorem capabilities_granted (router : Router) (ops : List Op) (application : String) :
    let w := performAll ops (.fresh router)
    (∃ held, (perform (.host (.capabilities application)) w).value = .names held ∧
      held.Pairwise (· < ·) ∧
      ∀ name, name ∈ held ↔ Granted (Op.hostCalls ops) application name) ∧
      (∀ these those : List Op,
        .revoke application ∉ Op.hostCalls these → .revoke application ∉ Op.hostCalls those →
        (∀ name, (∃ call ∈ Op.hostCalls these, name ∈ call.granted application) ↔
          ∃ call ∈ Op.hostCalls those, name ∈ call.granted application) →
        (performAll these w).host.capabilities application =
          (performAll those w).host.capabilities application) ∧
      ∀ others : List Op, (∀ call ∈ Op.hostCalls others, call.concerns application = false) →
        (performAll others w).host.capabilities application = w.host.capabilities application := by
  intro w
  refine ⟨⟨_, rfl, ?_, fun name => ?_⟩,
    fun _ _ hthese hthose hsame => capabilities_eq_of_granted w hthese hthose hsame,
    fun _ hothers => capabilities_eq_of_not_concerns w hothers⟩
  · have hascending := (w.host.capabilities application).ascending
    rwa [Ascending.Ordered, List.map_id] at hascending
  · rw [mem_capabilities_performAll]
    exact or_iff_left fun h => List.not_mem_nil h.2

/-- Two capabilities may be granted in one call, or one by one with a break in between while another
application is deprived of its own. -/
theorem capabilities_granted_twice (router : Router) :
    (performAll [.host (.grant "editor" ["ink", "colour"])] (.fresh router)).host.capabilities
        "editor" =
      (performAll [.host (.grantBroken "editor" ["colour"]), .host (.revoke "viewer"),
        .host (.grant "editor" ["ink", "colour"])] (.fresh router)).host.capabilities "editor" := by
  refine (capabilities_granted router [] "editor").2.1 _ _ (by decide) (by decide) fun name => ?_
  have hthese : Op.hostCalls [.host (.grant "editor" ["ink", "colour"])] =
      [.grant "editor" ["ink", "colour"]] := rfl
  have hthose : Op.hostCalls [.host (.grantBroken "editor" ["colour"]), .host (.revoke "viewer"),
      .host (.grant "editor" ["ink", "colour"])] =
      [.grantBroken "editor" ["colour"], .revoke "viewer", .grant "editor" ["ink", "colour"]] := rfl
  rw [hthese, hthose]
  simp only [List.exists_mem_cons_iff, List.not_mem_nil, false_and, exists_false, or_false]
  simp only [HostCall.granted, if_true, List.mem_cons, List.not_mem_nil, or_false, false_or]
  tauto

end World

end IntentRouter
