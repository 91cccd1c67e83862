import IntentRouter.Proofs.KeyedList
import IntentRouter.Proofs.Wake

/-!
# Changes of the catalog are announced

A call that registers or removes an intent publishes two events, one that says what has changed and
one that says that the list has. No other call publishes anything, none that is refused does, and
nothing else that happens in a world has to do with the catalog, its bus or its subscribers. So what
is published tells whoever knows the intents how they change.
-/

namespace IntentRouter

open Effect

/-! ## Changes -/

namespace CatalogEvent

/-- What an event makes of the intents that are known: a new one is put last, and the one that has
been removed is dropped. -/
def actOn (known : List Intent) : CatalogEvent → List Intent
  | .added i => known ++ [i]
  | .removed i => known.filter fun j => j.key ≠ i.key
  | .listChanged => known

/-- Whether the event says what has changed. -/
def isChange : CatalogEvent → Bool
  | .listChanged => false
  | _ => true

/-- What is published about a change. -/
def announcement (change : CatalogEvent) : List CatalogEvent := [change, .listChanged]

/-- The announcements of changes act as the changes themselves do. -/
theorem foldl_actOn_announcement (known : List Intent) (changes : List CatalogEvent) :
    (changes.flatMap announcement).foldl actOn known = changes.foldl actOn known := by
  induction changes generalizing known with
  | nil => rfl
  | cons change changes ih => exact ih (actOn known change)

end CatalogEvent

/-- The change that a call makes by registering or removing an intent, as its answer tells. -/
def CatalogCall.change? : CatalogCall → Answer → Option CatalogEvent
  | .add _, .intent (some i) => some (.added i)
  | .remove _, .intent (some i) => some (.removed i)
  | _, _ => none

namespace Catalog

variable {c : Catalog} {i j : Intent}

/-- The intents without one of them. -/
theorem Keyed.filter_key_ne (h : c.Keyed) {front back : List Intent}
    (hsplit : c.intents = front ++ j :: back) :
    (c.intents.filter fun k => k.key ≠ j.key) = front ++ back := by
  have hothers := h.key_ne_of_split hsplit
  have hkept : ((front ++ back).filter fun k => k.key ≠ j.key) = front ++ back :=
    List.filter_eq_self.mpr fun k hk => decide_eq_true (hothers k hk)
  rw [List.filter_append] at hkept
  rw [hsplit, List.filter_append, List.filter_cons_of_neg (by simp), hkept]

/-- What comes of a call is announced as far as it changes the intents, and changes them as
announced. -/
structure Announces (c : Catalog) (t : Turn Catalog Answer) (change? : Option CatalogEvent) :
    Prop where
  /-- What is published announces the change. -/
  published : published t.effects = change?.toList.flatMap CatalogEvent.announcement
  /-- The change acts on the intents. -/
  intents : t.state.intents = change?.toList.foldl CatalogEvent.actOn c.intents
  /-- The event says what has changed. -/
  isChange : ∀ change ∈ change?, change.isChange = true

theorem announces_add (c : Catalog) (i : Intent) :
    let t := c.perform (.add i)
    c.Announces t ((CatalogCall.add i).change? t.value) := by
  rcases add_spec c i with ⟨-, hadd⟩ | ⟨reason, -, hadd⟩
  · have hperform : c.perform (.add i) = ⟨.intent (some i), _, _⟩ :=
      congrArg (Turn.map (Answer.ofExcept fun i => .intent (some i))) hadd
    rw [hperform]
    refine ⟨rfl, rfl, fun change hchange => ?_⟩
    cases hchange
    rfl
  · have hperform : c.perform (.add i) = .quiet (.refused reason) c :=
      congrArg (Turn.map (Answer.ofExcept fun i => .intent (some i))) hadd
    rw [hperform]
    exact ⟨rfl, rfl, nofun⟩

theorem Keyed.announces_remove (h : c.Keyed) (i : Intent) :
    let t := c.perform (.remove i)
    c.Announces t ((CatalogCall.remove i).change? t.value) := by
  by_cases hfree : ∀ j ∈ c.intents, j.key ≠ i.key
  · have hperform : c.perform (.remove i) = .quiet (.intent none) c :=
      congrArg (Turn.map Answer.intent) (remove_of_keyFree hfree)
    rw [hperform]
    exact ⟨rfl, rfl, nofun⟩
  · obtain ⟨j, hmem, hkey⟩ : ∃ j ∈ c.intents, j.key = i.key := by
      simpa only [ne_eq, not_forall, not_not, exists_prop] using hfree
    obtain ⟨front, back, hsplit⟩ := List.append_of_mem hmem
    have hperform : c.perform (.remove i) = ⟨.intent (some j), _, _⟩ :=
      congrArg (Turn.map Answer.intent) (h.remove_of_split hsplit hkey)
    rw [hperform]
    refine ⟨rfl, (h.filter_key_ne hsplit).symm, fun change hchange => ?_⟩
    cases hchange
    rfl

/-- Every call is announced as far as it changes the intents. -/
theorem Keyed.announces (h : c.Keyed) (call : CatalogCall) :
    let t := c.perform call
    c.Announces t (call.change? t.value) := by
  cases call with
  | add i => exact announces_add c i
  | remove i => exact h.announces_remove i
  | addApplication application =>
    exact ⟨rfl, intents_perform c nofun nofun, nofun⟩
  | addHandler application handler =>
    exact ⟨rfl, intents_perform c nofun nofun, nofun⟩
  | removeHandler application handler =>
    exact ⟨rfl, intents_perform c nofun nofun, nofun⟩
  | _ => exact ⟨rfl, rfl, nofun⟩

end Catalog

/-! ## Worlds -/

namespace World

variable {w w' : World}

/-- Of the effects the published events come to the bus. -/
theorem bus_absorb (es : List Effect) (w : World) :
    (es.foldl absorb w).bus = (published es).foldl Bus.publish w.bus := by
  induction es generalizing w with
  | nil => rfl
  | cons effect es ih =>
    rw [List.foldl_cons, ih]
    cases effect <;> rfl

/-- Effects do not move subscribers. -/
theorem subscribers_absorb (es : List Effect) (w : World) :
    (es.foldl absorb w).subscribers = w.subscribers := by
  induction es generalizing w with
  | nil => rfl
  | cons effect es ih =>
    rw [List.foldl_cons, ih]
    cases effect <;> rfl

/-- Nothing has happened that a subscriber could learn of. -/
structure Unheard (w w' : World) : Prop where
  /-- The catalog is the same. -/
  catalog : w'.router.catalog = w.router.catalog
  /-- Nothing has been published. -/
  bus : w'.bus = w.bus
  /-- Nobody has received anything. -/
  subscribers : w'.subscribers = w.subscribers

theorem Unheard.refl (w : World) : w.Unheard w := ⟨rfl, rfl, rfl⟩

theorem Unheard.trans {w'' : World} (h : w.Unheard w') (h' : w'.Unheard w'') : w.Unheard w'' :=
  ⟨h'.catalog.trans h.catalog, h'.bus.trans h.bus, h'.subscribers.trans h.subscribers⟩

/-- A turn that publishes nothing and puts a state into the world that no subscriber could learn
of. -/
theorem Unheard.take {σ α : Type} {put : σ → World} {t : Turn σ α} (h : w.Unheard (put t.state))
    (hpublished : published t.effects = []) : w.Unheard (World.take put t).state where
  catalog := (congrArg Router.catalog (router_absorb t.effects (put t.state))).trans h.catalog
  bus := by
    have hbus := bus_absorb t.effects (put t.state)
    rw [hpublished] at hbus
    exact hbus.trans h.bus
  subscribers := (subscribers_absorb t.effects (put t.state)).trans h.subscribers

theorem unheard_callRouter (w : World) (call : RouterCall) :
    w.Unheard (w.callRouter call).state := by
  have hsame := Router.catalog_perform w.router w.around call
  exact Unheard.take ⟨hsame, rfl, rfl⟩ (Router.published_perform w.router w.around call)

/-- Looks at the capabilities are reported and not announced. -/
theorem published_look_after (h changed : Host) (application : String) :
    published ((changed.look application).after (h.lookReport.map .note)).effects = [] := by
  simp only [Host.look, Turn.after, published_append, published_map_note, List.append_nil]

/-- No call of the host is announced by the catalog. -/
theorem published_performHost (h : Host) (call : HostCall) :
    published (h.perform call).effects = [] := by
  cases call with
  | grant application names => exact published_look_after h (h.grant application names) application
  | grantBroken application names =>
    exact published_look_after h (h.grantBroken application names) application
  | revoke application => exact published_look_after h (h.revoke application) application
  | capabilities application => exact published_map_note h.lookReport
  | start application => exact Router.published_issue h (.start application)
  | _ => rfl

theorem unheard_callHost (w : World) (call : HostCall) : w.Unheard (w.callHost call).state :=
  Unheard.take ⟨rfl, rfl, rfl⟩ (published_performHost w.host call)

theorem unheard_submit (w : World) (s : Router.Submission) : w.Unheard (w.submit s).state := by
  have hcall := w.unheard_callRouter (.submit (.ofNat w.admitted) .epoch s)
  unfold submit
  dsimp only
  split
  · exact ⟨hcall.catalog, hcall.bus, hcall.subscribers⟩
  · exact hcall

theorem unheard_step (w : World) : w.Unheard w.step.state := by
  unfold step
  split
  · next event rest hinbox =>
    have hcall := { w with inbox := some rest }.unheard_callRouter (.handle event)
    exact ⟨hcall.catalog, hcall.bus, hcall.subscribers⟩
  · exact .refl w

theorem unheard_pumpAtMost (more : Nat) (w : World) : w.Unheard (pumpAtMost more w).state := by
  induction more generalizing w with
  | zero => exact .refl w
  | succ more ih =>
    rw [pumpAtMost]
    split
    · exact .refl w
    · exact w.unheard_step.trans (ih w.step.state)

/-- What a call of the catalog does to it, to the bus and to the subscribers. -/
theorem callCatalog_spec (h : w.router.catalog.Keyed) (call : CatalogCall) :
    let t := w.callCatalog call
    let change? := call.change? t.value
    t.state.router.catalog = (w.router.catalog.perform call).state ∧
      t.state.bus = (change?.toList.flatMap CatalogEvent.announcement).foldl Bus.publish w.bus ∧
      t.state.subscribers = w.subscribers := by
  let c := w.router.catalog.perform call
  let put (c : Catalog) : World := { w with router := { w.router with catalog := c } }
  have hpublished := (h.announces call).published
  have hbus := bus_absorb c.effects (put c.state)
  rw [hpublished] at hbus
  exact ⟨congrArg Router.catalog (router_absorb c.effects (put c.state)), hbus,
    subscribers_absorb c.effects (put c.state)⟩

/-- To receive changes neither the router nor the bus. -/
theorem receive_spec (w : World) (subscriber : Nat) (limit : Option Nat) :
    (w.receive subscriber limit).state.router = w.router ∧
      (w.receive subscriber limit).state.bus = w.bus := by
  unfold receive
  split <;> exact ⟨rfl, rfl⟩

end World

/-- Whether an operation has nothing to do with the catalog and its events, and is not a number of
others. -/
def Op.isElsewhere : Op → Bool
  | .catalog _ | .subscribe | .receive .. | .again .. => false
  | _ => true

/-- Nothing else that is done is heard of by a subscriber. -/
theorem World.unheard_perform {op : Op} (h : op.isElsewhere = true) (w : World) :
    w.Unheard (World.perform op w).state := by
  cases op with
  | host call => exact w.unheard_callHost call
  | submit s => exact w.unheard_submit s
  | attach =>
    have hcall := { w with listeners := w.listeners ++ [true] }.unheard_callRouter
      (.attach w.listeners.length)
    exact ⟨hcall.catalog, hcall.bus, hcall.subscribers⟩
  | step => exact w.unheard_step
  | pump => exact w.unheard_pumpAtMost w.workload
  | hasListener => exact w.unheard_callRouter .hasListener
  | resolve ref selected => exact w.unheard_callRouter (.resolve (w.idOf ref) selected)
  | reject ref => exact w.unheard_callRouter (.reject (w.idOf ref))
  | reply application ref isError payload =>
    exact w.unheard_callRouter (.reply application (w.idOf ref) isError payload)
  | setTimeout stage duration => exact w.unheard_callRouter (.setTimeout stage duration)
  | announceStart application => exact w.unheard_callRouter (.announceStart application)
  | settings => exact w.unheard_callRouter .settings
  | counters => exact w.unheard_callRouter .counters
  | request ref => exact w.unheard_callRouter (.request (w.idOf ref))
  | timeOut stage ref millis =>
    exact w.unheard_callRouter (.handle (.timeout stage (w.idOf ref) millis))
  | process => exact w.unheard_callRouter .process
  | catalog call => cases h
  | subscribe => cases h
  | receive subscriber limit => cases h
  | again times ops => cases h
  | _ => exact ⟨rfl, rfl, rfl⟩

end IntentRouter
