import IntentRouter.Proofs.Spared
import IntentRouter.Session.World

/-!
# Timeouts are valid

A timeout is a positive number of milliseconds that fits 64 bits. The settings of a new router are
checked for it, and so is every duration that is to be set later, by a rule of its own. A duration
counts by its whole milliseconds: one below a millisecond is refused as zero, and one that is too
long is refused as too large. What is refused changes nothing, and what is accepted changes one
timeout and nothing else. So the timeouts are valid after any number of moves.
-/

namespace IntentRouter

/-! ## Durations -/

namespace Duration

/-- The length in nanoseconds. -/
def inNanos (d : Duration) : Nat := 1000000000 * d.seconds + d.nanos

/-- So many whole milliseconds fit into the duration, and not one more. -/
structure HasMillis (d : Duration) (n : Nat) : Prop where
  /-- So many fit. -/
  fit : 1000000 * n ≤ d.inNanos
  /-- One more does not. -/
  short : d.inNanos < 1000000 * (n + 1)

theorem HasMillis.eq_millis {d : Duration} {n : Nat} (h : d.HasMillis n) : n = d.millis := by
  have hfit := h.fit
  have hshort := h.short
  unfold inNanos at hfit hshort
  unfold millis
  omega

/-- A number of milliseconds is a duration of so many. -/
theorem millis_ofMillis (n : Nat) : (ofMillis n).millis = n := by
  unfold ofMillis millis
  dsimp only
  omega

/-- The nanoseconds of a number of milliseconds are less than a second. -/
theorem nanos_ofMillis_lt (n : Nat) : (ofMillis n).nanos < 1000000000 := by
  unfold ofMillis
  dsimp only
  omega

end Duration

/-! ## Settings -/

namespace Settings

variable {c : Settings} {stage : Stage} {d : Duration}

/-- Every timeout is positive and fits 64 bits. -/
def Valid (c : Settings) : Prop :=
  ∀ stage, 1 ≤ c.timeout stage ∧ c.timeout stage ≤ Json.Numeral.largest

/-- The timeout of one stage has been changed, and nothing else. -/
structure ChangesTimeout (c : Settings) (stage : Stage) (millis : Nat) (c' : Settings) : Prop where
  /-- The timeout of the stage is new. -/
  changed : c'.timeout stage = millis
  /-- The others are as before. -/
  others : ∀ other, other ≠ stage → c'.timeout other = c.timeout other
  /-- What is logged is as before. -/
  logging : c'.logging = c.logging

theorem changesTimeout_withTimeout (c : Settings) (stage : Stage) (millis : Nat) :
    c.ChangesTimeout stage millis (c.withTimeout stage millis) where
  changed := by cases stage <;> rfl
  others other hne := by
    cases stage <;> cases other <;> first | rfl | exact absurd rfl hne
  logging := by cases stage <;> rfl

/-- A change to a positive number that fits 64 bits keeps the timeouts valid. -/
theorem ChangesTimeout.valid {c' : Settings} {millis : Nat} (h : c.ChangesTimeout stage millis c')
    (hc : c.Valid) (hpos : 1 ≤ millis) (hfits : millis ≤ Json.Numeral.largest) : c'.Valid := by
  intro other
  by_cases hother : other = stage
  · rw [hother, h.changed]
    exact ⟨hpos, hfits⟩
  · rw [h.others other hother]
    exact hc other

/-- Durations of a positive number of milliseconds that fits 64 bits are accepted. -/
theorem setTimeout_of_fits (c : Settings) (stage : Stage) (hpos : 1 ≤ d.millis)
    (hfits : d.millis ≤ Json.Numeral.largest) :
    c.setTimeout stage d = .ok (c.withTimeout stage d.millis) := by
  rw [setTimeout, if_neg (Nat.ne_of_gt hpos), if_neg (Nat.not_lt.mpr hfits)]

/-- The reason against a duration that is not accepted. -/
def durationFault (stage : Stage) (millis : Nat) : SettingFault :=
  if millis = 0 then .zero stage.settingText else .tooLarge stage.settingText

/-- All other durations are refused. -/
theorem setTimeout_of_not_fits (c : Settings) (stage : Stage)
    (h : ¬ (1 ≤ d.millis ∧ d.millis ≤ Json.Numeral.largest)) :
    c.setTimeout stage d = .error (.invalidSetting (durationFault stage d.millis)) := by
  by_cases hzero : d.millis = 0
  · rw [setTimeout, if_pos hzero, durationFault, if_pos hzero]
  · have hlarge : Json.Numeral.largest < d.millis := by omega
    rw [setTimeout, if_neg hzero, if_pos hlarge, durationFault, if_neg hzero]

/-- The timeout of the stage is the first one, in the order of the fields, that is zero. -/
structure FirstZero (c : Settings) (stage : Stage) : Prop where
  /-- It is zero. -/
  zero : c.timeout stage = 0
  /-- Those declared before it are not. -/
  earlier : ∀ other, fieldNames.idxOf other.fieldName < fieldNames.idxOf stage.fieldName →
    c.timeout other ≠ 0

/-- The check looks for the first timeout that is zero. -/
theorem zeroStage?_eq_some : c.zeroStage? = some stage ↔ c.FirstZero stage := by
  constructor
  · intro h
    rw [zeroStage?, List.find?_eq_some_iff_getElem] at h
    obtain ⟨hzero, i, hi, hstage, hbefore⟩ := h
    refine ⟨of_decide_eq_true hzero, fun other hearlier hother => ?_⟩
    -- The stages stand in the list in the order of the fields.
    have hplace : i = fieldNames.idxOf stage.fieldName := by
      match i, hi with
      | 0, _ | 1, _ | 2, _ => subst hstage; rfl
    have hfound :
        [Stage.choice, .start, .reply][fieldNames.idxOf other.fieldName]? = some other := by
      cases other <;> decide
    obtain ⟨hlt, hget⟩ := List.getElem?_eq_some_iff.mp hfound
    have hpositive := hbefore _ (hplace ▸ hearlier)
    simp only [hget, hother, decide_true, Bool.not_true, Bool.false_eq_true] at hpositive
  · rintro ⟨hzero, hearlier⟩
    cases stage with
    | choice => simp [zeroStage?, hzero]
    | start =>
      have hchoice := hearlier .choice (by decide)
      simp [zeroStage?, hchoice, hzero]
    | reply =>
      have hchoice := hearlier .choice (by decide)
      have hstart := hearlier .start (by decide)
      simp [zeroStage?, hchoice, hstart, hzero]

theorem zeroStage?_eq_none : c.zeroStage? = none ↔ ∀ stage, c.timeout stage ≠ 0 := by
  rw [zeroStage?, List.find?_eq_none]
  constructor
  · intro h stage
    have hmem : stage ∈ [Stage.choice, .start, .reply] := by cases stage <;> decide
    simpa only [decide_eq_true_eq] using h stage hmem
  · intro h stage _
    simpa only [decide_eq_true_eq] using h stage

/-- A timeout is zero if and only if there is a first one. -/
theorem exists_firstZero : (∃ stage, c.FirstZero stage) ↔ ∃ stage, c.timeout stage = 0 := by
  constructor
  · exact fun ⟨stage, h⟩ => ⟨stage, h.zero⟩
  · intro ⟨stage, hzero⟩
    cases hfind : c.zeroStage? with
    | none => exact absurd hzero (zeroStage?_eq_none.mp hfind stage)
    | some first => exact ⟨first, zeroStage?_eq_some.mp hfind⟩

/-- Settings pass the check if and only if no timeout is zero, and are otherwise refused for the
first that is. -/
theorem check_eq_ok_iff {c' : Settings} :
    c.check = .ok c' ↔ c' = c ∧ ∀ stage, c.timeout stage ≠ 0 := by
  rw [check]
  cases hfind : c.zeroStage? with
  | none =>
    have hpos := zeroStage?_eq_none.mp hfind
    constructor
    · exact fun h => ⟨(Except.ok.inj h).symm, hpos⟩
    · exact fun ⟨h, _⟩ => congrArg Except.ok h.symm
  | some first =>
    have hzero := (zeroStage?_eq_some.mp hfind).zero
    constructor
    · exact fun h => nomatch h
    · exact fun ⟨_, h⟩ => absurd hzero (h first)

theorem check_eq_error_iff {reason : Refusal} :
    c.check = .error reason ↔
      ∃ stage, c.FirstZero stage ∧ reason = .invalidSetting (.zero stage.fieldName) := by
  rw [check]
  cases hfind : c.zeroStage? with
  | none =>
    have hpos := zeroStage?_eq_none.mp hfind
    constructor
    · exact fun h => nomatch h
    · exact fun ⟨stage, h, _⟩ => absurd h.zero (hpos stage)
  | some first =>
    constructor
    · exact fun h => ⟨first, zeroStage?_eq_some.mp hfind, (Except.error.inj h).symm⟩
    · rintro ⟨stage, h, rfl⟩
      have hsame : first = stage := Option.some.inj (hfind.symm.trans (zeroStage?_eq_some.mpr h))
      rw [hsame]

end Settings

/-! ## Routers -/

namespace Router

variable {r : Router} {stage : Stage} {d : Duration}

/-- A duration that is accepted becomes the timeout. -/
theorem perform_setTimeout_of_fits (r : Router) (around : Surroundings) (stage : Stage)
    (hpos : 1 ≤ d.millis) (hfits : d.millis ≤ Json.Numeral.largest) :
    r.perform around (.setTimeout stage d) =
      .quiet .done { r with settings := r.settings.withTimeout stage d.millis } := by
  rw [perform, setTimeout, Settings.setTimeout_of_fits r.settings stage hpos hfits]
  rfl

/-- A duration that is refused changes nothing. -/
theorem perform_setTimeout_of_not_fits (r : Router) (around : Surroundings) (stage : Stage)
    (h : ¬ (1 ≤ d.millis ∧ d.millis ≤ Json.Numeral.largest)) :
    r.perform around (.setTimeout stage d) =
      .quiet (.refused (.invalidSetting (Settings.durationFault stage d.millis))) r := by
  rw [perform, setTimeout, Settings.setTimeout_of_not_fits r.settings stage h]
  rfl

/-- A step leaves the settings as they are. -/
theorem settings_process (h : Coupled r.requests r.lanes) (around : Surroundings) :
    (r.process around).state.settings = r.settings := by
  rcases idle_or_steps h around with hmain | ⟨p, pass, hs⟩
  · rw [process_of_idle hmain]
    rfl
  · exact (hs.spares h).settings

/-- No call but that of a setter changes the settings. -/
theorem settings_perform (h : Coupled r.requests r.lanes) (around : Surroundings)
    {call : RouterCall} (hcall : ∀ stage d, call ≠ .setTimeout stage d) :
    (r.perform around call).state.settings = r.settings := by
  cases call with
  | submit id now s =>
    change (r.submit around id now s).state.settings = r.settings
    rcases r.submit_cases around id now s with ⟨_, _, -, -, hstate⟩ | ⟨_, -, hstate⟩ <;> rw [hstate]
  | resolve id selected => exact (spares_report around h rfl).settings
  | reject id => exact (spares_report around h rfl).settings
  | reply application id isError payload => exact (spares_report around h rfl).settings
  | announceStart application =>
    have heq : r.announceStart around application = _ := announceStart_eq h application
    exact congrArg (fun t => t.state.settings) heq
  | process => exact settings_process h around
  | handle event =>
    cases event with
    | process => exact settings_process h around
    | timeout stage id millis => exact (spares_report around h rfl).settings
  | setTimeout stage d => exact absurd rfl (hcall stage d)
  | _ => rfl

end Router

/-- A move keeps valid timeouts valid. -/
theorem Move.valid_turn {r : Router} (m : Move) (h : Coupled r.requests r.lanes)
    (hvalid : r.settings.Valid) : (m.turn r).state.settings.Valid := by
  obtain ⟨around, ask⟩ := m
  cases ask with
  | catalog call => exact hvalid
  | router call =>
    by_cases hset : ∃ stage d, call = .setTimeout stage d
    · obtain ⟨stage, d, rfl⟩ := hset
      change (r.perform around (.setTimeout stage d)).state.settings.Valid
      by_cases hfits : 1 ≤ d.millis ∧ d.millis ≤ Json.Numeral.largest
      · have hchange := r.settings.changesTimeout_withTimeout stage d.millis
        rw [r.perform_setTimeout_of_fits around stage hfits.1 hfits.2]
        exact hchange.valid hvalid hfits.1 hfits.2
      · rw [r.perform_setTimeout_of_not_fits around stage hfits]
        exact hvalid
    · have hsame := Router.settings_perform h around fun stage d he => hset ⟨stage, d, he⟩
      rw [turn, hsame]
      exact hvalid

/-- After any number of moves the timeouts are valid, if those given fit 64 bits. -/
theorem Run.valid_timeouts (run : Run)
    (fits : ∀ stage, run.settings.timeout stage ≤ Json.Numeral.largest) (n : Nat) :
    (run.router n).settings.Valid := by
  induction n with
  | zero =>
    have hcreated := run.created
    have hpositive : ∀ stage, run.settings.timeout stage ≠ 0 := by
      cases hcheck : run.settings.check with
      | error reason =>
        rw [Router.create, hcheck] at hcreated
        cases hcreated
      | ok c => exact (Settings.check_eq_ok_iff.mp hcheck).2
    rw [router_zero, start_eq_fresh]
    exact fun stage => ⟨Nat.one_le_iff_ne_zero.mpr (hpositive stage), fits stage⟩
  | succ n ih =>
    cases hm : run.moves[n]? with
    | none => rwa [router_succ_of_none hm]
    | some m =>
      rw [router_succ hm]
      exact m.valid_turn (run.coupled n) ih

/-- Without valid timeouts there is no world, whether or not there is anything to run timers on. -/
theorem World.create_eq_invalid_iff {settings : Settings} {timers : Bool} {fault : SettingFault} :
    World.create settings timers = .error (.invalidSetting fault) ↔
      ∃ stage, settings.FirstZero stage ∧ fault = .zero stage.fieldName := by
  have hiff : settings.check = .error (.invalidSetting fault) ↔ _ := Settings.check_eq_error_iff
  rw [World.create, Router.create]
  cases hcheck : settings.check with
  | error reason =>
    rw [hcheck] at hiff
    simpa only [Except.map, bind, Except.bind, Except.error.injEq, Refusal.invalidSetting.injEq]
      using hiff
  | ok c =>
    rw [hcheck] at hiff
    have hnone := hiff.mpr.mt nofun
    simp only [Refusal.invalidSetting.injEq] at hnone
    constructor
    · cases timers <;> exact nofun
    · exact fun h => absurd h hnone

/-- The timeouts of a router are positive and fit 64 bits after any moves, if those given fit. A
setter that is called with a duration of `n` whole milliseconds, whatever the router and wherever
the call comes from, makes `n` the timeout of its stage and changes nothing else if `n` is positive
and fits; otherwise it is refused, for being zero or too large, and changes nothing. A number of
milliseconds is set exactly as it is given. And no router comes about if and only if some timeout
is zero, whatever else is missing, and the first one of them is named. -/
theorem Run.timeouts_guarded :
    (∀ run : Run, (∀ stage, run.settings.timeout stage ≤ Json.Numeral.largest) →
        ∀ n stage, 1 ≤ (run.router n).settings.timeout stage ∧
          (run.router n).settings.timeout stage ≤ Json.Numeral.largest) ∧
      (∀ (r : Router) (around : Surroundings) (stage : Stage) (d : Duration) (n : Nat),
        d.HasMillis n →
          (1 ≤ n ∧ n ≤ Json.Numeral.largest →
            ∃ settings, r.settings.ChangesTimeout stage n settings ∧
              r.perform around (.setTimeout stage d) =
                .quiet .done { r with settings := settings }) ∧
          (¬ (1 ≤ n ∧ n ≤ Json.Numeral.largest) →
            r.perform around (.setTimeout stage d) =
              .quiet (.refused (.invalidSetting (if n = 0 then .zero stage.settingText
                else .tooLarge stage.settingText))) r)) ∧
      (∀ (r : Router) (around : Surroundings) (stage : Stage) (n : Nat),
        1 ≤ n → n ≤ Json.Numeral.largest →
          (Duration.ofMillis n).nanos < 1000000000 ∧
            (r.perform around (.setTimeout stage (.ofMillis n))).state.settings.timeout stage =
              n) ∧
      ∀ (settings : Settings) (timers : Bool),
        ((∃ fault, World.create settings timers = .error (.invalidSetting fault)) ↔
            ∃ stage, settings.timeout stage = 0) ∧
          ∀ fault, World.create settings timers = .error (.invalidSetting fault) ↔
            ∃ stage, settings.FirstZero stage ∧ fault = .zero stage.fieldName := by
  refine ⟨fun run fits n => run.valid_timeouts fits n, ?_, ?_, ?_⟩
  · intro r around stage d n hmillis
    obtain rfl := hmillis.eq_millis
    refine ⟨fun hfits => ?_, fun hfits => ?_⟩
    · exact ⟨_, r.settings.changesTimeout_withTimeout stage d.millis,
        r.perform_setTimeout_of_fits around stage hfits.1 hfits.2⟩
    · exact r.perform_setTimeout_of_not_fits around stage hfits
  · intro r around stage n hpos hfits
    have hmillis := Duration.millis_ofMillis n
    have hset := r.perform_setTimeout_of_fits (d := .ofMillis n) around stage (hmillis.symm ▸ hpos)
      (hmillis.symm ▸ hfits)
    refine ⟨Duration.nanos_ofMillis_lt n, ?_⟩
    rw [hset, hmillis]
    exact (r.settings.changesTimeout_withTimeout stage n).changed
  · intro settings timers
    have hfault : ∀ fault, World.create settings timers = .error (.invalidSetting fault) ↔ _ :=
      fun fault => World.create_eq_invalid_iff
    refine ⟨?_, hfault⟩
    rw [← Settings.exists_firstZero]
    constructor
    · rintro ⟨fault, hcreate⟩
      obtain ⟨stage, hzero, -⟩ := (hfault fault).mp hcreate
      exact ⟨stage, hzero⟩
    · exact fun ⟨stage, hzero⟩ => ⟨_, (hfault _).mpr ⟨stage, hzero, rfl⟩⟩

/-- The errand keeps its timeouts. Of two durations next to each other the first is the longest that
is accepted and the second is refused, and so is one just below a millisecond. Settings in which
two timeouts are zero are refused for the first of them. -/
theorem Run.timeouts_guarded_errand :
    (1 ≤ (errand.router 6).settings.timeout .reply ∧
        (errand.router 6).settings.timeout .reply ≤ Json.Numeral.largest) ∧
      (∃ settings, Settings.standard.ChangesTimeout .start 18446744073709551615 settings ∧
        (Router.fresh .standard).perform office
            (.setTimeout .start ⟨18446744073709551, 615999999⟩) =
          .quiet .done (.fresh settings)) ∧
      (Router.fresh .standard).perform office
          (.setTimeout .start ⟨18446744073709551, 616000000⟩) =
        .quiet (.refused (.invalidSetting (.tooLarge "start application timeout")))
          (.fresh .standard) ∧
      (Router.fresh .standard).perform office (.setTimeout .start ⟨0, 999999⟩) =
        .quiet (.refused (.invalidSetting (.zero "start application timeout")))
          (.fresh .standard) ∧
      ((Router.fresh .standard).perform office
        (.setTimeout .choice (.ofMillis 18446744073709551615))).state.settings.timeout .choice =
          18446744073709551615 ∧
      World.create ⟨10000, 0, 0, .standard⟩ false =
        .error (.invalidSetting (.zero "start_application_timeout_ms")) := by
  obtain ⟨hkept, hset, hexact, hcreate⟩ := timeouts_guarded
  have hlongest := hset (.fresh .standard) office .start ⟨18446744073709551, 615999999⟩
    18446744073709551615 ⟨by decide, by decide⟩
  have hlonger := hset (.fresh .standard) office .start ⟨18446744073709551, 616000000⟩
    18446744073709551616 ⟨by decide, by decide⟩
  have hshort := hset (.fresh .standard) office .start ⟨0, 999999⟩ 0 ⟨by decide, by decide⟩
  refine ⟨hkept errand (fun stage => by cases stage <;> decide) 6 .reply,
    hlongest.1 (by decide), hlonger.2 (by decide), hshort.2 (by decide),
    (hexact _ _ _ _ (by decide) (by decide)).2, ?_⟩
  refine ((hcreate ⟨10000, 0, 0, .standard⟩ false).2 _).mpr ⟨.start, ⟨rfl, fun other h => ?_⟩, rfl⟩
  cases other with
  | choice => decide
  | start => exact absurd h (by decide)
  | reply => exact absurd h (by decide)

end IntentRouter
