import FlagCombat.Proofs.Battle.Perception
import FlagCombat.Proofs.Battle.Whereabouts
import FlagCombat.Proofs.Campaign.Apart

/-!
One layout of what agents perceive. A spawn gives each body the sensors of its agent, each once and
in order, and nothing adds or takes one afterwards; so the readings of the host fill just the slots
before the last three, and the policy finds in every slot what the declared shapes promise.
-/

namespace FlagCombat

/-- Agents of one team have the same sensors. -/
theorem SensorLayout.sensors_of_team (l : SensorLayout) {agent other : Handle}
    (h : agent.team = other.team) : l.sensors agent = l.sensors other := by
  unfold sensors
  rw [h]

namespace Battle

variable {T : Type}

/-- A registration adds the sensors of the agent behind those of its body. -/
theorem sensors_equip (b : Battle Arena T) (handle : Handle) (other : AgentId) :
    ((b.equip handle).host.bodies.get? other).map Body.sensors =
      if other = handle.id then
        (b.host.bodies.get? handle.id).map fun body =>
          body.sensors ++ b.profile.sensors.sensors handle
      else (b.host.bodies.get? other).map Body.sensors := by
  show (((b.profile.sensors.sensors handle).foldl _ b.host).bodies.get? other).map _ = _
  generalize b.host = a
  induction b.profile.sensors.sensors handle generalizing a with
  | nil => by_cases hother : other = handle.id <;> simp [hother]
  | cons sensor sensors ih =>
    have hread {α : Type} (id : AgentId) (read : Body → α) :
        ((Host.addSensor a handle.id sensor).bodies.get? id).map read = _ :=
      Arena.read_modifyBody a handle.id id _ read
    rw [List.foldl_cons, ih, hread, hread, if_pos rfl]
    split
    · simp [List.append_assoc]
    · rfl

variable [Trainer T] {b b' : Battle Arena T} {handle : Handle}

/-- A call other than a registration leaves all bodies their sensors. -/
theorem sensors_attempt {call : Call} {reply : Reply} (hh : call.handle? = some handle)
    (hentered : call ≠ .register handle) (h : b.attempt call = .ok (reply, b')) (other : AgentId) :
    (b'.host.bodies.get? other).map Body.sensors = (b.host.bodies.get? other).map Body.sensors := by
  cases success_of_handle hh h with
  | @handle _ agent b₁ hagent hrefusal henroll =>
    rw [hh] at hagent
    cases hagent
    have hhost : b₁.host = b.host := by
      rcases enroll_cases henroll with ⟨c, -, -, rfl⟩ | ⟨-, rfl⟩ <;> rfl
    rw [← hhost]
    exact (reposed_respond hh (contains_of_enroll henroll) hentered).sensors other
  | beginTick | removeAgent | cleanup => cases hh

end Battle

namespace Campaign

variable {T P : Type} {layout : SensorLayout} {profile : Profile} {roll : Roll} {last : Nat}
  {c c' : Campaign Arena T P}

/-- Every agent on the roster has a body, which carries its sensors, each once and in order, and
there are no other bodies. -/
def Outfitted (layout : SensorLayout) (c : Campaign Arena T P) : Prop :=
  ∀ agent, (c.battle.host.bodies.get? agent).map Body.sensors =
    (c.roster.get? agent).map fun slot => layout.sensors slot.handle

/-- A request to the policy that shows it, slot by slot, what there is to see. -/
def Event.Legible (profile : Profile) (e : Event Arena T) : Prop :=
  ∀ handle observations, e.request.shown? = some (handle, observations) →
    e.battle.profile = profile ∧ e.battle.Shows handle observations

/-- On the roster with the identity of a handle. -/
def Runs (agent : Handle) (c : Campaign Arena T P) : Prop :=
  ∃ slot, c.roster.get? agent.id = some slot ∧ slot.handle.identity = agent.identity

theorem runs_congr {agent other : Handle} (h : agent.identity = other.identity) :
    Runs agent c ↔ Runs other c := by
  unfold Runs
  rw [h, show agent.id = other.id from congrArg Prod.fst h]

/-- What holds between two turns, for the policy to be shown what there is to see. -/
structure Clad (profile : Profile) (c : Campaign Arena T P) : Prop where
  sound : c.battle.Sound
  profile_eq : c.battle.profile = profile
  registered : Registered c
  outfitted : Outfitted profile.sensors c

/-- The body of a running agent carries its sensors. -/
theorem Clad.body (h : Clad profile c) {agent : Handle} (hruns : Runs agent c) :
    ∃ body, c.battle.host.bodies.get? agent.id = some body ∧
      body.sensors = c.battle.profile.sensors.sensors agent := by
  obtain ⟨kept, hkept, hsame⟩ := hruns
  have hteam : kept.handle.team = agent.team := congrArg (fun who => who.2.1) hsame
  have hworn := h.outfitted agent.id
  rw [hkept, Option.map_some] at hworn
  obtain ⟨body, hbody, hsensors⟩ := Option.map_eq_some_iff.1 hworn
  exact ⟨body, hbody, by rw [hsensors, h.profile_eq, profile.sensors.sensors_of_team hteam]⟩

section Turns

variable [Trainer T] {agent : Handle}

theorem Outfitted.served {request : Request} (h : Outfitted layout c)
    (hserved : Told.Served request c c') : Outfitted layout c' := by
  cases hserved with
  | @called call reply battle hcall hattempt =>
    obtain ⟨handle, hh, -⟩ := Request.handle_of_call hcall
    have hentered : call ≠ .register handle := by
      rintro rfl
      cases request <;> cases hcall
    exact fun agent => (Battle.sensors_attempt hh hentered hattempt agent).trans (h agent)
  | aside => exact h

theorem upheld_outfitted (layout : SensorLayout) :
    Upheld agent fun c : Campaign Arena T P => Outfitted layout c ∧ Runs agent c where
  request c request c' hc hagent hserved := by
    have hroster : c'.roster = c.roster := by cases hserved <;> rfl
    refine ⟨hc.1.served hserved, ?_⟩
    unfold Runs
    rw [hroster]
    exact hc.2
  host c observations hc := hc
  trainer c trainer hc := hc
  slot c slot hc hidentity := by
    obtain ⟨houtfitted, kept, hkept, hsame⟩ := hc
    have hid : slot.handle.id = agent.id := congrArg Prod.fst hidentity
    refine ⟨fun other => ?_, slot, ?_, hidentity⟩
    · rw [IdMap.get?_insert]
      split
      · rename_i hother
        have hteam : kept.handle.team = slot.handle.team :=
          congrArg (fun who => who.2.1) (hsame.trans hidentity.symm)
        rw [houtfitted other, hother, hid, hkept, Option.map_some, Option.map_some,
          layout.sensors_of_team hteam]
      · exact houtfitted other
    · rw [hid, IdMap.get?_insert, if_pos rfl]

theorem upheld_clad (profile : Profile) (agent : Handle) :
    Upheld agent fun c : Campaign Arena T P => Clad profile c ∧ Runs agent c := by
  refine (((kept_sound agent.id).upheld.and (kept_profile agent.id profile).upheld).and
    ((kept_registered agent.id).upheld.and (upheld_outfitted profile.sensors))).congr fun c => ?_
  exact ⟨fun h => ⟨⟨h.1.1, h.1.2, h.2.1, h.2.2.1⟩, h.2.2.2⟩,
    fun h => ⟨⟨h.1.sound, h.1.profile_eq⟩, h.1.registered, h.1.outfitted, h.2⟩⟩

variable [Policy P]

/-- An agent that plays is shown the readings of its sensors and the slots of the battle. -/
theorem Clad.play {slot : Slot} (h : Clad profile c ∧ Runs slot.handle c) :
    Told.Ensures (Told.play slot) c (Event.Legible profile)
      (fun _ c' => Clad profile c' ∧ Runs slot.handle c')
      fun _ c' => Clad profile c' ∧ Runs slot.handle c' := by
  refine (upheld_clad profile slot.handle).play_shows ?_ ?_ h
  · intro c request hc hquiet handle observations hsome
    rw [hquiet] at hsome
    cases hsome
  · intro c observations b request hc read hsensed hkept hshown handle values hsome
    obtain ⟨body, hbody, hsensors⟩ := hc.1.body hc.2
    rw [hshown] at hsome
    cases hsome
    exact ⟨hkept.1.profile_eq, hc.1.sound.sensed hbody hsensors hsensed⟩

theorem Clad.turns (h : Clad profile c) (agents : List AgentId) :
    Told.Ensures (Told.stepAgents agents) c (Event.Legible profile)
      (fun _ => Clad profile) fun _ => Clad profile := by
  refine Told.ensures_stepAgents (fun c agent slot hc hslot => ?_) agents h
  have hid : slot.handle.id = agent := hc.registered agent slot hslot
  have hruns : Runs slot.handle c := ⟨slot, by rw [hid, hslot], rfl⟩
  refine ((upheld_clad profile slot.handle).turn ?_ ?_ ⟨hc, hruns⟩).mono ?_ ?_
  · intro c request hc hshown handle observations hsome
    rw [hshown] at hsome
    cases hsome
  · intro c next hc hidentity
    have hwho (c : Campaign Arena T P) : Runs next.handle c ↔ Runs slot.handle c :=
      runs_congr hidentity
    refine (Clad.play ⟨hc.1, (hwho c).2 hc.2⟩).mono ?_ ?_
    · exact fun _ c' h => ⟨h.1, (hwho c').1 h.2⟩
    · exact fun _ c' h => ⟨h.1, (hwho c').1 h.2⟩
  · exact fun _ _ => And.left
  · exact fun _ _ => And.left

/-- Spawns, removals and ticks leave every body the sensors of its agent. -/
theorem lasting_outfitted : Lasting profile fun c : Campaign Arena T P =>
    c.battle.profile = profile ∧ Outfitted profile.sensors c where
  spawn c team group pose agent c' hc hnone hspawn := by
    obtain ⟨host, b, hhost, henroll, rfl⟩ := spawn_ok hspawn
    have hkept : b.host = host ∧ b.profile = c.battle.profile := by
      rcases Battle.enroll_cases henroll with ⟨_, -, -, rfl⟩ | ⟨-, rfl⟩ <;> exact ⟨rfl, rfl⟩
    have hbodies (other : AgentId) : host.bodies.get? other =
        if other = agent then some { team, group, pose } else c.battle.host.bodies.get? other := by
      have hbody : c.battle.host.spawn team group pose = (agent, host) := hhost
      obtain ⟨rfl, rfl⟩ := Prod.mk.inj hbody
      exact IdMap.get?_insert _ _ _ _
    refine ⟨hkept.2.trans hc.1, fun other => ?_⟩
    show ((b.equip _).host.bodies.get? other).map _ = _
    rw [Battle.sensors_equip, hkept.1, hkept.2, hc.1, hbodies, hbodies, if_pos rfl,
      IdMap.get?_insert]
    split
    · rfl
    · exact hc.2 other
  despawn c agent c' hc hdespawn := by
    obtain ⟨record, -, rfl⟩ := despawn_ok hdespawn
    refine ⟨hc.1, fun other => ?_⟩
    show ((c.battle.host.bodies.erase agent).get? other).map _ = _
    rw [IdMap.get?_erase, IdMap.get?_erase]
    split
    · rfl
    · exact hc.2 other
  trainer c trainer hc := hc
  turns roll last c number h hc := by
    have hclad : Clad profile (c.begun number) :=
      ⟨(h.beginTick number).sound, hc.1, h.handle_id, hc.2⟩
    have hturns := (hclad.turns c.roster.keys).run
    rw [Told.run_stepAgents] at hturns
    refine hturns.mono ?_ ?_
    · exact fun _ _ hleft => ⟨hleft.profile_eq, hleft.outfitted⟩
    · exact fun _ _ hleft => ⟨hleft.profile_eq, hleft.outfitted⟩

/-- Whatever a campaign in an arena is ordered, and also where an order fails: every agent on the
roster has a body with its sensors, each once and in order, and there are no other bodies. And
whatever a tick shows the policy has the declared length; it has in every place the reading of the
sensor of that place, taken then and there, followed by the centre of the agent's team, if there is
one to tell, and by whether the agent has a target. -/
theorem observations_laid_out (profile : Profile) (world : WorldSettings) (flag : Point) (trainer : T)
    (seed : UInt64) (policy : P) (orders : List Order)
    (hfew : (allArrivals orders
      (outset profile (Arena.ofWorld world flag) trainer seed policy)).length < 2 ^ 32) :
    let start := outset profile (Arena.ofWorld world flag) trainer seed policy
    Outfitted profile.sensors (followAll orders start) ∧
    profile.interface.sensors.length = profile.sensors.wallRays.length +
      profile.sensors.flagRadar.length + profile.sensors.enemyRadar.length + 3 ∧
    ∀ earlier number point later, orders = earlier ++ .tick number point :: later →
      ∀ e ∈ asked (.tick number point) (followAll earlier start), ∀ handle observations,
        e.request.shown? = some (handle, observations) →
        observations.length = profile.interface.sensors.length ∧
        e.battle.profile = profile ∧ e.battle.Shows handle observations := by
  intro start
  have hstart : Agreed profile .empty 0 start :=
    mustered_empty profile rfl rfl trainer seed policy trivial
  have hbare : start.battle.profile = profile ∧ Outfitted profile.sensors start :=
    ⟨rfl, fun _ => rfl⟩
  refine ⟨(lasting_outfitted.followAll hstart hbare orders (by rwa [Nat.zero_add])).2, ?_, ?_⟩
  · exact List.length_replicate
  · rintro earlier number point later rfl e he handle observations hshown
    have hearlier := Nat.lt_of_add_right_lt (few_before hfew)
    obtain ⟨count, roll, -, hbefore⟩ := hstart.obeyedAll earlier (by rwa [Nat.zero_add])
    obtain ⟨hprofile, houtfitted⟩ :=
      lasting_outfitted.followAll hstart hbare earlier (by rwa [Nat.zero_add])
    have hclad : Clad profile ((followAll earlier start).begun number) :=
      ⟨(hbefore.beginTick number).sound, hprofile, hbefore.handle_id, houtfitted⟩
    rw [asked_tick] at he
    obtain ⟨hsame, hshows⟩ := (hclad.turns _).asks e he handle observations hshown
    exact ⟨hsame ▸ hshows.length, hsame, hshows⟩

end Turns

/-- In the first tick of the brawl the turret is shown its rays, its radars and the slots of the
battle. -/
theorem observations_laid_out_brawl :
    let point : SpawnPoint := ⟨.zero, ⟨400.0, 200.0, 90.0⟩⟩
    let before := followAll (brawl.take 5) rash
    (allArrivals brawl rash).length < 2 ^ 32 ∧
      Outfitted rash.battle.profile.sensors (followAll brawl rash) ∧
      ∃ e ∈ asked (.tick 0 point) before, ∃ handle observations,
        e.request.shown? = some (handle, observations) ∧ handle.id = ⟨3⟩ ∧
          observations.length = 18 ∧ e.battle.Shows handle observations := by
  intro point before
  have hfew : (allArrivals brawl rash).length < 2 ^ 32 := by decide +kernel
  obtain ⟨houtfitted, -, hticks⟩ := observations_laid_out _ _ _ _ _ _ brawl hfew
  have hshown : (asked (.tick 0 point) before).any (fun e =>
      e.request.shown?.any fun shown => shown.1.id = ⟨3⟩) = true := by decide +kernel
  obtain ⟨e, he, hsome⟩ := List.any_eq_true.1 hshown
  obtain ⟨⟨handle, observations⟩, hshown, hid⟩ := (Option.any_eq_true _ _).1 hsome
  obtain ⟨hlength, -, hshows⟩ :=
    hticks (brawl.take 5) 0 point [.tick 1 point] rfl e he handle observations hshown
  exact ⟨hfew, houtfitted, e, he, handle, observations, hshown, of_decide_eq_true hid,
    hlength, hshows⟩

end Campaign

end FlagCombat
