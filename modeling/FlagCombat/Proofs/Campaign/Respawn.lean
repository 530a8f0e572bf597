import FlagCombat.Proofs.Battle.Standing
import FlagCombat.Proofs.Campaign.Earnings
import FlagCombat.Proofs.Campaign.Poses
import FlagCombat.Proofs.Campaign.Unhurt

/-!
Respawns. In the tick that ends its episode, a mobile agent is put back near the spawn point and
given a heading there; this is how it stands after the tick, whoever else takes a turn or joins,
and it is paid nothing for it.
-/

namespace FlagCombat

namespace Campaign

variable {T P : Type} [Trainer T] {c c' : Campaign Arena T P} {agent : AgentId}

/-- The turns of others leave an agent as it stands. -/
theorem apart_standing (agent : AgentId) :
    Apart P agent fun b : Battle Arena T => b.standing agent := by
  intro other hother s
  constructor
  · intro c call handle reply battle hc hh hid hattempt
    exact (Battle.standing_attempt_of_ne hh hattempt (hid ▸ hother.symm)).trans hc
  · exact fun _ _ hc => hc
  · exact fun _ _ hc => hc
  · exact fun _ _ hc => hc
  · exact fun _ _ hc _ => hc

section Turn

variable [Policy P] {slot : Slot} {pose : Pose}

/-- The check of an episode moves nobody. -/
theorem checked_ok {isOver : Bool} (hat : (c.battle.whereabouts slot.handle.id).At pose)
    (h : (Told.ask (.check slot.handle)).run c = .ok isOver c') :
    (c'.battle.whereabouts slot.handle.id).At pose ∧ c'.battle.profile = c.battle.profile := by
  cases (Told.ensures_serve (.check slot.handle) c).after_ok h with
  | @called call reply battle hcall hattempt =>
    cases hcall
    have hhandle : (Call.isEpisodeOver slot.handle).handle? = some slot.handle := rfl
    have hsame := Battle.leads_attempt hhandle (by rw [hat.1]; rfl) (by rw [hat.2.2]; rfl) hattempt
    refine ⟨?_, (Battle.success_of_attempt hattempt).changes.profile⟩
    rw [show battle.whereabouts _ = _ from hsame]
    exact hat
  | aside hcall => cases hcall

/-- The end of an episode leaves a mobile agent fresh near the spawn point. -/
theorem fresh_turnOver {next : Slot} (hmobile : slot.handle.group.isMobile = true)
    (hat : (c.battle.whereabouts slot.handle.id).At pose)
    (h : (Told.turnOver slot).run c = .ok next c') :
    next = slot.renewed ∧ c'.battle.profile = c.battle.profile ∧
      ∃ place, c.battle.profile.Surrounds place.position ∧
        c'.battle.standing slot.handle.id = .fresh place := by
  obtain ⟨⟨⟩, c₁, hfinish, h, -⟩ := Told.bind_ok h
  obtain ⟨⟨⟩, c₂, hreport, h, -⟩ := Told.bind_ok h
  obtain ⟨⟨⟩, c₃, hreset, h, -⟩ := Told.bind_ok h
  obtain ⟨⟨⟩, c₄, hissue, h, -⟩ := Told.bind_ok h
  cases hfinish
  obtain ⟨trainer, -, rfl⟩ := Told.report_ok hreport
  obtain ⟨b, hb, rfl⟩ := call_ok (f := fun b => (b.reset slot.handle).map ((), ·)) hreset
  obtain ⟨b', hb', heq⟩ := map_ok hb
  cases heq
  obtain ⟨e, henroll, hrestart⟩ := map_ok hb'
  obtain ⟨record, hrecord, -⟩ := Option.map_eq_some_iff.1 hat.1
  have hcontains := (IdMap.contains_eq_true_iff _).2 ⟨record, hrecord⟩
  obtain rfl := Battle.eq_of_enroll henroll hcontains
  let told : Battle Arena T := { c.battle with trainer }
  have hprofile := (Battle.restart_changes told slot.handle).profile
  obtain ⟨place, hnear, hfresh⟩ := Battle.standing_restart (b := told) hmobile hcontains
    (Option.isSome_of_eq_some hat.2.2)
  rw [show told.restart slot.handle = b from hrestart] at hprofile hfresh
  cases hissue
  cases h
  exact ⟨rfl, hprofile, place, hnear, hfresh⟩

/-- An agent that is fresh gets a heading by its first step, and is paid nothing for it. -/
theorem fresh_play {place : Pose} (hmobile : slot.handle.group.isMobile = true)
    (hfirst : slot.handle.step = 0) (hfresh : c.battle.standing slot.handle.id = .fresh place)
    (h : (Told.play slot).run c = .ok () c') :
    (∃ degrees < 360, c'.battle.standing slot.handle.id =
      .fresh { place with heading := Float.ofNat degrees }) ∧
    ∃ slot', c'.roster.get? slot.handle.id = some slot' ∧
      slot'.lastReward = List.replicate c.battle.profile.dimensions.length 0.0 := by
  obtain ⟨readings, c₁, hread, h, -⟩ := Told.bind_ok h
  obtain ⟨observations, c₂, hsense, h, -⟩ := Told.bind_ok h
  obtain ⟨action, c₃, hdecide, h, -⟩ := Told.bind_ok h
  obtain ⟨reward, c₄, hstep, hput, -⟩ := Told.bind_ok h
  obtain ⟨-, -, hdecided⟩ := decide_ok hdecide
  cases hread
  obtain ⟨b, hb, rfl⟩ := call_ok (f := fun b => b.sense slot.handle _) hsense
  obtain ⟨b', hb', rfl⟩ := call_ok (f := fun b => b.step slot.handle action) hstep
  cases hput
  obtain ⟨record, hrecord, -⟩ := Battle.exists_fresh hfresh
  obtain ⟨hstands, hprofile⟩ :=
    Battle.standing_sense ((IdMap.contains_eq_true_iff _).2 ⟨record, hrecord⟩) hb
  rw [hdecided] at hb'
  obtain ⟨hunpaid, hplaced⟩ := Battle.first_step hfirst hmobile (hstands.trans hfresh) hb'
  rw [hprofile] at hunpaid
  refine ⟨hplaced, slot.stepped reward, ?_, hunpaid⟩
  exact (IdMap.get?_insert _ _ _ _).trans (if_pos rfl)

/-- The turn of a mobile agent that ends its episode leaves it fresh where an episode may start, and
pays it nothing. -/
theorem fresh_turn (hmobile : slot.handle.group.isMobile = true)
    (hat : (c.battle.whereabouts slot.handle.id).At pose)
    (h : (Told.turn slot).run c = .ok true c') :
    (∃ place, c.battle.profile.Starts place ∧ c'.battle.standing slot.handle.id = .fresh place) ∧
    ∃ slot', c'.roster.get? slot.handle.id = some slot' ∧
      slot'.lastReward = List.replicate c.battle.profile.dimensions.length 0.0 := by
  obtain ⟨isOver, c₁, hcheck, h, -⟩ := Told.bind_ok h
  obtain ⟨next, c₂, hnext, h, -⟩ := Told.bind_ok h
  obtain ⟨⟨⟩, c₃, hplay, h, -⟩ := Told.bind_ok h
  cases h
  obtain ⟨hat₁, hprofile⟩ := checked_ok hat hcheck
  obtain ⟨rfl, hsame, place, hnear, hfresh⟩ := fresh_turnOver hmobile hat₁ hnext
  obtain ⟨⟨degrees, hdegrees, hplaced⟩, hunpaid⟩ :=
    fresh_play (show slot.renewed.handle.group.isMobile = true from hmobile) rfl hfresh hplay
  rw [hsame, hprofile] at hunpaid
  rw [hprofile] at hnear
  let start : Pose := { place with heading := Float.ofNat degrees }
  exact ⟨⟨start, ⟨hnear, degrees, hdegrees, rfl⟩, hplaced⟩, hunpaid⟩

end Turn

section Spawns

/-- Whoever is spawned leaves all others as they stand, and their slots. -/
theorem standing_spawn {team : Team} {group : Group} {pose : Pose} {new other : AgentId}
    (hspawn : spawn team group pose c = .ok new c') (hnone : c.battle.combatants.get? new = none)
    (hother : other ≠ new) :
    c'.battle.standing other = c.battle.standing other ∧
      c'.roster.get? other = c.roster.get? other := by
  have hwhere := whereabouts_spawn hspawn hnone other
  rw [if_neg hother] at hwhere
  obtain ⟨host, b, -, henroll, rfl⟩ := spawn_ok hspawn
  obtain ⟨hrecord, hfrozen⟩ := Battle.beside_enroll henroll
  refine ⟨Battle.Beside.standing ⟨hrecord, hfrozen⟩ hother hwhere, ?_⟩
  rw [IdMap.get?_insert, if_neg hother]

variable {profile : Profile} {roll : Roll} {last : Nat}

/-- The spawns of a tick leave everybody on the roll as they stand, and their slots. -/
theorem Agreed.standing_spawnMany (h : Agreed profile roll last c) {point : SpawnPoint}
    {count : Nat} (hfew : last + (newcomers point count c).length < 2 ^ 32)
    (hmany : spawnMany point count c = .ok () c') (hlisted : roll.contains agent = true) :
    c'.battle.standing agent = c.battle.standing agent ∧
      c'.roster.get? agent = c.roster.get? agent := by
  induction count generalizing roll last c with
  | zero =>
    cases hmany
    exact ⟨rfl, rfl⟩
  | succ count ih =>
    obtain ⟨new, c₁, hfirst, hrest⟩ := bind_ok hmany
    have hnewcomers : newcomers point (count + 1) c = .ok new :: newcomers point count c₁ := by
      rw [newcomers, hfirst]
    rw [hnewcomers, List.length_cons] at hfew
    obtain ⟨c₂, hspawn, hagreed, -⟩ := h.entered (by omega) point.team .agent point.pose
    rw [hfirst] at hspawn
    cases hspawn
    have hnew : roll.contains (.ofNumber (last + 1)) = false :=
      h.not_contains (Nat.lt_succ_self last) (by omega)
    have hother : agent ≠ .ofNumber (last + 1) := by
      rintro rfl
      rw [hnew] at hlisted
      cases hlisted
    have hnone : c.battle.combatants.get? (.ofNumber (last + 1)) = none :=
      (IdMap.contains_eq_false_iff _).1 ((h.contains_eq _).2.1.trans hnew)
    obtain ⟨hstands, hslot⟩ := standing_spawn hfirst hnone hother
    obtain ⟨hstands', hslot'⟩ := ih hagreed (by omega) hrest
      (by rw [IdMap.contains_insert, hlisted, Bool.or_true])
    exact ⟨hstands'.trans hstands, hslot'.trans hslot⟩

end Spawns

section Ends

variable {H : Type} [Host H]

/-- Whether an event is a check that ends the episode of a mobile agent. -/
def Event.ends (agent : AgentId) (e : Event H T) : Bool :=
  match e.request with
  | .check handle =>
    handle.id = agent && handle.group.isMobile &&
      match e.battle.isEpisodeOver handle with
      | .ok (isOver, _) => isOver
      | .error _ => false
  | _ => false

theorem Event.exists_check {e : Event H T} (h : e.ends agent = true) :
    ∃ handle b, e.request = .check handle ∧ handle.id = agent ∧ handle.group.isMobile = true ∧
      e.battle.isEpisodeOver handle = .ok (true, b) := by
  unfold Event.ends at h
  split at h
  · rename_i handle hrequest
    simp only [Bool.and_eq_true, decide_eq_true_eq] at h
    obtain ⟨⟨hid, hmobile⟩, hover⟩ := h
    split at hover
    · rename_i isOver b hcheck
      rw [hover] at hcheck
      exact ⟨handle, b, hrequest, hid, hmobile, hcheck⟩
    · cases hover
  · cases h

end Ends

/-- An agent starts an episode at a place: it has a fresh record, is shown and frozen there, and was
paid nothing last. -/
structure Respawned (profile : Profile) (agent : AgentId) (place : Pose) (c : Campaign Arena T P) :
    Prop where
  record : ∃ record, c.battle.combatants.get? agent = some record ∧ record.Fresh place
  shown : Host.transform c.battle.host agent = some place
  frozen : c.battle.snapshot.poses.get? agent = some place
  unpaid : ∃ slot, c.roster.get? agent = some slot ∧
    slot.lastReward = List.replicate profile.dimensions.length 0.0

section Orders

variable [Policy P] {profile : Profile} {roll : Roll} {last : Nat} {number : UInt64}
  {point : SpawnPoint}

/-- An episode that ends in a turn is checked first in it. -/
theorem ended_of_ends {slot : Slot} {isOver : Bool} (h : (Told.turn slot).run c = .ok isOver c')
    {e : Event Arena T} (he : e ∈ (Told.turn slot).asks c) (hends : e.ends agent = true) :
    isOver = true ∧ slot.handle.group.isMobile = true ∧ e.battle = c.battle := by
  obtain ⟨handle, b, hrequest, -, hmobile, hover⟩ := Event.exists_check hends
  obtain ⟨slot', hturned, -⟩ := turned_of_ok h
  have hfirst : ((Told.turn slot).asks c).head? = some ⟨.check slot.handle, c.battle⟩ := rfl
  rw [hturned.head_of_check he hrequest, Option.some_inj] at hfirst
  subst hfirst
  cases hrequest
  refine ⟨?_, hmobile, rfl⟩
  obtain ⟨ended, c₁, hcheck, h, -⟩ := Told.bind_ok h
  obtain ⟨next, c₂, hnext, h, -⟩ := Told.bind_ok h
  obtain ⟨⟨⟩, c₃, hplay, h, -⟩ := Told.bind_ok h
  cases h
  obtain ⟨b', hb', -⟩ := call_ok (f := fun b => b.isEpisodeOver slot.handle) hcheck
  rw [hover] at hb'
  cases hb'
  rfl

/-- The turns of a tick leave a mobile agent fresh if its episode ends in them. -/
theorem Agreed.fresh_turns (h : Agreed profile roll last c) (hmirrored : c.Mirrored) {ended : Nat}
    (hsteps : (Told.stepAgents c.roster.keys).run (c.begun number) = .ok ended c')
    {e : Event Arena T} (he : e ∈ asked (.tick number point) c) (hends : e.ends agent = true) :
    c.roster.contains agent = true ∧
      (∃ place, profile.Starts place ∧ c'.battle.standing agent = .fresh place) ∧
      ∃ slot, c'.roster.get? agent = some slot ∧
        slot.lastReward = List.replicate profile.dimensions.length 0.0 := by
  have hown : e ∈ own agent (asked (.tick number point) c) := by
    obtain ⟨handle, b, hrequest, hid, -⟩ := Event.exists_check hends
    refine List.mem_filter.2 ⟨he, decide_eq_true ?_⟩
    rw [hrequest]
    exact hid
  have hrunning : c.roster.contains agent = true := by
    refine Bool.of_not_eq_false fun habsent => ?_
    rw [(h.own_asked hsteps habsent).1] at hown
    cases hown
  obtain ⟨slot, hslot⟩ := (IdMap.contains_eq_true_iff _).1 hrunning
  obtain ⟨pose, -, hat⟩ := h.at_begun hmirrored number hrunning
  obtain ⟨c₁, c₂, isOver, hturn, hasked, hbefore, hafter, hslots⟩ :=
    turn_of_stepAgents (apart_standing agent) hsteps h.handle_id c.roster.nodup_keys
      ((IdMap.mem_keys_iff _).2 hrunning) hslot
  obtain rfl : slot.handle.id = agent := h.handle_id agent slot hslot
  rw [asked_tick] at he hown
  rw [hasked] at hown
  obtain ⟨rfl, hmobile, hbattle⟩ := ended_of_ends hturn hown hends
  have hkept := Kept.stepAgents (fun other => kept_profile other profile) c.roster.keys
    (h.beginTick number).profile_eq
  obtain ⟨c₃, hprofile, heq⟩ := hkept.asks e he
  rw [heq, hbattle] at hprofile
  have hthere : c₁.battle.whereabouts slot.handle.id =
      (c.begun number).battle.whereabouts slot.handle.id := congrArg Standing.whereabouts hbefore
  rw [← hthere] at hat
  obtain ⟨hfresh, hunpaid⟩ := fresh_turn hmobile hat hturn
  rw [hprofile] at hfresh hunpaid
  rw [hafter, hslots]
  exact ⟨hrunning, hfresh, hunpaid⟩

theorem Agreed.respawned (h : Agreed profile roll last c) (hmirrored : c.Mirrored)
    (hfew : last + (arrivals (.tick number point) c).length < 2 ^ 32)
    (hsuccess : fails (.tick number point) c = false) {e : Event Arena T}
    (he : e ∈ asked (.tick number point) c) (hends : e.ends agent = true) :
    ∃ place, profile.Starts place ∧
      Respawned profile agent place (follow (.tick number point) c) := by
  cases h.tickEnd hfew with
  | failed hsteps hagreed hobey =>
    rw [fails_of_error hobey] at hsuccess
    cases hsuccess
  | @ended ended c₁ taken c' hsteps htaken hagreed hfew hmany hobey =>
    rw [← Told.run_stepAgents] at hsteps
    rw [follow_of_ok hobey]
    obtain ⟨hrunning, ⟨place, hstarts, hfresh⟩, slot, hslot, hunpaid⟩ :=
      h.fresh_turns hmirrored hsteps he hends
    have hlisted : roll.contains agent = true := (h.contains_eq agent).1.symm.trans hrunning
    obtain ⟨hstands, hslots⟩ := hagreed.standing_spawnMany hfew hmany hlisted
    rw [htaken] at hstands hslots
    have hfresh' : c'.battle.standing agent = .fresh place := hstands.trans hfresh
    exact ⟨place, hstarts, Battle.exists_fresh hfresh',
      congrArg (fun s => s.whereabouts.shown) hfresh',
      congrArg (fun s => s.whereabouts.frozen) hfresh', slot, hslots.trans hslot, hunpaid⟩

/-- After a tick that succeeds, whatever a campaign in an arena was ordered before, every mobile
agent whose episode ended in the tick has a fresh record, with no damage and an active status, in
which its pose, its previous pose and its start are one place; the arena and the snapshot have it
there too. The place is the spawn point with whole numbers within the jitter added to its
coordinates, and a heading of whole degrees. And the agent was paid nothing in the tick. -/
theorem ended_respawn (profile : Profile) (world : WorldSettings) (trainer : T) (seed : UInt64)
    (policy : P) (orders : List Order)
    (hfew : (allArrivals orders (opening profile world trainer seed policy)).length < 2 ^ 32) :
    ∀ earlier number point later, orders = earlier ++ .tick number point :: later →
      let before := followAll earlier (opening profile world trainer seed policy)
      fails (.tick number point) before = false →
      ∀ e ∈ asked (.tick number point) before, ∀ agent, e.ends agent = true →
        ∃ place, profile.Starts place ∧
          Respawned profile agent place (follow (.tick number point) before) := by
  rintro earlier number point later rfl before hsuccess e he agent hends
  have htick := few_before hfew
  have hearlier := Nat.lt_of_add_right_lt htick
  have hopening : Agreed profile .empty 0 (opening profile world trainer seed policy) :=
    mustered_opening profile world trainer seed policy trivial
  obtain ⟨roll, hbefore⟩ := agreed_followAll profile world trainer seed policy earlier hearlier
  have hmirrored := hopening.mirroredAll (fun _ => rfl) earlier (by rwa [Nat.zero_add])
  exact hbefore.respawned hmirrored htick hsuccess he hends

end Orders

/-- A scout whose episodes last two steps, and start somewhere near the spawn point. -/
def scout : Campaign Arena FixedTrainer HoldPolicy := opening { lifetime := 2 } {} {} 0 {}

/-- The lifetime of the scout is over in the third tick. -/
theorem ended_respawn_patrol :
    let point : SpawnPoint := ⟨.zero, ⟨400.0, 200.0, 90.0⟩⟩
    let before := followAll (patrol.take 3) scout
    (allArrivals patrol scout).length < 2 ^ 32 ∧ fails (.tick 2 point) before = false ∧
      ∃ e ∈ asked (.tick 2 point) before, e.ends ⟨1⟩ = true ∧
        ∃ place, Profile.Starts { lifetime := 2 } place ∧
          Respawned { lifetime := 2 } ⟨1⟩ place (follow (.tick 2 point) before) := by
  intro point before
  have hfew : (allArrivals patrol scout).length < 2 ^ 32 := by decide +kernel
  have hsuccess : fails (.tick 2 point) before = false := by decide +kernel
  have hany : (asked (.tick 2 point) before).any (·.ends ⟨1⟩) = true := by decide +kernel
  obtain ⟨e, he, hends⟩ := List.any_eq_true.1 hany
  exact ⟨hfew, hsuccess, e, he, hends,
    ended_respawn _ _ _ _ _ patrol hfew (patrol.take 3) 2 point [] rfl hsuccess e he ⟨1⟩ hends⟩

end Campaign

end FlagCombat
