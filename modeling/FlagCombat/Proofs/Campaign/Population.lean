import FlagCombat.Proofs.Campaign.Growth
import FlagCombat.Proofs.Campaign.Unfailing

/-!
How the population of a campaign grows, tick by tick. Of the agents that the trainer has asked for,
some have joined and the others are pending; a tick that succeeds lets all that are pending join, and
one that fails leaves them to the next.
-/

namespace FlagCombat

open ReplacementTrainer (Breeding)

namespace Campaign

variable {P : Type} [Policy P]

/-- Ticks as orders, each with its number and its spawn point. -/
def ticks (schedule : List (UInt64 × SpawnPoint)) : List Order :=
  schedule.map fun next => .tick next.1 next.2

/-- An action of some agent was refused. -/
def IsInvalidAction (e : CampaignError) : Prop :=
  ∃ agent violation, e = .battle (.invalidAction agent violation)

/-- What a tick that succeeds has made of a campaign with at most `most` agents to breed. -/
structure Grown (most : Nat) (number : UInt64) (point : SpawnPoint) (new : List AgentId)
    (c : Campaign Arena ReplacementTrainer P) (summary : TickSummary)
    (c' : Campaign Arena ReplacementTrainer P) : Prop where
  agents_eq : summary.agents = c.roster.size
  stepped : stepping (asked (.tick number point) c) = c.roster.keys
  length_stepping : (stepping (asked (.tick number point) c)).length = summary.agents
  ascending : (stepping (asked (.tick number point) c)).Pairwise (· < ·)
  /-- All that is pending at the end of the turns joins. -/
  pending_joins : ∃ ended turned, stepAgents c.roster.keys (c.begun number) = .ok ended turned ∧
    summary.agents = turned.roster.size ∧ summary.spawned = turned.battle.trainer.pending
  spawned_eq : summary.spawned = c.battle.trainer.pending +
    min (most - c.battle.trainer.added) (walking (asked (.tick number point) c))
  length_new : new.length = summary.spawned
  roster_eq : c'.roster.keys = c.roster.keys ++ new
  size_eq : c'.roster.size = c.roster.size + summary.spawned
  pending_eq : c'.battle.trainer.pending = 0

/-- What a tick that fails has made of a campaign with at most `most` agents to breed. Its last
request is the one that failed. -/
structure Stalled (most : Nat) (number : UInt64) (point : SpawnPoint)
    (c : Campaign Arena ReplacementTrainer P) (e : CampaignError)
    (c' : Campaign Arena ReplacementTrainer P) : Prop where
  invalid : IsInvalidAction e
  stepped : stepping (asked (.tick number point) c) <+: c.roster.keys
  roster_eq : c'.roster.keys = c.roster.keys
  pending_eq : ∃ events failing, asked (.tick number point) c = events ++ [failing] ∧
    c'.battle.trainer.pending = c.battle.trainer.pending +
      min (most - c.battle.trainer.added) (walking events)

/-- A campaign in which some agents have joined the `placed` ones that were there at first. -/
structure Joined (profile : Profile) (settings : TrainerSettings) (placed : Nat)
    (first joined : List AgentId) (c : Campaign Arena ReplacementTrainer P) : Prop where
  mustered : ∃ roll, Mustered profile (Breeding settings joined.length) roll
    (placed + joined.length) c
  keys_eq : c.roster.keys = first ++ joined

section Tick

variable {profile : Profile} {settings : TrainerSettings} {placed : Nat}
  {first joined : List AgentId} {c : Campaign Arena ReplacementTrainer P} {number : UInt64}
  {point : SpawnPoint}

omit [Policy P] in
theorem Joined.registered (h : Joined profile settings placed first joined c) : Registered c := by
  obtain ⟨roll, hmustered⟩ := h.mustered
  exact hmustered.handle_id

/-- At every request of a tick the trainer's books are right. -/
theorem Joined.breeding (h : Joined profile settings placed first joined c) :
    ∀ e ∈ asked (.tick number point) c, Breeding settings joined.length e.battle.trainer := by
  obtain ⟨roll, hmustered⟩ := h.mustered
  intro e he
  obtain ⟨events, more, hasked⟩ := List.append_of_mem he
  exact hmustered.trainer.of_grownBy (h.registered.asked_grown hasked)

omit [Policy P] in
theorem Joined.wanted_eq (h : Joined profile settings placed first joined c) :
    Trainer.wanted c.battle.trainer =
      settings.populationSize.toNat - c.battle.trainer.added := by
  obtain ⟨roll, hmustered⟩ := h.mustered
  rw [ReplacementTrainer.wanted_eq, hmustered.trainer.settings_eq]

omit [Policy P] in
theorem length_keys (c : Campaign Arena ReplacementTrainer P) :
    c.roster.keys.length = c.roster.size := List.length_map _

/-- Whoever joins at the end of a tick was not there before, and takes a step in the next tick. -/
theorem Joined.newcomer (h : Joined profile settings placed first joined c) {new : List AgentId}
    {c' : Campaign Arena ReplacementTrainer P}
    (h' : Joined profile settings placed first (joined ++ new) c') {agent : AgentId}
    (hnew : agent ∈ new) :
    agent ∉ c.roster.keys ∧ ∀ number point summary c'',
      Campaign.tick number point c' = .ok summary c'' →
        agent ∈ stepping (asked (.tick number point) c') := by
  have hkeys : c'.roster.keys = c.roster.keys ++ new := by
    rw [h'.keys_eq, h.keys_eq, List.append_assoc]
  constructor
  · intro hmem
    have hnodup := c'.roster.nodup_keys
    rw [hkeys] at hnodup
    exact (List.nodup_append.1 hnodup).2.2 agent hmem agent hnew rfl
  · intro number point summary c'' htick
    rw [h'.registered.stepping_eq htick, hkeys]
    exact List.mem_append_right _ hnew

theorem follow_tick_of_ensures {I : Campaign Arena ReplacementTrainer P → Prop}
    (h : Ensures (tick number point) c (fun _ => I) fun _ => I) :
    I (follow (.tick number point) c) := by
  cases htick : Campaign.tick number point c with
  | ok summary c' =>
    rw [follow_of_ok (obey_tick_ok htick)]
    exact h.after_ok htick
  | error e c' =>
    rw [follow_of_error (obey_tick_error htick)]
    exact h.after_error htick

/-- The last of some orders has not failed, if there is one. -/
def Calm (orders : List Order) (c : Campaign Arena ReplacementTrainer P) : Prop :=
  ∀ earlier last, orders = earlier ++ [last] → fails last (Campaign.followAll earlier c) = false

section Probable

variable (hlow : 0.0 ≤ settings.exploitProbability) (hhigh : settings.exploitProbability ≤ 1.0)

include hlow hhigh

theorem terms_invalidAction (spawned : Nat) :
    Terms P profile (Breeding settings spawned) IsInvalidAction where
  report _ agent _ ht := report_kept IsInvalidAction (ht.report hlow hhigh agent _)
  renew _ _ ht := ht.of_eq rfl rfl rfl
  grow _ ht hwanted := ht.addAgent hwanted
  start _ agent _ v _ := ⟨agent.id, v, rfl⟩
  act _ agent _ _ v _ := ⟨agent.id, v, rfl⟩

/-- Where a turn fails, nobody joins, and what was asked for is pending. -/
theorem Joined.stalled (h : Joined profile settings placed first joined c)
    (point : SpawnPoint) {e : CampaignError} {c' : Campaign Arena ReplacementTrainer P}
    (hturns : stepAgents c.roster.keys (c.begun number) = .error e c') :
    Stalled settings.populationSize.toNat number point c e c' ∧
      Joined profile settings placed first joined c' := by
  obtain ⟨roll, hmustered⟩ := h.mustered
  obtain ⟨hinvalid, hmustered'⟩ := ((hmustered.beginTick number).stepAgents
    (terms_invalidAction hlow hhigh joined.length) c.roster.keys).after_error hturns
  obtain ⟨hstepped, events, failing, hasked, hgrown⟩ := h.registered.turns_stalled point hturns
  have hkeys : c'.roster.keys = c.roster.keys := hmustered'.keys_eq.trans hmustered.keys_eq.symm
  refine ⟨⟨hinvalid, hstepped, hkeys, events, failing, hasked, ?_⟩, ⟨roll, hmustered'⟩, ?_⟩
  · rw [hgrown.pending_eq, h.wanted_eq]
  · rw [hkeys, h.keys_eq]

/-- After turns that succeed all that is pending joins. -/
theorem Joined.grown (h : Joined profile settings placed first joined c)
    {ended : Nat} {turned : Campaign Arena ReplacementTrainer P}
    (hturns : stepAgents c.roster.keys (c.begun number) = .ok ended turned)
    (hfew : placed + joined.length +
      (newcomers point turned.battle.trainer.pending turned.granted).length < 2 ^ 32) :
    ∃ new summary c', newcomers point turned.battle.trainer.pending turned.granted = answers new ∧
      Campaign.tick number point c = .ok summary c' ∧
      Grown settings.populationSize.toNat number point new c summary c' ∧
      Joined profile settings placed first (joined ++ new) c' := by
  obtain ⟨roll, hmustered⟩ := h.mustered
  obtain ⟨hturned, -⟩ := ((hmustered.beginTick number).stepAgents
    (terms_invalidAction hlow hhigh joined.length) c.roster.keys).after_ok hturns
  obtain ⟨hstepped, hgrown⟩ := h.registered.turns_grown point hturns
  -- Once the requests are taken nothing is pending, and spawns raise no requests.
  let Q (t : ReplacementTrainer) : Prop :=
    Breeding settings (joined.length + turned.battle.trainer.pending) t ∧ t.pending = 0
  have hgranted : Mustered profile Q roll (placed + joined.length) turned.granted :=
    hturned.trainer_eq ⟨hturned.trainer.takeSpawnRequests, rfl⟩
  obtain ⟨roll', c', hmany, hmustered', hanswers, hkeys⟩ := hgranted.spawnMany
    (fun t agent ht => ⟨ht.1.of_eq rfl rfl rfl, ht.2⟩) point turned.battle.trainer.pending hfew
  let new := recruits (placed + joined.length) turned.battle.trainer.pending
  have hnew : new.length = turned.battle.trainer.pending := length_recruits _ _
  have hroster : c'.roster.keys = c.roster.keys ++ new := by
    rw [hmustered'.keys_eq, hkeys, hmustered.keys_eq]
  have hsize : c'.roster.size = c.roster.size + turned.battle.trainer.pending := by
    rw [← length_keys, hroster, List.length_append, hnew, length_keys]
  have hturning : c.roster.keys.length = turned.roster.size := by
    rw [← length_keys, hturned.keys_eq, hmustered.keys_eq]
  have hspawned : turned.battle.trainer.pending = c.battle.trainer.pending +
      min (settings.populationSize.toNat - c.battle.trainer.added)
        (walking (asked (.tick number point) c)) := by
    rw [hgrown.pending_eq, h.wanted_eq]
  refine ⟨new, _, c', hanswers.trans (answers_recruits _ _).symm, tick_eq_ok hturns hmany, {
    agents_eq := length_keys c
    stepped := hstepped
    length_stepping := congrArg List.length hstepped
    ascending := hstepped ▸ c.roster.pairwise_keys
    pending_joins := ⟨ended, turned, hturns, hturning, rfl⟩
    spawned_eq := hspawned
    length_new := hnew
    roster_eq := hroster
    size_eq := hsize
    pending_eq := hmustered'.trainer.2 }, ⟨roll', ?_⟩, ?_⟩
  · rw [List.length_append, hnew, ← Nat.add_assoc]
    exact hmustered'.trainer_eq hmustered'.trainer.1
  · rw [hroster, h.keys_eq, List.append_assoc]

/-- A tick lets all join that are pending at its end, or fails and leaves them pending. -/
theorem Joined.tick (h : Joined profile settings placed first joined c)
    (number : UInt64) (point : SpawnPoint)
    (hfew : placed + joined.length + (arrivals (.tick number point) c).length < 2 ^ 32) :
    ∃ new, arrivals (.tick number point) c = answers new ∧
      Ensures (tick number point) c
        (fun summary c' =>
          Grown settings.populationSize.toNat number point new c summary c' ∧
          Joined profile settings placed first (joined ++ new) c')
        fun e c' =>
          Stalled settings.populationSize.toNat number point c e c' ∧
          Joined profile settings placed first (joined ++ new) c' := by
  cases hturns : stepAgents c.roster.keys (c.begun number) with
  | error e c' =>
    obtain ⟨hstalled, hjoined⟩ := h.stalled hlow hhigh point hturns
    rw [← List.append_nil joined] at hjoined
    exact ⟨[], arrivals_tick_of_error hturns,
      ensures_of_error (tick_eq_error hturns) ⟨hstalled, hjoined⟩⟩
  | ok ended turned =>
    have harrivals : arrivals (.tick number point) c =
        newcomers point turned.battle.trainer.pending turned.granted := arrivals_tick_of_ok hturns
    rw [harrivals] at hfew ⊢
    obtain ⟨new, summary, c', hnew, htick, hdone⟩ := h.grown hlow hhigh hturns hfew
    exact ⟨new, hnew, ensures_of_ok htick hdone⟩

/-- All that join in a run of ticks are listed after those that were there, and nobody else takes a
step. -/
theorem Joined.followAll (h : Joined profile settings placed first joined c)
    (schedule : List (UInt64 × SpawnPoint))
    (hfew : placed + joined.length + (allArrivals (ticks schedule) c).length < 2 ^ 32) :
    ∃ new, allArrivals (ticks schedule) c = answers new ∧
      Joined profile settings placed first (joined ++ new) (followAll (ticks schedule) c) ∧
      ∀ agent ∈ stepping (journal (ticks schedule) c), agent ∈ first ++ (joined ++ new) := by
  -- The agents that were there at first stay the same ones, and those of each tick come after them.
  induction schedule generalizing joined c with
  | nil =>
    refine ⟨[], rfl, ?_, fun agent hagent => absurd hagent List.not_mem_nil⟩
    rwa [List.append_nil]
  | cons next schedule ih =>
    obtain ⟨number, point⟩ := next
    have hall : allArrivals (ticks ((number, point) :: schedule)) c =
        arrivals (.tick number point) c ++
          allArrivals (ticks schedule) (follow (.tick number point) c) := rfl
    rw [hall, List.length_append] at hfew
    obtain ⟨new, harrivals, htick⟩ := h.tick hlow hhigh number point (by omega)
    have hnext : Joined profile settings placed first (joined ++ new)
        (follow (.tick number point) c) :=
      follow_tick_of_ensures (htick.mono (fun _ _ hdone => hdone.2) fun _ _ hfailed => hfailed.2)
    have hlength : (joined ++ new).length =
        joined.length + (arrivals (.tick number point) c).length := by
      rw [harrivals, List.length_append, answers, List.length_map]
    obtain ⟨more, hmore, hleft, hstepping⟩ := ih hnext (by omega)
    rw [List.append_assoc] at hleft hstepping
    refine ⟨new ++ more, ?_, hleft, fun agent hagent => ?_⟩
    · rw [hall, harrivals, hmore]
      exact List.map_append.symm
    · have hasked : agent ∈ stepping (asked (.tick number point) c) ++
          stepping (journal (ticks schedule) (follow (.tick number point) c)) := by
        rwa [← stepping_append]
      rcases List.mem_append.1 hasked with hfirst | hlater
      · have hmem := h.registered.mem_of_stepping hfirst
        rw [h.keys_eq] at hmem
        rw [← List.append_assoc]
        exact List.mem_append_left _ hmem
      · exact hstepping agent hlater

/-- Who has joined before some tick, and that there are numbers left for those who join then. -/
theorem Joined.reached (h : Joined profile settings placed first [] c)
    {earlier : List (UInt64 × SpawnPoint)} {order : Order} {later : List Order}
    (hfew : placed + (allArrivals (ticks earlier ++ order :: later) c).length < 2 ^ 32) :
    ∃ joined, allArrivals (ticks earlier) c = answers joined ∧
      Joined profile settings placed first joined (Campaign.followAll (ticks earlier) c) ∧
      (∀ agent ∈ stepping (journal (ticks earlier) c), agent ∈ first ++ joined) ∧
      placed + joined.length +
        (arrivals order (Campaign.followAll (ticks earlier) c)).length < 2 ^ 32 := by
  rw [allArrivals_append, List.length_append, allArrivals, List.length_append] at hfew
  obtain ⟨joined, harrivals, hbefore, hstepping⟩ :=
    h.followAll hlow hhigh earlier (by rw [List.length_nil]; omega)
  refine ⟨joined, harrivals, hbefore, hstepping, ?_⟩
  rw [harrivals, answers, List.length_map] at hfew
  omega

/-- Nothing is pending after a tick that succeeded. -/
theorem Joined.pending_of_calm (h : Joined profile settings placed first [] c)
    (hnone : c.battle.trainer.pending = 0)
    {schedule : List (UInt64 × SpawnPoint)}
    (hfew : placed + (allArrivals (ticks schedule) c).length < 2 ^ 32)
    (hcalm : Calm (ticks schedule) c) :
    (Campaign.followAll (ticks schedule) c).battle.trainer.pending = 0 := by
  rcases List.eq_nil_or_concat schedule with rfl | ⟨earlier, ⟨number, point⟩, hlast⟩
  · exact hnone
  have hticks : ticks schedule = ticks earlier ++ [.tick number point] := by
    rw [hlast, List.concat_eq_append]
    exact List.map_append
  rw [hticks] at hfew hcalm ⊢
  obtain ⟨joined, -, hbefore, -, hfits⟩ := h.reached hlow hhigh hfew
  obtain ⟨new, -, htick⟩ := hbefore.tick hlow hhigh number point hfits
  rw [followAll_append]
  show (follow (.tick number point)
    (Campaign.followAll (ticks earlier) c)).battle.trainer.pending = 0
  cases hrun : Campaign.tick number point (Campaign.followAll (ticks earlier) c) with
  | ok summary c' =>
    rw [follow_of_ok (obey_tick_ok hrun)]
    exact (htick.after_ok hrun).1.pending_eq
  | error e c' =>
    have hfailed := fails_of_error (obey_tick_error hrun)
    rw [hcalm _ _ rfl] at hfailed
    cases hfailed

end Probable

end Tick

end Campaign

namespace Configuration

open Campaign

variable {P : Type} [Policy P]

/-- In the campaigns of a valid configuration the trainer's books always agree with who has joined,
whatever the policy, and whichever ticks fail: nobody is lost and nobody made up. A tick that succeeds
steps the whole roster in order, and those whom it lets join step from the next tick on. -/
theorem population_balances (c : Configuration) (hvalid : c.validate = .ok ()) (policy : P) :
    ∃ built, c.build policy = .ok built ∧ ∀ schedule : List (UInt64 × SpawnPoint),
      c.population.turrets.toNat + (allArrivals (ticks schedule) built).length < 2 ^ 32 →
      (∃ joined, allArrivals (ticks schedule) built = answers joined ∧
        Breeding c.trainer joined.length (followAll (ticks schedule) built).battle.trainer ∧
        (followAll (ticks schedule) built).roster.keys = built.roster.keys ++ joined) ∧
      ∀ earlier number point later, schedule = earlier ++ (number, point) :: later →
        let before := followAll (ticks earlier) built
        let after := follow (.tick number point) before
        let most := c.trainer.populationSize.toNat
        (∀ e ∈ asked (.tick number point) before,
          Breeding c.trainer (allArrivals (ticks earlier) built).length e.battle.trainer) ∧
        ∃ new, arrivals (.tick number point) before = answers new ∧
          Ensures (tick number point) before (Grown most number point new before)
            (Stalled most number point before) ∧
          (∀ summary c', tick number point before = .ok summary c' → Calm (ticks earlier) built →
            summary.spawned = min (most - before.battle.trainer.added)
              (walking (asked (.tick number point) before))) ∧
          ∀ agent ∈ new,
            agent ∉ stepping (journal (ticks earlier) built) ∧
            agent ∉ stepping (asked (.tick number point) before) ∧
            ∀ number' point' summary c', tick number' point' after = .ok summary c' →
              agent ∈ stepping (asked (.tick number' point') after) := by
  obtain ⟨-, hlow, hhigh⟩ := of_validate hvalid
  obtain ⟨built, roll, hbuilt, hmustered⟩ := c.exists_build policy
    (Q := fun t => Breeding c.trainer 0 t ∧ t.pending = 0)
    ⟨ReplacementTrainer.breeding_ofSeed _ _ _, rfl⟩
    fun t agent ht => ⟨ht.1.of_eq rfl rfl rfl, ht.2⟩
  have hstart : Joined c.profile c.trainer c.population.turrets.toNat built.roster.keys [] built :=
    ⟨⟨roll, hmustered.trainer_eq hmustered.trainer.1⟩, (List.append_nil _).symm⟩
  refine ⟨built, hbuilt, fun schedule hfew => ⟨?_, ?_⟩⟩
  · obtain ⟨joined, harrivals, hleft, -⟩ := hstart.followAll hlow hhigh schedule hfew
    obtain ⟨roll', hmustered'⟩ := hleft.mustered
    exact ⟨joined, harrivals, hmustered'.trainer, hleft.keys_eq⟩
  · rintro earlier number point later rfl
    intro before after most
    have hticks : ticks (earlier ++ (number, point) :: later) =
        ticks earlier ++ .tick number point :: ticks later := List.map_append
    rw [hticks] at hfew
    obtain ⟨joined, harrivals, hbefore, hstepped, hfits⟩ := hstart.reached hlow hhigh hfew
    obtain ⟨new, hnew, htick⟩ := hbefore.tick hlow hhigh number point hfits
    have hafter := follow_tick_of_ensures
      (htick.mono (fun _ _ hdone => hdone.2) fun _ _ hfailed => hfailed.2)
    have hcount : (allArrivals (ticks earlier) built).length = joined.length := by
      rw [harrivals, answers, List.length_map]
    refine ⟨hcount ▸ hbefore.breeding, new, hnew,
      htick.mono (fun _ _ hdone => hdone.1) fun _ _ hfailed => hfailed.1, ?_, ?_⟩
    · intro summary c' hrun hcalm
      rw [allArrivals_append, List.length_append] at hfew
      have hnone := hstart.pending_of_calm hlow hhigh hmustered.trainer.2 (by omega) hcalm
      rw [(htick.after_ok hrun).1.spawned_eq, hnone, Nat.zero_add]
    · intro agent hagent
      obtain ⟨habsent, hnext⟩ := hbefore.newcomer hafter hagent
      refine ⟨fun hmem => habsent ?_, fun hmem => habsent ?_, hnext⟩
      · rw [hbefore.keys_eq]
        exact hstepped agent hmem
      · exact hbefore.registered.mem_of_stepping hmem

/-- A policy that holds still, and forgets every fifth action. -/
structure FitfulPolicy where
  decided : Nat := 0

def FitfulPolicy.decide (p : FitfulPolicy) (shapes : Interface) : List Float × FitfulPolicy :=
  (if p.decided % 5 = 4 then [] else shapes.actions.zeros, ⟨p.decided + 1⟩)

instance : Policy FitfulPolicy where
  start p _ shapes _ := p.decide shapes
  act p _ shapes _ _ := p.decide shapes
  finish p _ _ := p

/-- Two turrets, and three agents to breed. -/
def outpost : Configuration where
  population := { turrets := 2 }
  trainer := { populationSize := 3 }

/-- New agents join the turrets. -/
def gate : SpawnPoint := ⟨.one, ⟨400.0, 200.0, 90.0⟩⟩

/-- Three ticks, the second of which comes to the fifth decision. -/
def watch : List (UInt64 × SpawnPoint) := [(0, gate), (1, gate), (2, gate)]

theorem population_balances_outpost :
    outpost.validate = .ok () ∧ ∃ built, outpost.build ({} : FitfulPolicy) = .ok built ∧
      built.roster.keys = [⟨1⟩, ⟨2⟩] ∧
      fails (.tick 1 gate) (followAll (ticks (watch.take 1)) built) = true ∧
      allArrivals (ticks watch) built = answers [⟨3⟩, ⟨4⟩, ⟨5⟩] ∧
      Breeding outpost.trainer 3 (followAll (ticks watch) built).battle.trainer ∧
      (followAll (ticks watch) built).roster.keys = [⟨1⟩, ⟨2⟩, ⟨3⟩, ⟨4⟩, ⟨5⟩] := by
  have hvalid : outpost.validate = .ok () := by decide +kernel
  obtain ⟨built, hbuilt, hrun⟩ := population_balances outpost hvalid ({} : FitfulPolicy)
  have hseen : (match outpost.build ({} : FitfulPolicy) with
      | .ok built => decide (built.roster.keys = [⟨1⟩, ⟨2⟩] ∧
          fails (.tick 1 gate) (followAll (ticks (watch.take 1)) built) = true ∧
          allArrivals (ticks watch) built = answers [⟨3⟩, ⟨4⟩, ⟨5⟩])
      | .error _ => false) = true := by decide +kernel
  rw [hbuilt] at hseen
  obtain ⟨hkeys, hfails, harrivals⟩ := of_decide_eq_true hseen
  have hfew : outpost.population.turrets.toNat + (allArrivals (ticks watch) built).length <
      2 ^ 32 := by
    rw [harrivals]
    decide
  obtain ⟨⟨joined, hjoined, hbooks, hroster⟩, -⟩ := hrun watch hfew
  rw [harrivals] at hjoined
  have hthree : [⟨3⟩, ⟨4⟩, ⟨5⟩] = joined :=
    (List.map_inj_right fun _ _ => Except.ok.inj).1 hjoined
  subst hthree
  rw [hkeys] at hroster
  exact ⟨hvalid, built, hbuilt, hkeys, hfails, harrivals, hbooks, hroster⟩

end Configuration

end FlagCombat
