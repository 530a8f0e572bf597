import FlagCombat.Proofs.Battle.Keeps
import FlagCombat.Proofs.Battle.Shot

/-!
Who is in a battle, along every list of calls. The records, the teams and the frozen poses list the
same agents; between its creation and its removal a record keeps the id, the team and the group that
the first handle gave it.
-/

namespace FlagCombat

/-- What a record says of who its agent is. -/
def Combatant.identity (c : Combatant) : AgentId × Team × Group := (c.id, c.team, c.group)

namespace Battle

variable {H T : Type} [Host H] [Trainer T]

theorem identity_effect (b : Battle H T) (agent : Handle) (action : List Float) (other : AgentId)
    (c : Combatant) : (b.effect agent action other c).identity = c.identity := by
  unfold effect Combatant.move Combatant.drainDamage Combatant.takeHit
  by_cases ho : other = agent.id
  · simp only [if_pos ho]
    split <;> split <;> rfl
  · simp only [if_neg ho]
    split <;> rfl

/-- What a call does for an agent with a record changes nobody's identity. -/
theorem identity_respond {b : Battle H T} {call : Call} {agent : Handle}
    (hh : call.handle? = some agent) (hc : b.combatants.contains agent.id = true)
    (other : AgentId) :
    ((b.respond call).2.combatants.get? other).map Combatant.identity =
      (b.combatants.get? other).map Combatant.identity := by
  cases call with
  | register a => rfl
  | reset a =>
    have hforgotten := keeps_modifyAgent (f := Combatant.identity) b a.id
      (g := Combatant.resetEpisode) fun c => rfl
    exact (hforgotten.trans (keeps_restart (fun c position heading => rfl) b a)).read other
  | step _ action =>
    cases hh
    by_cases hfirst : agent.step = 0 ∧ agent.group.isMobile
    · have hplaced : (b.respond (.step agent action)).2 = b.placeAtStart agent.id := by
        show (b.act agent action).2 = _
        rw [act, if_pos hfirst]
      rw [hplaced]
      exact (keeps_placeAtStart (fun c position heading => rfl) b agent.id).read other
    · show ((b.act agent action).2.combatants.get? other).map Combatant.identity = _
      rw [get?_act hfirst hc, Option.map_map]
      cases b.combatants.get? other with
      | none => rfl
      | some c => exact congrArg some (identity_effect b agent action other c)
  | sense a values => exact (keeps_perceive b a.id values).read other
  | isEpisodeOver a => exact (keeps_judge (fun c status => rfl) b a).read other
  | beginTick | removeAgent | cleanup => cases hh

/-- Only its removal ends a record, and nothing changes whose record it is. -/
theorem identity_perform {b : Battle H T} {call : Call} {agent : AgentId} {c : Combatant}
    (hc : b.combatants.get? agent = some c) (hcall : call ≠ .removeAgent agent) :
    ((b.perform call).2.combatants.get? agent).map Combatant.identity = some c.identity := by
  unfold perform
  cases h : b.attempt call with
  | error e => simp [hc]
  | ok r =>
    obtain ⟨reply, b'⟩ := r
    cases success_of_attempt h with
    | beginTick tick => exact congrArg (Option.map Combatant.identity) hc
    | cleanup => exact congrArg (Option.map Combatant.identity) hc
    | @removeAgent removed d hd =>
      have hne : agent ≠ removed := fun heq => hcall (heq ▸ rfl)
      simp [dismiss, hne, hc]
    | @handle call handle b₁ hh hrefusal henroll =>
      dsimp only
      rw [identity_respond hh (contains_of_enroll henroll)]
      rcases enroll_cases henroll with ⟨d, hd, -, rfl⟩ | ⟨hnone, rfl⟩
      · rw [hc, Option.map_some]
      · have hne : agent ≠ handle.id := by
          rintro rfl
          rw [hnone] at hc
          cases hc
        rw [get?_of_enroll henroll hne, hc, Option.map_some]

theorem identity_performAll {b : Battle H T} {calls : List Call} {agent : AgentId} {c : Combatant}
    (hc : b.combatants.get? agent = some c) (hcalls : .removeAgent agent ∉ calls) :
    ((b.performAll calls).combatants.get? agent).map Combatant.identity = some c.identity := by
  induction calls generalizing b c with
  | nil => exact congrArg (Option.map Combatant.identity) hc
  | cons call calls ih =>
    obtain ⟨hcall, hcalls⟩ := List.ne_and_not_mem_of_not_mem_cons hcalls
    obtain ⟨d, hd, hdc⟩ := Option.map_eq_some_iff.1 (identity_perform hc hcall.symm)
    rw [← hdc]
    exact ih hd hcalls

/-- After every list of calls the records, the teams and the frozen poses are those of the same
agents, every record sits under its own id, an agent is among the members of the team of its record
and of no other, and a record that was there earlier and was not removed since is still that of the
same agent, on the same team and of the same group. -/
theorem membership_kept (profile : Profile) (host : H) (trainer : T) (seed : UInt64)
    (calls : List Call) :
    let b : Battle H T := (start profile host trainer seed).performAll calls
    b.teams.teams.keys = b.combatants.keys ∧
    b.snapshot.poses.keys = b.combatants.keys ∧
    (∀ agent c, b.combatants.get? agent = some c →
      c.id = agent ∧ b.teams.teamOf agent = some c.team) ∧
    (∀ agent team, agent ∈ b.teams.members team ↔
      ∃ c, b.combatants.get? agent = some c ∧ c.team = team) ∧
    ∀ earlier later agent c, calls = earlier ++ later → .removeAgent agent ∉ later →
      ((start profile host trainer seed).performAll earlier).combatants.get? agent = some c →
      ∃ d, b.combatants.get? agent = some d ∧ d.id = c.id ∧ d.team = c.team ∧ d.group = c.group := by
  intro b
  have hb : b.Sound := ((Reachable.start profile host trainer seed).performAll calls).sound
  refine ⟨?teams, ?poses, ?record, ?members, ?persists⟩
  case teams =>
    apply IdMap.keys_eq
    intro agent
    have hteam := congrArg Option.isSome (hb.teamOf agent)
    rwa [Option.isSome_map] at hteam
  case poses => exact IdMap.keys_eq hb.posed
  case record =>
    intro agent c hc
    refine ⟨hb.record_id agent c hc, ?_⟩
    rw [hb.teamOf, hc, Option.map_some]
  case members =>
    intro agent team
    rw [Teams.mem_members_iff, hb.teamOf, Option.map_eq_some_iff]
  case persists =>
    rintro earlier later agent c rfl hlater hc
    have hkept := identity_performAll hc hlater
    rw [← performAll_append] at hkept
    obtain ⟨d, hd, hdc⟩ := Option.map_eq_some_iff.1 hkept
    simp only [Combatant.identity, Prod.mk.injEq] at hdc
    exact ⟨d, hd, hdc.1, hdc.2.1, hdc.2.2⟩

/-- An agent comes back on the other team, where its old handle is refused. -/
def turncoat : List Call :=
  let handle (team : Team) : Handle := { id := ⟨1⟩, team, group := .agent }
  [.register (handle .zero), .removeAgent ⟨1⟩, .register (handle .one), .reset (handle .zero),
    .step (handle .one) [0.5, 0.0]]

theorem membership_kept_turncoat :
    ∃ d, ((start {} ({} : OpenField) ({} : FixedTrainer) 0).performAll turncoat).combatants.get? ⟨1⟩
      = some d ∧ d.team = .one := by
  have hearlier : (((start {} ({} : OpenField) ({} : FixedTrainer) 0).performAll
      (turncoat.take 3)).combatants.get? ⟨1⟩).map (·.team) = some .one := by decide +kernel
  obtain ⟨c, hc, hteam⟩ := Option.map_eq_some_iff.1 hearlier
  obtain ⟨-, -, -, -, hpersists⟩ :=
    membership_kept {} ({} : OpenField) ({} : FixedTrainer) 0 turncoat
  obtain ⟨d, hd, -, hdteam, -⟩ := hpersists (turncoat.take 3) (turncoat.drop 3) ⟨1⟩ c
    (List.take_append_drop 3 turncoat).symm (by decide) hc
  exact ⟨d, hd, hdteam.trans hteam⟩

end Battle

end FlagCombat
