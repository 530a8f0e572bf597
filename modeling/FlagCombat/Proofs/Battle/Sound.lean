import FlagCombat.Proofs.Battle.Attempt

/-!
The invariant of a battle. Records, teams and frozen poses are about the same agents, every record
sits under its own id and on its registered team, and every kept answer is right. It holds after
every history of calls, whatever becomes of the host and the trainer between two calls.
-/

namespace FlagCombat

namespace Battle

variable {H T : Type}

/-- What holds of every battle. -/
structure Sound (b : Battle H T) : Prop where
  record_id : ∀ agent c, b.combatants.get? agent = some c → c.id = agent
  teamOf : ∀ agent, b.teams.teamOf agent = (b.combatants.get? agent).map (·.team)
  posed : ∀ agent, b.snapshot.poses.contains agent = b.combatants.contains agent
  coherent : b.snapshot.Coherent b.teams b.profile.targeting

variable [Host H]

omit [Host H] in
theorem sound_start [Trainer T] (profile : Profile) (host : H) (trainer : T) (seed : UInt64) :
    (start profile host trainer seed).Sound where
  record_id agent c h := by simp [start] at h
  teamOf agent := rfl
  posed agent := rfl
  coherent := Snapshot.coherent_capture 0 .empty _ _

/-- An enlisted agent is on the team of its handle, under its own id, and has a frozen pose. -/
theorem Sound.enlist {b : Battle H T} (hb : b.Sound) {agent : Handle}
    (h : b.combatants.get? agent.id = none) : (b.enlist agent).Sound := by
  obtain ⟨hid, hteam, -⟩ := newcomer_identity b agent
  have hnew : b.teams.teamOf agent.id = none := by rw [hb.teamOf, h]; rfl
  constructor
  · intro other c hc
    simp only [Battle.enlist, IdMap.get?_insert] at hc
    split at hc
    · rename_i heq
      cases hc
      rw [hid, heq]
    · exact hb.record_id other c hc
  · intro other
    simp only [Battle.enlist, IdMap.get?_insert]
    rw [Teams.teamOf_register hnew]
    split
    · rw [Option.map_some, hteam]
    · exact hb.teamOf other
  · intro other
    simp only [Battle.enlist, Snapshot.place, Snapshot.capture, IdMap.contains_insert]
    rw [hb.posed other]
  · exact Snapshot.coherent_place _ _ _ _ _

/-- An elementary change keeps the invariant. -/
theorem Sound.change {b b' : Battle H T} (hb : b.Sound) (h : Change b b') : b'.Sound := by
  cases h with
  | surroundings => exact ⟨hb.record_id, hb.teamOf, hb.posed, hb.coherent⟩
  | record agent f hf =>
    refine ⟨?_, ?_, fun other => ?_, hb.coherent⟩
    · intro other c hc
      simp only [IdMap.get?_modify] at hc
      split at hc
      · obtain ⟨d, hd, rfl⟩ := Option.map_eq_some_iff.1 hc
        rw [(hf d).1]
        exact hb.record_id other d hd
      · exact hb.record_id other c hc
    · intro other
      rw [hb.teamOf other, IdMap.get?_modify]
      split
      · cases b.combatants.get? other <;> simp [(hf _).2.1]
      · rfl
    · rw [hb.posed other, IdMap.contains_modify]
  | freeze agent c hc =>
    refine ⟨hb.record_id, hb.teamOf, fun other => ?_, Snapshot.coherent_place _ _ _ _ _⟩
    simp only [Snapshot.place, Snapshot.capture, IdMap.contains_insert, hb.posed other]
    by_cases heq : other = agent
    · subst heq
      simp [IdMap.contains, hc]
    · simp [heq]
  | capture tick =>
    refine ⟨hb.record_id, hb.teamOf, fun other => ?_, Snapshot.coherent_capture _ _ _ _⟩
    show (IdMap.ofList (b.combatants.values.map fun c => (c.id, c.pose))).contains other = _
    rw [IdMap.ofList_values b.combatants _ hb.record_id]
    exact IdMap.contains_mapValues _ _ _
  | askTarget agent => exact ⟨hb.record_id, hb.teamOf, hb.posed, hb.coherent.target_snd agent⟩
  | askNearestFriend agent =>
    exact ⟨hb.record_id, hb.teamOf, hb.posed, hb.coherent.nearestFriend_snd agent⟩
  | askNearestFoe agent =>
    exact ⟨hb.record_id, hb.teamOf, hb.posed, hb.coherent.nearestFoe_snd agent⟩
  | enlist agent hnone => exact hb.enlist hnone
  | dismiss agent c hc =>
    refine ⟨?_, ?_, fun other => ?_, Snapshot.coherent_remove _ _ _ _⟩
    · intro other d hd
      simp only [dismiss, IdMap.get?_erase] at hd
      split at hd
      · cases hd
      · exact hb.record_id other d hd
    · intro other
      simp only [dismiss, Teams.teamOf_remove, IdMap.get?_erase]
      split
      · rfl
      · exact hb.teamOf other
    · simp only [dismiss, Snapshot.remove, Snapshot.capture, IdMap.contains_erase, hb.posed other]

theorem Sound.changes {b b' : Battle H T} (hb : b.Sound) (h : Changes b b') : b'.Sound := by
  induction h with
  | refl => exact hb
  | tail _ hlast ih => exact ih.change hlast

variable [Trainer T]

/-- A battle that some history of calls has led to, the host and the trainer having changed at will
between the calls. -/
inductive Reachable : Battle H T → Prop
  | start (profile : Profile) (host : H) (trainer : T) (seed : UInt64) :
      Reachable (start profile host trainer seed)
  | perform {b : Battle H T} (h : Reachable b) (call : Call) : Reachable (b.perform call).2
  | host {b : Battle H T} (h : Reachable b) (host : H) : Reachable { b with host }
  | trainer {b : Battle H T} (h : Reachable b) (trainer : T) : Reachable { b with trainer }

theorem Sound.perform {b : Battle H T} (hb : b.Sound) (call : Call) : (b.perform call).2.Sound :=
  hb.changes (perform_changes b call)

theorem Reachable.sound {b : Battle H T} (h : Reachable b) : b.Sound := by
  induction h with
  | start profile host trainer seed => exact sound_start profile host trainer seed
  | perform _ call ih => exact ih.perform call
  | host _ host ih => exact ⟨ih.record_id, ih.teamOf, ih.posed, ih.coherent⟩
  | trainer _ trainer ih => exact ⟨ih.record_id, ih.teamOf, ih.posed, ih.coherent⟩

theorem performAll_append (b : Battle H T) (calls more : List Call) :
    b.performAll (calls ++ more) = (b.performAll calls).performAll more :=
  List.foldl_append

omit [Trainer T] in
theorem Changes.profile {b b' : Battle H T} (h : Changes b b') : b'.profile = b.profile := by
  induction h with
  | refl => rfl
  | tail _ hlast ih =>
    rw [← ih]
    cases hlast <;> rfl

theorem profile_performAll (b : Battle H T) (calls : List Call) :
    (b.performAll calls).profile = b.profile := by
  induction calls generalizing b with
  | nil => rfl
  | cons call calls ih => exact (ih _).trans (Changes.profile (perform_changes b call))

theorem Reachable.performAll {b : Battle H T} (h : Reachable b) (calls : List Call) :
    Reachable (b.performAll calls) := by
  induction calls generalizing b with
  | nil => exact h
  | cons call calls ih => exact ih (h.perform call)

end Battle

end FlagCombat
