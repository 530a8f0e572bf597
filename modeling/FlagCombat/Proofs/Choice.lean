import FlagCombat.Snapshot

/-!
Who can be chosen: the answer of a question about frozen poses is one of the agents it is asked
about, and agents without a frozen pose are never among them.
-/

namespace FlagCombat

/-- A fold that replaces its choice by a candidate or keeps it ends with a candidate or with the
choice it started from. -/
theorem foldl_choice_mem {α : Type} {choose : Option α → α → Option α}
    (hchoose : ∀ best x, choose best x = some x ∨ choose best x = best) (l : List α) :
    ∀ init {best : α}, l.foldl choose init = some best → best ∈ l ∨ init = some best := by
  induction l with
  | nil => exact fun init best h => .inr h
  | cons x l ih =>
    intro init best h
    rcases ih _ h with hmem | hinit
    · exact .inl (List.mem_cons_of_mem _ hmem)
    · rcases hchoose init x with hx | hkeep
      · rw [hx] at hinit
        exact .inl (Option.some.inj hinit ▸ List.mem_cons_self)
      · exact .inr (hkeep ▸ hinit)

theorem firstLeast_mem {candidates : List (AgentId × Float)} {best : AgentId × Float}
    (h : firstLeast candidates = some best) : best ∈ candidates := by
  have hmem := foldl_choice_mem (fun best candidate => ?_) candidates none h
  · exact hmem.resolve_right (by simp)
  · cases best with
    | none => exact .inl rfl
    | some current =>
      dsimp only
      split
      · exact .inl rfl
      · exact .inr rfl

namespace Poses

theorem mem_ofMembers_iff (poses : Poses) {members : List AgentId} {agent : AgentId}
    {pose : Pose} :
    (agent, pose) ∈ poses.ofMembers members ↔ agent ∈ members ∧ poses.get? agent = some pose := by
  unfold ofMembers
  rw [List.mem_filterMap]
  constructor
  · rintro ⟨id, hid, hpose⟩
    obtain ⟨p, hp, heq⟩ := Option.map_eq_some_iff.1 hpose
    cases heq
    exact ⟨hid, hp⟩
  · rintro ⟨hmem, hpose⟩
    exact ⟨agent, hmem, by simp [hpose]⟩

/-- A target is a foe with a frozen pose. -/
theorem target_mem {poses : Poses} {teams : Teams} {targeting : Targeting} {agent foe : AgentId}
    (h : poses.target teams targeting agent = some foe) :
    foe ∈ teams.foesOf agent ∧ poses.contains foe = true := by
  unfold target at h
  obtain ⟨pose, -, hselect⟩ := Option.bind_eq_some_iff.1 h
  unfold Targeting.select at hselect
  obtain ⟨best, hbest, rfl⟩ := Option.map_eq_some_iff.1 hselect
  obtain ⟨kept, hkept, rfl⟩ := List.mem_map.1 (firstLeast_mem hbest)
  obtain ⟨hfoe, hpose⟩ := (mem_ofMembers_iff poses).1 (List.mem_filter.1 hkept).1
  exact ⟨hfoe, poses.contains_eq_true_iff.2 ⟨kept.2, hpose⟩⟩

end Poses

end FlagCombat
