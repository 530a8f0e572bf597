import FlagCombat.Proofs.Choice
import FlagCombat.Proofs.Binary64.Order

/-!
The choice of the first least candidate. There is one unless there are no candidates, and no
candidate costs strictly less; this holds also where a cost is not a number, for such a cost is not
less than any and none is less than it.
-/

namespace FlagCombat

/-- One step of the choice. -/
def lesser (best : Option (AgentId × Float)) (candidate : AgentId × Float) :
    Option (AgentId × Float) :=
  match best with
  | none => some candidate
  | some current => if candidate.2 < current.2 then some candidate else some current

theorem firstLeast_eq (candidates : List (AgentId × Float)) :
    firstLeast candidates = candidates.foldl lesser none := rfl

/-- A step ends with no more than it had, and not above its candidate. -/
theorem exists_lesser (best : Option (AgentId × Float)) (candidate : AgentId × Float) :
    ∃ next, lesser best candidate = some next ∧ ¬candidate.2 < next.2 ∧
      ∀ current, best = some current → next = current ∨ next.2 < current.2 := by
  cases best with
  | none => exact ⟨candidate, rfl, Binary64.lt_irrefl _, by simp⟩
  | some current =>
    unfold lesser
    by_cases hless : candidate.2 < current.2
    · refine ⟨candidate, if_pos hless, Binary64.lt_irrefl _, ?_⟩
      rintro _ ⟨⟩
      exact .inr hless
    · refine ⟨current, if_neg hless, hless, ?_⟩
      rintro _ ⟨⟩
      exact .inl rfl

theorem foldl_lesser {candidates : List (AgentId × Float)} {init : Option (AgentId × Float)}
    {best : AgentId × Float} (h : candidates.foldl lesser init = some best) :
    (∀ candidate ∈ candidates, ¬candidate.2 < best.2) ∧
      ∀ current, init = some current → best = current ∨ best.2 < current.2 := by
  induction candidates generalizing init with
  | nil =>
    refine ⟨by simp, fun current hinit => ?_⟩
    exact .inl (Option.some.inj (h.symm.trans hinit))
  | cons candidate rest ih =>
    obtain ⟨next, hnext, hleast, hkept⟩ := exists_lesser init candidate
    obtain ⟨hrest, hbest⟩ := ih h
    -- the choice only goes down from here on
    have hdown := hbest next hnext
    constructor
    · intro other hother
      rcases List.mem_cons.1 hother with rfl | hother
      · intro hless
        rcases hdown with rfl | hdown
        · exact hleast hless
        · exact hleast (Binary64.lt_trans hless hdown)
      · exact hrest other hother
    · intro current hinit
      rcases hdown with rfl | hdown
      · exact hkept current hinit
      · rcases hkept current hinit with rfl | hless
        · exact .inr hdown
        · exact .inr (Binary64.lt_trans hdown hless)

theorem firstLeast_least {candidates : List (AgentId × Float)} {best : AgentId × Float}
    (h : firstLeast candidates = some best) : ∀ candidate ∈ candidates, ¬candidate.2 < best.2 := by
  rw [firstLeast_eq] at h
  exact (foldl_lesser h).1

theorem isSome_foldl_lesser (candidates : List (AgentId × Float))
    {init : Option (AgentId × Float)} (h : init.isSome = true) :
    (candidates.foldl lesser init).isSome = true := by
  induction candidates generalizing init with
  | nil => exact h
  | cons candidate rest ih =>
    obtain ⟨next, hnext, -⟩ := exists_lesser init candidate
    exact ih (by rw [hnext]; rfl)

theorem isSome_firstLeast (candidates : List (AgentId × Float)) :
    (firstLeast candidates).isSome = true ↔ ∃ candidate, candidate ∈ candidates := by
  cases candidates with
  | nil => simp [firstLeast]
  | cons candidate rest =>
    have hsome : (firstLeast (candidate :: rest)).isSome = true := by
      rw [firstLeast_eq]
      exact isSome_foldl_lesser rest rfl
    simp [hsome]

section Nearest

variable {origin : Point} {exclude : AgentId} {candidates : List (AgentId × Point)}

/-- The nearest candidate is not the excluded one, is as far as said, and none other is nearer. -/
theorem nearest_spec {found : AgentId × Float}
    (h : nearest origin exclude candidates = some found) :
    (∃ point, (found.1, point) ∈ candidates ∧ found.1 ≠ exclude ∧
      found.2 = origin.distance point) ∧
    ∀ other point, (other, point) ∈ candidates → other ≠ exclude →
      ¬origin.distance point < found.2 := by
  unfold nearest at h
  constructor
  · obtain ⟨candidate, hcandidate, rfl⟩ := List.mem_map.1 (firstLeast_mem h)
    obtain ⟨hmem, hother⟩ := List.mem_filter.1 hcandidate
    exact ⟨candidate.2, hmem, of_decide_eq_true hother, rfl⟩
  · intro other point hmem hother
    have hkept : (other, point) ∈ candidates.filter (·.1 ≠ exclude) :=
      List.mem_filter.2 ⟨hmem, decide_eq_true hother⟩
    exact firstLeast_least h (other, origin.distance point) (List.mem_map.2 ⟨_, hkept, rfl⟩)

theorem isSome_nearest :
    (nearest origin exclude candidates).isSome = true ↔
      ∃ other point, (other, point) ∈ candidates ∧ other ≠ exclude := by
  unfold nearest
  rw [isSome_firstLeast]
  constructor
  · rintro ⟨_, hmem⟩
    obtain ⟨candidate, hcandidate, -⟩ := List.mem_map.1 hmem
    obtain ⟨hmem, hother⟩ := List.mem_filter.1 hcandidate
    exact ⟨candidate.1, candidate.2, hmem, of_decide_eq_true hother⟩
  · rintro ⟨other, point, hmem, hother⟩
    have hkept : (other, point) ∈ candidates.filter (·.1 ≠ exclude) :=
      List.mem_filter.2 ⟨hmem, decide_eq_true hother⟩
    exact ⟨_, List.mem_map_of_mem hkept⟩

end Nearest

namespace Poses

variable {poses : Poses} {agent : AgentId} {members : List AgentId}

/-- How far apart two agents are by their frozen poses. -/
def apart? (poses : Poses) (agent other : AgentId) : Option Float :=
  match poses.get? agent, poses.get? other with
  | some pose, some place => some (pose.position.distance place.position)
  | _, _ => none

/-- The nearest of some agents: another one of them, at its frozen distance, and none of them is
strictly nearer. -/
structure Nearest (poses : Poses) (agent : AgentId) (p : AgentId → Prop)
    (found : AgentId × Float) : Prop where
  one : p found.1
  ne : found.1 ≠ agent
  apart : poses.apart? agent found.1 = some found.2
  least : ∀ other distance, p other → other ≠ agent →
    poses.apart? agent other = some distance → ¬distance < found.2

theorem nearestOf_spec {found : AgentId × Float} (h : poses.nearestOf agent members = some found) :
    poses.Nearest agent (· ∈ members) found := by
  unfold nearestOf at h
  obtain ⟨pose, hpose, hnearest⟩ := Option.bind_eq_some_iff.1 h
  obtain ⟨⟨point, hmem, hne, hdistance⟩, hleast⟩ := nearest_spec hnearest
  obtain ⟨⟨id, place⟩, hmember, heq⟩ := List.mem_map.1 hmem
  obtain ⟨rfl, rfl⟩ := Prod.mk.inj heq
  obtain ⟨hlisted, hplace⟩ := (mem_ofMembers_iff poses).1 hmember
  refine ⟨hlisted, hne, ?_, fun other distance hother hne hapart => ?_⟩
  · simp only [apart?, hpose, hplace, hdistance]
  · unfold apart? at hapart
    rw [hpose] at hapart
    cases hget : poses.get? other with
    | none =>
      rw [hget] at hapart
      cases hapart
    | some there =>
      rw [hget] at hapart
      cases hapart
      exact hleast other there.position
        (List.mem_map.2 ⟨(other, there), (mem_ofMembers_iff poses).2 ⟨hother, hget⟩, rfl⟩) hne

theorem isSome_nearestOf (hagent : poses.contains agent = true) :
    (poses.nearestOf agent members).isSome = true ↔
      ∃ other ∈ members, other ≠ agent ∧ poses.contains other = true := by
  obtain ⟨pose, hpose⟩ := (IdMap.contains_eq_true_iff _).1 hagent
  unfold nearestOf
  rw [hpose, Option.bind_some, isSome_nearest]
  constructor
  · rintro ⟨other, point, hmem, hne⟩
    obtain ⟨⟨id, place⟩, hmember, heq⟩ := List.mem_map.1 hmem
    obtain ⟨rfl, -⟩ := Prod.mk.inj heq
    obtain ⟨hlisted, hplace⟩ := (mem_ofMembers_iff poses).1 hmember
    exact ⟨id, hlisted, hne, (IdMap.contains_eq_true_iff _).2 ⟨place, hplace⟩⟩
  · rintro ⟨other, hlisted, hne, hother⟩
    obtain ⟨place, hplace⟩ := (IdMap.contains_eq_true_iff _).1 hother
    exact ⟨other, place.position,
      List.mem_map.2 ⟨(other, place), (mem_ofMembers_iff poses).2 ⟨hlisted, hplace⟩, rfl⟩, hne⟩

/-- A target stands inside the cone from the frozen pose of its agent. -/
theorem target_inside {teams : Teams} {targeting : Targeting} {foe : AgentId}
    (h : poses.target teams targeting agent = some foe) :
    ∃ pose place, poses.get? agent = some pose ∧ poses.get? foe = some place ∧
      targeting.outside pose place = false := by
  unfold target at h
  obtain ⟨pose, hpose, hselect⟩ := Option.bind_eq_some_iff.1 h
  unfold Targeting.select at hselect
  obtain ⟨best, hbest, rfl⟩ := Option.map_eq_some_iff.1 hselect
  obtain ⟨kept, hkept, rfl⟩ := List.mem_map.1 (firstLeast_mem hbest)
  obtain ⟨hmember, hinside⟩ := List.mem_filter.1 hkept
  obtain ⟨-, hplace⟩ := (mem_ofMembers_iff poses).1 hmember
  exact ⟨pose, kept.2, hpose, hplace, by simpa using hinside⟩

end Poses

end FlagCombat
