import FlagCombat.Snapshot

/-!
Answers that a snapshot keeps. They are right for some teams and a targeting when asking anew about
the frozen poses gives the same ones. Every question answers as its uncached function on the poses
does and keeps right answers right; setting or dropping a pose leaves no answer at all.
-/

namespace FlagCombat

namespace Snapshot

/-- Every kept answer is what the question answers when it is asked anew. -/
structure Coherent (s : Snapshot) (teams : Teams) (targeting : Targeting) : Prop where
  target : ∀ agent kept, s.targets.get? agent = some kept →
    kept = s.poses.target teams targeting agent
  nearestFriend : ∀ agent kept, s.nearestFriends.get? agent = some kept →
    kept = s.poses.nearestFriend teams agent
  nearestFoe : ∀ agent kept, s.nearestFoes.get? agent = some kept →
    kept = s.poses.nearestFoe teams agent

/-- The snapshot without the answers given so far. -/
def forget (s : Snapshot) : Snapshot := capture s.tick s.poses

theorem coherent_capture (tick : UInt64) (poses : Poses) (teams : Teams) (targeting : Targeting) :
    (capture tick poses).Coherent teams targeting := by
  constructor <;> intro agent kept h <;> simp [capture] at h

theorem coherent_place (s : Snapshot) (agent : AgentId) (pose : Pose) (teams : Teams)
    (targeting : Targeting) : (s.place agent pose).Coherent teams targeting :=
  coherent_capture _ _ _ _

theorem coherent_remove (s : Snapshot) (agent : AgentId) (teams : Teams) (targeting : Targeting) :
    (s.remove agent).Coherent teams targeting :=
  coherent_capture _ _ _ _

section AnswerOnce

variable {α : Type} {answers : IdMap α} {agent : AgentId} {answer : α}

/-- A kept answer that is right is the answer, and so is a new one. -/
theorem answerOnce_fst (h : ∀ kept, answers.get? agent = some kept → kept = answer) :
    (answerOnce answers agent answer).1 = answer := by
  unfold answerOnce
  cases hk : answers.get? agent with
  | none => rfl
  | some kept => exact h kept hk

/-- Answering keeps one answer more, if it was not kept before. -/
theorem get?_answerOnce_snd (other : AgentId) :
    (answerOnce answers agent answer).2.get? other =
      if other = agent then some (answerOnce answers agent answer).1 else answers.get? other := by
  unfold answerOnce
  cases hk : answers.get? agent with
  | none => by_cases h : other = agent <;> simp [h]
  | some kept => by_cases h : other = agent <;> simp [h, hk]

/-- If all kept answers follow a rule, so do all that are kept after one more answer. -/
theorem answerOnce_snd_rule {rule : AgentId → α}
    (h : ∀ other kept, answers.get? other = some kept → kept = rule other) :
    ∀ other kept, (answerOnce answers agent (rule agent)).2.get? other = some kept →
      kept = rule other := by
  intro other kept hk
  rw [get?_answerOnce_snd] at hk
  split at hk
  · rename_i heq
    subst heq
    rw [answerOnce_fst (h other)] at hk
    exact (Option.some.inj hk).symm
  · exact h other kept hk

end AnswerOnce

section Questions

variable {s : Snapshot} {teams : Teams} {targeting : Targeting}

/-- Every question leaves all but the kept answers as they were. -/
@[simp] theorem forget_target (s : Snapshot) (agent : AgentId) :
    (s.target teams targeting agent).2.forget = s.forget := rfl

@[simp] theorem forget_nearestFriend (s : Snapshot) (agent : AgentId) :
    (s.nearestFriend teams agent).2.forget = s.forget := rfl

@[simp] theorem forget_nearestFoe (s : Snapshot) (agent : AgentId) :
    (s.nearestFoe teams agent).2.forget = s.forget := rfl

@[simp] theorem poses_target (s : Snapshot) (agent : AgentId) :
    (s.target teams targeting agent).2.poses = s.poses := rfl

@[simp] theorem poses_nearestFriend (s : Snapshot) (agent : AgentId) :
    (s.nearestFriend teams agent).2.poses = s.poses := rfl

@[simp] theorem poses_nearestFoe (s : Snapshot) (agent : AgentId) :
    (s.nearestFoe teams agent).2.poses = s.poses := rfl

theorem Coherent.target_fst (h : s.Coherent teams targeting) (agent : AgentId) :
    (s.target teams targeting agent).1 = s.poses.target teams targeting agent :=
  answerOnce_fst (h.target agent)

theorem Coherent.nearestFriend_fst (h : s.Coherent teams targeting) (agent : AgentId) :
    (s.nearestFriend teams agent).1 = s.poses.nearestFriend teams agent :=
  answerOnce_fst (h.nearestFriend agent)

theorem Coherent.nearestFoe_fst (h : s.Coherent teams targeting) (agent : AgentId) :
    (s.nearestFoe teams agent).1 = s.poses.nearestFoe teams agent :=
  answerOnce_fst (h.nearestFoe agent)

theorem Coherent.target_snd (h : s.Coherent teams targeting) (agent : AgentId) :
    (s.target teams targeting agent).2.Coherent teams targeting where
  target := answerOnce_snd_rule h.target
  nearestFriend := h.nearestFriend
  nearestFoe := h.nearestFoe

theorem Coherent.nearestFriend_snd (h : s.Coherent teams targeting) (agent : AgentId) :
    (s.nearestFriend teams agent).2.Coherent teams targeting where
  target := h.target
  nearestFriend := answerOnce_snd_rule h.nearestFriend
  nearestFoe := h.nearestFoe

theorem Coherent.nearestFoe_snd (h : s.Coherent teams targeting) (agent : AgentId) :
    (s.nearestFoe teams agent).2.Coherent teams targeting where
  target := h.target
  nearestFriend := h.nearestFriend
  nearestFoe := answerOnce_snd_rule h.nearestFoe

end Questions

end Snapshot

end FlagCombat
