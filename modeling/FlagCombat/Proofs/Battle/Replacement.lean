import FlagCombat.Battle.Replacement
import FlagCombat.Proofs.Choice

/-!
Whom a replacement trainer withdraws. Only an organism with a score can be chosen, and an agent that
gets a fresh organism has none; so if nobody else has a score, a report can withdraw the organism of
the agent it is about and no other, and what it says is forgotten with the agent's next organism.
-/

namespace FlagCombat

open Binary64

namespace ReplacementTrainer

/-- Some agents, none of which lost its organism or has a score. -/
structure Idle (p : AgentId → Prop) (t : ReplacementTrainer) : Prop where
  held : ∀ agent, p agent → t.withdrawn.contains agent = false
  unscored : ∀ agent organism, p agent → t.organisms.get? agent = some organism →
    organism.score = none

theorem Idle.mono {p q : AgentId → Prop} {t : ReplacementTrainer} (h : Idle p t)
    (hq : ∀ agent, q agent → p agent) : Idle q t :=
  ⟨fun agent hagent => h.held agent (hq agent hagent),
    fun agent organism hagent => h.unscored agent organism (hq agent hagent)⟩

theorem mem_candidates_iff (t : ReplacementTrainer) {agent : AgentId} {score : Word} :
    (agent, score) ∈ t.candidates ↔ t.withdrawn.contains agent = false ∧
      ∃ organism, t.organisms.get? agent = some organism ∧ organism.score = some score := by
  unfold candidates
  rw [List.mem_filterMap]
  constructor
  · rintro ⟨⟨id, organism⟩, hmem, hscore⟩
    dsimp only at hscore
    split at hscore
    · cases hscore
    · rename_i hheld
      obtain ⟨s, hs, heq⟩ := Option.map_eq_some_iff.1 hscore
      cases heq
      exact ⟨by simpa using hheld, organism, t.organisms.mem_entries_iff.1 hmem, hs⟩
  · rintro ⟨hheld, organism, hget, hscore⟩
    exact ⟨(agent, organism), t.organisms.mem_entries_iff.2 hget, by simp [hheld, hscore]⟩

theorem pairwise_candidates (t : ReplacementTrainer) :
    t.candidates.Pairwise (·.1 < ·.1) := by
  unfold candidates
  refine t.organisms.ascending.filterMap _ fun a a' hlt b hb b' hb' => ?_
  have hid {e : AgentId × Organism} {x : AgentId × Word}
      (hx : x ∈ if t.withdrawn.contains e.1 then none else e.2.score.map fun s => (e.1, s)) :
      x.1 = e.1 := by
    split at hx
    · cases hx
    · obtain ⟨s, -, rfl⟩ := Option.map_eq_some_iff.1 hx
      rfl
  rw [hid hb, hid hb']
  exact hlt

theorem candidates_eq_singleton {t : ReplacementTrainer} {victim : AgentId × Word}
    (h : ∀ candidate, candidate ∈ t.candidates ↔ candidate = victim) :
    t.candidates = [victim] := by
  have hordered := t.pairwise_candidates
  generalize t.candidates = candidates at h hordered
  match candidates with
  | [] => exact absurd ((h victim).2 rfl) List.not_mem_nil
  | [first] => rw [(h first).1 List.mem_cons_self]
  | first :: second :: rest =>
    have hfirst := (h first).1 List.mem_cons_self
    have hsecond := (h second).1 (List.mem_cons_of_mem _ List.mem_cons_self)
    have hlt := (List.pairwise_cons.1 hordered).1 second List.mem_cons_self
    rw [hfirst, hsecond] at hlt
    exact absurd hlt (Nat.lt_irrefl _)

theorem worst?_mem {candidates : List (AgentId × Word)} {victim : AgentId × Word}
    (h : worst? candidates = some victim) : victim ∈ candidates := by
  have hmem := foldl_choice_mem (fun best candidate => ?_) candidates none h
  · exact hmem.resolve_right (by simp)
  · cases best with
    | none => exact .inl rfl
    | some current =>
      dsimp only
      split
      · exact .inl rfl
      · exact .inr rfl

end ReplacementTrainer

theorem Generator.choose?_mem {α : Type} {xs : List α} {g : Generator} {x : α}
    (h : (g.choose? xs).1 = some x) : x ∈ xs := by
  unfold choose? at h
  split at h
  · cases h
  · exact List.mem_of_getElem? h

/-- A draw from one number is that number. -/
theorem Generator.below32_one (g : Generator) : (below32 1 g).1 = 0 := by
  have hword := g.word32.1.toNat_lt
  unfold below32 scaled
  dsimp only
  have hlow : ¬ UInt32.size - 1 < g.word32.1.toNat * 1 % UInt32.size := by
    simp only [UInt32.size]
    omega
  rw [if_neg hlow]
  simp only [UInt32.size]
  omega

namespace ReplacementTrainer

/-- Who is withdrawn, if the draw of a withdrawal can be made. -/
def victimOf (t : ReplacementTrainer) (exploit : Bool) (g : Generator) :
    Option (AgentId × Word) × Generator :=
  if exploit then (worst? t.candidates, g) else g.choose? t.candidates

theorem victimOf_mem {t : ReplacementTrainer} {exploit : Bool} {g : Generator}
    {victim : AgentId × Word} (h : (t.victimOf exploit g).1 = some victim) :
    victim ∈ t.candidates := by
  unfold victimOf at h
  split at h
  · exact worst?_mem h
  · exact Generator.choose?_mem h

/-- The only candidate is withdrawn for certain. -/
theorem victimOf_singleton {t : ReplacementTrainer} {victim : AgentId × Word}
    (h : t.candidates = [victim]) (exploit : Bool) (g : Generator) :
    (t.victimOf exploit g).1 = some victim := by
  unfold victimOf
  rw [h]
  split
  · rfl
  · simp [Generator.choose?, Generator.below32_one]

/-- A withdrawal takes the organism of its victim, and nothing else. -/
theorem withdrawOne_cases {t t' : ReplacementTrainer} (h : t.withdrawOne = .ok t') :
    t'.organisms = t.organisms ∧ ∃ exploit g,
      t'.withdrawn = match (t.victimOf exploit g).1 with
        | none => t.withdrawn
        | some victim => t.withdrawn.insert victim.1 () := by
  unfold withdrawOne at h
  cases hchance : t.generator.chance t.settings.exploitProbability with
  | error e => simp [hchance, bind, Except.bind] at h
  | ok drawn =>
    obtain ⟨exploit, g⟩ := drawn
    have hvictim : t.victimOf exploit g =
        if exploit then (worst? t.candidates, g) else g.choose? t.candidates := rfl
    simp only [hchance, bind, Except.bind, ← hvictim] at h
    generalize hv : t.victimOf exploit g = chosen at h
    obtain ⟨victim, g'⟩ := chosen
    cases victim with
    | none =>
      cases h
      exact ⟨rfl, exploit, g, by rw [hv]⟩
    | some victim =>
      cases h
      exact ⟨rfl, exploit, g, by rw [hv]⟩

section Report

variable {t t' : ReplacementTrainer} {agent : AgentId}

theorem get?_keepScore (t : ReplacementTrainer) (agent : AgentId) (score : Word)
    (other : AgentId) :
    (t.keepScore agent score).organisms.get? other =
      if other = agent then
        (t.organisms.get? other).map fun organism => { organism with score := some score }
      else t.organisms.get? other := by
  unfold keepScore
  by_cases ho : other = agent
  · subst ho
    cases h : t.organisms.get? other <;> simp [h]
  · cases h : t.organisms.get? agent <;> simp [ho]

theorem keepScore_eq (t : ReplacementTrainer) (agent : AgentId) (score : Word) :
    t.keepScore agent score = { t with organisms := (t.keepScore agent score).organisms } := by
  unfold keepScore
  split <;> rfl

/-- Whether the next report is the last of an interval. -/
def isDue (t : ReplacementTrainer) : Bool :=
  t.settings.replacementInterval > 0 && addCapped32 t.reports 1 ≥ t.settings.replacementInterval

/-- A report keeps the score, and the last one of an interval makes a withdrawal. -/
theorem report_cases {fitness : List Word} (hr : t.report agent fitness = .ok t') :
    t'.organisms = (t.keepScore agent (.sum fitness)).organisms ∧
      if t.isDue then
        ∃ scored exploit g,
          scored.organisms = (t.keepScore agent (.sum fitness)).organisms ∧
          scored.withdrawn = t.withdrawn ∧
          t'.withdrawn = match (victimOf scored exploit g).1 with
            | none => t.withdrawn
            | some victim => t.withdrawn.insert victim.1 ()
      else t'.withdrawn = t.withdrawn := by
  unfold ReplacementTrainer.report at hr
  rw [keepScore_eq] at hr
  cases hdue : t.isDue with
  | false =>
    unfold isDue at hdue
    simp only [hdue, Bool.false_eq_true, ↓reduceIte, Except.ok.injEq] at hr ⊢
    subst hr
    exact ⟨rfl, rfl⟩
  | true =>
    unfold isDue at hdue
    simp only [hdue, ↓reduceIte] at hr ⊢
    obtain ⟨horganisms, exploit, g, hwithdrawn⟩ := withdrawOne_cases hr
    exact ⟨horganisms,
      { t with organisms := (t.keepScore agent (.sum fitness)).organisms, reports := 0 },
      exploit, g, rfl, rfl, hwithdrawn⟩

/-- If nobody has a score, the agent of a report is the only candidate after it. -/
theorem Idle.candidate (h : Idle (fun _ => True) t) {score : Word} {scored : ReplacementTrainer}
    (horganisms : scored.organisms = (t.keepScore agent score).organisms)
    (hwithdrawn : scored.withdrawn = t.withdrawn) {victim : AgentId × Word} :
    victim ∈ scored.candidates ↔
      t.organisms.contains agent = true ∧ victim = (agent, score) := by
  obtain ⟨id, s⟩ := victim
  rw [mem_candidates_iff, horganisms, hwithdrawn, h.held id trivial, get?_keepScore]
  by_cases hid : id = agent
  · subst hid
    cases ho : t.organisms.get? id with
    | none => simp [IdMap.contains, ho]
    | some organism => simp [IdMap.contains, ho, eq_comm]
  · rw [if_neg hid]
    refine ⟨?_, fun hsame => absurd (congrArg Prod.fst hsame.2) hid⟩
    rintro ⟨-, organism, hget, hscore⟩
    rw [h.unscored id organism trivial hget] at hscore
    cases hscore

theorem Idle.candidates_eq (h : Idle (fun _ => True) t) {score : Word}
    {scored : ReplacementTrainer}
    (horganisms : scored.organisms = (t.keepScore agent score).organisms)
    (hwithdrawn : scored.withdrawn = t.withdrawn) :
    scored.candidates = if t.organisms.contains agent then [(agent, score)] else [] := by
  split
  · rename_i hc
    exact candidates_eq_singleton fun candidate => by
      rw [h.candidate horganisms hwithdrawn]
      exact and_iff_right hc
  · rename_i hc
    refine List.eq_nil_iff_forall_not_mem.2 fun candidate hcandidate => hc ?_
    exact ((h.candidate horganisms hwithdrawn).1 hcandidate).1

/-- If nobody has a score, what was reported leaves no trace once its agent has a fresh organism:
neither who is withdrawn nor the draws depend on it. -/
theorem Idle.renewed_eq (h : Idle (fun _ => True) t) (fitness fitness' : List Word) :
    (t.report agent fitness).map (Trainer.nextOrganism · agent) =
      (t.report agent fitness').map (Trainer.nextOrganism · agent) := by
  have hrenewed (score score' : Word) (organism : Organism) :
      (t.keepScore agent score).organisms.insert agent organism =
        (t.keepScore agent score').organisms.insert agent organism := by
    refine IdMap.ext_get? fun other => ?_
    simp only [IdMap.get?_insert, get?_keepScore]
    split <;> rfl
  let scored (score : Word) : ReplacementTrainer :=
    { t with organisms := (t.keepScore agent score).organisms, reports := 0 }
  have hcandidates (score : Word) : (scored score).candidates =
      if t.organisms.contains agent then [(agent, score)] else [] := h.candidates_eq rfl rfl
  have hwithdrawn (score score' : Word) :
      (scored score).withdrawOne.map (Trainer.nextOrganism · agent) =
        (scored score').withdrawOne.map (Trainer.nextOrganism · agent) := by
    unfold withdrawOne
    rw [hcandidates score, hcandidates score']
    dsimp only [scored]
    cases t.generator.chance t.settings.exploitProbability with
    | error e => rfl
    | ok drawn =>
      obtain ⟨exploit, g⟩ := drawn
      cases exploit <;> cases t.organisms.contains agent <;>
        simp [bind, Except.bind, Except.map, pure, Except.pure, worst?, Generator.choose?,
          Generator.below32_one, Trainer.nextOrganism, hrenewed score score']
  unfold ReplacementTrainer.report
  rw [keepScore_eq t agent (.sum fitness), keepScore_eq t agent (.sum fitness')]
  dsimp only
  split
  · exact hwithdrawn _ _
  · simp only [Except.map, Trainer.nextOrganism, hrenewed (.sum fitness) (.sum fitness')]

/-- If nobody has a score, a report withdraws nobody or the agent it is about. -/
theorem Idle.report (h : Idle (fun _ => True) t) {fitness : List Word}
    (hr : t.report agent fitness = .ok t') :
    (∀ other, t'.organisms.contains other = t.organisms.contains other) ∧
      Idle (· ≠ agent) t' := by
  obtain ⟨horganisms, hcases⟩ := report_cases hr
  refine ⟨fun other => ?_, fun other hother => ?_, fun other organism hother hget => ?_⟩
  · unfold IdMap.contains
    rw [horganisms, get?_keepScore]
    split <;> simp
  · split at hcases
    · obtain ⟨scored, exploit, g, hkept, hheld, hwithdrawn⟩ := hcases
      rw [hwithdrawn]
      cases hvictim : (scored.victimOf exploit g).1 with
      | none => exact h.held other trivial
      | some victim =>
        obtain ⟨-, rfl⟩ := (h.candidate hkept hheld).1 (victimOf_mem hvictim)
        simp [IdMap.contains_insert, hother, h.held other trivial]
    · rw [hcases]
      exact h.held other trivial
  · rw [horganisms, get?_keepScore, if_neg hother] at hget
    exact h.unscored other organism trivial hget

/-- If nobody has a score, the last report of an interval withdraws the agent it is about. -/
theorem Idle.report_due (h : Idle (fun _ => True) t) {fitness : List Word}
    (hr : t.report agent fitness = .ok t') (hdue : t.isDue = true)
    (hc : t.organisms.contains agent = true) : t'.withdrawn.contains agent = true := by
  obtain ⟨-, hcases⟩ := report_cases hr
  rw [if_pos hdue] at hcases
  obtain ⟨scored, exploit, g, hkept, hheld, hwithdrawn⟩ := hcases
  have hsingle : scored.candidates = [(agent, .sum fitness)] :=
    (h.candidates_eq hkept hheld).trans (if_pos hc)
  rw [hwithdrawn, victimOf_singleton hsingle]
  simp [IdMap.contains_insert]

theorem Idle.nextOrganism (h : Idle (· ≠ agent) t) :
    Idle (fun _ => True) (Trainer.nextOrganism t agent) := by
  constructor
  · intro other _
    simp only [Trainer.nextOrganism, IdMap.contains_erase]
    by_cases ho : other = agent
    · simp [ho]
    · simp [h.held other ho]
  · intro other organism _ hget
    simp only [Trainer.nextOrganism, IdMap.get?_insert] at hget
    split at hget
    · cases hget
      rfl
    · rename_i ho
      exact h.unscored other organism ho hget

end Report

end ReplacementTrainer

end FlagCombat
