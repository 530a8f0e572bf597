import FlagCombat.Proofs.Campaign.Conserved
import FlagCombat.Proofs.Campaign.Life
import Mathlib.Data.List.DropRight

/-!
What agents earn. The rewards of an episode are those that its steps returned, in order; the policy
is told the last of them, and the trainer their sums, dimension by dimension, when the episode ends.
Nothing earned is dropped, counted twice, or kept for the next episode.
-/

namespace FlagCombat

/-- The sums of reward vectors, dimension by dimension, from zero and in order. -/
def columnSums (dimensions : Nat) (rewards : List (List Float)) : List Float :=
  (List.range dimensions).map fun k =>
    (rewards.map fun reward => reward.getD k 0.0).foldl (· + ·) 0.0

theorem length_columnSums (dimensions : Nat) (rewards : List (List Float)) :
    (columnSums dimensions rewards).length = dimensions := by
  simp [columnSums]

theorem accumulate_eq_zipWith {totals reward : List Float} (h : totals.length = reward.length) :
    accumulate totals reward = List.zipWith (· + ·) totals reward := by
  induction totals generalizing reward with
  | nil =>
    have hnone : reward = [] := List.eq_nil_of_length_eq_zero h.symm
    subst hnone
    rfl
  | cons total totals ih =>
    cases reward with
    | nil => cases h
    | cons score reward => exact congrArg _ (ih (Nat.succ.inj h))

/-- Totals of the length of the rewards grow by the rewards, slot by slot. -/
theorem foldl_accumulate {dimensions : Nat} {rewards : List (List Float)} {totals : List Float}
    (htotals : totals.length = dimensions) (hrewards : ∀ r ∈ rewards, r.length = dimensions) :
    rewards.foldl accumulate totals = (List.range dimensions).map fun k =>
      (rewards.map fun reward => reward.getD k 0.0).foldl (· + ·) (totals.getD k 0.0) := by
  induction rewards generalizing totals with
  | nil =>
    subst htotals
    apply List.ext_getElem
    · simp
    · intro k hk _
      have hk : k < totals.length := hk
      simp [hk]
  | cons reward rewards ih =>
    have hlength : reward.length = dimensions := hrewards reward List.mem_cons_self
    have hsame : totals.length = reward.length := htotals.trans hlength.symm
    have hgrown : (accumulate totals reward).length = dimensions := by
      rw [accumulate_eq_zipWith hsame, List.length_zipWith]
      omega
    rw [List.foldl_cons, ih hgrown fun r hr => hrewards r (List.mem_cons_of_mem _ hr)]
    refine List.map_congr_left fun k hk => ?_
    have hk : k < dimensions := List.mem_range.1 hk
    have hslot : (accumulate totals reward).getD k 0.0 =
        totals.getD k 0.0 + reward.getD k 0.0 := by
      have hfirst : k < totals.length := by omega
      have hsecond : k < reward.length := by omega
      rw [accumulate_eq_zipWith hsame, List.getD_eq_getElem?_getD, List.getElem?_zipWith]
      simp [hfirst, hsecond]
    rw [hslot]
    rfl

/-- The first reward starts the totals, from zero. -/
theorem foldl_accumulate_nil {dimensions : Nat} {rewards : List (List Float)}
    (hsome : rewards ≠ []) (hrewards : ∀ r ∈ rewards, r.length = dimensions) :
    rewards.foldl accumulate [] = columnSums dimensions rewards := by
  cases rewards with
  | nil => exact absurd rfl hsome
  | cons reward rewards =>
    have hlength : reward.length = dimensions := hrewards reward List.mem_cons_self
    have hfirst : accumulate [] reward = reward.map (0.0 + ·) := by
      cases reward <;> rfl
    have hstart : (reward.map (0.0 + ·)).length = dimensions := by simpa using hlength
    rw [List.foldl_cons, hfirst,
      foldl_accumulate hstart fun r hr => hrewards r (List.mem_cons_of_mem _ hr)]
    refine List.map_congr_left fun k hk => ?_
    have hk : k < reward.length := hlength ▸ List.mem_range.1 hk
    simp [List.getD_eq_getElem?_getD, hk]

theorem getLast?_of_ne_nil {rewards : List (List Float)} (h : rewards ≠ []) :
    rewards.getLast? = some (rewards.getLast?.getD []) := by
  rw [List.getLast?_eq_some_getLast h]
  rfl

namespace Campaign

variable {H T P : Type} [Host H] [Trainer T]

omit [Host H] [Trainer T] in
def Request.isReport : Request → Bool
  | .report _ _ => true
  | _ => false

/-- The reward that a step returned. -/
def Event.reward? (e : Event H T) : Option (List Float) :=
  match e.request with
  | .step agent action => (e.battle.step agent action).toOption.map (·.1)
  | _ => none

/-- The part of an agent's journal since its last report. -/
def openEpisode (events : List (Event H T)) : List (Event H T) :=
  events.rtakeWhile fun e => !e.request.isReport

/-- The rewards of the open episode. -/
def earned (events : List (Event H T)) : List (List Float) :=
  (openEpisode events).filterMap Event.reward?

theorem earned_concat (events : List (Event H T)) (e : Event H T) :
    earned (events ++ [e]) = if e.request.isReport then [] else earned events ++ e.reward?.toList := by
  unfold earned openEpisode
  cases h : e.request.isReport with
  | true => simp [List.rtakeWhile_concat_neg, h]
  | false =>
    rw [List.rtakeWhile_concat_pos _ _ _ (by simp [h]), List.filterMap_append]
    cases hr : e.reward? <;> simp [hr]

/-- What a slot holds is what its agent earned, and how often. -/
structure Booked (events : List (Event H T)) (slot : Slot) : Prop where
  last : slot.lastReward = (earned events).getLast?.getD []
  total : slot.episodeFitness = (earned events).foldl accumulate []
  step : slot.handle.step.toNat = min (earned events).length (UInt64.size - 1)

/-- What an event says of the rewards before it. -/
def Honest (earlier : List (Event H T)) (e : Event H T) : Prop :=
  match e.request with
  | .act _ _ reward => (earned earlier).getLast? = some reward
  | .finish _ reward => reward = (earned earlier).getLast?.getD []
  | .report _ fitness => fitness = (earned earlier).foldl accumulate []
  | .step _ _ => e.reward?.isSome = true
  | _ => True

section Booked

variable {past events : List (Event H T)} {slot slot' : Slot} {e : Event H T}

/-- What is neither a step nor a report leaves the books as they are. -/
theorem Booked.other (h : Booked past slot) (hreport : e.request.isReport = false)
    (hr : e.reward? = none) : Booked (past ++ [e]) slot := by
  have hsame : earned (past ++ [e]) = earned past := by simp [earned_concat, hreport, hr]
  exact ⟨hsame ▸ h.last, hsame ▸ h.total, hsame ▸ h.step⟩

theorem Booked.stepped (h : Booked past slot) {action reward : List Float} {b b' : Battle H T}
    (hstep : b.step slot.handle action = .ok (reward, b')) :
    Booked (past ++ [⟨.step slot.handle action, b⟩]) (slot.stepped reward) := by
  have hearned : earned (past ++ [⟨.step slot.handle action, b⟩]) = earned past ++ [reward] := by
    simp [earned_concat, Event.reward?, Request.isReport, hstep, Except.toOption]
  constructor
  · simp [hearned, Slot.stepped]
  · simp [hearned, Slot.stepped, h.total]
  · have hone : (1 : UInt64).toNat = 1 := rfl
    simp only [hearned, Slot.stepped, toNat_addCapped64, h.step, List.length_append,
      List.length_singleton, hone]
    omega

/-- An agent that is told a reward has earned it last. -/
theorem Booked.decides (h : Booked past slot) (observations : List Float) (b : Battle H T) :
    Honest past ⟨decision slot observations, b⟩ ∧
      Booked (past ++ [⟨decision slot observations, b⟩]) slot := by
  unfold decision
  by_cases hfirst : slot.handle.step = 0
  · rw [if_pos hfirst]
    exact ⟨trivial, h.other rfl rfl⟩
  · rw [if_neg hfirst]
    refine ⟨?_, h.other rfl rfl⟩
    have hsome : earned past ≠ [] := by
      intro hnone
      have hzero : slot.handle.step.toNat = 0 := by simp [h.step, hnone]
      exact hfirst (UInt64.toNat_inj.1 hzero)
    show (earned past).getLast? = some slot.lastReward
    rw [h.last]
    exact getLast?_of_ne_nil hsome

theorem Booked.played (h : Booked past slot) (hplayed : Played slot events slot') :
    Throughout Honest past events ∧ Booked (past ++ events) slot' := by
  obtain @⟨readings, observations, action, reward, b₁, b₂, b₃, b₄, hstep⟩ := hplayed
  have hsense : Booked (past ++ [⟨.sense slot.handle readings, b₁⟩]) slot := h.other rfl rfl
  obtain ⟨hhonest, hdecide⟩ := hsense.decides observations b₂
  have hstepped := hdecide.stepped hstep
  have hreward : Honest (past ++ [⟨.sense slot.handle readings, b₁⟩] ++
      [⟨decision slot observations, b₂⟩]) ⟨.step slot.handle action, b₃⟩ := by
    simp [Honest, Event.reward?, hstep, Except.toOption]
  refine ⟨⟨trivial, hhonest, hreward, trivial⟩, ?_⟩
  simpa using hstepped

/-- A turn keeps the books, and is honest about them. -/
theorem Booked.turned (h : Booked past slot) {ended : Bool}
    (hturned : Turned slot ended events slot') :
    Throughout Honest past events ∧ Booked (past ++ events) slot' := by
  cases hturned with
  | @goesOn b b' events _ hcheck hplay =>
    have hchecked : Booked (past ++ [⟨.check slot.handle, b⟩]) slot := h.other rfl rfl
    obtain ⟨hhonest, hplayed⟩ := hchecked.played hplay
    exact ⟨⟨trivial, hhonest⟩, by simpa using hplayed⟩
  | @renews b b' b₂ b₃ events _ hcheck hplay =>
    have hchecked : Booked (past ++ [⟨.check slot.handle, b⟩]) slot := h.other rfl rfl
    have hfinished := hchecked.other (e := ⟨.finish slot.handle slot.lastReward, b'⟩) rfl rfl
    have hnone : earned (past ++ [⟨.check slot.handle, b⟩] ++
        [⟨.finish slot.handle slot.lastReward, b'⟩] ++
        [⟨.report slot.handle.id slot.episodeFitness, b₂⟩]) = [] := by
      rw [earned_concat]
      rfl
    have hrenewed : Booked (past ++ [⟨.check slot.handle, b⟩] ++
        [⟨.finish slot.handle slot.lastReward, b'⟩] ++
        [⟨.report slot.handle.id slot.episodeFitness, b₂⟩]) slot.renewed := by
      constructor <;> rw [hnone] <;> rfl
    have hreset := hrenewed.other (e := ⟨.reset slot.handle, b₃⟩) rfl rfl
    obtain ⟨hhonest, hplayed⟩ := hreset.played hplay
    exact ⟨⟨trivial, hchecked.last, hfinished.total, trivial, hhonest⟩, by simpa using hplayed⟩

/-- All through a life the books are kept, and told as they are. -/
theorem Lived.booked (h : Lived events slot) : Throughout Honest [] events ∧ Booked events slot := by
  induction h with
  | joined handle hfirst =>
    refine ⟨trivial, rfl, rfl, ?_⟩
    rw [hfirst]
    rfl
  | turned h hturned ih =>
    obtain ⟨hhonest, hbooked⟩ := ih
    obtain ⟨hmore, hturned⟩ := hbooked.turned hturned
    exact ⟨throughout_append.2 ⟨hhonest, hmore⟩, hturned⟩

end Booked

/-- A reward that is among the earnings was returned by a step. -/
theorem exists_step_of_earned {events : List (Event H T)} {reward : List Float}
    (h : reward ∈ earned events) : ∃ e ∈ events, e.reward? = some reward := by
  obtain ⟨e, he, hreward⟩ := List.mem_filterMap.1 h
  exact ⟨e, (List.rtakeWhile_suffix _ _).subset he, hreward⟩

theorem length_of_reward {e : Event H T} {reward : List Float} (h : e.reward? = some reward) :
    reward.length = e.battle.profile.dimensions.length := by
  unfold Event.reward? at h
  split at h
  · rename_i agent action hrequest
    cases hstep : e.battle.step agent action with
    | error err => simp [hstep, Except.toOption] at h
    | ok result =>
      simp only [hstep, Except.toOption, Option.map_some, Option.some.injEq] at h
      subst h
      exact Battle.length_of_step hstep
  · cases h

section Run

variable [Policy P]

/-- Fitness is what was earned. In a run of orders that succeed, whatever host hands out fresh ids,
whatever trainer and policy: every step returns a reward with an entry for each dimension; an action
is asked for with the reward of the step before it in the episode, and an episode is finished with
its last reward; what is reported of an episode with a step are the sums of the rewards since the
last report; and after the run a slot holds the sums of its open episode. -/
theorem fitness_exact (profile : Profile) (host : H) (trainer : T) (seed : UInt64) (policy : P)
    (orders : List Order) {c : Campaign H T P}
    (hrun : obeyAll orders (outset profile host trainer seed policy) = .ok () c)
    (hnew : (allArrivals orders (outset profile host trainer seed policy)).Nodup) :
    let past := journal orders (outset profile host trainer seed policy)
    let dimensions := profile.dimensions.length
    (∀ agent earlier e later, own agent past = earlier ++ e :: later →
      (∀ handle action, e.request = .step handle action →
        ∃ reward, e.reward? = some reward ∧ reward.length = dimensions) ∧
      (∀ handle observations reward, e.request = .act handle observations reward →
        (earned earlier).getLast? = some reward) ∧
      (∀ handle reward, e.request = .finish handle reward → earned earlier ≠ [] →
        (earned earlier).getLast? = some reward) ∧
      (∀ fitness, e.request = .report agent fitness → earned earlier ≠ [] →
        fitness = columnSums dimensions (earned earlier) ∧ fitness.length = dimensions)) ∧
    ∀ agent slot, c.roster.get? agent = some slot →
      (earned (own agent past) = [] → slot.episodeFitness = []) ∧
      (earned (own agent past) ≠ [] →
        slot.episodeFitness = columnSums dimensions (earned (own agent past))) := by
  intro past dimensions
  obtain ⟨known, hchronicle⟩ := chronicle_of_obeyAll hrun hnew
  have hlives := hchronicle.lives rfl
  have hlength (agent : AgentId) (e : Event H T) (he : e ∈ own agent past) (reward : List Float)
      (hreward : e.reward? = some reward) : reward.length = dimensions := by
    rw [length_of_reward hreward, hchronicle.profile.2 e (List.mem_filter.1 he).1]
    rfl
  have hrewards (agent : AgentId) (events : List (Event H T))
      (hsub : ∀ e ∈ events, e ∈ own agent past) (reward : List Float)
      (hreward : reward ∈ earned events) : reward.length = dimensions := by
    obtain ⟨e, he, hstep⟩ := exists_step_of_earned hreward
    exact hlength agent e (hsub e he) reward hstep
  constructor
  · intro agent earlier e later hsplit
    obtain ⟨slot, hlived⟩ := hlives.everybody agent
    have hhonest : Honest ([] ++ earlier) e := hlived.booked.1.split hsplit
    have hmem : e ∈ own agent past := by simp [hsplit]
    have hsub : ∀ e ∈ earlier, e ∈ own agent past := by
      intro e he
      simp [hsplit, he]
    unfold Honest at hhonest
    refine ⟨?steps, ?acts, ?ends, ?reports⟩
    case steps =>
      intro handle action hrequest
      rw [hrequest] at hhonest
      obtain ⟨reward, hreward⟩ := Option.isSome_iff_exists.1 hhonest
      exact ⟨reward, hreward, hlength agent e hmem reward hreward⟩
    case acts =>
      intro handle observations reward hrequest
      rw [hrequest] at hhonest
      exact hhonest
    case ends =>
      intro handle reward hrequest hsome
      rw [hrequest] at hhonest
      rw [hhonest]
      exact getLast?_of_ne_nil hsome
    case reports =>
      intro fitness hrequest hsome
      rw [hrequest] at hhonest
      have hsums : fitness = columnSums dimensions (earned earlier) :=
        hhonest.trans (foldl_accumulate_nil hsome (hrewards agent earlier hsub))
      exact ⟨hsums, by rw [hsums, length_columnSums]⟩
  · intro agent slot hslot
    obtain ⟨-, -, hlived⟩ := hlives.running agent slot hslot
    have htotal := hlived.booked.2.total
    constructor
    · intro hnone
      rw [htotal, hnone]
      rfl
    · intro hsome
      exact htotal.trans (foldl_accumulate_nil hsome (hrewards agent _ fun _ => id))

/-- A scout whose episodes last two steps. -/
def patrol : List Order :=
  let point : SpawnPoint := ⟨.zero, ⟨400.0, 200.0, 90.0⟩⟩
  [.spawn .zero .agent point.pose, .tick 0 point, .tick 1 point, .tick 2 point]

def scouting : Campaign OpenField FixedTrainer HoldPolicy :=
  outset { lifetime := 2, spawnJitter := 0 } {} {} 0 {}

theorem fitness_exact_patrol :
    ∃ earlier e later fitness, own ⟨1⟩ (journal patrol scouting) = earlier ++ e :: later ∧
      e.request = .report ⟨1⟩ fitness ∧ (earned earlier).length = 2 ∧
      fitness = columnSums 6 (earned earlier) := by
  have hrun : succeeds patrol scouting = true := by decide +kernel
  obtain ⟨c, hc⟩ := ok_of_succeeds hrun
  obtain ⟨hevents, -⟩ := fitness_exact _ _ _ _ _ patrol hc (by decide +kernel)
  have hkind : (own ⟨1⟩ (journal patrol scouting))[10]?.map (·.request.isReport) = some true := by
    decide +kernel
  have hearned : (earned ((own ⟨1⟩ (journal patrol scouting)).take 10)).length = 2 := by
    decide +kernel
  obtain ⟨e, he, hkind⟩ := Option.map_eq_some_iff.1 hkind
  have hmem := List.mem_of_getElem? he
  obtain ⟨hlength, he⟩ := List.getElem?_eq_some_iff.1 he
  have hsplit := (List.take_append_drop 10 (own ⟨1⟩ (journal patrol scouting))).symm
  rw [List.drop_eq_getElem_cons hlength, he] at hsplit
  have hmine : e.request.agent = ⟨1⟩ := by
    exact of_decide_eq_true (List.mem_filter.1 hmem).2
  obtain ⟨fitness, hrequest⟩ : ∃ fitness, e.request = .report ⟨1⟩ fitness := by
    cases hrequest : e.request with
    | report agent fitness =>
      rw [hrequest] at hmine
      exact ⟨fitness, congrArg (Request.report · fitness) hmine⟩
    | _ => simp [hrequest, Request.isReport] at hkind
  have hsome : earned ((own ⟨1⟩ (journal patrol scouting)).take 10) ≠ [] := by
    intro hnone
    rw [hnone] at hearned
    cases hearned
  obtain ⟨-, -, -, hsums⟩ := hevents ⟨1⟩ _ _ _ hsplit
  exact ⟨_, _, _, fitness, hsplit, hrequest, hearned, (hsums fitness hrequest hsome).1⟩

end Run

end Campaign

end FlagCombat
