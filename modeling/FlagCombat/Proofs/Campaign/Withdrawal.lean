import FlagCombat.Proofs.Campaign.Settled

/-!
Withdrawals in a campaign. Only the agent of a report has a score when the report makes its
withdrawal, so it is that agent that loses its organism, and it gets its next one in the same turn.
No check finds an organism withdrawn, and episodes end for the steps or the damage.
-/

namespace FlagCombat

namespace Campaign

/-- An order to a campaign. -/
inductive Order where
  | spawn (team : Team) (group : Group) (pose : Pose)
  | despawn (agent : AgentId)
  | tick (number : UInt64) (point : SpawnPoint)
deriving DecidableEq

/-- A check of an episode: the slot of the agent, and the battle in which it is made. -/
structure Check (H : Type) where
  slot : Slot
  battle : Battle H ReplacementTrainer

namespace Check

variable {H : Type}

def agent (k : Check H) : AgentId := k.slot.handle.id

/-- An episode that its steps or its damage end. -/
def Spent (k : Check H) : Prop :=
  let record := k.battle.combatants.get? k.agent
  k.slot.handle.group.isMobile = true ∧
    (k.battle.profile.lifetime ≠ 0 ∧ k.battle.profile.lifetime ≤ k.slot.handle.step ∨
      k.battle.profile.hitPoints ≠ 0 ∧
        k.battle.profile.hitPoints ≤ (record.map Combatant.totalDamage).getD 0)

variable [Host H]

/-- What the check answers. -/
def verdict? (k : Check H) : Option Bool :=
  (k.battle.isEpisodeOver k.slot.handle).toOption.map (·.1)

/-- The trainer before and after the report that a check leads to. -/
def report? (k : Check H) : Option (ReplacementTrainer × ReplacementTrainer) :=
  match k.battle.isEpisodeOver k.slot.handle with
  | .ok (true, b) =>
    (Trainer.reportFitness b.trainer k.agent k.slot.episodeFitness).toOption.map (b.trainer, ·)
  | _ => none

/-- Whether that report withdraws the organism of an agent. -/
def selects (k : Check H) (victim : AgentId) : Bool :=
  k.report?.any fun (before, after) =>
    !before.withdrawn.contains victim && after.withdrawn.contains victim

/-- Whether that report is the last of its interval. -/
def endsInterval (k : Check H) : Bool := k.report?.any fun (before, _) => before.isDue

end Check

variable {H T P : Type} [Host H] [Policy P]

def obey [Trainer T] : Order → Action H T P Unit
  | .spawn team group pose => do let _ ← spawn team group pose
  | .despawn agent => despawn agent
  | .tick number point => do let _ ← tick number point

def obeyAll [Trainer T] : List Order → Action H T P Unit
  | [] => pure ()
  | order :: orders => do
    obey order
    obeyAll orders

/-- The checks of some agents' turns, up to the first turn that fails. -/
def checks : List AgentId → Campaign H ReplacementTrainer P → List (Check H)
  | [], _ => []
  | agent :: rest, c =>
    (c.roster.get? agent).toList.map (⟨·, c.battle⟩) ++
      match stepAgent agent c with
      | .ok _ c => checks rest c
      | .error _ _ => []

/-- The checks of a run, up to the first order that fails. -/
def log : List Order → Campaign H ReplacementTrainer P → List (Check H)
  | [], _ => []
  | order :: orders, c =>
    (match order with
      | .tick number _ => checks c.roster.keys { c with battle := c.battle.beginTick number }
      | _ => []) ++
      match obey order c with
      | .ok _ c => log orders c
      | .error _ _ => []

/-- Whoever is withdrawn in a log is still withdrawn at the next check of its episode, and the check
ends the episode. -/
def TakesEffect (log : List (Check H)) : Prop :=
  ∀ earlier k later victim next, log = earlier ++ k :: later → k.selects victim = true →
    later.find? (·.agent = victim) = some next →
      next.battle.trainer.withdrawn.contains victim = true ∧ next.verdict? = some true

/-- A campaign that nobody has joined. -/
def fresh (profile : Profile) (host : H) (settings : TrainerSettings) (trainerSeed seed : UInt64)
    (policy : P) : Campaign H ReplacementTrainer P where
  battle := .start profile host (.ofSeed settings trainerSeed) seed
  roster := .empty
  policy := policy

omit [Host H] [Policy P] in
theorem rest_fresh (profile : Profile) (host : H) (settings : TrainerSettings)
    (trainerSeed seed : UInt64) (policy : P) :
    Rest (fresh profile host settings trainerSeed seed policy) := by
  refine ⟨fun agent slot hslot => ?_, fun agent hagent => ?_, ⟨fun agent _ => rfl,
    fun agent organism _ ho => ?_⟩, fun agent record _ hrecord => ?_⟩
  · cases hslot
  · cases hagent
  · cases ho
  · cases hrecord

/-- A check that a campaign makes between two turns, in a turn that succeeds. -/
def Check.Made (P : Type) [Policy P] (k : Check H) : Prop :=
  ∃ (c c' : Campaign H ReplacementTrainer P) (ended : Bool), Rest c ∧
    c.roster.get? k.agent = some k.slot ∧ c.battle = k.battle ∧ stepAgent k.agent c = .ok ended c'

section Log

variable {c c' : Campaign H ReplacementTrainer P} {k : Check H}

theorem Settled.obey {order : Order} (h : Rest c) (hobey : obey order c = .ok () c') : Rest c' := by
  cases order with
  | spawn team group pose =>
    obtain ⟨agent, c₁, hspawn, hobey⟩ := bind_ok hobey
    cases hobey
    exact h.spawn hspawn
  | despawn agent => exact h.despawn hobey
  | tick number point =>
    obtain ⟨summary, c₁, htick, hobey⟩ := bind_ok hobey
    cases hobey
    exact h.tick htick

/-- A turn that succeeds says what its check answered. -/
theorem stepAgent_check {agent : AgentId} {slot : Slot} {ended : Bool}
    (hslot : c.roster.get? agent = some slot) (hstep : stepAgent agent c = .ok ended c') :
    ∃ b, c.battle.isEpisodeOver slot.handle = .ok (ended, b) := by
  unfold stepAgent at hstep
  obtain ⟨_, c₁, hget, hstep⟩ := bind_ok hstep
  cases hget
  simp only [hslot] at hstep
  obtain ⟨isOver, c₂, hcheck, hstep⟩ := bind_ok hstep
  obtain ⟨b, hb, rfl⟩ := call_ok hcheck
  have hended : ended = isOver := by
    cases isOver with
    | false =>
      obtain ⟨_, c₃, hsame, hstep⟩ := bind_ok hstep
      obtain ⟨_, c₄, hplay, hstep⟩ := bind_ok hstep
      cases hstep
      rfl
    | true =>
      obtain ⟨_, c₃, hturn, hstep⟩ := bind_ok hstep
      obtain ⟨_, c₄, hplay, hstep⟩ := bind_ok hstep
      cases hstep
      rfl
  exact ⟨b, hended ▸ hb⟩

theorem Settled.mem_checks {agents : List AgentId} {ended : Nat} (h : Rest c)
    (hsteps : Campaign.stepAgents agents c = .ok ended c') (hk : k ∈ checks agents c) : k.Made P := by
  induction agents generalizing c ended with
  | nil => cases hk
  | cons agent rest ih =>
    obtain ⟨isOver, c₁, hfirst, hsteps⟩ := bind_ok hsteps
    obtain ⟨others, c₂, hrest, hsteps⟩ := bind_ok hsteps
    cases hsteps
    simp only [checks, hfirst, List.mem_append, List.mem_map, Option.mem_toList] at hk
    rcases hk with ⟨slot, hslot, rfl⟩ | hk
    · have hid : slot.handle.id = agent := h.handle_id agent slot hslot
      refine ⟨c, c₁, isOver, h, ?_, rfl, ?_⟩
      · rw [Check.agent, hid]
        exact hslot
      · rw [Check.agent, hid]
        exact hfirst
    · exact ih (h.stepAgent hfirst) hrest hk

theorem Settled.mem_log {orders : List Order} (h : Rest c) (hrun : obeyAll orders c = .ok () c')
    (hk : k ∈ log orders c) : k.Made P := by
  induction orders generalizing c with
  | nil => cases hk
  | cons order orders ih =>
    obtain ⟨_, c₁, hobey, hrun⟩ := bind_ok hrun
    simp only [log, hobey, List.mem_append] at hk
    rcases hk with hk | hk
    · cases order with
      | spawn team group pose => cases hk
      | despawn agent => cases hk
      | tick number point =>
        obtain ⟨summary, c₂, htick, hobey⟩ := bind_ok hobey
        obtain ⟨ended, c₃, hsteps, -⟩ := tick_ok htick
        exact (h.beginTick number).mem_checks hsteps hk
    · exact ih (h.obey hobey) hrun hk

end Log

namespace Check.Made

variable {k : Check H} (h : k.Made P)

include h

theorem check_ok : ∃ isOver b, k.battle.isEpisodeOver k.slot.handle = .ok (isOver, b) ∧
    b.trainer = k.battle.trainer := by
  obtain ⟨c, c', ended, -, hslot, hbattle, hstep⟩ := h
  obtain ⟨b, hb⟩ := stepAgent_check hslot hstep
  rw [hbattle] at hb
  obtain ⟨e, record, henroll, -, -, hafter⟩ := Battle.isEpisodeOver_cases hb
  have hsame : e.trainer = k.battle.trainer := Battle.trainer_enroll henroll
  exact ⟨ended, b, hb, by rw [hafter]; exact hsame⟩

theorem idle : ReplacementTrainer.Idle (fun _ => True) k.battle.trainer := by
  obtain ⟨c, c', ended, hrest, -, hbattle, -⟩ := h
  rw [← hbattle]
  exact hrest.idle

theorem issued : k.battle.trainer.organisms.contains k.agent = true := by
  obtain ⟨c, c', ended, hrest, hslot, hbattle, -⟩ := h
  rw [← hbattle]
  exact hrest.issued k.agent (by simp [IdMap.contains, hslot])

theorem running : Battle.Running (fun _ => True) k.battle := by
  obtain ⟨c, c', ended, hrest, -, hbattle, -⟩ := h
  rw [← hbattle]
  exact hrest.running

/-- The check ends an episode that is spent, and no other. -/
theorem verdict : k.verdict? = some true ↔ k.Spent := by
  obtain ⟨isOver, b, hcheck, -⟩ := h.check_ok
  have hheld : Trainer.hasOrganism k.battle.trainer k.slot.handle.id = true := by
    have hnone := h.idle.held k.slot.handle.id trivial
    simp [Trainer.hasOrganism, hnone]
  have hverdict := h.running.verdict trivial hheld hcheck
  unfold verdict?
  rw [hcheck, Except.toOption, Option.map_some, Option.some.injEq]
  exact hverdict

/-- A report that a check leads to is made with the trainer of the check. -/
theorem report_ok {before after : ReplacementTrainer} (hr : k.report? = some (before, after)) :
    before = k.battle.trainer ∧
      before.report k.agent (k.slot.episodeFitness.map .ofFloat) = .ok after := by
  obtain ⟨isOver, b, hcheck, htrainer⟩ := h.check_ok
  unfold report? at hr
  rw [hcheck] at hr
  cases isOver with
  | false => cases hr
  | true =>
    dsimp only at hr
    cases hreport : Trainer.reportFitness b.trainer k.agent k.slot.episodeFitness with
    | error e =>
      rw [hreport] at hr
      cases hr
    | ok trainer =>
      rw [hreport] at hr
      cases hr
      exact ⟨htrainer, hreport⟩

/-- A report withdraws the agent it is about if it ends an interval, and nobody otherwise. -/
theorem selects_iff (victim : AgentId) :
    k.selects victim = true ↔ victim = k.agent ∧ k.endsInterval = true := by
  unfold selects endsInterval
  simp only [Option.any_eq_true, Prod.exists, Bool.and_eq_true, Bool.not_eq_true']
  constructor
  · rintro ⟨before, after, hr, hheld, hwithdrawn⟩
    obtain ⟨rfl, hafter⟩ := h.report_ok hr
    have hvictim : victim = k.agent := by
      refine Decidable.byContradiction fun hother => ?_
      have hkept := (h.idle.report hafter).2.held victim hother
      rw [hkept] at hwithdrawn
      cases hwithdrawn
    refine ⟨hvictim, _, after, hr, Decidable.byContradiction fun hdue => ?_⟩
    have hsame := (ReplacementTrainer.report_cases hafter).2
    rw [if_neg hdue] at hsame
    rw [hsame, hheld] at hwithdrawn
    cases hwithdrawn
  · rintro ⟨rfl, before, after, hr, hdue⟩
    obtain ⟨rfl, hafter⟩ := h.report_ok hr
    exact ⟨_, after, hr, h.idle.held k.agent trivial, h.idle.report_due hafter hdue h.issued⟩

end Check.Made

/-- Withdrawals take effect only in runs in which nobody whose report ended an interval is checked
again: such a report withdraws its own agent, no check finds an organism withdrawn, and an episode
ends exactly when it is spent. -/
theorem withdrawal_undone (profile : Profile) (host : H) (settings : TrainerSettings)
    (trainerSeed seed : UInt64) (policy : P) (orders : List Order)
    {c : Campaign H ReplacementTrainer P}
    (hrun : obeyAll orders (fresh profile host settings trainerSeed seed policy) = .ok () c) :
    let log := log orders (fresh profile host settings trainerSeed seed policy)
    (TakesEffect log ↔ ∀ earlier k later, log = earlier ++ k :: later →
      k.endsInterval = true → ∀ next ∈ later, next.agent ≠ k.agent) ∧
    ∀ k ∈ log, (∀ victim, k.selects victim = true ↔ victim = k.agent ∧ k.endsInterval = true) ∧
      (∀ agent, k.battle.trainer.withdrawn.contains agent = false) ∧
      (k.verdict? = some true ↔ k.Spent) := by
  intro log
  have hmade (k : Check H) (hk : k ∈ log) : k.Made P := (rest_fresh _ _ _ _ _ _).mem_log hrun hk
  refine ⟨⟨fun heffect earlier k later hlog hends next hnext hagent => ?_,
    fun halone earlier k later victim next hlog hselects hfind => ?_⟩, fun k hk =>
    ⟨(hmade k hk).selects_iff, fun agent => (hmade k hk).idle.held agent trivial,
      (hmade k hk).verdict⟩⟩
  -- A report that ends an interval does withdraw its agent, and the next check finds it held again.
  · have hk : k ∈ log := by simp [hlog]
    have hselects := ((hmade k hk).selects_iff k.agent).2 ⟨rfl, hends⟩
    have hagain : (later.find? (·.agent = k.agent)).isSome = true :=
      List.find?_isSome.2 ⟨next, hnext, decide_eq_true hagent⟩
    obtain ⟨found, hfind⟩ := Option.isSome_iff_exists.1 hagain
    have hfound : found ∈ log := by
      rw [hlog]
      exact List.mem_append_right _ (List.mem_cons_of_mem _ (List.mem_of_find?_eq_some hfind))
    have hwithdrawn := (heffect earlier k later k.agent found hlog hselects hfind).1
    rw [(hmade found hfound).idle.held k.agent trivial] at hwithdrawn
    cases hwithdrawn
  · have hk : k ∈ log := by simp [hlog]
    obtain ⟨rfl, hends⟩ := ((hmade k hk).selects_iff victim).1 hselects
    have hagent : next.agent = k.agent := by simpa using List.find?_some hfind
    exact absurd hagent (halone earlier k later hlog hends next (List.mem_of_find?_eq_some hfind))

/-- A sentry that holds still. Its second episode ends an interval of two reports. -/
def sentry : List Order :=
  let point : SpawnPoint := ⟨.zero, ⟨400.0, 200.0, 90.0⟩⟩
  .spawn point.team .agent point.pose :: (List.range 6).map fun n => .tick (.ofNat n) point

def vigil : Campaign OpenField ReplacementTrainer HoldPolicy :=
  fresh { lifetime := 2, spawnJitter := 0 } {}
    { populationSize := 0, exploitProbability := 1.0, replacementInterval := 2 } 0 0 {}

theorem withdrawal_undone_sentry :
    (∃ c, obeyAll sentry vigil = .ok () c) ∧ ¬TakesEffect (log sentry vigil) := by
  have hrun : ∃ c, obeyAll sentry vigil = .ok () c := by
    have hok : (match obeyAll sentry vigil with
      | .ok _ _ => true
      | .error _ _ => false) = true := by decide +kernel
    split at hok
    · rename_i c hc
      exact ⟨c, hc⟩
    · cases hok
  refine ⟨hrun, fun heffect => ?_⟩
  obtain ⟨c, hc⟩ := hrun
  have hsentry : (log sentry vigil).all (fun k => k.agent = ⟨1⟩) = true := by decide +kernel
  have hends : (log sentry vigil).map Check.endsInterval =
      [false, false, false, false] ++ [true, false] := by decide +kernel
  obtain ⟨earlier, rest, hlog, -, hrest⟩ := List.map_eq_append_iff.1 hends
  obtain ⟨k, later, rfl, hk, hlater⟩ := List.map_eq_cons_iff.1 hrest
  obtain ⟨next, last, rfl, -, -⟩ := List.map_eq_cons_iff.1 hlater
  have halone := (withdrawal_undone _ _ _ _ _ _ sentry hc).1.1 heffect earlier k _ hlog hk next
    List.mem_cons_self
  simp only [hlog, List.all_append, List.all_cons, Bool.and_eq_true, decide_eq_true_eq] at hsentry
  exact halone (hsentry.2.2.1.trans hsentry.2.1.symm)

end Campaign

end FlagCombat
