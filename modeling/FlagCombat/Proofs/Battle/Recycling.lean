import FlagCombat.Proofs.Battle.Replacement
import FlagCombat.Proofs.Campaign.Breeding
import FlagCombat.Proofs.Draws
import Mathlib.Data.Int.ConditionallyCompleteOrder
import Mathlib.Data.List.Induction
import Mathlib.Data.List.MinMax
import Mathlib.Order.ConditionallyCompleteLattice.Basic
import Mathlib.Order.WithBot

/-!
A replacement trainer, call after call. Its counter holds the reports since the last multiple of the
interval, so the report that completes a multiple makes a withdrawal and no other one does. Whoever
is withdrawn has a score: a withdrawal takes one agent among those that have one, the worst if the
draw says so. A fresh organism has no score and the largest number so far.
-/

namespace FlagCombat

open Binary64

namespace ReplacementTrainer

/-- A call of a trainer. -/
inductive Call where
  | setLifetime (lifetime : UInt64)
  | ready
  | hasOrganism (agent : AgentId)
  | wanted
  | addAgent
  | takeSpawnRequests
  | nextOrganism (agent : AgentId)
  | reportFitness (agent : AgentId) (fitness : List Word)

namespace Call

def isReport : Call → Bool
  | .reportFitness .. => true
  | _ => false

def issues : Call → Bool
  | .nextOrganism _ => true
  | _ => false

end Call

/-- The trainer after a call; a question leaves it as it is. -/
def perform (t : ReplacementTrainer) : Call → Except BadProbability ReplacementTrainer
  | .setLifetime lifetime => .ok (Trainer.setLifetime t lifetime)
  | .ready | .hasOrganism _ | .wanted => .ok t
  | .addAgent => .ok (Trainer.addAgent t)
  | .takeSpawnRequests => .ok (Trainer.takeSpawnRequests t).2
  | .nextOrganism agent => .ok (Trainer.nextOrganism t agent)
  | .reportFitness agent fitness => t.report agent fitness

/-- The trainer after some calls, one after the other. -/
def performAll (t : ReplacementTrainer) (calls : List Call) :
    Except BadProbability ReplacementTrainer :=
  calls.foldlM perform t

theorem performAll_concat (t : ReplacementTrainer) (calls : List Call) (call : Call) :
    t.performAll (calls ++ [call]) = (t.performAll calls).bind fun t' => t'.perform call := by
  unfold performAll
  rw [List.foldlM_append]
  simp only [List.foldlM_cons, List.foldlM_nil, bind_pure]
  rfl

/-- An agent that still holds an organism, and whose organism has a score. -/
def Scored (t : ReplacementTrainer) (agent : AgentId) (score : Word) : Prop :=
  t.withdrawn.contains agent = false ∧
    ∃ organism, t.organisms.get? agent = some organism ∧ organism.score = some score

/-- A withdrawal: of the agents with a score one is withdrawn, if there is one. An exploiting one
takes the least score, and of equal ones that of the least agent. -/
structure Withdraws (exploit : Bool) (t t' : ReplacementTrainer) : Prop where
  organisms_eq : t'.organisms = t.organisms
  nobody : (∀ agent score, ¬t.Scored agent score) → t'.withdrawn = t.withdrawn
  somebody : (∃ agent score, t.Scored agent score) → ∃ victim score, t.Scored victim score ∧
    t'.withdrawn = t.withdrawn.insert victim () ∧
    (exploit = true → ∀ other score', t.Scored other score' →
      score.rank ≤ score'.rank ∧ (score'.rank = score.rank → ¬other < victim))

section Victim

variable {t : ReplacementTrainer} {victim other : AgentId} {score score' : Word}

theorem worst?_eq_argmin (candidates : List (AgentId × Word)) :
    worst? candidates = candidates.argmin (·.2.rank) := by
  unfold worst? List.argmin
  congr 1
  funext best candidate
  cases best with
  | none => rfl
  | some current => simp only [List.argAux]

theorem worst?_least (h : worst? t.candidates = some (victim, score))
    (hother : (other, score') ∈ t.candidates) :
    score.rank ≤ score'.rank ∧ (score'.rank = score.rank → ¬other < victim) := by
  let _ : BEq (AgentId × Word) := instBEqOfDecidableEq
  rw [worst?_eq_argmin] at h
  refine ⟨List.le_of_mem_argmin (f := fun c : AgentId × Word => c.2.rank) hother h,
    fun hrank hlt => ?_⟩
  -- The candidates ascend, so one of a smaller id comes earlier, and would have been kept.
  have hindex := List.index_of_argmin (f := fun c : AgentId × Word => c.2.rank) h hother
    (le_of_eq hrank)
  have hv := List.idxOf_lt_length_of_mem (worst?_mem (worst?_eq_argmin _ ▸ h))
  have ho := List.idxOf_lt_length_of_mem hother
  obtain heq | hbefore := Nat.eq_or_lt_of_le hindex
  · have hsame := (List.idxOf_inj hother).1 heq.symm
    cases hsame
    exact Nat.lt_irrefl _ hlt
  · have hascending := List.pairwise_iff_getElem.1 t.pairwise_candidates _ _ hv ho hbefore
    rw [List.getElem_idxOf hv, List.getElem_idxOf ho] at hascending
    exact Nat.lt_asymm hlt hascending

theorem length_candidates_le (t : ReplacementTrainer) : t.candidates.length ≤ UInt32.size := by
  have hids : (t.candidates.map Prod.fst).Pairwise (· < ·) :=
    List.pairwise_map.2 t.pairwise_candidates
  have hnodup : (t.candidates.map Prod.fst).Nodup := hids.imp fun {a b} hlt heq => by
    rw [heq] at hlt
    exact Nat.lt_irrefl _ hlt
  simpa using AgentId.length_le hnodup

/-- There is a victim exactly if there is a candidate. -/
theorem exists_victimOf (hne : t.candidates ≠ []) (exploit : Bool) (g : Generator) :
    ∃ candidate ∈ t.candidates, (t.victimOf exploit g).1 = some candidate := by
  unfold victimOf
  cases exploit with
  | true =>
    cases hworst : worst? t.candidates with
    | none => exact absurd (List.argmin_eq_none.1 (worst?_eq_argmin _ ▸ hworst)) hne
    | some candidate => exact ⟨candidate, worst?_mem hworst, by simp⟩
  | false => exact Generator.exists_choose? hne t.length_candidates_le g

end Victim

section Withdrawal

variable {t : ReplacementTrainer} {exploit : Bool} {g : Generator}

theorem withdrawOne_eq
    (h : t.generator.chance t.settings.exploitProbability = .ok (exploit, g)) :
    t.withdrawOne = .ok { t with
      generator := (t.victimOf exploit g).2
      withdrawn := match (t.victimOf exploit g).1 with
        | none => t.withdrawn
        | some victim => t.withdrawn.insert victim.1 () } := by
  have hvictim : t.victimOf exploit g =
      if exploit then (worst? t.candidates, g) else g.choose? t.candidates := rfl
  unfold withdrawOne
  simp only [h, bind, Except.bind, ← hvictim]
  generalize t.victimOf exploit g = chosen
  obtain ⟨victim, g'⟩ := chosen
  cases victim <;> rfl

/-- A trainer that withdraws the victim of a draw makes a withdrawal. -/
theorem withdraws_victim {t' : ReplacementTrainer} (horganisms : t'.organisms = t.organisms)
    (hwithdrawn : t'.withdrawn = match (t.victimOf exploit g).1 with
      | none => t.withdrawn
      | some victim => t.withdrawn.insert victim.1 ()) : t.Withdraws exploit t' := by
  refine ⟨horganisms, fun hnobody => ?_, fun hsomebody => ?_⟩
  · cases hvictim : (t.victimOf exploit g).1 with
    | none => rw [hwithdrawn, hvictim]
    | some victim => exact absurd (t.mem_candidates_iff.1 (victimOf_mem hvictim)) (hnobody _ _)
  · obtain ⟨agent, score, hscored⟩ := hsomebody
    have hne : t.candidates ≠ [] := List.ne_nil_of_mem (t.mem_candidates_iff.2 hscored)
    obtain ⟨⟨victim, score⟩, hmem, hvictim⟩ := exists_victimOf hne exploit g
    refine ⟨victim, score, t.mem_candidates_iff.1 hmem, by rw [hwithdrawn, hvictim], ?_⟩
    rintro rfl other score' hother
    exact worst?_least hvictim (t.mem_candidates_iff.2 hother)

end Withdrawal

/-- A report keeps the score and counts; the last one of an interval makes a withdrawal instead of
counting. -/
theorem report_eq (t : ReplacementTrainer) (agent : AgentId) (fitness : List Word) :
    t.report agent fitness =
      if t.isDue then { t.keepScore agent (.sum fitness) with reports := 0 }.withdrawOne
      else .ok { t.keepScore agent (.sum fitness) with
        reports := addCapped32 t.reports 1 } := by
  unfold report isDue
  rw [keepScore_eq]

/-- What every list of calls of a new trainer keeps. -/
structure Recycles (settings : TrainerSettings) (calls : List Call) (t : ReplacementTrainer) :
    Prop where
  settings_eq : t.settings = settings
  scored : ∀ agent, t.withdrawn.contains agent = true →
    ∃ organism score, t.organisms.get? agent = some organism ∧ organism.score = some score
  reports_eq : 0 < settings.replacementInterval.toNat →
    t.reports.toNat = calls.countP Call.isReport % settings.replacementInterval.toNat
  lastSerial_eq : t.lastSerial = calls.countP Call.issues
  serial_le : ∀ agent organism, t.organisms.get? agent = some organism →
    organism.serial ≤ t.lastSerial

section Run

variable {settings : TrainerSettings} {calls : List Call} {t t' : ReplacementTrainer}

theorem recycles_ofSeed (settings : TrainerSettings) (seed : UInt64) :
    Recycles settings [] (ofSeed settings seed) where
  settings_eq := rfl
  scored _ h := by cases h
  reports_eq _ := (Nat.zero_mod _).symm
  lastSerial_eq := rfl
  serial_le _ _ h := by cases h

theorem Recycles.toNat_next (h : Recycles settings calls t)
    (hpos : 0 < settings.replacementInterval.toNat) :
    (addCapped32 t.reports 1).toNat =
      calls.countP Call.isReport % settings.replacementInterval.toNat + 1 := by
  have hlt := Nat.mod_lt (calls.countP Call.isReport) hpos
  have hword := settings.replacementInterval.toNat_lt
  have hone : (1 : UInt32).toNat = 1 := rfl
  rw [toNat_addCapped32, h.reports_eq hpos, hone]
  simp only [UInt32.size]
  omega

/-- A report is due exactly if its number is a multiple of the interval. -/
theorem Recycles.isDue_iff (h : Recycles settings calls t) :
    t.isDue = true ↔
      settings.replacementInterval.toNat ∣ calls.countP Call.isReport + 1 := by
  unfold isDue
  rw [h.settings_eq, Bool.and_eq_true, decide_eq_true_eq, decide_eq_true_eq]
  change 0 < settings.replacementInterval.toNat ∧
    settings.replacementInterval.toNat ≤ (addCapped32 t.reports 1).toNat ↔ _
  obtain hzero | hpos := Nat.eq_zero_or_pos settings.replacementInterval.toNat
  · simp [hzero]
  · have hlt := Nat.mod_lt (calls.countP Call.isReport) hpos
    rw [h.toNat_next hpos, Nat.dvd_iff_mod_eq_zero, ← Nat.mod_add_mod]
    constructor
    · rintro ⟨-, hle⟩
      rw [show calls.countP Call.isReport % settings.replacementInterval.toNat + 1 =
        settings.replacementInterval.toNat by omega, Nat.mod_self]
    · intro hmod
      refine ⟨hpos, ?_⟩
      by_contra hless
      rw [Nat.mod_eq_of_lt (by omega)] at hmod
      omega

/-- A call that touches neither the organisms nor the counters. -/
theorem Recycles.of_quiet (h : Recycles settings calls t) {call : Call}
    (hreport : call.isReport = false) (hissues : call.issues = false)
    (hsettings : t'.settings = t.settings) (hwithdrawn : t'.withdrawn = t.withdrawn)
    (horganisms : t'.organisms = t.organisms) (hreports : t'.reports = t.reports)
    (hserial : t'.lastSerial = t.lastSerial) : Recycles settings (calls ++ [call]) t' where
  settings_eq := hsettings.trans h.settings_eq
  scored := by
    rw [hwithdrawn, horganisms]
    exact h.scored
  reports_eq hpos := by simpa [hreports, hreport] using h.reports_eq hpos
  lastSerial_eq := by simpa [hserial, hissues] using h.lastSerial_eq
  serial_le := by
    rw [horganisms, hserial]
    exact h.serial_le

theorem Recycles.nextOrganism (h : Recycles settings calls t) (agent : AgentId) :
    Recycles settings (calls ++ [.nextOrganism agent]) (Trainer.nextOrganism t agent) where
  settings_eq := h.settings_eq
  scored other hother := by
    simp only [Trainer.nextOrganism, IdMap.contains_erase, Bool.and_eq_true, Bool.not_eq_true',
      decide_eq_false_iff_not] at hother
    simp only [Trainer.nextOrganism, IdMap.get?_insert, if_neg hother.1]
    exact h.scored other hother.2
  reports_eq hpos := by simpa [Call.isReport, Trainer.nextOrganism] using h.reports_eq hpos
  lastSerial_eq := by simpa [Call.issues, Trainer.nextOrganism] using h.lastSerial_eq
  serial_le other organism hother := by
    simp only [Trainer.nextOrganism, IdMap.get?_insert] at hother ⊢
    split at hother
    · cases hother
      exact Nat.le_refl _
    · exact Nat.le_succ_of_le (h.serial_le other organism hother)

/-- What a report does to the trainer: it never fails, and it makes a withdrawal exactly if it is
due. -/
theorem Recycles.exists_report (h : Recycles settings calls t)
    (hlow : 0.0 ≤ settings.exploitProbability) (hhigh : settings.exploitProbability ≤ 1.0)
    (agent : AgentId) (fitness : List Word) :
    ∃ t', t.report agent fitness = .ok t' ∧ t'.settings = settings ∧
      t'.lastSerial = t.lastSerial ∧
      t'.organisms = (t.keepScore agent (.sum fitness)).organisms ∧
      if t.isDue then
        t'.reports = 0 ∧ ∃ exploit g,
          t.generator.chance settings.exploitProbability = .ok (exploit, g) ∧
          (t.keepScore agent (.sum fitness)).Withdraws exploit t'
      else
        t'.reports = addCapped32 t.reports 1 ∧ t'.withdrawn = t.withdrawn ∧
          t'.generator = t.generator := by
  obtain ⟨exploit, g, hchance⟩ := Generator.chance_ok hlow hhigh t.generator
  rw [report_eq, keepScore_eq]
  cases hdue : t.isDue with
  | false => exact ⟨_, rfl, h.settings_eq, rfl, rfl, rfl, rfl, rfl⟩
  | true =>
    rw [if_pos rfl, withdrawOne_eq (by rw [h.settings_eq]; exact hchance)]
    exact ⟨_, rfl, h.settings_eq, rfl, rfl, rfl, exploit, g, hchance, withdraws_victim rfl rfl⟩

/-- Whoever has a score keeps one when a report is made. -/
theorem scored_keepScore {agent other : AgentId} {score : Word}
    (h : ∃ organism s, t.organisms.get? other = some organism ∧ organism.score = some s) :
    ∃ organism s, (t.keepScore agent score).organisms.get? other = some organism ∧
      organism.score = some s := by
  obtain ⟨organism, s, hget, hscore⟩ := h
  by_cases ho : other = agent
  · refine ⟨{ organism with score := some score }, score, ?_, rfl⟩
    rw [get?_keepScore, if_pos ho, hget]
    rfl
  · exact ⟨organism, s, by rw [get?_keepScore, if_neg ho, hget], hscore⟩

theorem Recycles.report (h : Recycles settings calls t)
    (hlow : 0.0 ≤ settings.exploitProbability) (hhigh : settings.exploitProbability ≤ 1.0)
    {agent : AgentId} {fitness : List Word} (hr : t.report agent fitness = .ok t') :
    Recycles settings (calls ++ [.reportFitness agent fitness]) t' := by
  obtain ⟨t'', hr', hsettings, hserial, horganisms, hcases⟩ :=
    h.exists_report hlow hhigh agent fitness
  obtain rfl : t' = t'' := Except.ok.inj (hr.symm.trans hr')
  have hcount : (calls ++ [Call.reportFitness agent fitness]).countP Call.isReport =
      calls.countP Call.isReport + 1 := by simp [Call.isReport]
  refine ⟨hsettings, fun other hother => ?scored, fun hpos => ?reports, ?serial, ?serials⟩
  case serial => simpa [Call.issues, hserial] using h.lastSerial_eq
  case scored =>
    rw [horganisms]
    cases hdue : t.isDue with
    | false =>
      rw [if_neg (by simp [hdue])] at hcases
      rw [hcases.2.1] at hother
      exact scored_keepScore (h.scored other hother)
    | true =>
      rw [if_pos hdue] at hcases
      obtain ⟨-, exploit, g, -, hwithdraws⟩ := hcases
      have hkept : (t.keepScore agent (.sum fitness)).withdrawn = t.withdrawn := by
        rw [keepScore_eq]
      by_cases hsome : ∃ a s, (t.keepScore agent (.sum fitness)).Scored a s
      · obtain ⟨victim, score, ⟨-, organism, hget, hscore⟩, hwithdrawn, -⟩ :=
          hwithdraws.somebody hsome
        rw [hwithdrawn, IdMap.contains_insert, Bool.or_eq_true, decide_eq_true_eq, hkept] at hother
        rcases hother with rfl | hother
        · exact ⟨organism, score, hget, hscore⟩
        · exact scored_keepScore (h.scored other hother)
      · rw [hwithdraws.nobody fun a s hs => hsome ⟨a, s, hs⟩, hkept] at hother
        exact scored_keepScore (h.scored other hother)
  case reports =>
    rw [hcount]
    cases hdue : t.isDue with
    | false =>
      have hnot : ¬settings.replacementInterval.toNat ∣ calls.countP Call.isReport + 1 :=
        fun hdvd => Bool.eq_false_iff.1 hdue (h.isDue_iff.2 hdvd)
      have hlt := Nat.mod_lt (calls.countP Call.isReport) hpos
      rw [if_neg (by simp [hdue])] at hcases
      rw [Nat.dvd_iff_mod_eq_zero, ← Nat.mod_add_mod] at hnot
      have hne : calls.countP Call.isReport % settings.replacementInterval.toNat + 1 ≠
          settings.replacementInterval.toNat := fun heq => hnot (by rw [heq, Nat.mod_self])
      rw [hcases.1, h.toNat_next hpos, ← Nat.mod_add_mod]
      exact (Nat.mod_eq_of_lt (by omega)).symm
    | true =>
      rw [if_pos hdue] at hcases
      rw [hcases.1]
      exact (Nat.mod_eq_zero_of_dvd (h.isDue_iff.1 hdue)).symm
  case serials =>
    intro other organism hother
    rw [horganisms, get?_keepScore] at hother
    rw [hserial]
    split at hother
    · obtain ⟨kept, hkept, rfl⟩ := Option.map_eq_some_iff.1 hother
      exact h.serial_le other kept hkept
    · exact h.serial_le other organism hother

/-- One call succeeds, and keeps what the calls before it kept. -/
theorem Recycles.perform (h : Recycles settings calls t)
    (hlow : 0.0 ≤ settings.exploitProbability) (hhigh : settings.exploitProbability ≤ 1.0)
    (call : Call) :
    ∃ t', t.perform call = .ok t' ∧ Recycles settings (calls ++ [call]) t' := by
  cases call with
  | setLifetime | ready | hasOrganism | wanted | addAgent | takeSpawnRequests =>
    exact ⟨_, rfl, h.of_quiet rfl rfl rfl rfl rfl rfl rfl⟩
  | nextOrganism agent => exact ⟨_, rfl, h.nextOrganism agent⟩
  | reportFitness agent fitness =>
    obtain ⟨t', hr, -⟩ := h.exists_report hlow hhigh agent fitness
    exact ⟨t', hr, h.report hlow hhigh hr⟩

theorem exists_performAll (hlow : 0.0 ≤ settings.exploitProbability)
    (hhigh : settings.exploitProbability ≤ 1.0) (seed : UInt64) (calls : List Call) :
    ∃ t, (ofSeed settings seed).performAll calls = .ok t ∧ Recycles settings calls t := by
  induction calls using List.reverseRecOn with
  | nil => exact ⟨_, rfl, recycles_ofSeed settings seed⟩
  | append_singleton calls call ih =>
    obtain ⟨t, ht, h⟩ := ih
    obtain ⟨t', ht', h'⟩ := h.perform hlow hhigh call
    exact ⟨t', by rw [performAll_concat, ht]; exact ht', h'⟩

/-- Only a report and the issue of its own organism can change whether an agent has one. -/
theorem hasOrganism_perform {call : Call} (h : t.perform call = .ok t')
    (hreport : call.isReport = false) {agent : AgentId} (hcall : call ≠ .nextOrganism agent) :
    Trainer.hasOrganism t' agent = Trainer.hasOrganism t agent := by
  cases call with
  | setLifetime | ready | hasOrganism | wanted | addAgent | takeSpawnRequests =>
    cases h
    rfl
  | nextOrganism other =>
    cases h
    have hne : agent ≠ other := fun heq => hcall (heq ▸ rfl)
    simp [Trainer.hasOrganism, Trainer.nextOrganism, IdMap.contains_erase, hne]
  | reportFitness => cases hreport

end Run

/-- Every list of calls of a new trainer succeeds if the exploit probability is from zero to one.
After it every withdrawn agent has an organism with a score. The next report makes a withdrawal
exactly if its number is a multiple of the interval, and otherwise it neither draws nor withdraws.
The next organism of an agent is held, has no score and a number above all earlier ones. No other
call changes who has an organism. -/
theorem withdrawals_in_step (settings : TrainerSettings) (seed : UInt64)
    (hlow : 0.0 ≤ settings.exploitProbability) (hhigh : settings.exploitProbability ≤ 1.0)
    (calls : List Call) :
    ∃ t, (ofSeed settings seed).performAll calls = .ok t ∧
    (∀ agent, Trainer.hasOrganism t agent = false →
      ∃ organism score, t.organisms.get? agent = some organism ∧ organism.score = some score) ∧
    (∀ agent fitness, ∃ t', t.perform (.reportFitness agent fitness) = .ok t' ∧
      if settings.replacementInterval.toNat ∣ calls.countP Call.isReport + 1 then
        ∃ exploit g, t.generator.chance settings.exploitProbability = .ok (exploit, g) ∧
          (t.keepScore agent (.sum fitness)).Withdraws exploit t'
      else t'.withdrawn = t.withdrawn ∧ t'.generator = t.generator) ∧
    (∀ agent, ∃ t' serial, t.perform (.nextOrganism agent) = .ok t' ∧
      Trainer.hasOrganism t' agent = true ∧ t'.organisms.get? agent = some { serial } ∧
      ∀ earlier later s other organism, calls = earlier ++ later →
        (ofSeed settings seed).performAll earlier = .ok s →
        s.organisms.get? other = some organism → organism.serial < serial) ∧
    ∀ call t', t.perform call = .ok t' → call.isReport = false →
      ∀ agent, call ≠ .nextOrganism agent →
        Trainer.hasOrganism t' agent = Trainer.hasOrganism t agent := by
  obtain ⟨t, ht, h⟩ := exists_performAll hlow hhigh seed calls
  refine ⟨t, ht, fun agent hagent => ?withdrawn, fun agent fitness => ?report, fun agent => ?issue,
    fun call t' hcall hreport agent hne => hasOrganism_perform hcall hreport hne⟩
  case withdrawn => exact h.scored agent (by simpa [Trainer.hasOrganism] using hagent)
  case report =>
    obtain ⟨t', hr, -, -, -, hcases⟩ := h.exists_report hlow hhigh agent fitness
    refine ⟨t', hr, ?_⟩
    by_cases hdue : t.isDue = true
    · rw [if_pos hdue] at hcases
      rw [if_pos (h.isDue_iff.1 hdue)]
      exact hcases.2
    · rw [if_neg hdue] at hcases
      rw [if_neg fun hdvd => hdue (h.isDue_iff.2 hdvd)]
      exact hcases.2
  case issue =>
    refine ⟨_, t.lastSerial + 1, rfl, ?_, ?_, ?_⟩
    · simp [Trainer.hasOrganism, Trainer.nextOrganism, IdMap.contains_erase]
    · simp [Trainer.nextOrganism]
    · rintro earlier later s other organism rfl hs hget
      obtain ⟨s', hs', hearlier⟩ := exists_performAll hlow hhigh seed earlier
      obtain rfl : s = s' := Except.ok.inj (hs.symm.trans hs')
      have hserial := hearlier.serial_le other organism hget
      have hcount := hearlier.lastSerial_eq
      have hcount' := h.lastSerial_eq
      rw [List.countP_append] at hcount'
      omega

/-- Two agents have scores, one of them not a number and positive, the other negative infinity. -/
def exploited : List Call :=
  [.nextOrganism ⟨1⟩, .nextOrganism ⟨2⟩, .nextOrganism ⟨3⟩,
    .reportFitness ⟨1⟩ [⟨0x7ff8000000000000⟩],
    .reportFitness ⟨2⟩ [.ofFloat 5.0, .ofFloat (-1.0 / 0.0)]]

/-- A fitness that sums to what is not a number and negative. -/
def hopeless : List Word := [.ofFloat 1.0, ⟨0xfff8000000000000⟩, .ofFloat 2.0]

/-- The third report is due, and the least score is the one that is not a number and negative. -/
theorem withdrawals_in_step_exploited :
    let settings : TrainerSettings := { exploitProbability := 1.0, replacementInterval := 3 }
    0.0 ≤ settings.exploitProbability ∧ settings.exploitProbability ≤ 1.0 ∧
    ∃ t t' exploit, (ofSeed settings 9).performAll exploited = .ok t ∧
      t.perform (.reportFitness ⟨3⟩ hopeless) = .ok t' ∧
      (t.keepScore ⟨3⟩ (.sum hopeless)).Withdraws exploit t' ∧
      Trainer.hasOrganism t' ⟨3⟩ = false := by
  intro settings
  have hlow : 0.0 ≤ settings.exploitProbability := by decide +kernel
  have hhigh : settings.exploitProbability ≤ 1.0 := by decide +kernel
  obtain ⟨t, ht, -, hreport, -⟩ := withdrawals_in_step settings 9 hlow hhigh exploited
  obtain ⟨t', ht', hdue⟩ := hreport ⟨3⟩ hopeless
  rw [if_pos (by decide)] at hdue
  obtain ⟨exploit, -, -, hwithdraws⟩ := hdue
  have hgone : ((ofSeed settings 9).performAll
      (exploited ++ [.reportFitness ⟨3⟩ hopeless])).toOption.map (Trainer.hasOrganism · ⟨3⟩) =
      some false := by decide +kernel
  rw [performAll_concat, ht] at hgone
  change (t.perform (.reportFitness ⟨3⟩ hopeless)).toOption.map _ = _ at hgone
  rw [ht'] at hgone
  exact ⟨hlow, hhigh, t, t', exploit, ht, ht', hwithdraws, Option.some.inj hgone⟩

end ReplacementTrainer

end FlagCombat
