import FlagCombat.Proofs.Battle.Beside
import FlagCombat.Proofs.Battle.Ending
import FlagCombat.Proofs.Campaign.Conserved
import FlagCombat.Proofs.Campaign.Life

/-!
No episode ends before its first step. Between two turns every agent holds its organism, and one that
has not stepped since its episode began is unhurt; so what ends an episode is its steps, or damage
that a step of it drained.
-/

namespace FlagCombat

namespace Battle

variable {H T : Type}

/-- What the check of an episode answers, and the battle that it leaves, are in time. -/
structure Timely (lifetime : UInt64) (handle : Handle) (isOver : Bool) (b : Battle H T) : Prop where
  late : isOver = true → handle.step ≠ 0 ∧ handle.group = .agent
  done : (b.status? handle.id).map Episode.Status.isDone = some isOver
  budget : handle.group = .agent → lifetime ≠ 0 →
    (b.status? handle.id = some (.done .stepBudget) ↔ lifetime ≤ handle.step)

variable [Host H] [Trainer T] {p : AgentId → Prop} {b b' : Battle H T} {handle : Handle}
  {isOver : Bool}

/-- The episode of an agent that holds its organism, and is unhurt before its first step, ends in
time. -/
theorem Running.timely (h : Running p b) (hagent : p handle.id)
    (hheld : Trainer.hasOrganism b.trainer handle.id = true)
    (hunhurt : handle.step = 0 →
      ((b.combatants.get? handle.id).map Combatant.totalDamage).getD 0 = 0)
    (hcheck : b.isEpisodeOver handle = .ok (isOver, b')) :
    Timely b.profile.lifetime handle isOver b' := by
  have hverdict := h.verdict hagent hheld hcheck
  obtain ⟨e, record, henroll, hrecord, hover, hafter⟩ := isEpisodeOver_cases hcheck
  have hactive : record.status = .active := (h.enroll henroll) handle.id record hagent hrecord
  have hprofile : e.profile = b.profile := (enroll_changes henroll).profile
  have hstatus : b'.status? handle.id = some (e.checkedStatus handle record) := by
    rw [hafter]
    simp [Battle.status?]
  constructor
  · intro hisOver
    obtain ⟨hmobile, hreason⟩ := hverdict.1 hisOver
    constructor
    · intro hfirst
      rw [hunhurt hfirst, hfirst] at hreason
      rcases hreason with ⟨hlimit, hle⟩ | ⟨hlimit, hle⟩
      · exact hlimit (UInt64.le_antisymm hle UInt64.zero_le)
      · exact hlimit (UInt32.le_antisymm hle UInt32.zero_le)
    · cases hgroup : handle.group with
      | agent => rfl
      | turret => simp [hgroup, Group.isMobile] at hmobile
  · rw [hstatus, hover]
    rfl
  · intro hgroup hlifetime
    have hbudget : e.checkedStatus handle record = .done .stepBudget ↔
        e.reason? handle record = some .stepBudget := by
      rw [checkedStatus_eq, hactive]
      cases e.reason? handle record <;> simp [Episode.Status.advance]
    rw [hstatus, Option.some_inj, hbudget]
    unfold reason?
    rw [Episode.check_eq_stepBudget_iff]
    simp [hgroup, Group.isMobile, hprofile, Profile.limits, hlifetime]

end Battle

namespace Campaign

variable {H T P : Type} [Host H] [Trainer T]

theorem kept_beside (agent : AgentId) (b : Battle H T) :
    Kept agent fun c : Campaign H T P => Battle.Beside agent b c.battle where
  call c call handle reply battle hc hh hid hattempt := by
    subst hid
    exact hc.trans (Battle.beside_attempt hh hattempt)
  host c observations hc := ⟨hc.record, hc.frozen⟩
  trainer c trainer hc := ⟨hc.record, hc.frozen⟩
  policy c policy hc := hc
  slot c slot hc _ := hc

theorem stepped_ne_zero (slot : Slot) (reward : List Float) :
    (slot.stepped reward).handle.step ≠ 0 := by
  intro hzero
  have htoNat := congrArg UInt64.toNat hzero
  have hone : (1 : UInt64).toNat = 1 := rfl
  simp only [Slot.stepped, toNat_addCapped64, hone, UInt64.toNat_zero, UInt64.size] at htoNat
  omega

/-- Whoever took a turn has stepped. -/
theorem Turned.stepped {slot slot' : Slot} {ended : Bool} {events : List (Event H T)}
    (h : Turned slot ended events slot') : slot'.handle.step ≠ 0 := by
  cases h with
  | goesOn hcheck hplay =>
    cases hplay
    exact stepped_ne_zero _ _
  | renews hcheck hplay =>
    cases hplay
    exact stepped_ne_zero _ _

/-- The only check of a turn is its first request. -/
theorem Turned.head_of_check {slot slot' : Slot} {ended : Bool} {events : List (Event H T)}
    (h : Turned slot ended events slot') {e : Event H T} (he : e ∈ events) {handle : Handle}
    (hrequest : e.request = .check handle) : events.head? = some e := by
  have hplayed {slot slot' : Slot} {events : List (Event H T)} (hplay : Played slot events slot') :
      e ∉ events := by
    obtain @⟨readings, observations, action, reward, b₁, b₂, b₃, b₄, hstep⟩ := hplay
    intro he
    simp only [List.mem_cons, List.not_mem_nil, or_false] at he
    rcases he with rfl | rfl | rfl
    · cases hrequest
    · unfold decision at hrequest
      dsimp only at hrequest
      split at hrequest <;> cases hrequest
    · cases hrequest
  cases h with
  | goesOn hcheck hplay =>
    rcases List.mem_cons.1 he with rfl | he
    · rfl
    · exact absurd he (hplayed hplay)
  | renews hcheck hplay =>
    simp only [List.mem_cons] at he
    rcases he with rfl | rfl | rfl | rfl | he
    · rfl
    · cases hrequest
    · cases hrequest
    · cases hrequest
    · exact absurd he (hplayed hplay)

/-- Whoever has a record got its id from the host, and an agent that has not stepped is unhurt. -/
structure Unhurt (known : List AgentId) (c : Campaign H T P) : Prop where
  recorded : ∀ agent, c.battle.combatants.contains agent = true → agent ∈ known
  fresh : ∀ agent slot record, c.roster.get? agent = some slot → slot.handle.step = 0 →
    c.battle.combatants.get? agent = some record → record.totalDamage = 0

section Unhurt

variable {c₀ c c' : Campaign H T P} {known : List AgentId} {past : List (Event H T)}

omit [Host H] [Trainer T] in
/-- A change beside an agent that hurts nobody leaves those unhurt whose slots it leaves. -/
theorem Unhurt.beside (h : Unhurt known c) {agent other : AgentId} {b : Battle H T}
    (hbeside : Battle.Beside agent c.battle b) (hother : other ≠ agent) {slot : Slot}
    {record : Combatant} (hslot : c.roster.get? other = some slot) (hfirst : slot.handle.step = 0)
    (hrecord : b.combatants.get? other = some record) : record.totalDamage = 0 := by
  have hread := hbeside.read (f := Combatant.totalDamage) (fun _ => rfl) hother
  rw [hrecord] at hread
  obtain ⟨before, hbefore, hdamage⟩ := Option.map_eq_some_iff.1 hread.symm
  rw [← hdamage]
  exact h.fresh other slot before hslot hfirst hbefore

theorem Unhurt.joined (h : Unhurt known c) {team : Team} {group : Group} {pose : Pose}
    {agent : AgentId} (hspawn : spawn team group pose c = .ok agent c') (hnew : agent ∉ known) :
    Unhurt (known ++ [agent]) c' := by
  obtain ⟨host, b, -, henroll, rfl⟩ := spawn_ok hspawn
  have hbeside : Battle.Beside agent c.battle b := by
    obtain ⟨hrecord, hfrozen⟩ := Battle.beside_enroll henroll
    exact ⟨hrecord, hfrozen⟩
  constructor
  · intro other hcontains
    rw [List.mem_append, List.mem_singleton]
    by_cases hother : other = agent
    · exact .inr hother
    · refine .inl (h.recorded other ?_)
      rw [← hbeside.contains hother]
      exact hcontains
  · intro other slot record hslot hfirst hrecord
    simp only [IdMap.get?_insert] at hslot
    split at hslot
    · rename_i hother
      subst hother
      have hnone : c.battle.combatants.get? other = none := by
        cases hbefore : c.battle.combatants.get? other with
        | none => rfl
        | some before =>
          exact absurd (h.recorded other ((IdMap.contains_eq_true_iff _).2 ⟨before, hbefore⟩)) hnew
      have hdamage := Battle.totalDamage_of_enroll henroll hrecord
      rw [hdamage]
      simp [hnone]
    · rename_i hother
      exact h.beside hbeside hother hslot hfirst hrecord

omit [Trainer T] in
theorem Unhurt.left (h : Unhurt known c) {agent : AgentId}
    (hdespawn : despawn agent c = .ok () c') : Unhurt known c' := by
  obtain ⟨last, -, rfl⟩ := despawn_ok hdespawn
  constructor
  · intro other hcontains
    simp only [Battle.dismiss, IdMap.contains_erase, Bool.and_eq_true] at hcontains
    exact h.recorded other hcontains.2
  · intro other slot record hslot hfirst hrecord
    simp only [IdMap.get?_erase] at hslot
    simp only [Battle.dismiss, IdMap.get?_erase] at hrecord
    split at hslot
    · cases hslot
    · rename_i hother
      rw [if_neg hother] at hrecord
      exact h.fresh other slot record hslot hfirst hrecord

variable [Policy P]

theorem Unhurt.turned (h : Unhurt known c) {slot : Slot} {ended : Bool}
    (hknown : slot.handle.id ∈ known) (hturn : (Told.turn slot).run c = .ok ended c') :
    Unhurt known c' := by
  obtain ⟨slot', hturned, hroster⟩ := turned_of_ok hturn
  obtain ⟨hbeside, -⟩ := (kept_beside slot.handle.id c.battle).turn_ok (.refl _) hturn
  constructor
  · intro other hcontains
    by_cases hother : other = slot.handle.id
    · rw [hother]
      exact hknown
    · rw [hbeside.contains hother] at hcontains
      exact h.recorded other hcontains
  · intro other kept record hslot hfirst hrecord
    rw [hroster] at hslot
    split at hslot
    · cases hslot
      exact absurd hfirst hturned.stepped
    · rename_i hother
      exact h.beside hbeside hother hslot hfirst hrecord

/-- In every run from an empty campaign, agents that have not stepped are unhurt. -/
theorem Chronicle.unhurt (h : Chronicle c₀ known past c) (hroster : c₀.roster = .empty)
    (hrecords : c₀.battle.combatants = .empty) : Unhurt known c := by
  induction h with
  | start =>
    constructor
    · intro agent hcontains
      rw [hrecords] at hcontains
      cases hcontains
    · intro agent slot record hslot
      rw [hroster] at hslot
      cases hslot
  | begun h number ih => exact ⟨ih.recorded, ih.fresh⟩
  | turned h hslot hturn ih =>
    obtain ⟨hknown, hid, -⟩ := (h.lives hroster).running _ _ hslot
    rw [← hid] at hknown
    exact ih.turned hknown hturn
  | granted h ih => exact ⟨ih.recorded, ih.fresh⟩
  | joined h hspawn hnew ih => exact ih.joined hspawn hnew
  | left h hdespawn ih => exact ih.left hdespawn

end Unhurt

section Replacement

/-- What an event has checked is in time. -/
def Event.Timely {T : Type} [Trainer T] (lifetime : UInt64) (e : Event H T) : Prop :=
  ∀ handle isOver b, e.request = .check handle →
    e.battle.isEpisodeOver handle = .ok (isOver, b) → Battle.Timely lifetime handle isOver b

variable [Policy P] {c₀ c : Campaign H ReplacementTrainer P} {known : List AgentId}
  {past : List (Event H ReplacementTrainer)}

/-- Between two steps of a run, every running agent holds its organism, and its episode runs. -/
theorem Chronicle.rest (h : Chronicle c₀ known past c) (hrest : Rest c₀) : Rest c := by
  induction h with
  | start => exact hrest
  | begun h number ih => exact ih.beginTick number
  | @turned known past c c' agent slot ended h hslot hturn ih =>
    have hstep := (Told.stepAgent_of_some hslot).1
    rw [Told.run_stepAgent] at hstep
    exact ih.stepAgent (hstep.trans hturn)
  | granted h ih => exact ih.battle ih.running rfl rfl
  | joined h hspawn hnew ih => exact ih.spawn hspawn
  | left h hdespawn ih => exact ih.despawn hdespawn

/-- In every run of a trainer that replaces organisms, episodes end in time. -/
theorem Chronicle.timely (h : Chronicle c₀ known past c) (hrest : Rest c₀)
    (hroster : c₀.roster = .empty) (hrecords : c₀.battle.combatants = .empty)
    {e : Event H ReplacementTrainer} (he : e ∈ past) : e.Timely c₀.battle.profile.lifetime := by
  intro handle isOver b' hrequest hcheck
  rw [← h.profile.2 e he]
  induction h with
  | start => cases he
  | begun h number ih => exact ih he
  | @turned known past c c' agent slot ended h hslot hturn ih =>
    rcases List.mem_append.1 he with he | he
    · exact ih he
    · obtain ⟨slot', hturned, -⟩ := turned_of_ok hturn
      have hhead : ((Told.turn slot).asks c).head? = some ⟨.check slot.handle, c.battle⟩ := rfl
      rw [hturned.head_of_check he hrequest, Option.some_inj] at hhead
      subst hhead
      cases hrequest
      obtain ⟨-, hid, -⟩ := (h.lives hroster).running agent slot hslot
      have hresting := h.rest hrest
      have hheld : Trainer.hasOrganism c.battle.trainer slot.handle.id = true := by
        simp [Trainer.hasOrganism, hresting.idle.held slot.handle.id trivial]
      refine hresting.running.timely trivial hheld ?_ hcheck
      intro hfirst
      cases hrecord : c.battle.combatants.get? slot.handle.id with
      | none => rfl
      | some record =>
        rw [hid] at hrecord
        exact (h.unhurt hroster hrecords).fresh agent slot record hslot hfirst hrecord
  | granted h ih => exact ih he
  | joined h hspawn hnew ih => exact ih he
  | left h hdespawn ih => exact ih he

end Replacement

end Campaign

end FlagCombat
