import FlagCombat.Proofs.Campaign.Apart
import FlagCombat.Proofs.Campaign.Earnings
import FlagCombat.Proofs.Campaign.Unhurt
import Mathlib.Data.List.DropRight

/-!
How the episodes of an agent follow one another. The policy is asked to start, then to act until the
episode is finished, and to start again. A handle counts the steps of its episode, no episode ends
before its first step, and a lifetime bounds the steps of mobile agents.
-/

namespace FlagCombat

namespace Campaign

/-- What a policy is called for. -/
inductive Consult where
  | start
  | act
  | finish
deriving DecidableEq, Repr

/-- The calls of an episode that goes on: a start, and then actions. -/
def spell (actions : Nat) : List Consult := .start :: List.replicate actions .act

theorem spell_append (actions : Nat) : spell actions ++ [.act] = spell (actions + 1) := by
  simp [spell, List.replicate_succ']

/-- Episodes that are finished. -/
def finished (spells : List Nat) : List Consult := spells.flatMap fun n => spell n ++ [.finish]

/-- To finish each spell before the last one is to finish before each spell after the first one. -/
theorem finished_append (spells : List Nat) (last : Nat) :
    ∃ (first : Nat) (rest : List Nat), finished spells ++ spell last =
      spell first ++ rest.flatMap fun n => .finish :: spell n := by
  induction spells with
  | nil => exact ⟨last, [], by simp [finished]⟩
  | cons n spells ih =>
    obtain ⟨first, rest, hrest⟩ := ih
    refine ⟨n, first :: rest, ?_⟩
    have hfirst : finished (n :: spells) = spell n ++ [.finish] ++ finished spells := rfl
    rw [hfirst, List.append_assoc, hrest]
    simp

namespace Request

def handle? : Request → Option Handle
  | .check handle | .finish handle _ | .reset handle | .sense handle _ | .start handle _
  | .act handle _ _ | .step handle _ => some handle
  | .report _ _ => none

def isStep : Request → Bool
  | .step _ _ => true
  | _ => false

def isReset : Request → Bool
  | .reset _ => true
  | _ => false

/-- Whether a request is for a decision. -/
def decides : Request → Bool
  | .start _ _ | .act _ _ _ => true
  | _ => false

/-- What a request calls the policy for. -/
def consult? : Request → Option Consult
  | .start _ _ => some .start
  | .act _ _ _ => some .act
  | .finish _ _ => some .finish
  | _ => none

/-- Whether a request neither checks an episode, nor ends it, nor makes it longer. -/
def isQuiet : Request → Bool
  | .check _ | .finish _ _ | .step _ _ => false
  | _ => true

end Request

variable {H T P : Type}

/-- The steps that the journal of an agent has since its last reset. -/
def taken (events : List (Event H T)) : Nat :=
  (events.rtakeWhile fun e => !e.request.isReset).countP fun e => e.request.isStep

theorem taken_concat (events : List (Event H T)) (e : Event H T) :
    taken (events ++ [e]) = if e.request.isReset then 0 else
      taken events + if e.request.isStep then 1 else 0 := by
  unfold taken
  cases h : e.request.isReset with
  | true => simp [List.rtakeWhile_concat_neg, h]
  | false =>
    rw [List.rtakeWhile_concat_pos _ _ _ (by simp [h]), List.countP_append]
    simp [List.countP_singleton]

theorem taken_same {events : List (Event H T)} {e : Event H T} (hstep : e.request.isStep = false)
    (hreset : e.request.isReset = false) : taken (events ++ [e]) = taken events := by
  simp [taken_concat, hstep, hreset]

/-- What a journal calls the policy for. -/
def consults (events : List (Event H T)) : List Consult :=
  events.filterMap fun e => e.request.consult?

theorem consults_append (events more : List (Event H T)) :
    consults (events ++ more) = consults events ++ consults more := List.filterMap_append ..

/-- An event asks for a decision: a start just when the handle has taken no step. -/
def Event.Decides (e : Event H T) : Prop :=
  (∃ handle observations, e.request = .start handle observations ∧ handle.step = 0) ∨
    ∃ handle observations reward, e.request = .act handle observations reward ∧ handle.step ≠ 0

variable [Host H] [Trainer T]

/-- What holds of an event in the journal of an agent, given the events before it. -/
structure Orderly (lifetime : UInt64) (earlier : List (Event H T)) (e : Event H T) : Prop where
  /-- A handle counts the steps of its episode, as far as its counter goes. -/
  counted : ∀ handle, e.request.handle? = some handle →
    handle.step.toNat = min (taken earlier) (UInt64.size - 1)
  /-- A mobile agent steps no more often than its lifetime. -/
  bounded : ∀ handle action, e.request = .step handle action → handle.group = .agent →
    lifetime ≠ 0 → taken earlier < lifetime.toNat
  /-- A check ends episodes of mobile agents only, after a step, and for the steps just when the
  lifetime is used up. -/
  judged : ∀ handle, e.request = .check handle → ∃ isOver b,
    e.battle.isEpisodeOver handle = .ok (isOver, b) ∧
    (isOver = true → 0 < taken earlier ∧ handle.group = .agent) ∧
    (handle.group = .agent → lifetime ≠ 0 →
      (b.status? handle.id = some (.done .stepBudget) ↔ taken earlier = lifetime.toNat))
  /-- An episode is finished just after a check that ends it. -/
  ended : ∀ handle, (∃ reward, e.request = .finish handle reward) ↔
    ∃ b b', earlier.getLast? = some ⟨.check handle, b⟩ ∧
      b.isEpisodeOver handle = .ok (true, b')

/-- The last event of a journal is not a check that ends an episode. -/
def GoesOn (events : List (Event H T)) : Prop :=
  ∀ handle b b', events.getLast? = some ⟨.check handle, b⟩ →
    b.isEpisodeOver handle ≠ .ok (true, b')

/-- What a journal says of the slot that it leads to, while an episode goes on. -/
structure Paced (lifetime : UInt64) (events : List (Event H T)) (slot : Slot) : Prop where
  counted : slot.handle.step.toNat = min (taken events) (UInt64.size - 1)
  bounded : slot.handle.group = .agent → lifetime ≠ 0 → taken events ≤ lifetime.toNat
  goesOn : GoesOn events

section Paced

variable {lifetime : UInt64} {past events : List (Event H T)} {slot slot' : Slot} {e : Event H T}

theorem goesOn_concat (h : ∀ handle, e.request ≠ .check handle) : GoesOn (past ++ [e]) := by
  intro handle b b' hlast
  rw [List.getLast?_concat, Option.some_inj] at hlast
  exact absurd (congrArg Event.request hlast) (h handle)

theorem Paced.orderly (h : Paced lifetime past slot) (hquiet : e.request.isQuiet = true)
    (hhandle : ∀ handle, e.request.handle? = some handle → handle = slot.handle) :
    Orderly lifetime past e := by
  constructor
  · intro handle hh
    rw [hhandle handle hh]
    exact h.counted
  · intro handle action hrequest
    rw [hrequest] at hquiet
    cases hquiet
  · intro handle hrequest
    rw [hrequest] at hquiet
    cases hquiet
  · intro handle
    constructor
    · rintro ⟨reward, hrequest⟩
      rw [hrequest] at hquiet
      cases hquiet
    · rintro ⟨b, b', hlast, hover⟩
      exact absurd hover (h.goesOn handle b b' hlast)

/-- What neither steps nor resets leaves the pace as it is. -/
theorem Paced.other (h : Paced lifetime past slot) (hstep : e.request.isStep = false)
    (hreset : e.request.isReset = false) (hgoesOn : GoesOn (past ++ [e])) :
    Paced lifetime (past ++ [e]) slot := by
  have hsame : taken (past ++ [e]) = taken past := taken_same hstep hreset
  exact ⟨hsame ▸ h.counted, hsame ▸ h.bounded, hgoesOn⟩

theorem Paced.decides (h : Paced lifetime past slot) (observations : List Float)
    (b : Battle H T) : Orderly lifetime past ⟨decision slot observations, b⟩ ∧
      Paced lifetime (past ++ [⟨decision slot observations, b⟩]) slot := by
  unfold decision
  split
  · refine ⟨h.orderly rfl ?_, h.other rfl rfl (goesOn_concat nofun)⟩
    rintro handle ⟨⟩
    rfl
  · refine ⟨h.orderly rfl ?_, h.other rfl rfl (goesOn_concat nofun)⟩
    rintro handle ⟨⟩
    rfl

/-- A step of an episode that is not used up is one more. -/
theorem Paced.stepped (h : Paced lifetime past slot)
    (hroom : slot.handle.group = .agent → lifetime ≠ 0 → taken past < lifetime.toNat)
    (action reward : List Float) (b : Battle H T) :
    Orderly lifetime past ⟨.step slot.handle action, b⟩ ∧
      Paced lifetime (past ++ [⟨.step slot.handle action, b⟩]) (slot.stepped reward) := by
  have hmore : taken (past ++ [⟨.step slot.handle action, b⟩]) = taken past + 1 := by
    simp [taken_concat, Request.isStep, Request.isReset]
  constructor
  · constructor
    · rintro handle ⟨⟩
      exact h.counted
    · rintro handle taken ⟨⟩
      exact hroom
    · rintro handle ⟨⟩
    · intro handle
      constructor
      · rintro ⟨reward, ⟨⟩⟩
      · rintro ⟨b, b', hlast, hover⟩
        exact absurd hover (h.goesOn handle b b' hlast)
  · constructor
    · have hone : (1 : UInt64).toNat = 1 := rfl
      simp only [hmore, Slot.stepped, toNat_addCapped64, h.counted, hone]
      omega
    · intro hgroup hlifetime
      rw [hmore]
      exact hroom hgroup hlifetime
    · apply goesOn_concat
      rintro handle ⟨⟩

theorem Paced.played (h : Paced lifetime past slot)
    (hroom : slot.handle.group = .agent → lifetime ≠ 0 → taken past < lifetime.toNat)
    (hplayed : Played slot events slot') :
    Throughout (Orderly lifetime) past events ∧ Paced lifetime (past ++ events) slot' := by
  obtain @⟨readings, observations, action, reward, b₁, b₂, b₃, b₄, hstep⟩ := hplayed
  have hsense : Orderly lifetime past ⟨.sense slot.handle readings, b₁⟩ := by
    refine h.orderly rfl ?_
    rintro handle ⟨⟩
    rfl
  have hsensed : Paced lifetime (past ++ [⟨.sense slot.handle readings, b₁⟩]) slot :=
    h.other rfl rfl (goesOn_concat nofun)
  obtain ⟨hdecide, hdecided⟩ := hsensed.decides observations b₂
  have hsame : taken (past ++ [⟨.sense slot.handle readings, b₁⟩] ++
      [⟨decision slot observations, b₂⟩]) = taken past := by
    unfold decision
    split
    · exact (taken_same rfl rfl).trans (taken_same rfl rfl)
    · exact (taken_same rfl rfl).trans (taken_same rfl rfl)
  rw [← hsame] at hroom
  obtain ⟨hact, hacted⟩ := hdecided.stepped hroom action reward b₃
  exact ⟨⟨hsense, hdecide, hact, trivial⟩, by simpa using hacted⟩

/-- A check in time, and what it says of the steps taken. -/
theorem Paced.check (h : Paced lifetime past slot) {b b' : Battle H T} {isOver : Bool}
    (hcheck : b.isEpisodeOver slot.handle = .ok (isOver, b'))
    (htimely : Battle.Timely lifetime slot.handle isOver b') :
    Orderly lifetime past ⟨.check slot.handle, b⟩ ∧
      (isOver = true → slot.handle.step ≠ 0) ∧
      (isOver = false → slot.handle.group = .agent → lifetime ≠ 0 →
        taken past < lifetime.toNat) := by
  have hcounted := h.counted
  have hlarge : lifetime.toNat ≤ UInt64.size - 1 := Nat.le_sub_one_of_lt lifetime.toNat_lt
  have hspent (hgroup : slot.handle.group = .agent) (hlifetime : lifetime ≠ 0) :
      b'.status? slot.handle.id = some (.done .stepBudget) ↔ taken past = lifetime.toNat := by
    have hbounded := h.bounded hgroup hlifetime
    rw [htimely.budget hgroup hlifetime, UInt64.le_iff_toNat_le]
    omega
  have hbegun (hover : isOver = true) : 0 < taken past := by
    rw [Nat.pos_iff_ne_zero]
    intro hnone
    refine (htimely.late hover).1 (UInt64.toNat_inj.1 ?_)
    rw [hcounted, hnone]
    rfl
  refine ⟨⟨?counted, nofun, ?judged, ?ended⟩, fun hover => (htimely.late hover).1, ?room⟩
  case counted =>
    rintro handle ⟨⟩
    exact hcounted
  case judged =>
    rintro handle ⟨⟩
    exact ⟨isOver, b', hcheck, fun hover => ⟨hbegun hover, (htimely.late hover).2⟩, hspent⟩
  case ended =>
    intro handle
    constructor
    · rintro ⟨reward, ⟨⟩⟩
    · rintro ⟨b₁, b₂, hlast, hover⟩
      exact absurd hover (h.goesOn handle b₁ b₂ hlast)
  case room =>
    intro hover hgroup hlifetime
    refine Nat.lt_of_le_of_ne (h.bounded hgroup hlifetime) fun hused => ?_
    have hdone := htimely.done
    rw [(hspent hgroup hlifetime).2 hused, hover] at hdone
    cases hdone

/-- The end of an episode starts the count of its agent anew. -/
theorem Paced.renewed (h : Paced lifetime past slot) {b b' : Battle H T}
    (hcheck : b.isEpisodeOver slot.handle = .ok (true, b')) (b₂ b₃ : Battle H T) :
    let checked := past ++ [⟨.check slot.handle, b⟩]
    let ending := [⟨.finish slot.handle slot.lastReward, b'⟩,
      ⟨.report slot.handle.id slot.episodeFitness, b₂⟩, ⟨.reset slot.handle, b₃⟩]
    Throughout (Orderly lifetime) checked ending ∧ taken (checked ++ ending) = 0 ∧
      Paced lifetime (checked ++ ending) slot.renewed := by
  intro checked ending
  have hchecked : taken checked = taken past := taken_same rfl rfl
  have hfinish : Orderly lifetime checked ⟨.finish slot.handle slot.lastReward, b'⟩ := by
    refine ⟨?_, nofun, nofun, ?_⟩
    · rintro handle ⟨⟩
      rw [hchecked]
      exact h.counted
    · intro handle
      constructor
      · rintro ⟨reward, ⟨⟩⟩
        exact ⟨b, b', List.getLast?_concat, hcheck⟩
      · rintro ⟨b₁, b₂, hlast, -⟩
        rw [List.getLast?_concat, Option.some_inj] at hlast
        cases hlast
        exact ⟨_, rfl⟩
  have hfinished : Paced lifetime (checked ++ [⟨.finish slot.handle slot.lastReward, b'⟩]) slot := by
    have hsame : taken (checked ++ [⟨.finish slot.handle slot.lastReward, b'⟩]) = taken past :=
      (taken_same rfl rfl).trans hchecked
    exact ⟨hsame ▸ h.counted, hsame ▸ h.bounded, goesOn_concat nofun⟩
  have hreport := hfinished.orderly (e := ⟨.report slot.handle.id slot.episodeFitness, b₂⟩) rfl
    nofun
  have hreported := hfinished.other (e := ⟨.report slot.handle.id slot.episodeFitness, b₂⟩) rfl rfl
    (goesOn_concat nofun)
  have hreset := hreported.orderly (e := ⟨.reset slot.handle, b₃⟩) rfl (by
    rintro handle ⟨⟩
    rfl)
  have hlast : checked ++ ending = checked ++ ending.dropLast ++ [⟨.reset slot.handle, b₃⟩] := by
    simp [ending]
  have hnone : taken (checked ++ ending) = 0 := by
    rw [hlast, taken_concat]
    rfl
  have hgoesOn : GoesOn (checked ++ ending) := by
    rw [hlast]
    exact goesOn_concat nofun
  refine ⟨⟨hfinish, hreport, hreset, trivial⟩, hnone, ?_, ?_, hgoesOn⟩
  · rw [hnone]
    rfl
  · rw [hnone]
    exact fun _ _ => Nat.zero_le _

/-- A turn keeps the pace, if its check is in time. -/
theorem Paced.turned (h : Paced lifetime past slot) {ended : Bool}
    (hturned : Turned slot ended events slot') (htimely : ∀ e ∈ events, e.Timely lifetime) :
    Throughout (Orderly lifetime) past events ∧ Paced lifetime (past ++ events) slot' := by
  cases hturned with
  | @goesOn b b' events _ hcheck hplay =>
    have hintime := htimely _ List.mem_cons_self _ _ _ rfl hcheck
    obtain ⟨hchecks, -, hroom⟩ := h.check hcheck hintime
    have hchecked : Paced lifetime (past ++ [⟨.check slot.handle, b⟩]) slot := by
      refine h.other rfl rfl ?_
      intro handle b₁ b₂ hlast hover
      rw [List.getLast?_concat, Option.some_inj] at hlast
      cases hlast
      rw [hcheck] at hover
      cases hover
    have hsame : taken (past ++ [⟨.check slot.handle, b⟩]) = taken past := taken_same rfl rfl
    obtain ⟨horderly, hpaced⟩ := hchecked.played (by rw [hsame]; exact hroom rfl) hplay
    exact ⟨⟨hchecks, horderly⟩, by simpa using hpaced⟩
  | @renews b b' b₂ b₃ events _ hcheck hplay =>
    have hintime := htimely _ List.mem_cons_self _ _ _ rfl hcheck
    obtain ⟨hchecks, -, -⟩ := h.check hcheck hintime
    obtain ⟨hending, hnone, hrenewed⟩ := h.renewed hcheck b₂ b₃
    have hroom (hlifetime : lifetime ≠ 0) : 0 < lifetime.toNat := by
      rw [Nat.pos_iff_ne_zero]
      exact fun hzero => hlifetime (UInt64.toNat_inj.1 hzero)
    obtain ⟨horderly, hpaced⟩ := hrenewed.played (by rw [hnone]; exact fun _ => hroom) hplay
    have hturn := throughout_append.2 ⟨hending, horderly⟩
    exact ⟨⟨hchecks, hturn⟩, by simpa using hpaced⟩

/-- All through a life whose checks are in time the pace is kept. -/
theorem Lived.paced (h : Lived events slot) (htimely : ∀ e ∈ events, e.Timely lifetime) :
    Throughout (Orderly lifetime) [] events ∧ Paced lifetime events slot := by
  induction h with
  | joined handle hfirst =>
    refine ⟨trivial, ?_, fun _ _ => Nat.zero_le _, nofun⟩
    rw [hfirst]
    rfl
  | turned h hturned ih =>
    obtain ⟨horderly, hpaced⟩ := ih fun e he => htimely e (List.mem_append_left _ he)
    obtain ⟨hmore, hturned⟩ :=
      hpaced.turned hturned fun e he => htimely e (List.mem_append_right _ he)
    exact ⟨throughout_append.2 ⟨horderly, hmore⟩, hturned⟩

end Paced

section Consults

variable {past events : List (Event H T)} {slot slot' : Slot}

/-- Every turn asks for one decision: to start if its agent has taken no step. -/
theorem Played.decides (h : Played slot events slot') :
    (∃ e, events.filter (·.request.decides) = [e] ∧ e.Decides) ∧
      consults events = [if slot.handle.step = 0 then .start else .act] := by
  obtain @⟨readings, observations, action, reward, b₁, b₂, b₃, b₄, hstep⟩ := h
  unfold decision
  by_cases hfirst : slot.handle.step = 0
  · simp only [if_pos hfirst]
    exact ⟨⟨_, rfl, .inl ⟨_, _, rfl, hfirst⟩⟩, rfl⟩
  · simp only [if_neg hfirst]
    exact ⟨⟨_, rfl, .inr ⟨_, _, _, rfl, hfirst⟩⟩, rfl⟩

theorem Turned.decides {ended : Bool} (h : Turned slot ended events slot') :
    ∃ e, events.filter (·.request.decides) = [e] ∧ e.Decides := by
  cases h with
  | goesOn hcheck hplay => exact hplay.decides.1
  | renews hcheck hplay => exact hplay.decides.1

/-- A life consults its policy in spells, all of them finished but for the last one, which is there
once a step was taken. -/
theorem Lived.consults {lifetime : UInt64} (h : Lived events slot)
    (htimely : ∀ e ∈ events, e.Timely lifetime) :
    (slot.handle.step = 0 → consults events = []) ∧
      (slot.handle.step ≠ 0 → ∃ spells last, consults events = finished spells ++ spell last) := by
  induction h with
  | joined handle hfirst => exact ⟨fun _ => rfl, fun hstep => absurd hfirst hstep⟩
  | @turned past events slot slot' ended h hturned ih =>
    obtain ⟨hnone, hspells⟩ := ih fun e he => htimely e (List.mem_append_left _ he)
    refine ⟨fun hfirst => absurd hfirst hturned.stepped, fun _ => ?_⟩
    rw [consults_append]
    cases hturned with
    | @goesOn b b' events _ hcheck hplay =>
      have hdecision : Campaign.consults (⟨.check slot.handle, b⟩ :: events) =
          [if slot.handle.step = 0 then .start else .act] := hplay.decides.2
      rw [hdecision]
      by_cases hfirst : slot.handle.step = 0
      · rw [hnone hfirst, if_pos hfirst]
        exact ⟨[], 0, rfl⟩
      · obtain ⟨spells, last, hpast⟩ := hspells hfirst
        rw [hpast, if_neg hfirst, List.append_assoc, spell_append]
        exact ⟨spells, last + 1, rfl⟩
    | @renews b b' b₂ b₃ events _ hcheck hplay =>
      have hdecision : Campaign.consults (⟨.check slot.handle, b⟩ ::
          ⟨.finish slot.handle slot.lastReward, b'⟩ ::
          ⟨.report slot.handle.id slot.episodeFitness, b₂⟩ :: ⟨.reset slot.handle, b₃⟩ :: events) =
          .finish :: [.start] := congrArg (Consult.finish :: ·) hplay.decides.2
      have hintime := htimely _ (List.mem_append_right _ List.mem_cons_self) _ _ _ rfl hcheck
      obtain ⟨spells, last, hpast⟩ := hspells (hintime.late rfl).1
      rw [hpast, hdecision]
      exact ⟨spells ++ [last], 0, by simp [finished, spell]⟩

end Consults

section Tick

variable [Policy P] {c c' : Campaign H T P}

/-- A tick that succeeds asks for one decision of every agent that is on the roster at its start. -/
theorem decides_of_tick {number : UInt64} {point : SpawnPoint} {summary : TickSummary}
    (h : tick number point c = .ok summary c') (hregistered : Registered c) (agent : AgentId) :
    (c.roster.contains agent = false → own agent (asked (.tick number point) c) = []) ∧
    (c.roster.contains agent = true → ∃ e,
      (own agent (asked (.tick number point) c)).filter (·.request.decides) = [e] ∧
        e.Decides) := by
  obtain ⟨ended, c₁, hsteps, -, hasked, -⟩ := tick_stages h
  have hapart : Apart P agent fun _ : Battle H T => () := fun _ _ _ =>
    ⟨fun _ _ _ _ _ hc _ _ _ => hc, fun _ _ hc => hc, fun _ _ hc => hc, fun _ _ hc => hc,
      fun _ _ hc _ => hc⟩
  rw [hasked]
  constructor
  · intro habsent
    have hnone : c.roster.get? agent = none := c.roster.contains_eq_false_iff.1 habsent
    exact (alone_of_stepAgents hapart hsteps hregistered (.inr hnone)).1
  · intro hpresent
    obtain ⟨slot, hslot⟩ := (IdMap.contains_eq_true_iff _).1 hpresent
    obtain ⟨c₂, c₃, isOver, hturn, hown, -, -⟩ := turn_of_stepAgents hapart hsteps hregistered
      c.roster.nodup_keys ((IdMap.mem_keys_iff _).2 hpresent) hslot
    obtain ⟨slot', hturned, -⟩ := turned_of_ok hturn
    rw [hown]
    exact hturned.decides

/-- A run of orders that succeeds is one of its earlier orders and then one of its later ones. -/
theorem obeyAll_append {earlier later : List Order} (h : obeyAll (earlier ++ later) c = .ok () c') :
    obeyAll earlier c = .ok () (followAll earlier c) ∧
      obeyAll later (followAll earlier c) = .ok () c' := by
  induction earlier generalizing c with
  | nil => exact ⟨rfl, h⟩
  | cons order earlier ih =>
    obtain ⟨⟨⟩, c₁, hobey, h⟩ := bind_ok h
    obtain ⟨hearlier, hlater⟩ := ih h
    rw [followAll, follow_of_ok hobey]
    refine ⟨?_, hlater⟩
    show EStateM.bind (obey order) _ c = _
    unfold EStateM.bind
    rw [hobey]
    exact hearlier

theorem followAll_of_ok {orders : List Order} (h : obeyAll orders c = .ok () c') :
    followAll orders c = c' := by
  rw [← List.append_nil orders] at h
  obtain ⟨-, hdone⟩ := obeyAll_append h
  cases hdone
  rfl

end Tick

section Run

variable [Policy P]

/-- Episodes follow one another in order. In every run of orders that succeed in an arena, with a
trainer that replaces organisms and whatever policy: an agent's policy is asked to start and then to
act, and again after each episode that is finished; every event of an agent is orderly; a tick asks
for one decision of every agent that is on the roster at its start, and nothing for others; and after
the run a handle counts the steps of its episode, as far as its counter goes. -/
theorem episodes_in_order (profile : Profile) (world : WorldSettings) (settings : TrainerSettings)
    (trainerSeed seed : UInt64) (policy : P) (orders : List Order)
    {c : Campaign Arena ReplacementTrainer P}
    (hrun : obeyAll orders
      (opening profile world (ReplacementTrainer.ofSeed settings trainerSeed) seed policy) =
        .ok () c)
    (hfew : (allArrivals orders (opening profile world
      (ReplacementTrainer.ofSeed settings trainerSeed) seed policy)).length < 2 ^ 32) :
    let start := opening profile world (ReplacementTrainer.ofSeed settings trainerSeed) seed policy
    let past := journal orders start
    (∀ agent, consults (own agent past) = [] ∨ ∃ (first : Nat) (rest : List Nat),
      consults (own agent past) = spell first ++ rest.flatMap fun n => .finish :: spell n) ∧
    (∀ agent earlier e later, own agent past = earlier ++ e :: later →
      Orderly profile.lifetime earlier e) ∧
    (∀ earlier number point later, orders = earlier ++ .tick number point :: later →
      let before := followAll earlier start
      let told := asked (.tick number point) before
      ∀ agent, (before.roster.contains agent = false → own agent told = []) ∧
        (before.roster.contains agent = true →
          ∃ e, (own agent told).filter (·.request.decides) = [e] ∧ e.Decides)) ∧
    ∀ agent slot, c.roster.get? agent = some slot →
      slot.handle.step.toNat = min (taken (own agent past)) (UInt64.size - 1) := by
  intro start past
  have hnew := nodup_allArrivals profile world _ seed policy orders hfew
  obtain ⟨known, hchronicle⟩ : ∃ known, Chronicle start known past c :=
    chronicle_of_obeyAll hrun hnew
  have hrest : Rest start := rest_fresh profile (Arena.ofWorld world profile.flag) settings
    trainerSeed seed policy
  have hlives := hchronicle.lives rfl
  have htimely (agent : AgentId) (e : Event Arena ReplacementTrainer) (he : e ∈ own agent past) :
      e.Timely profile.lifetime :=
    hchronicle.timely hrest rfl rfl (List.mem_filter.1 he).1
  refine ⟨?calls, ?events, ?ticks, ?slots⟩
  case calls =>
    intro agent
    obtain ⟨slot, hlived⟩ := hlives.everybody agent
    obtain ⟨hnone, hspells⟩ := hlived.consults (htimely agent)
    by_cases hfirst : slot.handle.step = 0
    · exact .inl (hnone hfirst)
    · obtain ⟨spells, last, hconsults⟩ := hspells hfirst
      rw [hconsults]
      exact .inr (finished_append spells last)
  case events =>
    intro agent earlier e later hsplit
    obtain ⟨slot, hlived⟩ := hlives.everybody agent
    exact (hlived.paced (htimely agent)).1.split hsplit
  case ticks =>
    intro earlier number point later horders before told
    rw [horders] at hrun hfew
    obtain ⟨-, hlater⟩ := obeyAll_append hrun
    obtain ⟨⟨⟩, c₁, hobey, -⟩ := bind_ok hlater
    obtain ⟨summary, c₂, htick, -⟩ := bind_ok hobey
    obtain ⟨roll, hbefore⟩ := agreed_followAll profile world _ seed policy earlier
      (Nat.lt_of_add_right_lt (few_before hfew))
    exact decides_of_tick htick hbefore.handle_id
  case slots =>
    intro agent slot hslot
    obtain ⟨-, -, hlived⟩ := hlives.running agent slot hslot
    exact (hlived.paced (htimely agent)).2.counted

/-- A recruit whose episodes last two steps. -/
def recruit : Campaign Arena ReplacementTrainer HoldPolicy :=
  opening { lifetime := 2, spawnJitter := 0 } {} (.ofSeed { populationSize := 0 } 0) 0 {}

theorem episodes_in_order_patrol :
    consults (own ⟨1⟩ (journal patrol recruit)) = [.start, .act, .finish, .start] ∧
      ∃ c slot, obeyAll patrol recruit = .ok () c ∧ c.roster.get? ⟨1⟩ = some slot ∧
        slot.handle.step.toNat = min (taken (own ⟨1⟩ (journal patrol recruit))) (UInt64.size - 1) ∧
        ∀ earlier e later, own ⟨1⟩ (journal patrol recruit) = earlier ++ e :: later →
          Orderly 2 earlier e := by
  have hrun : succeeds patrol recruit = true := by decide +kernel
  obtain ⟨c, hc⟩ := ok_of_succeeds hrun
  have hpresent : (followAll patrol recruit).roster.contains ⟨1⟩ = true := by decide +kernel
  obtain ⟨-, hevents, -, hslots⟩ := episodes_in_order _ _ _ _ _ _ patrol hc (by decide +kernel)
  rw [followAll_of_ok hc] at hpresent
  obtain ⟨slot, hslot⟩ := (IdMap.contains_eq_true_iff _).1 hpresent
  exact ⟨by decide +kernel, c, slot, hc, hslot, hslots ⟨1⟩ slot hslot, hevents ⟨1⟩⟩

end Run

end Campaign

end FlagCombat
