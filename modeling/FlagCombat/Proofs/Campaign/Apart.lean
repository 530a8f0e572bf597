import FlagCombat.Proofs.Campaign.Conserved
import FlagCombat.Proofs.Campaign.Life

/-!
The turns of a tick, one agent at a time. What the turns of others leave alone is, at the start of an
agent's turn, as at the start of the tick, and at the end of the tick as at the end of its turn.
-/

namespace FlagCombat

namespace Campaign

variable {H T P α : Type} [Host H] [Trainer T] [Policy P] {c c' : Campaign H T P}
  {agents : List AgentId} {ended : Nat}

/-- Every slot of the roster holds the handle of its agent. -/
def Registered (c : Campaign H T P) : Prop :=
  ∀ agent slot, c.roster.get? agent = some slot → slot.handle.id = agent

omit [Policy P] in
theorem kept_registered (agent : AgentId) : Kept agent fun c : Campaign H T P => Registered c where
  call _ _ _ _ _ hc _ _ _ := hc
  host _ _ hc := hc
  trainer _ _ hc := hc
  policy _ _ hc := hc
  slot c slot hc _ other found hfound := by
    rw [IdMap.get?_insert] at hfound
    split at hfound
    · rename_i hother
      cases hfound
      exact hother.symm
    · exact hc other found hfound

/-- A turn leaves every slot to its agent, and the slots of others alone. -/
theorem Registered.turn (h : Registered c) {agent : AgentId} {slot : Slot} {isOver : Bool}
    (hslot : c.roster.get? agent = some slot) (hturn : (Told.turn slot).run c = .ok isOver c') :
    Registered c' ∧ ∀ other, other ≠ agent → c'.roster.get? other = c.roster.get? other := by
  obtain ⟨slot', hturned, hroster⟩ := turned_of_ok hturn
  have hid : slot.handle.id = agent := h agent slot hslot
  rw [hid] at hroster
  constructor
  · intro other kept hkept
    rw [hroster] at hkept
    split at hkept
    · rename_i hother
      cases hkept
      rw [hturned.handle.1, hid, hother]
    · exact h other kept hkept
  · intro other hother
    rw [hroster, if_neg hother]

/-- What the first of some turns that succeed was, and that the others follow. -/
inductive FirstTurn (first : AgentId) (rest : List AgentId) (c c' : Campaign H T P) : Prop
  | absent {others : Nat} (hnone : c.roster.get? first = none)
      (hrest : (Told.stepAgents rest).run c = .ok others c')
      (hasks : (Told.stepAgents (first :: rest)).asks c = (Told.stepAgents rest).asks c)
  | turned {slot : Slot} {isOver : Bool} {c₁ : Campaign H T P} {others : Nat}
      (hslot : c.roster.get? first = some slot) (hturn : (Told.turn slot).run c = .ok isOver c₁)
      (hrest : (Told.stepAgents rest).run c₁ = .ok others c')
      (hasks : (Told.stepAgents (first :: rest)).asks c =
        (Told.turn slot).asks c ++ (Told.stepAgents rest).asks c₁)
      (hroster : ∀ other, other ≠ first → c₁.roster.get? other = c.roster.get? other)
      (hregistered : Registered c₁)

theorem firstTurn_of_ok {first : AgentId} {rest : List AgentId}
    (h : (Told.stepAgents (first :: rest)).run c = .ok ended c') (hregistered : Registered c) :
    FirstTurn first rest c c' := by
  obtain ⟨isOver, c₁, hfirst, h, hasks⟩ := Told.bind_ok h
  obtain ⟨others, c₂, hrest, h, hasks₁⟩ := Told.bind_ok h
  cases h
  have hevents : (Told.stepAgents (first :: rest)).asks c =
      (Told.stepAgent first).asks c ++ (Told.stepAgents rest).asks c₁ :=
    hasks.trans (congrArg _ (hasks₁.trans (List.append_nil _)))
  rcases Told.stepAgent_cases hfirst with ⟨hnone, rfl, hquiet⟩ | ⟨slot, hslot, hturn, hsome⟩
  · rw [hquiet] at hevents
    exact .absent hnone hrest hevents
  · rw [hsome] at hevents
    obtain ⟨hregistered₁, hroster⟩ := hregistered.turn hslot hturn
    exact .turned hslot hturn hrest hevents hroster hregistered₁

/-- What the turns of others than an agent leave alone. -/
def Apart (P : Type) (agent : AgentId) (f : Battle H T → α) : Prop :=
  ∀ other, other ≠ agent → ∀ a, Kept other fun c : Campaign H T P => f c.battle = a

variable {agent : AgentId} {f : Battle H T → α}

theorem Apart.turn (h : Apart P agent f) {slot : Slot} {isOver : Bool}
    (hother : slot.handle.id ≠ agent) (hturn : (Told.turn slot).run c = .ok isOver c') :
    f c'.battle = f c.battle :=
  ((h slot.handle.id hother (f c.battle)).turn_ok rfl hturn).1

/-- A turn asks for its own agent only. -/
theorem own_turn {slot : Slot} {isOver : Bool} (h : (Told.turn slot).run c = .ok isOver c') :
    own agent ((Told.turn slot).asks c) =
      if slot.handle.id = agent then (Told.turn slot).asks c else [] := by
  obtain ⟨slot', hturned, -⟩ := turned_of_ok h
  exact hturned.own_eq agent

/-- The turns of others leave an agent alone. -/
theorem alone_of_stepAgents (hf : Apart P agent f)
    (h : (Told.stepAgents agents).run c = .ok ended c') (hregistered : Registered c)
    (habsent : agent ∉ agents ∨ c.roster.get? agent = none) :
    own agent ((Told.stepAgents agents).asks c) = [] ∧ f c'.battle = f c.battle ∧
      c'.roster.get? agent = c.roster.get? agent := by
  induction agents generalizing c ended with
  | nil =>
    cases h
    exact ⟨rfl, rfl, rfl⟩
  | cons first rest ih =>
    have hlater (hmem : agent ∈ rest) : agent ∈ first :: rest := List.mem_cons_of_mem _ hmem
    cases firstTurn_of_ok h hregistered with
    | absent hnone hrest hasks =>
      rw [hasks]
      exact ih hrest hregistered (habsent.imp_left fun hnotin hmem => hnotin (hlater hmem))
    | @turned slot isOver c₁ others hslot hturn hrest hasks hroster hregistered₁ =>
      have hid : slot.handle.id = first := hregistered first slot hslot
      have hne : first ≠ agent := by
        rintro rfl
        rcases habsent with hnotin | hnone
        · exact hnotin List.mem_cons_self
        · rw [hnone] at hslot
          cases hslot
      have hsame : f c₁.battle = f c.battle := hf.turn (hid.trans_ne hne) hturn
      rw [← hroster agent hne.symm] at habsent
      obtain ⟨hown, hkept, hslots⟩ := ih hrest hregistered₁
        (habsent.imp_left fun hnotin hmem => hnotin (hlater hmem))
      rw [hasks, own_append, own_turn hturn, hid, if_neg hne, hown]
      exact ⟨rfl, hkept.trans hsame, hslots.trans (hroster agent hne.symm)⟩

/-- What happens to an agent and its slot in the turns of a tick is what happens in its own. -/
theorem turn_of_stepAgents (hf : Apart P agent f)
    (h : (Told.stepAgents agents).run c = .ok ended c') (hregistered : Registered c)
    (hnodup : agents.Nodup) (hmem : agent ∈ agents) {slot : Slot}
    (hslot : c.roster.get? agent = some slot) :
    ∃ (c₁ c₂ : Campaign H T P) (isOver : Bool), (Told.turn slot).run c₁ = .ok isOver c₂ ∧
      own agent ((Told.stepAgents agents).asks c) = (Told.turn slot).asks c₁ ∧
      f c₁.battle = f c.battle ∧ f c'.battle = f c₂.battle ∧
      c'.roster.get? agent = c₂.roster.get? agent := by
  induction agents generalizing c ended with
  | nil => cases hmem
  | cons first rest ih =>
    obtain ⟨hnotin, hnodup⟩ := List.nodup_cons.1 hnodup
    cases firstTurn_of_ok h hregistered with
    | absent hnone hrest hasks =>
      rw [hasks]
      rcases List.mem_cons.1 hmem with rfl | hmem
      · rw [hslot] at hnone
        cases hnone
      · exact ih hrest hregistered hnodup hmem hslot
    | @turned turning isOver c₁ others hturning hturn hrest hasks hroster hregistered₁ =>
      have hid : turning.handle.id = first := hregistered first turning hturning
      rw [hasks, own_append, own_turn hturn, hid]
      by_cases hfirst : first = agent
      · subst hfirst
        rw [hslot] at hturning
        cases hturning
        obtain ⟨hown, hleft⟩ := alone_of_stepAgents hf hrest hregistered₁ (.inl hnotin)
        rw [if_pos rfl, hown, List.append_nil]
        exact ⟨c, c₁, isOver, hturn, rfl, rfl, hleft⟩
      · have hsame : f c₁.battle = f c.battle := hf.turn (hid.trans_ne hfirst) hturn
        have hlater : agent ∈ rest := by
          rcases List.mem_cons.1 hmem with heq | hlater
          · exact absurd heq.symm hfirst
          · exact hlater
        rw [← hroster agent (Ne.symm hfirst)] at hslot
        obtain ⟨c₂, c₃, isOver, hown, hasked, hbefore, hafter⟩ :=
          ih hrest hregistered₁ hnodup hlater hslot
        rw [if_neg hfirst, List.nil_append]
        exact ⟨c₂, c₃, isOver, hown, hasked, hbefore.trans hsame, hafter⟩

end Campaign

end FlagCombat
