import FlagCombat.Proofs.Campaign.Chronicle

/-!
The life of an agent, as its journal tells it: it joins with a fresh slot, and takes one turn after
the other, each a check, the end of an episode if the check says so, and a step. A campaign whose
orders succeed, and whose host hands out no id twice, leaves every running agent a life.
-/

namespace FlagCombat

namespace Campaign

/-- Something holds of every element of a list, given those before it and some past. -/
def Throughout {α : Type} (p : List α → α → Prop) : List α → List α → Prop
  | _, [] => True
  | past, e :: rest => p past e ∧ Throughout p (past ++ [e]) rest

theorem throughout_append {α : Type} {p : List α → α → Prop} {past events more : List α} :
    Throughout p past (events ++ more) ↔
      Throughout p past events ∧ Throughout p (past ++ events) more := by
  induction events generalizing past with
  | nil => simp [Throughout]
  | cons e rest ih => simp [Throughout, ih, and_assoc]

theorem Throughout.split {α : Type} {p : List α → α → Prop} {past events : List α}
    (h : Throughout p past events) {earlier later : List α} {e : α}
    (hsplit : events = earlier ++ e :: later) : p (past ++ earlier) e := by
  rw [hsplit, throughout_append] at h
  exact h.2.1

variable {H T P : Type} [Host H] [Trainer T]

/-- What an agent asks its policy. -/
def decision (slot : Slot) (observations : List Float) : Request :=
  if slot.handle.step = 0 then .start slot.handle observations
  else .act slot.handle observations slot.lastReward

/-- The events by which an agent senses, decides and steps, and the slot that they leave. -/
inductive Played (slot : Slot) : List (Event H T) → Slot → Prop
  | intro {readings observations action reward : List Float} {b₁ b₂ b₃ b₄ : Battle H T}
      (hstep : b₃.step slot.handle action = .ok (reward, b₄)) :
      Played slot [⟨.sense slot.handle readings, b₁⟩, ⟨decision slot observations, b₂⟩,
        ⟨.step slot.handle action, b₃⟩] (slot.stepped reward)

/-- The events of a turn, whether it ended an episode, and the slot that it leaves. -/
inductive Turned (slot : Slot) : Bool → List (Event H T) → Slot → Prop
  | goesOn {b b' : Battle H T} {events : List (Event H T)} {slot' : Slot}
      (hcheck : b.isEpisodeOver slot.handle = .ok (false, b')) (hplay : Played slot events slot') :
      Turned slot false (⟨.check slot.handle, b⟩ :: events) slot'
  | renews {b b' b₂ b₃ : Battle H T} {events : List (Event H T)} {slot' : Slot}
      (hcheck : b.isEpisodeOver slot.handle = .ok (true, b'))
      (hplay : Played slot.renewed events slot') :
      Turned slot true (⟨.check slot.handle, b⟩ :: ⟨.finish slot.handle slot.lastReward, b'⟩ ::
        ⟨.report slot.handle.id slot.episodeFitness, b₂⟩ :: ⟨.reset slot.handle, b₃⟩ :: events) slot'

/-- The journal of an agent, and the slot that it leads to. -/
inductive Lived : List (Event H T) → Slot → Prop
  | joined (handle : Handle) (h : handle.step = 0) : Lived [] { handle }
  | turned {past events : List (Event H T)} {slot slot' : Slot} {ended : Bool}
      (h : Lived past slot) (ht : Turned slot ended events slot') : Lived (past ++ events) slot'

section Turned

variable {slot slot' : Slot} {ended : Bool} {events : List (Event H T)} {e : Event H T}

theorem agent_decision (slot : Slot) (observations : List Float) :
    (decision slot observations).agent = slot.handle.id := by
  unfold decision
  split <;> rfl

theorem Played.agent (h : Played slot events slot') (he : e ∈ events) :
    e.request.agent = slot.handle.id := by
  obtain @⟨readings, observations, action, reward, b₁, b₂, b₃, b₄, hstep⟩ := h
  simp only [List.mem_cons, List.not_mem_nil, or_false] at he
  rcases he with rfl | rfl | rfl
  · rfl
  · exact agent_decision slot observations
  · rfl

/-- All that a turn asks for is asked for its agent. -/
theorem Turned.agent (h : Turned slot ended events slot') (he : e ∈ events) :
    e.request.agent = slot.handle.id := by
  cases h with
  | goesOn hcheck hplay =>
    rcases List.mem_cons.1 he with rfl | he
    · rfl
    · exact hplay.agent he
  | renews hcheck hplay =>
    simp only [List.mem_cons] at he
    rcases he with rfl | rfl | rfl | rfl | he
    · rfl
    · rfl
    · rfl
    · rfl
    · exact hplay.agent he

theorem Turned.own_eq (h : Turned slot ended events slot') (agent : AgentId) :
    own agent events = if slot.handle.id = agent then events else [] := by
  unfold own
  split
  · rename_i heq
    exact List.filter_eq_self.2 fun e he => decide_eq_true ((h.agent he).trans heq)
  · rename_i hne
    refine List.filter_eq_nil_iff.2 fun e he hagent => hne ?_
    exact (h.agent he).symm.trans (of_decide_eq_true hagent)

end Turned

/-- A turn keeps who its agent is. -/
theorem Turned.handle {slot slot' : Slot} {ended : Bool} {events : List (Event H T)}
    (h : Turned slot ended events slot') : slot'.handle.id = slot.handle.id ∧
      slot'.handle.team = slot.handle.team ∧ slot'.handle.group = slot.handle.group := by
  cases h with
  | goesOn hcheck hplay =>
    cases hplay
    exact ⟨rfl, rfl, rfl⟩
  | renews hcheck hplay =>
    cases hplay
    exact ⟨rfl, rfl, rfl⟩

section Turn

variable [Policy P] {c c' : Campaign H T P} {slot : Slot}

theorem decide_ok {observations action : List Float}
    (h : (Told.decide slot observations).run c = .ok action c') :
    (Told.decide slot observations).asks c = [⟨decision slot observations, c.battle⟩] ∧
      c'.roster = c.roster ∧ c'.battle = c.battle := by
  unfold Told.decide decision at *
  by_cases hfirst : slot.handle.step = 0
  · simp only [if_pos hfirst] at h ⊢
    cases h
    exact ⟨rfl, rfl, rfl⟩
  · simp only [if_neg hfirst] at h ⊢
    cases h
    exact ⟨rfl, rfl, rfl⟩

/-- An agent that plays leaves its slot stepped, and nobody else's changed. -/
theorem played_of_ok (h : (Told.play slot).run c = .ok () c') :
    ∃ slot', Played slot ((Told.play slot).asks c) slot' ∧
      c'.roster = c.roster.insert slot.handle.id slot' := by
  obtain ⟨readings, c₁, hread, h, hasks⟩ := Told.bind_ok h
  obtain ⟨observations, c₂, hsense, h, hasks₁⟩ := Told.bind_ok h
  obtain ⟨action, c₃, hdecide, h, hasks₂⟩ := Told.bind_ok h
  obtain ⟨reward, c₄, hstep, hput, hasks₃⟩ := Told.bind_ok h
  obtain ⟨hasked, hdecided, -⟩ := decide_ok hdecide
  have hread : c₁.roster = c.roster := by
    cases hread
    rfl
  obtain ⟨b, hb, rfl⟩ := call_ok (f := fun b => b.sense slot.handle readings) hsense
  obtain ⟨b', hb', rfl⟩ := call_ok (f := fun b => b.step slot.handle action) hstep
  cases hput
  refine ⟨slot.stepped reward, ?_, ?_⟩
  · unfold Told.play
    rw [hasks, hasks₁, hasks₂, hasks₃, hasked]
    exact .intro hb'
  · show c₃.roster.insert slot.handle.id _ = _
    rw [hdecided, ← hread]

/-- The end of an episode leaves a fresh slot for its agent. -/
theorem turnOver_ok {next : Slot} (h : (Told.turnOver slot).run c = .ok next c') :
    next = slot.renewed ∧ c'.roster = c.roster.insert slot.handle.id slot.renewed ∧
      ∃ b₂ b₃, (Told.turnOver slot).asks c = [⟨.finish slot.handle slot.lastReward, c.battle⟩,
        ⟨.report slot.handle.id slot.episodeFitness, b₂⟩, ⟨.reset slot.handle, b₃⟩] := by
  obtain ⟨⟨⟩, c₁, hfinish, h, hasks⟩ := Told.bind_ok h
  obtain ⟨⟨⟩, c₂, hreport, h, hasks₁⟩ := Told.bind_ok h
  obtain ⟨⟨⟩, c₃, hreset, h, hasks₂⟩ := Told.bind_ok h
  obtain ⟨⟨⟩, c₄, hput, h, hasks₃⟩ := Told.bind_ok h
  cases h
  cases hput
  cases hfinish
  obtain ⟨trainer, -, rfl⟩ := Told.report_ok hreport
  obtain ⟨b, hb, rfl⟩ :=
    call_ok (f := fun b => (b.reset slot.handle).map fun b => ((), b)) hreset
  refine ⟨rfl, rfl, ?_⟩
  unfold Told.turnOver
  rw [hasks, hasks₁, hasks₂, hasks₃]
  exact ⟨_, _, rfl⟩

/-- A turn leaves its agent a slot by its events, and nobody else's changed. -/
theorem turned_of_ok {ended : Bool} (h : (Told.turn slot).run c = .ok ended c') :
    ∃ slot', Turned slot ended ((Told.turn slot).asks c) slot' ∧
      ∀ other, c'.roster.get? other =
        if other = slot.handle.id then some slot' else c.roster.get? other := by
  obtain ⟨isOver, c₁, hcheck, h, hasks⟩ := Told.bind_ok h
  obtain ⟨next, c₂, hnext, h, hasks₁⟩ := Told.bind_ok h
  obtain ⟨⟨⟩, c₃, hplay, h, hasks₂⟩ := Told.bind_ok h
  cases h
  obtain ⟨b, hb, rfl⟩ := call_ok (f := fun b => b.isEpisodeOver slot.handle) hcheck
  obtain ⟨slot', hplayed, hroster⟩ := played_of_ok hplay
  have hevents : (Told.turn slot).asks c = ⟨.check slot.handle, c.battle⟩ ::
      ((if ended then Told.turnOver slot else pure slot : Told H T P Slot).asks
        { c with battle := b } ++ (Told.play next).asks c₂) := by
    have hquiet : (pure ended : Told H T P Bool).asks c' = [] := rfl
    unfold Told.turn
    rw [hasks, hasks₁, hasks₂, hquiet, List.append_nil]
    rfl
  rw [hevents]
  refine ⟨slot', ?_⟩
  cases ended with
  | false =>
    cases hnext
    refine ⟨.goesOn hb hplayed, fun other => ?_⟩
    rw [hroster, IdMap.get?_insert]
  | true =>
    obtain ⟨rfl, hrenewed, b₂, b₃, hasked⟩ := turnOver_ok hnext
    constructor
    · simp only [↓reduceIte, hasked]
      exact .renews hb hplayed
    · intro other
      have hid : slot.renewed.handle.id = slot.handle.id := rfl
      rw [hroster, hrenewed, IdMap.get?_insert, IdMap.get?_insert, hid]
      split <;> rfl

end Turn

/-- Everybody's journal is that of a life, which for a running agent leads to its slot. Whoever has
no id yet has no journal. -/
structure Lives (known : List AgentId) (past : List (Event H T)) (c : Campaign H T P) : Prop where
  running : ∀ agent slot, c.roster.get? agent = some slot →
    agent ∈ known ∧ slot.handle.id = agent ∧ Lived (own agent past) slot
  everybody : ∀ agent, ∃ slot, Lived (own agent past) slot
  unknown : ∀ agent, agent ∉ known → own agent past = []

section Lives

variable {c₀ c c' : Campaign H T P} {known : List AgentId} {past : List (Event H T)}

theorem lives_start (hempty : c₀.roster = .empty) :
    Lives (H := H) (T := T) [] [] c₀ := by
  constructor
  · intro agent slot hslot
    rw [hempty] at hslot
    cases hslot
  · intro agent
    exact ⟨_, .joined { id := agent, team := .zero, group := .agent } rfl⟩
  · intro agent _
    rfl

theorem Lives.joined (h : Lives known past c) {team : Team} {group : Group} {pose : Pose}
    {agent : AgentId} (hspawn : spawn team group pose c = .ok agent c') (hnew : agent ∉ known) :
    Lives (known ++ [agent]) past c' := by
  obtain ⟨host, b, -, -, rfl⟩ := spawn_ok hspawn
  constructor
  · intro other slot hslot
    rw [List.mem_append, List.mem_singleton]
    simp only [IdMap.get?_insert] at hslot
    split at hslot
    · rename_i hother
      cases hslot
      rw [hother, h.unknown agent hnew]
      exact ⟨.inr rfl, rfl, .joined _ rfl⟩
    · obtain ⟨hknown, hid, hlived⟩ := h.running other slot hslot
      exact ⟨.inl hknown, hid, hlived⟩
  · exact h.everybody
  · intro other hother
    exact h.unknown other fun hknown => hother (List.mem_append_left _ hknown)

theorem Lives.left (h : Lives known past c) {agent : AgentId}
    (hdespawn : despawn agent c = .ok () c') : Lives known past c' := by
  obtain ⟨last, -, rfl⟩ := despawn_ok hdespawn
  refine ⟨?_, h.everybody, h.unknown⟩
  intro other slot hslot
  simp only [IdMap.get?_erase] at hslot
  split at hslot
  · cases hslot
  · exact h.running other slot hslot

variable [Policy P]

theorem Lives.turned (h : Lives known past c) {agent : AgentId} {slot : Slot} {ended : Bool}
    (hslot : c.roster.get? agent = some slot) (hturn : (Told.turn slot).run c = .ok ended c') :
    Lives known (past ++ (Told.turn slot).asks c) c' := by
  obtain ⟨hknown, hid, hlived⟩ := h.running agent slot hslot
  obtain ⟨slot', hturned, hroster⟩ := turned_of_ok hturn
  have hid' : slot'.handle.id = agent := hturned.handle.1.trans hid
  have hown (other : AgentId) : own other (past ++ (Told.turn slot).asks c) =
      if other = agent then own other past ++ (Told.turn slot).asks c else own other past := by
    rw [own_append, hturned.own_eq, hid]
    by_cases hother : other = agent
    · rw [if_pos hother, if_pos hother.symm]
    · rw [if_neg hother, if_neg (Ne.symm hother), List.append_nil]
  rw [hid] at hroster
  constructor
  · intro other kept hkept
    rw [hroster] at hkept
    rw [hown]
    split at hkept
    · rename_i hother
      cases hkept
      rw [if_pos hother, hother]
      exact ⟨hknown, hid', hlived.turned hturned⟩
    · rename_i hother
      rw [if_neg hother]
      exact h.running other kept hkept
  · intro other
    rw [hown]
    split
    · rename_i hother
      rw [hother]
      exact ⟨slot', hlived.turned hturned⟩
    · exact h.everybody other
  · intro other hother
    rw [hown, if_neg fun heq : other = agent => hother (heq ▸ hknown)]
    exact h.unknown other hother

/-- Whatever steps a campaign has taken since nobody was there, everybody has lived. -/
theorem Chronicle.lives (h : Chronicle c₀ known past c) (hempty : c₀.roster = .empty) :
    Lives known past c := by
  induction h with
  | start => exact lives_start hempty
  | begun h number ih => exact ⟨ih.running, ih.everybody, ih.unknown⟩
  | turned h hslot hturn ih => exact ih.turned hslot hturn
  | granted h ih => exact ⟨ih.running, ih.everybody, ih.unknown⟩
  | joined h hspawn hnew ih => exact ih.joined hspawn hnew
  | left h hdespawn ih => exact ih.left hdespawn

end Lives

end Campaign

end FlagCombat
