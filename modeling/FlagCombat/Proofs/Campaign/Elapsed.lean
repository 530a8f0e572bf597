import FlagCombat.Proofs.Battle.Moment
import FlagCombat.Proofs.Battle.Scripts
import FlagCombat.Proofs.Campaign.Earnings
import FlagCombat.Proofs.Campaign.Population

/-!
What ticks count. Their summaries say how many episodes ended, the battle how many shots landed, and
the journal what the trainer and the policy were told; these agree over every turn, and so over
every list of ticks that succeed. Nobody leaves the roster meanwhile, and no script is stopped.
-/

namespace FlagCombat

theorem IdMap.isEmpty_eq_false_iff {α : Type u} {m : IdMap α} :
    m.isEmpty = false ↔ ∃ k, m.contains k = true := by
  have hkeys : m.isEmpty = m.keys.isEmpty := by simp [isEmpty, keys]
  simp only [hkeys, List.isEmpty_eq_false_iff_exists_mem, mem_keys_iff]

namespace Campaign

def Request.isFinish : Request → Bool
  | .finish _ _ => true
  | _ => false

variable {H T P α β : Type} [Host H] [Trainer T]

/-- Whether a request makes a call that fires a shot which lands. -/
def Event.landed (e : Event H T) : Bool :=
  e.request.call?.any fun call => (Moment.mk e.battle call).landed

section Requests

variable {slot slot' : Slot} {events : List (Event H T)}

theorem Played.tells_nobody (h : Played slot events slot') :
    events.countP (·.request.isReport) = 0 ∧ events.countP (·.request.isFinish) = 0 := by
  obtain @⟨readings, observations, action, reward, b₁, b₂, b₃, b₄, hstep⟩ := h
  unfold decision
  split <;> exact ⟨rfl, rfl⟩

/-- The policy and the trainer are told of the end of an episode, each once. -/
theorem Turned.tells {ended : Bool} (h : Turned slot ended events slot') :
    events.countP (·.request.isReport) = (if ended then 1 else 0) ∧
      events.countP (·.request.isFinish) = if ended then 1 else 0 := by
  cases h with
  | goesOn hcheck hplay =>
    obtain ⟨hreports, hfinishes⟩ := hplay.tells_nobody
    simp only [List.countP_cons, hreports, hfinishes]
    exact ⟨rfl, rfl⟩
  | renews hcheck hplay =>
    obtain ⟨hreports, hfinishes⟩ := hplay.tells_nobody
    simp only [List.countP_cons, hreports, hfinishes]
    exact ⟨rfl, rfl⟩

end Requests

variable [Policy P]

/-- An action that adds to the hits of the battle the shots that land at its requests. -/
def Told.Scores (x : Told H T P α) (c : Campaign H T P) : Prop :=
  ∀ a c', x.run c = .ok a c' →
    c'.battle.hits = c.battle.hits + (x.asks c).countP Event.landed

namespace Told

variable {c : Campaign H T P} {x : Told H T P α} {f : α → Told H T P β}

omit [Policy P] in
theorem Scores.bind (hx : x.Scores c) (hf : ∀ a c', x.run c = .ok a c' → (f a).Scores c') :
    (x >>= f).Scores c := by
  intro b c' hrun
  obtain ⟨a, c₁, hfirst, hnext, hasks⟩ := bind_ok hrun
  rw [hasks, List.countP_append, hf a c₁ hfirst b c' hnext, hx a c₁ hfirst, Nat.add_assoc]

omit [Policy P] in
theorem scores_quietly {y : Action H T P α}
    (h : Campaign.Ensures y c (fun _ c' => c'.battle.hits = c.battle.hits) fun _ _ => True) :
    (quietly y).Scores c := fun _ _ hrun => h.after_ok hrun

omit [Policy P] in
theorem scores_pure (a : α) : (pure a : Told H T P α).Scores c := scores_quietly rfl

theorem scores_ask (request : Request) : (ask request : Told H T P _).Scores c := by
  intro answer c' hrun
  have hasks : (ask request).asks c = [⟨request, c.battle⟩] := rfl
  rw [hasks, List.countP_singleton]
  unfold Event.landed
  cases (ensures_serve request c).after_ok hrun with
  | @called call reply battle hcall hattempt =>
    have hafter : (Moment.mk c.battle call).after = battle := by
      simp [Moment.after, Battle.perform, hattempt]
    simpa [hcall, hafter] using (Moment.mk c.battle call).hits_after
  | aside hcall trainer policy => simp [hcall]

theorem scores_turnOver (slot : Slot) : (turnOver slot : Told H T P Slot).Scores c := by
  unfold turnOver
  refine (scores_ask (.finish slot.handle slot.lastReward)).bind fun _ c₁ _ => ?_
  refine (scores_ask (.report slot.handle.id slot.episodeFitness)).bind fun _ c₂ _ => ?_
  refine (scores_ask (.reset slot.handle)).bind fun _ c₃ _ => ?_
  have hput : (quietly do
      modifyTrainer (Trainer.nextOrganism · slot.handle.id)
      putSlot slot.renewed : Told H T P Unit).Scores c₃ := scores_quietly rfl
  exact hput.bind fun _ c₄ _ => scores_pure slot.renewed

theorem scores_play (slot : Slot) : (play slot : Told H T P Unit).Scores c := by
  unfold play
  have hread : (quietly (read slot.handle.id) : Told H T P _).Scores c := scores_quietly rfl
  refine hread.bind fun readings c₁ _ => ?_
  refine (scores_ask (.sense slot.handle readings)).bind fun observations c₂ _ => ?_
  have hdecide : (Told.decide slot observations).Scores c₂ := by
    unfold Told.decide
    split
    · exact scores_ask (.start slot.handle observations)
    · exact scores_ask (.act slot.handle observations slot.lastReward)
  refine hdecide.bind fun action c₃ _ => ?_
  refine (scores_ask (.step slot.handle action)).bind fun reward c₄ _ => ?_
  exact scores_quietly rfl

theorem scores_turn (slot : Slot) : (turn slot : Told H T P Bool).Scores c := by
  unfold turn
  refine (scores_ask (.check slot.handle)).bind fun ended c₁ _ => ?_
  have hnext : (if ended then turnOver slot else pure slot : Told H T P Slot).Scores c₁ := by
    cases ended with
    | false => exact scores_pure slot
    | true => exact scores_turnOver slot
  refine hnext.bind fun next c₂ _ => ?_
  exact (scores_play next).bind fun _ c₃ _ => scores_pure ended

end Told

omit [Policy P] in
theorem kept_running (agent other : AgentId) :
    Kept agent fun c : Campaign H T P => c.roster.contains other = true where
  call _ _ _ _ _ hc _ _ _ := hc
  host _ _ hc := hc
  trainer _ _ hc := hc
  policy _ _ hc := hc
  slot c slot hc _ := by
    show (c.roster.insert slot.handle.id slot).contains other = true
    rw [IdMap.contains_insert, hc, Bool.or_true]

omit [Policy P] in
theorem kept_scripts (log : ScriptLog H) (agent : AgentId) (scripts : List String) :
    Kept agent fun c : Campaign H T P => log.stopped c.battle.host = scripts where
  call _ _ _ _ _ hc hh _ hattempt := (log.stopped_attempt hh hattempt).trans hc
  host _ _ hc := (log.senseChannels ..).trans hc
  trainer _ _ hc := hc
  policy _ _ hc := hc
  slot _ _ hc _ := hc

/-- What some part of the ticks of a campaign has made of it, by its events and the number of
episodes that it says have ended. -/
structure Elapsed (c : Campaign H T P) (events : List (Event H T)) (ended : Nat)
    (c' : Campaign H T P) : Prop where
  hits_eq : c'.battle.hits = c.battle.hits + events.countP Event.landed
  reports_eq : events.countP (·.request.isReport) = ended
  finishes_eq : events.countP (·.request.isFinish) = ended
  running : ∀ agent, c.roster.contains agent = true → c'.roster.contains agent = true
  scripts : ∀ log : ScriptLog H, log.stopped c'.battle.host = log.stopped c.battle.host

section Elapsed

variable {c c₁ c' : Campaign H T P}

omit [Policy P] in
theorem Elapsed.refl (c : Campaign H T P) : Elapsed c [] 0 c :=
  ⟨rfl, rfl, rfl, fun _ => id, fun _ => rfl⟩

omit [Policy P] in
theorem Elapsed.trans {events more : List (Event H T)} {ended others : Nat}
    (h : Elapsed c events ended c₁) (h' : Elapsed c₁ more others c') :
    Elapsed c (events ++ more) (ended + others) c' where
  hits_eq := by rw [List.countP_append, h'.hits_eq, h.hits_eq, Nat.add_assoc]
  reports_eq := by rw [List.countP_append, h.reports_eq, h'.reports_eq]
  finishes_eq := by rw [List.countP_append, h.finishes_eq, h'.finishes_eq]
  running agent hagent := h'.running agent (h.running agent hagent)
  scripts log := (h'.scripts log).trans (h.scripts log)

theorem elapsed_turn {slot : Slot} {ended : Bool} (h : (Told.turn slot).run c = .ok ended c') :
    Elapsed c ((Told.turn slot).asks c) (if ended then 1 else 0) c' := by
  obtain ⟨slot', hturned, -⟩ := turned_of_ok h
  obtain ⟨hreports, hfinishes⟩ := hturned.tells
  exact ⟨Told.scores_turn slot ended c' h, hreports, hfinishes,
    fun agent hagent => ((kept_running slot.handle.id agent).turn_ok hagent h).1,
    fun log => ((kept_scripts log slot.handle.id _).turn_ok rfl h).1⟩

theorem elapsed_stepAgents {agents : List AgentId} {ended : Nat}
    (h : (Told.stepAgents agents).run c = .ok ended c') :
    Elapsed c ((Told.stepAgents agents).asks c) ended c' := by
  induction agents generalizing c ended with
  | nil =>
    cases h
    exact .refl _
  | cons agent rest ih =>
    obtain ⟨isOver, c₁, hfirst, h, hasks⟩ := Told.bind_ok h
    obtain ⟨others, c₂, hrest, h, hasks₁⟩ := Told.bind_ok h
    cases h
    have hevents : (Told.stepAgents (agent :: rest)).asks c =
        (Told.stepAgent agent).asks c ++ (Told.stepAgents rest).asks c₁ :=
      hasks.trans (congrArg _ (hasks₁.trans (List.append_nil _)))
    rw [hevents]
    refine Elapsed.trans ?_ (ih hrest)
    rcases Told.stepAgent_cases hfirst with ⟨hnone, rfl, hquiet⟩ | ⟨slot, -, hturn, hsome⟩
    · rw [(Told.stepAgent_of_none hnone).1] at hfirst
      cases hfirst
      rw [hquiet]
      exact .refl c₁
    · rw [hsome]
      exact elapsed_turn hturn

omit [Policy P] in
/-- A spawn tells nobody of anything. -/
theorem elapsed_spawn {team : Team} {group : Group} {pose : Pose} {agent : AgentId}
    (h : spawn team group pose c = .ok agent c') : Elapsed c [] 0 c' := by
  obtain ⟨host, b, hhost, henroll, rfl⟩ := spawn_ok h
  have hhits := Battle.hits_enroll henroll
  refine ⟨hhits, rfl, rfl, fun other hother => ?_, fun log => ?_⟩
  · show (c.roster.insert agent _).contains other = true
    rw [IdMap.contains_insert, hother, Bool.or_true]
  · have hspawned := log.spawnAgent c.battle.host team group pose
    rw [hhost] at hspawned
    exact (log.stopped_equip b _).trans ((log.stopped_enroll henroll).trans hspawned)

omit [Policy P] in
theorem elapsed_spawnMany {point : SpawnPoint} {count : Nat}
    (h : spawnMany point count c = .ok () c') : Elapsed c [] 0 c' := by
  induction count generalizing c with
  | zero =>
    cases h
    exact .refl _
  | succ count ih =>
    obtain ⟨agent, c₁, hfirst, hrest⟩ := bind_ok h
    exact (elapsed_spawn hfirst).trans (ih hrest)

/-- A tick that succeeds counts what its turns ask for. -/
theorem elapsed_tick {number : UInt64} {point : SpawnPoint} {summary : TickSummary}
    (h : tick number point c = .ok summary c') :
    summary.tick = number ∧
      Elapsed c (asked (.tick number point) c) summary.episodesEnded c' := by
  obtain ⟨ended, c₁, hturns, hmany, hasked, -⟩ := tick_stages h
  have hturned := elapsed_stepAgents hturns
  have hjoined := elapsed_spawnMany hmany
  rw [Told.run_stepAgents] at hturns
  rw [tick_eq_ok hturns hmany] at h
  cases h
  rw [hasked]
  have htaken : Elapsed c₁ [] 0 c₁.granted := ⟨rfl, rfl, rfl, fun _ => id, fun _ => rfl⟩
  have hbegun : Elapsed c [] 0 (c.begun number) := ⟨rfl, rfl, rfl, fun _ => id, fun _ => rfl⟩
  have hall := ((hbegun.trans hturned).trans htaken).trans hjoined
  refine ⟨rfl, ?_⟩
  simpa using hall

end Elapsed

/-- What is told of a tick: its summary, and all that may be seen of the agents after it. -/
structure Bulletin where
  summary : TickSummary
  views : List View
deriving DecidableEq

/-- Ticks one after the other, each with its number and its spawn point, and what is told of
them. -/
def bulletins : List (UInt64 × SpawnPoint) → Action H T P (List Bulletin)
  | [] => pure []
  | (number, point) :: schedule => do
    let summary ← tick number point
    let views := (← get).battle.views
    let later ← bulletins schedule
    return { summary, views } :: later

section Bulletins

variable {c c₁ c' : Campaign H T P} {schedule : List (UInt64 × SpawnPoint)}
  {told : List Bulletin}

theorem bulletins_cons_ok {number : UInt64} {point : SpawnPoint}
    (h : bulletins ((number, point) :: schedule) c = .ok told c') :
    ∃ summary c₁ later, tick number point c = .ok summary c₁ ∧
      bulletins schedule c₁ = .ok later c' ∧
      told = { summary, views := c₁.battle.views } :: later := by
  obtain ⟨summary, c₁, htick, h⟩ := bind_ok h
  obtain ⟨_, c₂, hget, h⟩ := bind_ok (x := get) h
  cases hget
  obtain ⟨later, c₃, hlater, h⟩ := bind_ok h
  cases h
  exact ⟨summary, c₁, later, htick, hlater, rfl⟩

theorem bulletins_cons_of_ok {number : UInt64} {point : SpawnPoint} {summary : TickSummary}
    (htick : tick number point c = .ok summary c₁) (h : bulletins schedule c₁ = .ok told c') :
    bulletins ((number, point) :: schedule) c =
      .ok ({ summary, views := c₁.battle.views } :: told) c' := by
  show EStateM.bind (tick number point) _ c = _
  unfold EStateM.bind
  rw [htick]
  show EStateM.bind (bulletins schedule) _ c₁ = _
  unfold EStateM.bind
  rw [h]
  rfl

/-- One tick more is told of last. -/
theorem bulletins_concat {number : UInt64} {point : SpawnPoint} {summary : TickSummary}
    (h : bulletins schedule c = .ok told c₁) (htick : tick number point c₁ = .ok summary c') :
    bulletins (schedule ++ [(number, point)]) c =
      .ok (told ++ [{ summary, views := c'.battle.views }]) c' := by
  induction schedule generalizing c told with
  | nil =>
    cases h
    exact bulletins_cons_of_ok htick rfl
  | cons first schedule ih =>
    obtain ⟨earlier, c₂, later, hfirst, hrest, rfl⟩ := bulletins_cons_ok h
    exact bulletins_cons_of_ok hfirst (ih hrest)

/-- Ticks that succeed are told of by their numbers, and count what the journal says. -/
theorem elapsed_bulletins (h : bulletins schedule c = .ok told c') :
    told.map (·.summary.tick) = schedule.map (·.1) ∧
      Elapsed c (journal (ticks schedule) c) (told.map (·.summary.episodesEnded)).sum c' := by
  induction schedule generalizing c told with
  | nil =>
    cases h
    exact ⟨rfl, .refl _⟩
  | cons first schedule ih =>
    obtain ⟨number, point⟩ := first
    obtain ⟨summary, c₁, later, htick, hlater, rfl⟩ := bulletins_cons_ok h
    obtain ⟨hnumber, hticked⟩ := elapsed_tick htick
    obtain ⟨hnumbers, helapsed⟩ := ih hlater
    have hjournal : journal (ticks ((number, point) :: schedule)) c =
        asked (.tick number point) c ++ journal (ticks schedule) c₁ := by
      rw [← follow_of_ok (obey_tick_ok htick)]
      rfl
    refine ⟨by simp only [List.map_cons, hnumber, hnumbers], ?_⟩
    rw [hjournal, List.map_cons, List.sum_cons]
    exact hticked.trans helapsed

end Bulletins

end Campaign

end FlagCombat
