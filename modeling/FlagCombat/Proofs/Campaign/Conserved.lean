import FlagCombat.Proofs.Campaign.Chronicle

/-!
What a turn conserves, at each of its requests and also where it fails. A turn makes calls for its
agent, has the host read for it, turns to the trainer and the policy, and writes the agent's slot;
whatever none of these breaks holds all through it.
-/

namespace FlagCombat

/-- What a handle says of who its agent is. -/
def Handle.identity (handle : Handle) : AgentId × Team × Group :=
  (handle.id, handle.team, handle.group)

namespace Campaign

namespace Request

/-- The call that a request makes. -/
def call? : Request → Option Call
  | .check handle => some (.isEpisodeOver handle)
  | .reset handle => some (.reset handle)
  | .sense handle readings => some (.sense handle readings)
  | .step handle action => some (.step handle action)
  | .finish _ _ | .report _ _ | .start _ _ | .act _ _ _ => none

/-- What a request shows a policy, and of whom. -/
def shown? : Request → Option (Handle × List Float)
  | .start handle observations | .act handle observations _ => some (handle, observations)
  | _ => none

theorem handle_of_call {request : Request} {call : Call} (h : request.call? = some call) :
    ∃ handle, call.handle? = some handle ∧ handle.id = request.agent := by
  cases request with
  | check handle | reset handle | sense handle readings | step handle action =>
    cases h
    exact ⟨handle, rfl, rfl⟩
  | finish | report | start | act => cases h

end Request

variable {H T P α β : Type}

namespace Told

/-- What holds at every request of an action, and what the action leaves when it succeeds and when it
fails. -/
structure Ensures (x : Told H T P α) (c : Campaign H T P) (good : Event H T → Prop)
    (done : α → Campaign H T P → Prop) (failed : CampaignError → Campaign H T P → Prop) : Prop where
  asks : ∀ e ∈ x.asks c, good e
  run : Campaign.Ensures x.run c done failed

variable {c : Campaign H T P} {good : Event H T → Prop}
  {failed : CampaignError → Campaign H T P → Prop}

theorem Ensures.bind {x : Told H T P α} {f : α → Told H T P β} {mid : α → Campaign H T P → Prop}
    {done : β → Campaign H T P → Prop} (hx : Ensures x c good mid failed)
    (hf : ∀ a c', mid a c' → Ensures (f a) c' good done failed) :
    Ensures (x >>= f) c good done failed := by
  constructor
  · intro e he
    rcases List.mem_append.1 he with he | he
    · exact hx.asks e he
    · cases h : x.run c with
      | ok a c' =>
        rw [h] at he
        exact (hf a c' (hx.run.after_ok h)).asks e he
      | error err c' =>
        rw [h] at he
        cases he
  · exact hx.run.bind fun a c' hmid => (hf a c' hmid).run

theorem Ensures.mono {x : Told H T P α} {done done' : α → Campaign H T P → Prop}
    {failed' : CampaignError → Campaign H T P → Prop} (hx : Ensures x c good done failed)
    (hd : ∀ a c', done a c' → done' a c') (hf : ∀ e c', failed e c' → failed' e c') :
    Ensures x c good done' failed' :=
  ⟨hx.asks, hx.run.mono hd hf⟩

/-- An account of what an action leaves may be replaced where the action leads. -/
theorem Ensures.of_outcome {x : Told H T P α} {done done' : α → Campaign H T P → Prop}
    {failed' : CampaignError → Campaign H T P → Prop} (hx : Ensures x c good done failed)
    (hd : ∀ a c', x.run c = .ok a c' → done a c' → done' a c')
    (hf : ∀ e c', x.run c = .error e c' → failed e c' → failed' e c') :
    Ensures x c good done' failed' := by
  refine ⟨hx.asks, ?_⟩
  cases hrun : x.run c with
  | ok a c' => exact ensures_of_ok hrun (hd a c' hrun (hx.run.after_ok hrun))
  | error e c' => exact ensures_of_error hrun (hf e c' hrun (hx.run.after_error hrun))

/-- What holds at the requests may depend on where the first part of an action leads. -/
theorem exists_bind {ι : Type} [Inhabited ι] {good : ι → Event H T → Prop} {x : Told H T P α}
    {f : α → Told H T P β} {mid : α → Campaign H T P → Prop} {done : β → Campaign H T P → Prop}
    (hx : ∀ i, Ensures x c (good i) mid failed)
    (hf : ∀ a c', mid a c' → ∃ i, Ensures (f a) c' (good i) done failed) :
    ∃ i, Ensures (x >>= f) c (good i) done failed := by
  cases hrun : x.run c with
  | ok a c' =>
    obtain ⟨i, hi⟩ := hf a c' ((hx default).run.after_ok hrun)
    have honly : Ensures x c (good i) (fun a' c'' => a' = a ∧ c'' = c') failed :=
      ⟨(hx i).asks, ensures_of_ok hrun ⟨rfl, rfl⟩⟩
    refine ⟨i, honly.bind ?_⟩
    rintro _ _ ⟨rfl, rfl⟩
    exact hi
  | error e c' =>
    have hnever : Ensures x c (good default) (fun _ _ => False) failed :=
      ⟨(hx default).asks, ensures_of_error hrun ((hx default).run.after_error hrun)⟩
    exact ⟨default, hnever.bind fun _ _ hfalse => hfalse.elim⟩

theorem ensures_quietly {x : Action H T P α} {done : α → Campaign H T P → Prop}
    (h : Campaign.Ensures x c done failed) : Ensures (quietly x) c good done failed :=
  ⟨fun _ he => absurd he List.not_mem_nil, h⟩

theorem ensures_pure {a : α} {done : α → Campaign H T P → Prop} (h : done a c) :
    Ensures (pure a : Told H T P α) c good done failed :=
  ensures_quietly (Campaign.ensures_pure h)

variable [Host H] [Trainer T] [Policy P]

/-- What a request leaves when it succeeds: its call is made, or the trainer and the policy are
turned to. -/
inductive Served (request : Request) (c : Campaign H T P) : Campaign H T P → Prop
  | called {call : Call} {reply : Reply} {battle : Battle H T} (hcall : request.call? = some call)
      (hattempt : c.battle.attempt call = .ok (reply, battle)) : Served request c { c with battle }
  | aside (hcall : request.call? = none) (trainer : T) (policy : P) :
      Served request c { c with battle := { c.battle with trainer }, policy }

omit [Policy P] in
theorem served_of_call (request : Request) {call : Call} (hcall : request.call? = some call)
    {f : Battle H T → Except BattleError (α × Battle H T)}
    (hf : ∀ a b, f c.battle = .ok (a, b) → ∃ reply, c.battle.attempt call = .ok (reply, b)) :
    Campaign.Ensures (Campaign.call f) c (fun _ => Served request c) fun _ c' => c' = c := by
  unfold Campaign.Ensures Campaign.call
  cases hcalled : f c.battle with
  | error e => rfl
  | ok result =>
    obtain ⟨reply, hattempt⟩ := hf result.1 result.2 hcalled
    exact .called hcall hattempt

/-- A request that fails changes nothing. -/
theorem ensures_serve (request : Request) (c : Campaign H T P) :
    Campaign.Ensures (serve request) c (fun _ => Served request c) fun _ c' => c' = c := by
  cases request with
  | check handle =>
    refine served_of_call (.check handle) (f := fun b => b.isEpisodeOver handle) rfl ?_
    intro isOver b hb
    exact ⟨.verdict isOver, by simp [Battle.attempt, hb, Except.map]⟩
  | finish handle reward => exact .aside rfl c.battle.trainer _
  | report id fitness =>
    unfold Campaign.Ensures
    rw [serve_report]
    cases Trainer.reportFitness c.battle.trainer id fitness with
    | error e => rfl
    | ok trainer => exact .aside rfl trainer c.policy
  | reset handle =>
    refine served_of_call (.reset handle) (f := fun b => (b.reset handle).map ((), ·)) rfl ?_
    intro _ b hb
    obtain ⟨b', hb', heq⟩ := map_ok hb
    cases heq
    exact ⟨.verdict true, by simp [Battle.attempt, hb', Except.map]⟩
  | sense handle readings =>
    refine served_of_call (.sense handle readings) (f := fun b => b.sense handle readings) rfl ?_
    intro values b hb
    exact ⟨.vector values, by simp [Battle.attempt, hb, Except.map]⟩
  | start handle observations => exact .aside rfl c.battle.trainer _
  | act handle observations reward => exact .aside rfl c.battle.trainer _
  | step handle action =>
    refine served_of_call (.step handle action) (f := fun b => b.step handle action) rfl ?_
    intro reward b hb
    exact ⟨.vector reward, by simp [Battle.attempt, hb, Except.map]⟩

theorem ensures_ask {request : Request} {done : request.Answer → Campaign H T P → Prop}
    (hgood : good ⟨request, c.battle⟩) (h : Campaign.Ensures (serve request) c done failed) :
    Ensures (ask request) c good done failed := by
  refine ⟨fun e he => ?_, h⟩
  rw [List.mem_singleton.1 he]
  exact hgood

theorem ensures_stepAgent {agent : AgentId} {done : Bool → Campaign H T P → Prop}
    (hnone : c.roster.get? agent = none → done false c)
    (hturn : ∀ slot, c.roster.get? agent = some slot → Ensures (turn slot) c good done failed) :
    Ensures (stepAgent agent) c good done failed := by
  cases hslot : c.roster.get? agent with
  | none =>
    obtain ⟨hrun, hasks⟩ := stepAgent_of_none hslot
    refine ⟨fun e he => ?_, ensures_of_ok hrun (hnone hslot)⟩
    rw [hasks] at he
    cases he
  | some slot =>
    obtain ⟨hrun, hasks⟩ := stepAgent_of_some hslot
    obtain ⟨hgood, hleft⟩ := hturn slot hslot
    unfold Campaign.Ensures at hleft
    rw [← hrun] at hleft
    exact ⟨hasks ▸ hgood, hleft⟩

/-- What every turn leaves as it found it, the turns of a tick leave so. -/
theorem ensures_stepAgents {I : Campaign H T P → Prop}
    (hturn : ∀ c agent slot, I c → c.roster.get? agent = some slot →
      Ensures (turn slot) c good (fun _ => I) fun _ => I)
    (agents : List AgentId) (hc : I c) :
    Ensures (stepAgents agents) c good (fun _ => I) fun _ => I := by
  induction agents generalizing c with
  | nil => exact ensures_pure hc
  | cons agent rest ih =>
    have hfirst : Ensures (stepAgent agent) c good (fun _ => I) fun _ => I :=
      ensures_stepAgent (fun _ => hc) fun slot hslot => hturn c agent slot hc hslot
    refine hfirst.bind fun ended c₁ h₁ => ?_
    exact (ih h₁).bind fun others c₂ h₂ => ensures_pure h₂

end Told

/-- Conserved at a request, whatever it is. -/
def At (I : Campaign H T P → Prop) (e : Event H T) : Prop := ∃ c, I c ∧ c.battle = e.battle

/-- An action that conserves a property, at each of its requests as well. -/
abbrev Conserves (I : Campaign H T P → Prop) (x : Told H T P α) (c : Campaign H T P) : Prop :=
  Told.Ensures x c (At I) (fun _ => I) fun _ => I

section Upheld

variable [Host H] [Trainer T]

/-- What is conserved by all that is asked for in a turn of an agent, and by all that it writes
down. -/
structure Upheld (agent : Handle) (I : Campaign H T P → Prop) : Prop where
  request : ∀ c (request : Request) c', I c → request.agent = agent.id →
    Told.Served request c c' → I c'
  host : ∀ c observations, I c → I { c with battle := { c.battle with
    host := (Host.senseChannels c.battle.host agent.id observations).2 } }
  trainer : ∀ c trainer, I c → I { c with battle := { c.battle with trainer } }
  slot : ∀ c slot, I c → slot.handle.identity = agent.identity →
    I { c with roster := c.roster.insert slot.handle.id slot }

variable {slot : Slot} {I I' : Campaign H T P → Prop} {good : Event H T → Prop}
  {c : Campaign H T P}

theorem Upheld.and {agent : Handle} (h : Upheld agent I) (h' : Upheld agent I') :
    Upheld agent fun c : Campaign H T P => I c ∧ I' c where
  request c request c' hc hagent hserved :=
    ⟨h.request c request c' hc.1 hagent hserved, h'.request c request c' hc.2 hagent hserved⟩
  host c observations hc := ⟨h.host c observations hc.1, h'.host c observations hc.2⟩
  trainer c trainer hc := ⟨h.trainer c trainer hc.1, h'.trainer c trainer hc.2⟩
  slot c slot hc hidentity := ⟨h.slot c slot hc.1 hidentity, h'.slot c slot hc.2 hidentity⟩

theorem Upheld.congr {agent : Handle} (h : Upheld agent I) (hiff : ∀ c, I c ↔ I' c) :
    Upheld agent I' := by
  have hsame : I = I' := funext fun c => propext (hiff c)
  rwa [← hsame]

variable [Policy P]

theorem Upheld.ask {agent : Handle} (h : Upheld agent I) (hc : I c) {request : Request}
    (hagent : request.agent = agent.id) (hgood : good ⟨request, c.battle⟩) :
    Told.Ensures (Told.ask request) c good (fun _ => I) fun _ => I := by
  refine Told.ensures_ask hgood ((Told.ensures_serve request c).mono ?_ ?_)
  · exact fun _ c' hserved => h.request c request c' hc hagent hserved
  · rintro _ _ rfl
    exact hc

/-- The end of an episode shows the policy nothing, and conserves what a turn conserves. -/
theorem Upheld.turnOver (h : Upheld slot.handle I)
    (hgood : ∀ c (request : Request), I c → request.shown? = none → good ⟨request, c.battle⟩)
    (hc : I c) :
    Told.Ensures (Told.turnOver slot) c good (fun next c' => I c' ∧ next = slot.renewed)
      fun _ => I := by
  unfold Told.turnOver
  refine (h.ask hc rfl (hgood c _ hc rfl)).bind fun _ c₁ h₁ => ?_
  refine (h.ask h₁ rfl (hgood c₁ _ h₁ rfl)).bind fun _ c₂ h₂ => ?_
  refine (h.ask h₂ rfl (hgood c₂ _ h₂ rfl)).bind fun _ c₃ h₃ => ?_
  have hissued := h.trainer c₃ (Trainer.nextOrganism c₃.battle.trainer slot.handle.id) h₃
  have hrenewed := h.slot _ slot.renewed hissued rfl
  have hput : Told.Ensures (Told.quietly do
      modifyTrainer (Trainer.nextOrganism · slot.handle.id)
      putSlot slot.renewed) c₃ good (fun _ => I) fun _ => I := Told.ensures_quietly hrenewed
  exact hput.bind fun _ c₄ h₄ => Told.ensures_pure ⟨h₄, rfl⟩

/-- An agent that plays conserves what its turn conserves. -/
theorem Upheld.play (h : Upheld slot.handle I) (hc : I c) : Conserves I (Told.play slot) c := by
  unfold Told.play
  have hread : Ensures (Told.read slot.handle.id) c (fun _ => I) fun _ => I :=
    h.host c c.battle.profile.interface.sensors.zeros hc
  refine (Told.ensures_quietly hread).bind fun readings c₁ h₁ => ?_
  refine (h.ask h₁ rfl ⟨c₁, h₁, rfl⟩).bind fun observations c₂ h₂ => ?_
  have hdecide : Conserves I (Told.decide slot observations) c₂ := by
    unfold Told.decide
    split
    · exact h.ask h₂ rfl ⟨c₂, h₂, rfl⟩
    · exact h.ask h₂ rfl ⟨c₂, h₂, rfl⟩
  refine hdecide.bind fun action c₃ h₃ => ?_
  refine (h.ask h₃ rfl ⟨c₃, h₃, rfl⟩).bind fun reward c₄ h₄ => ?_
  exact Told.ensures_quietly (h.slot c₄ (slot.stepped reward) h₄ rfl)

/-- An agent that plays shows the policy what the battle made of the readings. -/
theorem Upheld.play_shows (h : Upheld slot.handle I)
    (hquiet : ∀ c (request : Request), I c → request.shown? = none → good ⟨request, c.battle⟩)
    (hshown : ∀ c observations b (request : Request), I c →
      let read := Host.senseChannels c.battle.host slot.handle.id
        c.battle.profile.interface.sensors.zeros
      Battle.sense { c.battle with host := read.2 } slot.handle read.1 = .ok (observations, b) →
      I { c with battle := b } → request.shown? = some (slot.handle, observations) →
      good ⟨request, b⟩) (hc : I c) :
    Told.Ensures (Told.play slot) c good (fun _ => I) fun _ => I := by
  unfold Told.play
  let read := Host.senseChannels c.battle.host slot.handle.id
    c.battle.profile.interface.sensors.zeros
  let listened : Campaign H T P := { c with battle := { c.battle with host := read.2 } }
  have hread : Ensures (Told.read slot.handle.id) c
      (fun readings c' => read.1 = readings ∧ listened = c') fun _ => I := ⟨rfl, rfl⟩
  refine (Told.ensures_quietly hread).bind ?_
  rintro _ _ ⟨rfl, rfl⟩
  have h₁ : I listened := h.host c _ hc
  have hsense : Told.Ensures (Told.ask (.sense slot.handle read.1)) listened good
      (fun observations c' => I c' ∧ ∀ request : Request,
        request.shown? = some (slot.handle, observations) → good ⟨request, c'.battle⟩)
      fun _ => I := by
    refine (h.ask h₁ rfl (hquiet listened _ h₁ rfl)).of_outcome ?_ fun _ _ _ => id
    intro observations c' hrun h₂
    have hcalled : call (fun b => b.sense slot.handle read.1) listened = .ok observations c' := hrun
    obtain ⟨b, hsensed, rfl⟩ := call_ok hcalled
    exact ⟨h₂, fun request => hshown c observations b request hc hsensed h₂⟩
  refine hsense.bind ?_
  rintro observations c₂ ⟨h₂, hgood⟩
  have hdecide : Told.Ensures (Told.decide slot observations) c₂ good (fun _ => I) fun _ => I := by
    unfold Told.decide
    split
    · exact h.ask h₂ rfl (hgood _ rfl)
    · exact h.ask h₂ rfl (hgood _ rfl)
  refine hdecide.bind fun action c₃ h₃ => ?_
  refine (h.ask h₃ rfl (hquiet c₃ _ h₃ rfl)).bind fun reward c₄ h₄ => ?_
  exact Told.ensures_quietly (h.slot c₄ (slot.stepped reward) h₄ rfl)

/-- A turn conserves what its parts conserve, and shows the policy what its play shows. -/
theorem Upheld.turn (h : Upheld slot.handle I)
    (hgood : ∀ c (request : Request), I c → request.shown? = none → good ⟨request, c.battle⟩)
    (hplay : ∀ c (next : Slot), I c → next.handle.identity = slot.handle.identity →
      Told.Ensures (Told.play next) c good (fun _ => I) fun _ => I) (hc : I c) :
    Told.Ensures (Told.turn slot) c good (fun _ => I) fun _ => I := by
  unfold Told.turn
  refine (h.ask hc rfl (hgood c _ hc rfl)).bind fun ended c₁ h₁ => ?_
  have hnext : Told.Ensures (if ended then Told.turnOver slot else pure slot) c₁ good
      (fun next c' => I c' ∧ next.handle.identity = slot.handle.identity) fun _ => I := by
    cases ended with
    | false => exact Told.ensures_pure ⟨h₁, rfl⟩
    | true =>
      refine (h.turnOver hgood h₁).mono ?_ fun _ _ => id
      rintro next c₂ ⟨h₂, rfl⟩
      exact ⟨h₂, rfl⟩
  refine hnext.bind ?_
  rintro next c₂ ⟨h₂, hidentity⟩
  exact (hplay c₂ next h₂ hidentity).bind fun _ c₃ h₃ => Told.ensures_pure h₃

end Upheld

section About

variable [Host H] [Trainer T] [Policy P] {agent : AgentId} {c : Campaign H T P}

/-- An action that asks only for an agent, whether it succeeds or fails. -/
abbrev About (agent : AgentId) (x : Told H T P α) (c : Campaign H T P) (done : α → Prop) : Prop :=
  Told.Ensures x c (fun e => e.request.agent = agent) (fun a _ => done a) fun _ _ => True

omit [Host H] [Trainer T] [Policy P] in
theorem about_quietly (x : Action H T P α) : About agent (Told.quietly x) c fun _ => True :=
  Told.ensures_quietly (ensures_trivial x c)

theorem about_ask {request : Request} (hagent : request.agent = agent) :
    About agent (Told.ask request : Told H T P _) c fun _ => True :=
  Told.ensures_ask hagent (ensures_trivial _ c)

theorem about_play (slot : Slot) (c : Campaign H T P) :
    About slot.handle.id (Told.play slot) c fun _ => True := by
  unfold Told.play
  refine (about_quietly _).bind fun readings c₁ _ => ?_
  refine (about_ask rfl).bind fun observations c₂ _ => ?_
  have hdecide : About slot.handle.id (Told.decide slot observations) c₂ fun _ => True := by
    unfold Told.decide
    split
    · exact about_ask rfl
    · exact about_ask rfl
  refine hdecide.bind fun action c₃ _ => ?_
  exact (about_ask rfl).bind fun reward c₄ _ => about_quietly _

/-- All that a turn asks for is asked for its agent, also where the turn fails. -/
theorem about_turn (slot : Slot) (c : Campaign H T P) :
    About slot.handle.id (Told.turn slot) c fun _ => True := by
  unfold Told.turn
  refine (about_ask rfl).bind fun ended c₁ _ => ?_
  have hnext : About slot.handle.id (if ended then Told.turnOver slot else pure slot) c₁
      fun next => next.handle.id = slot.handle.id := by
    cases ended with
    | false => exact Told.ensures_pure rfl
    | true =>
      refine (about_ask rfl).bind fun _ c₂ _ => ?_
      refine (about_ask rfl).bind fun _ c₃ _ => ?_
      refine (about_ask rfl).bind fun _ c₄ _ => ?_
      exact (about_quietly _).bind fun _ _ _ => Told.ensures_pure rfl
  refine hnext.bind fun next c₂ hid => ?_
  have hplay := about_play next c₂
  rw [hid] at hplay
  exact hplay.bind fun _ _ _ => Told.ensures_pure trivial

end About

section Kept

variable [Host H] [Trainer T]

/-- What is conserved by all that a turn of an agent is made of. -/
structure Kept (agent : AgentId) (I : Campaign H T P → Prop) : Prop where
  call : ∀ c (call : Call) handle reply battle, I c → call.handle? = some handle →
    handle.id = agent → c.battle.attempt call = .ok (reply, battle) → I { c with battle }
  host : ∀ c observations, I c → I { c with battle := { c.battle with
    host := (Host.senseChannels c.battle.host agent observations).2 } }
  trainer : ∀ c trainer, I c → I { c with battle := { c.battle with trainer } }
  policy : ∀ c policy, I c → I { c with policy }
  slot : ∀ c slot, I c → slot.handle.id = agent →
    I { c with roster := c.roster.insert slot.handle.id slot }

variable {agent : AgentId} {I : Campaign H T P → Prop} {c : Campaign H T P}

variable [Policy P]

omit [Policy P] in
theorem Kept.upheld {handle : Handle} (h : Kept handle.id I) : Upheld handle I where
  request c request c' hc hagent hserved := by
    cases hserved with
    | called hcall hattempt =>
      obtain ⟨other, hh, hid⟩ := Request.handle_of_call hcall
      exact h.call c _ other _ _ hc hh (hid.trans hagent) hattempt
    | aside hcall trainer policy => exact h.policy _ policy (h.trainer c trainer hc)
  host := h.host
  trainer := h.trainer
  slot c slot hc hidentity := h.slot c slot hc (congrArg Prod.fst hidentity)

/-- What all parts of a turn conserve, the turn conserves. -/
theorem Kept.turn {slot : Slot} (h : Kept slot.handle.id I) (hc : I c) :
    Conserves I (Told.turn slot) c := by
  refine h.upheld.turn (fun c _ hc _ => ⟨c, hc, rfl⟩) (fun c next hc hidentity => ?_) hc
  have hid : next.handle.id = slot.handle.id := congrArg Prod.fst hidentity
  rw [← hid] at h
  exact h.upheld.play hc

/-- A turn that succeeds leaves what it conserves, and so it is at each of its requests. -/
theorem Kept.turn_ok {slot : Slot} {ended : Bool} {c' : Campaign H T P}
    (h : Kept slot.handle.id I) (hc : I c) (hturn : (Told.turn slot).run c = .ok ended c') :
    I c' ∧ ∀ e ∈ (Told.turn slot).asks c, At I e := by
  obtain ⟨hasks, hrun⟩ := h.turn hc
  exact ⟨hrun.after_ok hturn, hasks⟩

/-- What the turns of all agents conserve, the turns of a tick conserve. -/
theorem Kept.stepAgents (h : ∀ agent, Kept agent I) (agents : List AgentId) (hc : I c) :
    Conserves I (Told.stepAgents agents) c :=
  Told.ensures_stepAgents (fun _ _ slot hc _ => (h slot.handle.id).turn hc) agents hc

omit [Policy P] in
theorem kept_sound (agent : AgentId) : Kept agent fun c : Campaign H T P => c.battle.Sound where
  call _ _ _ _ _ hc _ _ hattempt := hc.changes (Battle.success_of_attempt hattempt).changes
  host _ _ hc := ⟨hc.record_id, hc.teamOf, hc.posed, hc.coherent⟩
  trainer _ _ hc := ⟨hc.record_id, hc.teamOf, hc.posed, hc.coherent⟩
  policy _ _ hc := hc
  slot _ _ hc _ := hc

omit [Policy P] in
theorem kept_profile (agent : AgentId) (profile : Profile) :
    Kept agent fun c : Campaign H T P => c.battle.profile = profile where
  call _ _ _ _ _ hc _ _ hattempt := (Battle.success_of_attempt hattempt).changes.profile.trans hc
  host _ _ hc := hc
  trainer _ _ hc := hc
  policy _ _ hc := hc
  slot _ _ hc _ := hc

/-- The profile is the same all through a run. -/
theorem Chronicle.profile {c₀ : Campaign H T P} {known : List AgentId} {past : List (Event H T)}
    (h : Chronicle c₀ known past c) :
    c.battle.profile = c₀.battle.profile ∧ ∀ e ∈ past, e.battle.profile = c₀.battle.profile := by
  induction h with
  | start => exact ⟨rfl, fun _ he => absurd he List.not_mem_nil⟩
  | begun h number ih => exact ih
  | turned h hslot hturn ih =>
    obtain ⟨hprofile, hasks⟩ := (kept_profile _ _).turn_ok ih.1 hturn
    refine ⟨hprofile, fun e he => ?_⟩
    rcases List.mem_append.1 he with he | he
    · exact ih.2 e he
    · obtain ⟨c₁, h₁, hbattle⟩ := hasks e he
      rw [← hbattle]
      exact h₁
  | granted h ih => exact ih
  | joined h hspawn hnew ih =>
    obtain ⟨host, b, -, henroll, rfl⟩ := spawn_ok hspawn
    exact ⟨(Battle.enroll_changes henroll).profile.trans ih.1, ih.2⟩
  | left h hdespawn ih =>
    obtain ⟨last, -, rfl⟩ := despawn_ok hdespawn
    exact ih

end Kept

end Campaign

end FlagCombat
