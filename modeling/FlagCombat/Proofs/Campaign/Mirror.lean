import FlagCombat.Proofs.Battle.Whereabouts
import FlagCombat.Proofs.Campaign.Apart

/-!
Poses that agree. Between two orders an arena shows every agent where its record says. In a tick every
agent senses and steps while it is where it is frozen, whatever was before its turn; and its step
leaves where it was at the start of the tick as its previous pose, unless it was only placed.
-/

namespace FlagCombat

namespace Whereabouts

/-- Shown where the record says, if anywhere. -/
def Mirrored (w : Whereabouts) : Prop := w.shown = w.live

/-- At a pose, as far as others see, and shown there. -/
def At (w : Whereabouts) (pose : Pose) : Prop :=
  w.live = some pose ∧ w.frozen = some pose ∧ w.shown = some pose

theorem At.mirrored {w : Whereabouts} {pose : Pose} (h : w.At pose) : w.Mirrored :=
  h.2.2.trans h.1.symm

theorem at_still (pose : Pose) : (still pose).At pose := ⟨rfl, rfl, rfl⟩

end Whereabouts

/-- Whether a step with a handle moves its agent, and does not only place it. -/
def Handle.walks (handle : Handle) : Bool := !decide (handle.step = 0 ∧ handle.group.isMobile = true)

/-- What a step leaves of an agent at a pose: shown where it is, with that pose as the previous one
if it walked. -/
theorem Whereabouts.At.stepped {w w' : Whereabouts} {pose : Pose} {handle : Handle} (hat : w.At pose)
    (h : (Call.step handle []).Leads w w') :
    w'.Mirrored ∧ w'.previous = if handle.walks then some pose else w'.live := by
  have hstep : if handle.step = 0 ∧ handle.group.isMobile then ∃ place, w' = .still place
      else ∃ place, w' = ⟨some place, w.live, w.frozen, some place⟩ := h
  unfold Handle.walks
  by_cases hfirst : handle.step = 0 ∧ handle.group.isMobile = true
  · rw [if_pos hfirst] at hstep
    obtain ⟨place, rfl⟩ := hstep
    exact ⟨rfl, by simp [hfirst, Whereabouts.still]⟩
  · rw [if_neg hfirst] at hstep
    obtain ⟨place, rfl⟩ := hstep
    exact ⟨rfl, by simp [hfirst, hat.1]⟩

namespace Campaign

namespace Request

/-- Whether a request is about what its agent sees. -/
def looks : Request → Bool
  | .sense _ _ | .step _ _ => true
  | _ => false

/-- Whether a request moves its agent. -/
def moves : Request → Bool
  | .step handle _ => handle.walks
  | _ => false

/-- How a request changes the whereabouts of its agent. -/
def Leads (request : Request) (w w' : Whereabouts) : Prop :=
  match request.call? with
  | some call => call.Leads w w'
  | none => w' = w

end Request

variable {T P : Type}

/-- An agent that senses or steps is at a place, where it is frozen as well. -/
def Event.LooksFrom (place : Pose) (e : Event Arena T) : Prop :=
  e.request.looks = true → (e.battle.whereabouts e.request.agent).At place

section Turn

variable [Trainer T] [Policy P] {c c' : Campaign Arena T P} {slot : Slot} {w : Whereabouts}
  {pose place : Pose}

/-- What is asked for an agent changes its whereabouts as it should, or not at all if it fails. -/
theorem ensures_ask_leads {request : Request} (agent : AgentId) (hagent : request.agent = agent)
    (hw : c.battle.whereabouts agent = w) (hat : w.At pose)
    (hplace : request.looks = false ∨ pose = place) :
    Told.Ensures (Told.ask request) c (fun e => e.request.agent = agent ∧ e.LooksFrom place)
      (fun _ c' => request.Leads w (c'.battle.whereabouts agent))
      fun _ c' => c'.battle.whereabouts agent = w := by
  subst hagent hw
  have hlooks : Event.LooksFrom place (⟨request, c.battle⟩ : Event Arena T) := by
    intro hlooks
    rcases hplace with hquiet | rfl
    · rw [hquiet] at hlooks
      cases hlooks
    · exact hat
  refine Told.ensures_ask ⟨rfl, hlooks⟩ ((Told.ensures_serve request c).mono ?_ ?_)
  · intro _ c' hserved
    unfold Request.Leads
    cases hserved with
    | @called call reply battle hcall hattempt =>
      obtain ⟨handle, hh, hid⟩ := Request.handle_of_call hcall
      rw [← hid] at hat ⊢
      rw [hcall]
      refine Battle.leads_attempt hh ?_ ?_ hattempt
      · rw [hat.1]
        rfl
      · rw [hat.2.2]
        rfl
    | aside hcall trainer policy =>
      rw [hcall]
      rfl
  · rintro _ _ rfl
    rfl

/-- The end of an episode changes the whereabouts of an agent by its reset, and looks nowhere. -/
theorem ensures_turnOver_leads (hw : c.battle.whereabouts slot.handle.id = w) (hat : w.At pose)
    (place : Pose) :
    Told.Ensures (Told.turnOver slot) c
      (fun e => e.request.agent = slot.handle.id ∧ e.LooksFrom place)
      (fun next c' => next = slot.renewed ∧
        (Call.reset slot.handle).Leads w (c'.battle.whereabouts slot.handle.id))
      fun _ c' => c'.battle.whereabouts slot.handle.id = w := by
  unfold Told.turnOver
  refine (ensures_ask_leads slot.handle.id rfl hw hat (.inl rfl)).bind fun _ c₁ h₁ => ?_
  refine (ensures_ask_leads slot.handle.id rfl h₁ hat (.inl rfl)).bind fun _ c₂ h₂ => ?_
  refine (ensures_ask_leads slot.handle.id rfl h₂ hat (.inl rfl)).bind fun _ c₃ h₃ => ?_
  have hput : Ensures (do
      modifyTrainer (Trainer.nextOrganism · slot.handle.id)
      putSlot slot.renewed : Action Arena T P Unit) c₃
      (fun _ c₄ => (Call.reset slot.handle).Leads w (c₄.battle.whereabouts slot.handle.id))
      fun _ c' => c'.battle.whereabouts slot.handle.id = w := h₃
  exact (Told.ensures_quietly hput).bind fun _ c₄ h₄ => Told.ensures_pure ⟨rfl, h₄⟩

/-- Only the end of the episode of a mobile agent moves it before its step, which then places it. -/
theorem ensures_next_leads (hw : c.battle.whereabouts slot.handle.id = w) (hat : w.At pose)
    (ended : Bool) (place : Pose) :
    Told.Ensures (if ended then Told.turnOver slot else pure slot) c
      (fun e => e.request.agent = slot.handle.id ∧ e.LooksFrom place)
      (fun next c' => next = (if ended then slot.renewed else slot) ∧
        ∃ start, (c'.battle.whereabouts slot.handle.id).At start ∧
          (next.handle.walks = true → start = pose))
      fun _ c' => (c'.battle.whereabouts slot.handle.id).Mirrored := by
  cases ended with
  | false => exact Told.ensures_pure ⟨rfl, pose, hw ▸ hat, fun _ => rfl⟩
  | true =>
    refine (ensures_turnOver_leads hw hat place).mono ?_ fun _ _ h => h ▸ hat.mirrored
    rintro next c' ⟨rfl, hreset⟩
    refine ⟨rfl, ?_⟩
    have hreset : if slot.handle.group.isMobile then
        ∃ start, c'.battle.whereabouts slot.handle.id = .still start
        else c'.battle.whereabouts slot.handle.id = w := hreset
    split at hreset
    · rename_i hmobile
      obtain ⟨start, hstart⟩ := hreset
      refine ⟨start, hstart ▸ Whereabouts.at_still start, fun hwalks => ?_⟩
      simp [Handle.walks, Slot.renewed, hmobile] at hwalks
    · exact ⟨pose, hreset ▸ hat, fun _ => rfl⟩

/-- An agent that plays looks from where it is, and its step changes its whereabouts. -/
theorem ensures_play_leads (hw : c.battle.whereabouts slot.handle.id = w) (hat : w.At pose) :
    Told.Ensures (Told.play slot) c
      (fun e => e.request.agent = slot.handle.id ∧ e.LooksFrom pose)
      (fun _ c' => (Call.step slot.handle []).Leads w (c'.battle.whereabouts slot.handle.id))
      fun _ c' => c'.battle.whereabouts slot.handle.id = w := by
  unfold Told.play
  have hread : Ensures (Told.read slot.handle.id) c
      (fun _ c' => c'.battle.whereabouts slot.handle.id = w)
      fun _ c' => c'.battle.whereabouts slot.handle.id = w := hw
  refine (Told.ensures_quietly hread).bind fun readings c₁ h₁ => ?_
  refine (ensures_ask_leads slot.handle.id rfl h₁ hat (.inr rfl)).bind fun observations c₂ h₂ => ?_
  have hdecide : Told.Ensures (Told.decide slot observations) c₂
      (fun e => e.request.agent = slot.handle.id ∧ e.LooksFrom pose)
      (fun _ c' => c'.battle.whereabouts slot.handle.id = w)
      fun _ c' => c'.battle.whereabouts slot.handle.id = w := by
    unfold Told.decide
    split
    · exact ensures_ask_leads slot.handle.id rfl h₂ hat (.inr rfl)
    · exact ensures_ask_leads slot.handle.id rfl h₂ hat (.inr rfl)
  refine hdecide.bind fun action c₃ h₃ => ?_
  refine (ensures_ask_leads slot.handle.id rfl h₃ hat (.inr rfl)).bind fun reward c₄ h₄ => ?_
  exact Told.ensures_quietly h₄

/-- A turn that starts where its agent is frozen looks from one place, and leaves the agent shown
where it is. What it leaves as the previous pose is where the turn started, if the agent walked, or
else where the agent is. -/
theorem ensures_turn_leads (hw : c.battle.whereabouts slot.handle.id = w) (hat : w.At pose) :
    ∃ place, Told.Ensures (Told.turn slot) c
      (fun e => e.request.agent = slot.handle.id ∧ e.LooksFrom place)
      (fun ended c' =>
        let w' := c'.battle.whereabouts slot.handle.id
        w'.Mirrored ∧ w'.previous =
          if (if ended then slot.renewed else slot).handle.walks then some pose else w'.live)
      fun _ c' => (c'.battle.whereabouts slot.handle.id).Mirrored := by
  unfold Told.turn
  have hcheck (place : Pose) : Told.Ensures (Told.ask (.check slot.handle)) c
      (fun e => e.request.agent = slot.handle.id ∧ e.LooksFrom place)
      (fun _ c' => c'.battle.whereabouts slot.handle.id = w)
      fun _ c' => (c'.battle.whereabouts slot.handle.id).Mirrored :=
    (ensures_ask_leads slot.handle.id rfl hw hat (.inl rfl)).mono (fun _ _ => id)
      fun _ _ h => h ▸ hat.mirrored
  refine Told.exists_bind hcheck fun ended c₁ h₁ => ?_
  refine Told.exists_bind (ensures_next_leads h₁ hat ended) ?_
  rintro next c₂ ⟨hrenewed, start, hstart, hwalks⟩
  have hid : next.handle.id = slot.handle.id := by
    rw [hrenewed]
    cases ended <;> rfl
  rw [← hid] at hstart ⊢
  have hplay := (ensures_play_leads rfl hstart).mono (fun _ _ => hstart.stepped)
    fun _ _ h => h ▸ hstart.mirrored
  refine ⟨start, hplay.bind fun _ c₃ h₃ => Told.ensures_pure ⟨h₃.1, ?_⟩⟩
  rw [h₃.2, ← hrenewed]
  split
  · rename_i hwalked
    rw [hwalks hwalked]
  · rfl

end Turn

/-- Everybody is shown where the record says. -/
def Mirrored (c : Campaign Arena T P) : Prop := ∀ agent, (c.battle.whereabouts agent).Mirrored

/-- Some agents, as far as they run, are where they are frozen. -/
def Ready (agents : List AgentId) (c : Campaign Arena T P) : Prop :=
  ∀ agent ∈ agents, c.roster.contains agent = true → ∃ pose, (c.battle.whereabouts agent).At pose

section Tick

variable [Trainer T]

theorem kept_whereabouts {agent other : AgentId} (hother : other ≠ agent) (w : Whereabouts) :
    Kept agent fun c : Campaign Arena T P => c.battle.whereabouts other = w where
  call _ _ _ _ _ hc hh hid hattempt :=
    (Battle.whereabouts_attempt_of_ne hh hattempt (hid ▸ hother)).trans hc
  host _ _ hc := hc
  trainer _ _ hc := hc
  policy _ _ hc := hc
  slot _ _ hc _ := hc

/-- The turns of others leave an agent where it is. -/
theorem apart_whereabouts (agent : AgentId) :
    Apart P agent fun b : Battle Arena T => b.whereabouts agent :=
  fun _ hother w => kept_whereabouts hother.symm w

variable [Policy P] {c c' : Campaign Arena T P} {agents : List AgentId}

/-- A turn leaves an agent mirrored. If it is the agent's own, for which it has to be ready, the agent
looks from one place, and otherwise it stays where it is. -/
theorem ensures_turn_mirrored {agent : AgentId} {slot : Slot}
    (hmirrored : (c.battle.whereabouts agent).Mirrored)
    (hready : slot.handle.id = agent → ∃ pose, (c.battle.whereabouts agent).At pose) :
    ∃ place, Told.Ensures (Told.turn slot) c
      (fun e => e.request.agent = slot.handle.id ∧ (e.request.agent = agent → e.LooksFrom place))
      (fun _ c' => (c'.battle.whereabouts agent).Mirrored ∧
        (slot.handle.id ≠ agent → c'.battle.whereabouts agent = c.battle.whereabouts agent))
      fun _ c' => (c'.battle.whereabouts agent).Mirrored := by
  by_cases hown : slot.handle.id = agent
  · subst hown
    obtain ⟨pose, hat⟩ := hready rfl
    obtain ⟨place, hturn⟩ := ensures_turn_leads rfl hat
    refine ⟨place, fun e he => ?_, hturn.run.mono (fun _ _ h => ⟨h.1, absurd rfl⟩) fun _ _ => id⟩
    obtain ⟨hagent, hlooks⟩ := hturn.asks e he
    exact ⟨hagent, fun _ => hlooks⟩
  · refine ⟨.origin, fun e he => ?_, ?_⟩
    · have hagent := (about_turn slot c).asks e he
      exact ⟨hagent, fun hmine => absurd (hagent.symm.trans hmine) hown⟩
    · have hstill := ((kept_whereabouts (Ne.symm hown) _).turn (c := c) rfl).run
      exact hstill.mono (fun _ _ h => ⟨h ▸ hmirrored, fun _ => h⟩) fun _ _ h => h ▸ hmirrored

theorem ensures_stepAgent_mirrored {agent first : AgentId} (hregistered : Registered c)
    (hmirrored : (c.battle.whereabouts agent).Mirrored)
    (hready : first = agent → c.roster.contains agent = true →
      ∃ pose, (c.battle.whereabouts agent).At pose) :
    ∃ place, Told.Ensures (Told.stepAgent first) c
      (fun e => e.request.agent = first ∧ (e.request.agent = agent → e.LooksFrom place))
      (fun _ c' => Registered c' ∧ (c'.battle.whereabouts agent).Mirrored ∧
        (first ≠ agent → c'.battle.whereabouts agent = c.battle.whereabouts agent ∧
          c'.roster.get? agent = c.roster.get? agent))
      fun _ c' => (c'.battle.whereabouts agent).Mirrored := by
  cases hslot : c.roster.get? first with
  | none =>
    refine ⟨.origin, Told.ensures_stepAgent
      (fun _ => ⟨hregistered, hmirrored, fun _ => ⟨rfl, rfl⟩⟩) fun slot hsome => ?_⟩
    rw [hslot] at hsome
    cases hsome
  | some slot =>
    have hid : slot.handle.id = first := hregistered first slot hslot
    have hrunning := (IdMap.contains_eq_true_iff c.roster).2 ⟨slot, hslot⟩
    obtain ⟨place, hturn⟩ := ensures_turn_mirrored hmirrored fun hown =>
      hready (hid.symm.trans hown) (hid.symm.trans hown ▸ hrunning)
    rw [hid] at hturn
    refine ⟨place, Told.ensures_stepAgent (fun hnone => ?_) fun slot' hsome => ?_⟩
    · rw [hslot] at hnone
      cases hnone
    · rw [hslot] at hsome
      cases hsome
      refine hturn.of_outcome (fun ended c' hrun h => ?_) fun _ _ _ => id
      obtain ⟨hregistered', hroster⟩ := hregistered.turn hslot hrun
      exact ⟨hregistered', h.1, fun hne => ⟨h.2 hne, hroster agent (Ne.symm hne)⟩⟩

/-- In the turns of a tick an agent looks from one place if it is frozen where it is, as far as it
runs; and it stays mirrored, also where a turn fails. -/
theorem ensures_stepAgents_own {agent : AgentId} (hnodup : agents.Nodup)
    (hregistered : Registered c) (hmirrored : (c.battle.whereabouts agent).Mirrored)
    (hready : agent ∈ agents → c.roster.contains agent = true →
      ∃ pose, (c.battle.whereabouts agent).At pose) :
    ∃ place, Told.Ensures (Told.stepAgents agents) c
      (fun e => e.request.agent ∈ agents ∧ (e.request.agent = agent → e.LooksFrom place))
      (fun _ c' => (c'.battle.whereabouts agent).Mirrored)
      fun _ c' => (c'.battle.whereabouts agent).Mirrored := by
  induction agents generalizing c with
  | nil => exact ⟨.origin, Told.ensures_pure hmirrored⟩
  | cons first rest ih =>
    obtain ⟨hnotin, hnodup⟩ := List.nodup_cons.1 hnodup
    obtain ⟨place, hfirst⟩ := ensures_stepAgent_mirrored hregistered hmirrored fun hown =>
      hready (hown ▸ List.mem_cons_self)
    unfold Told.stepAgents
    -- Of the first agent and the others only one is the agent, and it looks in its own turn only.
    by_cases hown : first = agent
    · subst hown
      refine ⟨place, Told.Ensures.bind ⟨fun e he => ?_, hfirst.run⟩ ?_⟩
      · obtain ⟨hagent, hlooks⟩ := hfirst.asks e he
        exact ⟨hagent ▸ List.mem_cons_self, hlooks⟩
      · rintro ended c₁ ⟨hregistered₁, hmirrored₁, -⟩
        obtain ⟨elsewhere, hrest⟩ :=
          ih hnodup hregistered₁ hmirrored₁ fun hmem => absurd hmem hnotin
        refine Told.Ensures.bind ⟨fun e he => ?_, hrest.run⟩ fun _ _ h => Told.ensures_pure h
        obtain ⟨hmem, -⟩ := hrest.asks e he
        exact ⟨List.mem_cons_of_mem _ hmem, fun hmine => absurd (hmine ▸ hmem) hnotin⟩
    · refine Told.exists_bind (fun place => ⟨fun e he => ?_, hfirst.run⟩) ?_
      · obtain ⟨hagent, -⟩ := hfirst.asks e he
        exact ⟨hagent ▸ List.mem_cons_self, fun hmine => absurd (hagent.symm.trans hmine) hown⟩
      · rintro ended c₁ ⟨hregistered₁, hmirrored₁, hsame⟩
        obtain ⟨hwhere, hroster⟩ := hsame hown
        obtain ⟨place, hrest⟩ := ih hnodup hregistered₁ hmirrored₁ fun hmem hrunning => by
          rw [hwhere]
          refine hready (List.mem_cons_of_mem _ hmem) ?_
          rw [← hrunning]
          exact congrArg Option.isSome hroster.symm
        refine ⟨place, Told.Ensures.bind ⟨fun e he => ?_, hrest.run⟩ fun _ _ h =>
          Told.ensures_pure h⟩
        exact ⟨List.mem_cons_of_mem _ (hrest.asks e he).1, (hrest.asks e he).2⟩

/-- In the turns of a tick everybody looks from one place, and stays mirrored, also where a turn
fails. -/
theorem ensures_stepAgents_mirrored (hnodup : agents.Nodup) (hregistered : Registered c)
    (hmirrored : c.Mirrored) (hready : Ready agents c) :
    ∃ places : AgentId → Pose, Told.Ensures (Told.stepAgents agents) c
      (fun e => e.request.agent ∈ agents ∧ e.LooksFrom (places e.request.agent))
      (fun _ c' => c'.Mirrored) fun _ c' => c'.Mirrored := by
  obtain ⟨places, hplaces⟩ := Classical.skolem.1 fun agent =>
    ensures_stepAgents_own hnodup hregistered (hmirrored agent) (hready agent)
  refine ⟨places, fun e he => ?_, ?_⟩
  · obtain ⟨hmem, hlooks⟩ := (hplaces e.request.agent).asks e he
    exact ⟨hmem, hlooks rfl⟩
  · cases hrun : (Told.stepAgents agents).run c with
    | ok ended c' => exact ensures_of_ok hrun fun agent => (hplaces agent).run.after_ok hrun
    | error e c' => exact ensures_of_error hrun fun agent => (hplaces agent).run.after_error hrun

end Tick

end Campaign

end FlagCombat
