import FlagCombat.Proofs.Battle.Moment
import Mathlib.Algebra.GroupWithZero.Nat
import Mathlib.Data.List.DropRight

/-!
The ledger of a history of calls. Every shot that lands strikes one foe of the shooter, the damage of
an agent with a record is the number of shots that struck it since its record was new, and its total
is what its own steps drained since then.
-/

namespace FlagCombat

namespace Battle

variable {H T : Type} [Host H] [Trainer T]

/-- The calls of a history, each with the battle it is made in. -/
def history (b : Battle H T) : List Call → List (Moment H T)
  | [] => []
  | call :: calls => ⟨b, call⟩ :: (b.perform call).2.history calls

theorem history_concat (b : Battle H T) (calls : List Call) (call : Call) :
    b.history (calls ++ [call]) = b.history calls ++ [⟨b.performAll calls, call⟩] := by
  induction calls generalizing b with
  | nil => rfl
  | cons first calls ih =>
    simp only [List.cons_append, history, ih]
    rfl

theorem Reachable.mem_history {b : Battle H T} (hb : Reachable b) {calls : List Call}
    {m : Moment H T} (h : m ∈ b.history calls) :
    Reachable m.battle ∧ m.battle.profile = b.profile := by
  induction calls generalizing b with
  | nil => cases h
  | cons call calls ih =>
    rcases List.mem_cons.1 h with rfl | h
    · exact ⟨hb, rfl⟩
    · obtain ⟨hreach, hprofile⟩ := ih (hb.perform call) h
      exact ⟨hreach, hprofile.trans (perform_changes b call).profile⟩

/-- The part of a history since the record of an agent was made or last reset. -/
def sinceNew (agent : AgentId) (log : List (Moment H T)) : List (Moment H T) :=
  log.rtakeWhile fun m => !m.renews agent

/-- The books after a history: every shot that landed is one of the hits, the damage of an agent is
the shots that struck it, and its total is what its own steps drained. -/
structure Balanced (log : List (Moment H T)) (b : Battle H T) : Prop where
  hits : b.hits = log.countP Moment.landed
  struck : ∀ agent a, b.account? agent = some a →
    a.total.toNat + a.pending.toNat = (sinceNew agent log).countP fun m => m.victim? = some agent
  drained : ∀ agent a, b.account? agent = some a →
    a.total.toNat = (((sinceNew agent log).filterMap (·.drained? agent)).map UInt32.toNat).sum

theorem countP_victim_le (agent : AgentId) (log : List (Moment H T)) :
    ((sinceNew agent log).countP fun m => m.victim? = some agent) ≤ log.countP Moment.landed := by
  have hsub := List.rtakeWhile_suffix (fun m : Moment H T => !m.renews agent) (l := log)
  refine hsub.sublist.countP_le.trans (List.countP_mono_left fun m _ hm => ?_)
  rw [Moment.landed_eq, of_decide_eq_true hm]
  rfl

section Step

variable {log : List (Moment H T)} {m : Moment H T}

theorem sinceNew_of_renews {agent : AgentId} (h : m.renews agent = true) :
    sinceNew agent (log ++ [m]) = [] :=
  List.rtakeWhile_concat_neg _ _ _ (by simp [h])

theorem sinceNew_of_kept {agent : AgentId} (h : m.renews agent = false) :
    sinceNew agent (log ++ [m]) = sinceNew agent log ++ [m] :=
  List.rtakeWhile_concat_pos _ _ _ (by simp [h])

/-- One more call keeps the books, as long as fewer shots have landed than a counter can hold. -/
theorem Balanced.step (hlog : Balanced log m.battle) (hm : m.battle.Sound)
    (hfew : (log ++ [m]).countP Moment.landed < UInt32.size) :
    Balanced (log ++ [m]) m.after := by
  have hlanded : (log ++ [m]).countP Moment.landed =
      log.countP Moment.landed + if m.landed then 1 else 0 := by
    rw [List.countP_append, List.countP_singleton]
  have haccount (agent : AgentId) (a : Account) (ha : m.after.account? agent = some a) :
      a.total.toNat + a.pending.toNat =
          ((sinceNew agent (log ++ [m])).countP fun m => m.victim? = some agent) ∧
        a.total.toNat =
          (((sinceNew agent (log ++ [m])).filterMap (·.drained? agent)).map UInt32.toNat).sum := by
    rcases Moment.accounted hm agent with hnone | ⟨hnew, hfresh⟩ | ⟨hkept, hsettle⟩
    · rw [hnone] at ha
      cases ha
    · rw [hfresh] at ha
      cases ha
      rw [sinceNew_of_renews hnew]
      exact ⟨rfl, rfl⟩
    · rw [hsettle] at ha
      obtain ⟨before, hbefore, rfl⟩ := Option.map_eq_some_iff.1 ha
      have hcount := hlog.struck agent before hbefore
      have htotal := hlog.drained agent before hbefore
      have hbound := countP_victim_le agent log
      have hexact : m.Exact agent before := by
        refine ⟨fun hvictim => ?_, fun _ => by split at hlanded <;> omega⟩
        have hm : m.landed = true := by
          rw [Moment.landed_eq, hvictim]
          rfl
        rw [if_pos hm] at hlanded
        omega
      obtain ⟨hsum, hdrain⟩ := Moment.settle_exact hm hbefore hexact
      rw [sinceNew_of_kept hkept, List.countP_append, List.countP_singleton,
        List.filterMap_append, List.map_append, List.sum_append, ← hcount, ← htotal]
      refine ⟨by simpa using hsum, hdrain.trans ?_⟩
      cases hd : m.drained? agent <;> simp [hd]
  constructor
  · rw [Moment.hits_after, hlog.hits, hlanded]
  · exact fun agent a ha => (haccount agent a ha).1
  · exact fun agent a ha => (haccount agent a ha).2

end Step

theorem balanced_history {b : Battle H T} (hb : Reachable b) (calls : List Call)
    (hstart : Balanced [] b) (hfew : (b.history calls).countP Moment.landed < UInt32.size) :
    Balanced (b.history calls) (b.performAll calls) := by
  induction calls using List.reverseRecOn with
  | nil => exact hstart
  | append_singleton calls call ih =>
    rw [history_concat] at hfew ⊢
    have hbefore : (b.history calls).countP Moment.landed < UInt32.size := by
      rw [List.countP_append] at hfew
      omega
    rw [performAll_append]
    exact (ih hbefore).step (m := ⟨b.performAll calls, call⟩) (hb.performAll calls).sound hfew

theorem total_le_of_kept {m : Moment H T} (hm : m.battle.Sound) {agent : AgentId}
    (hreset : m.resets agent = false) {a a' : Account} (ha : m.battle.account? agent = some a)
    (ha' : m.after.account? agent = some a') : a.total ≤ a'.total := by
  have hsettle := Moment.account?_after_of_known hm hreset ha (by rw [ha']; rfl)
  rw [hsettle] at ha'
  cases ha'
  exact m.total_le_settle agent a

/-- No damage is lost or counted twice, in any history in which fewer shots land than a counter can
hold. -/
theorem damage_accounted (profile : Profile) (host : H) (trainer : T) (seed : UInt64)
    (calls : List Call)
    (hfew : ((start profile host trainer seed).history calls).countP Moment.landed <
      UInt32.size) :
    let log := (start profile host trainer seed).history calls
    let b := (start profile host trainer seed).performAll calls
    b.hits = log.countP Moment.landed ∧
    (∀ m ∈ log, m.landed = true → ∃ shooter action foe c d,
      m.call = .step shooter action ∧ m.victim? = some foe ∧
      m.after.combatants.get? shooter.id = some c ∧ m.battle.combatants.get? foe = some d ∧
      d.team = c.team.opponent ∧
      ∀ other, other ≠ shooter.id → m.after.account? other =
        (m.battle.account? other).map fun a => if other = foe then a.strike else a) ∧
    (∀ agent c, b.combatants.get? agent = some c →
      c.totalDamage.toNat + c.pendingDamage.toNat =
        ((sinceNew agent log).countP fun m => m.victim? = some agent) ∧
      c.totalDamage.toNat =
        (((sinceNew agent log).filterMap (·.drained? agent)).map UInt32.toNat).sum) ∧
    (∀ m ∈ log, ∀ agent c c', m.battle.combatants.get? agent = some c →
      m.after.combatants.get? agent = some c' → m.resets agent = false →
      c.totalDamage ≤ c'.totalDamage) ∧
    ∀ m ∈ log, ∀ agent d, m.drained? agent = some d → ∃ handle action rewards,
      m.call = .step handle action ∧ handle.id = agent ∧ m.reply = .ok (.vector rewards) ∧
      ∀ k : Nat, profile.dimensions[k]? = some .avoidFire → rewards[k]? = some (-d.toFloat) := by
  intro log b
  have hstart := Reachable.start profile host trainer seed
  have hempty : Balanced [] (start profile host trainer seed) := by
    refine ⟨rfl, fun agent a ha => ?_, fun agent a ha => ?_⟩ <;> simp [account?, start] at ha
  have hbooks : Balanced log b := balanced_history hstart calls hempty hfew
  have hsound (m : Moment H T) (hm : m ∈ log) : m.battle.Sound := (hstart.mem_history hm).1.sound
  refine ⟨hbooks.hits, fun m hm hlanded => Moment.victim_of_landed (hsound m hm) hlanded,
    fun agent c hc => ?_, fun m hm agent c c' hc hc' hreset => ?_, fun m hm agent d hd => ?_⟩
  · have ha : b.account? agent = some c.account := by simp [account?, hc]
    exact ⟨hbooks.struck agent _ ha, hbooks.drained agent _ ha⟩
  · have ha : m.battle.account? agent = some c.account := by simp [account?, hc]
    have ha' : m.after.account? agent = some c'.account := by simp [account?, hc']
    exact total_le_of_kept (hsound m hm) hreset ha ha'
  · obtain ⟨handle, action, rewards, hcall, hid, hreply, havoid⟩ := Moment.reply_of_drained hd
    rw [(hstart.mem_history hm).2] at havoid
    exact ⟨handle, action, rewards, hcall, hid, hreply, havoid⟩

/-- Two of the first team against one of the other. The foe is struck, one of the two leaves, and
the foe, which got a friend, strikes back. -/
def skirmish : List Call :=
  let first (n : UInt32) : Handle := { id := ⟨n⟩, team := .zero, group := .agent, step := 1 }
  let second (n : UInt32) : Handle := { id := ⟨n⟩, team := .one, group := .agent, step := 1 }
  [.register (first 1), .register (first 2), .register (second 3), .step (first 1) [0.0, 0.0],
    .removeAgent ⟨2⟩, .register (second 4), .step (second 3) [0.0, 0.0]]

/-- Those who strike each other meet at one place, and their friends stand apart. -/
def skirmishField : OpenField where
  transforms := .ofList [(⟨1⟩, ⟨100.0, 100.0, 90.0⟩), (⟨2⟩, ⟨112.0, 100.0, 0.0⟩),
    (⟨3⟩, ⟨100.0, 100.0, 270.0⟩), (⟨4⟩, ⟨100.0, 130.0, 180.0⟩)]

theorem damage_accounted_skirmish :
    ((start {} skirmishField ({} : FixedTrainer) 0).history skirmish).countP Moment.landed = 2 ∧
    ((start {} skirmishField ({} : FixedTrainer) 0).performAll skirmish).hits = 2 := by
  have hcount : ((start {} skirmishField ({} : FixedTrainer) 0).history skirmish).countP
      Moment.landed = 2 := by decide +kernel
  have hbooks := damage_accounted {} skirmishField ({} : FixedTrainer) 0 skirmish
    (by rw [hcount]; decide)
  exact ⟨hcount, hbooks.1.trans hcount⟩

end Battle

end FlagCombat
