import FlagCombat.Proofs.Campaign.Entry
import FlagCombat.Proofs.Campaign.Turn
import FlagCombat.Proofs.Campaign.Withdrawal

/-!
Roster, battle and arena agree on who is there, after every list of orders to a fresh campaign,
failed ones included. Spawned agents get the numbers from one on, so no number comes twice; a removal
fails only for an agent that is not on the roster, and then changes nothing.
-/

namespace FlagCombat

namespace Campaign

section Orders

variable {H T P : Type} [Host H] [Trainer T] [Policy P]

/-- The campaign that an order leaves, also when it fails. -/
def follow (order : Order) (c : Campaign H T P) : Campaign H T P :=
  match obey order c with
  | .ok _ c' | .error _ c' => c'

def fails (order : Order) (c : Campaign H T P) : Bool :=
  match obey order c with
  | .ok _ _ => false
  | .error _ _ => true

def followAll : List Order → Campaign H T P → Campaign H T P
  | [], c => c
  | order :: orders, c => followAll orders (follow order c)

/-- What the spawns of an order answer. -/
def arrivals : Order → Campaign H T P → List (Except CampaignError AgentId)
  | .spawn team group pose, c =>
    match spawn team group pose c with
    | .ok agent _ => [.ok agent]
    | .error e _ => [.error e]
  | .despawn _, _ => []
  | .tick number point, c =>
    match stepAgents c.roster.keys { c with battle := c.battle.beginTick number } with
    | .ok _ c' =>
      let (spawned, trainer) := Trainer.takeSpawnRequests c'.battle.trainer
      newcomers point spawned { c' with battle := { c'.battle with trainer } }
    | .error _ _ => []

def allArrivals : List Order → Campaign H T P → List (Except CampaignError AgentId)
  | [], _ => []
  | order :: orders, c => arrivals order c ++ allArrivals orders (follow order c)

theorem followAll_append (orders more : List Order) (c : Campaign H T P) :
    followAll (orders ++ more) c = followAll more (followAll orders c) := by
  induction orders generalizing c with
  | nil => rfl
  | cons order orders ih => exact ih (follow order c)

theorem allArrivals_append (orders more : List Order) (c : Campaign H T P) :
    allArrivals (orders ++ more) c =
      allArrivals orders c ++ allArrivals more (followAll orders c) := by
  induction orders generalizing c with
  | nil => rfl
  | cons order orders ih => simp [allArrivals, followAll, ih]

/-- A tick fails where one of its turns does. -/
theorem tick_eq_error {number : UInt64} {point : SpawnPoint} {e : CampaignError}
    {c c₁ : Campaign H T P}
    (hturns : stepAgents c.roster.keys { c with battle := c.battle.beginTick number } =
      .error e c₁) : tick number point c = .error e c₁ := by
  show EStateM.bind (stepAgents c.roster.keys) _ { c with battle := c.battle.beginTick number } = _
  unfold EStateM.bind
  rw [hturns]

/-- A tick succeeds with its turns and its spawns, and sums them up. -/
theorem tick_eq_ok {number : UInt64} {point : SpawnPoint} {ended : Nat} {c c₁ c' : Campaign H T P}
    (hturns : stepAgents c.roster.keys { c with battle := c.battle.beginTick number } =
      .ok ended c₁)
    (hmany : spawnMany point (Trainer.takeSpawnRequests c₁.battle.trainer).1
      { c₁ with battle := { c₁.battle with
        trainer := (Trainer.takeSpawnRequests c₁.battle.trainer).2 } } = .ok () c') :
    tick number point c = .ok {
      tick := number
      agents := c.roster.keys.length
      episodesEnded := ended
      spawned := (Trainer.takeSpawnRequests c₁.battle.trainer).1
      totalHits := c'.battle.hits } c' := by
  show EStateM.bind (stepAgents c.roster.keys) _ { c with battle := c.battle.beginTick number } = _
  unfold EStateM.bind
  rw [hturns]
  show EStateM.bind (spawnMany point (Trainer.takeSpawnRequests c₁.battle.trainer).1) _
    { c₁ with battle := { c₁.battle with
      trainer := (Trainer.takeSpawnRequests c₁.battle.trainer).2 } } = _
  unfold EStateM.bind
  rw [hmany]
  rfl

theorem arrivals_tick_of_error {number : UInt64} {point : SpawnPoint} {e : CampaignError}
    {c c₁ : Campaign H T P}
    (hturns : stepAgents c.roster.keys { c with battle := c.battle.beginTick number } =
      .error e c₁) : arrivals (.tick number point) c = [] := by
  simp only [arrivals, hturns]

theorem arrivals_tick_of_ok {number : UInt64} {point : SpawnPoint} {ended : Nat}
    {c c₁ : Campaign H T P}
    (hturns : stepAgents c.roster.keys { c with battle := c.battle.beginTick number } =
      .ok ended c₁) :
    arrivals (.tick number point) c = newcomers point (Trainer.takeSpawnRequests c₁.battle.trainer).1
      { c₁ with battle := { c₁.battle with
        trainer := (Trainer.takeSpawnRequests c₁.battle.trainer).2 } } := by
  simp only [arrivals, hturns]

theorem obey_tick_error {number : UInt64} {point : SpawnPoint} {e : CampaignError}
    {c c' : Campaign H T P} (h : tick number point c = .error e c') :
    obey (.tick number point) c = .error e c' := by
  show EStateM.bind (tick number point) _ c = _
  unfold EStateM.bind
  rw [h]

theorem obey_tick_ok {number : UInt64} {point : SpawnPoint} {summary : TickSummary}
    {c c' : Campaign H T P} (h : tick number point c = .ok summary c') :
    obey (.tick number point) c = .ok () c' := by
  show EStateM.bind (tick number point) _ c = _
  unfold EStateM.bind
  rw [h]
  rfl

theorem follow_of_ok {order : Order} {c c' : Campaign H T P} (h : obey order c = .ok () c') :
    follow order c = c' := by
  unfold follow
  rw [h]

theorem follow_of_error {order : Order} {e : CampaignError} {c c' : Campaign H T P}
    (h : obey order c = .error e c') : follow order c = c' := by
  unfold follow
  rw [h]

theorem follow_spawn {team : Team} {group : Group} {pose : Pose} {agent : AgentId}
    {c c' : Campaign H T P} (h : spawn team group pose c = .ok agent c') :
    follow (.spawn team group pose) c = c' := by
  apply follow_of_ok
  show EStateM.bind (spawn team group pose) _ c = _
  unfold EStateM.bind
  rw [h]
  rfl

theorem fails_of_error {order : Order} {e : CampaignError} {c c' : Campaign H T P}
    (h : obey order c = .error e c') : fails order c = true := by
  unfold fails
  rw [h]

theorem length_arrivals_spawn (team : Team) (group : Group) (pose : Pose) (c : Campaign H T P) :
    (arrivals (.spawn team group pose) c).length = 1 := by
  simp only [arrivals]
  split <;> rfl

end Orders

variable {T P : Type} [Trainer T] [Policy P] {roll : Roll} {last : Nat} {c : Campaign Arena T P}

/-- Nothing is asked of the trainer and the policy, and every failure is allowed. -/
theorem terms_trivial (profile : Profile) :
    Terms P profile (fun _ : T => True) fun _ => True where
  report t agent fitness _ := by split <;> trivial
  renew _ _ _ := trivial
  grow _ _ _ := trivial
  start _ _ _ _ _ := trivial
  act _ _ _ _ _ _ := trivial

/-- Mustered with a trainer of any condition. -/
abbrev Agreed (profile : Profile) (roll : Roll) (last : Nat) (c : Campaign Arena T P) : Prop :=
  Mustered profile (fun _ => True) roll last c

/-- What is left after spawns that succeed in sequence. -/
def Answered (profile : Profile) (last : Nat) (answers : List (Except CampaignError AgentId))
    (c : Campaign Arena T P) : Prop :=
  ∃ count roll, answers = inSequence last count ∧ Agreed profile roll (last + count) c

variable {profile : Profile}

theorem Agreed.spawned (h : Agreed profile roll last c) {team : Team} {group : Group} {pose : Pose}
    (hfew : last + (arrivals (.spawn team group pose) c).length < 2 ^ 32) :
    Answered profile last (arrivals (.spawn team group pose) c)
      (follow (.spawn team group pose) c) := by
  have hone : last + 1 < 2 ^ 32 := by
    rwa [length_arrivals_spawn] at hfew
  obtain ⟨c', hspawn, hmustered⟩ := h.spawn (fun _ _ _ => trivial) hone team group pose
  have harrivals : arrivals (.spawn team group pose) c = [.ok (.ofNumber (last + 1))] := by
    simp only [arrivals, hspawn]
  refine ⟨1, roll.insert (.ofNumber (last + 1)) (team, group), harrivals, ?_⟩
  rw [follow_spawn hspawn]
  exact hmustered

theorem Agreed.despawned (h : Agreed profile roll last c) (agent : AgentId) :
    Answered profile last (arrivals (.despawn agent) c) (follow (.despawn agent) c) := by
  cases hcontains : c.roster.contains agent with
  | true =>
    obtain ⟨c', hdespawn, hmustered⟩ := h.despawn hcontains
    have hfollow : follow (.despawn agent) c = c' := follow_of_ok hdespawn
    rw [hfollow]
    exact ⟨0, roll.erase agent, rfl, hmustered⟩
  | false =>
    have hfollow : follow (.despawn agent) c = c := follow_of_error (h.despawn_unknown hcontains)
    rw [hfollow]
    exact ⟨0, roll, rfl, h⟩

/-- How a tick ends: where a turn fails, or with the spawns after its turns. -/
inductive TickEnd (profile : Profile) (roll : Roll) (last : Nat) (number : UInt64)
    (point : SpawnPoint) (c : Campaign Arena T P) : Prop
  | failed {e : CampaignError} {c₁ : Campaign Arena T P}
      (hturns : stepAgents c.roster.keys { c with battle := c.battle.beginTick number } =
        .error e c₁)
      (hagreed : Agreed profile roll last c₁) (hobey : obey (.tick number point) c = .error e c₁)
  | ended {ended : Nat} {c₁ taken c' : Campaign Arena T P}
      (hturns : stepAgents c.roster.keys { c with battle := c.battle.beginTick number } =
        .ok ended c₁)
      (htaken : taken = { c₁ with battle := { c₁.battle with
        trainer := (Trainer.takeSpawnRequests c₁.battle.trainer).2 } })
      (hagreed : Agreed profile roll last taken)
      (hfew : last +
        (newcomers point (Trainer.takeSpawnRequests c₁.battle.trainer).1 taken).length < 2 ^ 32)
      (hmany : spawnMany point (Trainer.takeSpawnRequests c₁.battle.trainer).1 taken = .ok () c')
      (hobey : obey (.tick number point) c = .ok () c')

theorem Agreed.tickEnd (h : Agreed profile roll last c) {number : UInt64} {point : SpawnPoint}
    (hfew : last + (arrivals (.tick number point) c).length < 2 ^ 32) :
    TickEnd profile roll last number point c := by
  have hturns := (h.beginTick number).stepAgents (terms_trivial profile) c.roster.keys
  cases hsteps : stepAgents c.roster.keys { c with battle := c.battle.beginTick number } with
  | error e c₁ =>
    exact .failed hsteps (hturns.after_error hsteps).2 (obey_tick_error (tick_eq_error hsteps))
  | ok ended c₁ =>
    rw [arrivals_tick_of_ok hsteps] at hfew
    have htaken : Agreed profile roll last
        { c₁ with battle := { c₁.battle with
            trainer := (Trainer.takeSpawnRequests c₁.battle.trainer).2 } } :=
      (hturns.after_ok hsteps).1.trainer_eq trivial
    obtain ⟨roll', c', hmany, -⟩ := htaken.spawnMany (fun _ _ _ => trivial) point _ hfew
    exact .ended hsteps rfl htaken hfew hmany (obey_tick_ok (tick_eq_ok hsteps hmany))

theorem Agreed.ticked (h : Agreed profile roll last c) {number : UInt64} {point : SpawnPoint}
    (hfew : last + (arrivals (.tick number point) c).length < 2 ^ 32) :
    Answered profile last (arrivals (.tick number point) c) (follow (.tick number point) c) := by
  cases h.tickEnd hfew with
  | failed hturns hagreed hobey =>
    rw [follow_of_error hobey, arrivals_tick_of_error hturns]
    exact ⟨0, roll, rfl, hagreed⟩
  | ended hturns htaken hagreed hfew hmany hobey =>
    obtain ⟨roll', c', hmany', hmustered, hanswers, -⟩ :=
      hagreed.spawnMany (fun _ _ _ => trivial) point _ hfew
    rw [hmany] at hmany'
    cases hmany'
    rw [follow_of_ok hobey, arrivals_tick_of_ok hturns]
    subst htaken
    exact ⟨_, roll', hanswers, hmustered⟩

/-- After an order a campaign is mustered again, and its spawns have succeeded in sequence. -/
theorem Agreed.obeyed (h : Agreed profile roll last c) (order : Order)
    (hfew : last + (arrivals order c).length < 2 ^ 32) :
    Answered profile last (arrivals order c) (follow order c) := by
  cases order with
  | spawn team group pose => exact h.spawned hfew
  | despawn agent => exact h.despawned agent
  | tick number point => exact h.ticked hfew

/-- The spawns of a list of orders answer the numbers in sequence. -/
theorem Agreed.obeyedAll (h : Agreed profile roll last c) (orders : List Order)
    (hfew : last + (allArrivals orders c).length < 2 ^ 32) :
    Answered profile last (allArrivals orders c) (followAll orders c) := by
  induction orders generalizing roll last c with
  | nil => exact ⟨0, roll, rfl, h⟩
  | cons order orders ih =>
    rw [allArrivals, List.length_append, ← Nat.add_assoc] at hfew
    obtain ⟨first, roll', hanswers, hfollow⟩ := h.obeyed order (by omega)
    rw [hanswers, length_inSequence] at hfew
    obtain ⟨second, roll'', hrest, hleft⟩ := ih hfollow hfew
    refine ⟨first + second, roll'', ?_, ?_⟩
    · rw [allArrivals, hanswers, hrest, inSequence_append]
    · rwa [← Nat.add_assoc]

/-- Where orders lead that spawn fewer agents than there are numbers. -/
theorem agreed_followAll (profile : Profile) (world : WorldSettings) (trainer : T) (seed : UInt64)
    (policy : P) (orders : List Order)
    (hfew : (allArrivals orders (opening profile world trainer seed policy)).length < 2 ^ 32) :
    let start := opening profile world trainer seed policy
    ∃ roll, Agreed profile roll (allArrivals orders start).length (followAll orders start) := by
  intro start
  have hopening : Agreed profile .empty 0 start :=
    mustered_opening profile world trainer seed policy trivial
  obtain ⟨count, roll, hanswers, hleft⟩ := hopening.obeyedAll orders (by rwa [Nat.zero_add])
  rw [Nat.zero_add] at hleft
  rw [hanswers, length_inSequence]
  exact ⟨roll, hleft⟩

/-- What spawns, removals and the turns of ticks leave as they found it, whoever joins being new. -/
structure Lasting (profile : Profile) (I : Campaign Arena T P → Prop) : Prop where
  spawn : ∀ c team group pose agent c', I c → c.battle.combatants.get? agent = none →
    Campaign.spawn team group pose c = .ok agent c' → I c'
  despawn : ∀ c agent c', I c → Campaign.despawn agent c = .ok () c' → I c'
  trainer : ∀ c trainer, I c → I { c with battle := { c.battle with trainer } }
  turns : ∀ roll last c number, Agreed profile roll last c → I c →
    Ensures (stepAgents c.roster.keys) { c with battle := c.battle.beginTick number }
      (fun _ => I) fun _ => I

section Lasting

variable {I : Campaign Arena T P → Prop} {c' : Campaign Arena T P}

theorem Lasting.spawned (hI : Lasting profile I) (h : Agreed profile roll last c) (hc : I c)
    {team : Team} {group : Group} {pose : Pose} {agent : AgentId} (hone : last + 1 < 2 ^ 32)
    (hspawn : Campaign.spawn team group pose c = .ok agent c') :
    I c' ∧ Agreed profile (roll.insert (.ofNumber (last + 1)) (team, group)) (last + 1) c' := by
  obtain ⟨c₁, hnext, hagreed⟩ := h.spawn (fun _ _ _ => trivial) hone team group pose
  rw [hspawn] at hnext
  cases hnext
  have hnew : c.battle.combatants.contains (.ofNumber (last + 1)) = false :=
    (h.contains_eq _).2.1.trans (h.not_contains (Nat.lt_succ_self last) hone)
  exact ⟨hI.spawn c team group pose _ c' hc ((IdMap.contains_eq_false_iff _).1 hnew) hspawn, hagreed⟩

theorem Lasting.spawnedMany (hI : Lasting profile I) (h : Agreed profile roll last c) (hc : I c)
    {point : SpawnPoint} {count : Nat}
    (hfew : last + (newcomers point count c).length < 2 ^ 32)
    (hmany : Campaign.spawnMany point count c = .ok () c') : I c' := by
  induction count generalizing roll last c with
  | zero =>
    cases hmany
    exact hc
  | succ count ih =>
    obtain ⟨agent, c₁, hfirst, hrest⟩ := bind_ok hmany
    have hnewcomers : newcomers point (count + 1) c = .ok agent :: newcomers point count c₁ := by
      rw [newcomers, hfirst]
    rw [hnewcomers, List.length_cons] at hfew
    obtain ⟨h₁, hagreed⟩ := hI.spawned h hc (by omega) hfirst
    exact ih hagreed h₁ (by omega) hrest

/-- What lasts is kept by every order, also by one that fails. -/
theorem Lasting.follow (hI : Lasting profile I) (h : Agreed profile roll last c) (hc : I c)
    (order : Order) (hfew : last + (arrivals order c).length < 2 ^ 32) : I (follow order c) := by
  cases order with
  | spawn team group pose =>
    rw [length_arrivals_spawn] at hfew
    obtain ⟨c', hspawn, -⟩ := h.spawn (fun _ _ _ => trivial) hfew team group pose
    rw [follow_spawn hspawn]
    exact (hI.spawned h hc hfew hspawn).1
  | despawn agent =>
    cases hcontains : c.roster.contains agent with
    | true =>
      obtain ⟨c', hdespawn, -⟩ := h.despawn hcontains
      rw [show Campaign.follow (.despawn agent) c = c' from follow_of_ok hdespawn]
      exact hI.despawn c agent c' hc hdespawn
    | false =>
      rw [show Campaign.follow (.despawn agent) c = c from
        follow_of_error (h.despawn_unknown hcontains)]
      exact hc
  | tick number point =>
    have hturned := hI.turns roll last c number h hc
    cases h.tickEnd hfew with
    | failed hturns hagreed hobey =>
      rw [follow_of_error hobey]
      exact hturned.after_error hturns
    | ended hturns htaken hagreed hfew hmany hobey =>
      rw [follow_of_ok hobey]
      refine hI.spawnedMany hagreed ?_ hfew hmany
      rw [htaken]
      exact hI.trainer _ _ (hturned.after_ok hturns)

theorem Lasting.followAll (hI : Lasting profile I) (h : Agreed profile roll last c) (hc : I c)
    (orders : List Order) (hfew : last + (allArrivals orders c).length < 2 ^ 32) :
    I (followAll orders c) := by
  induction orders generalizing roll last c with
  | nil => exact hc
  | cons order orders ih =>
    rw [allArrivals, List.length_append, ← Nat.add_assoc] at hfew
    have hfirst : last + (arrivals order c).length < 2 ^ 32 := by omega
    obtain ⟨count, roll', hanswers, hleft⟩ := h.obeyed order hfirst
    rw [hanswers, length_inSequence] at hfew
    exact ih hleft (hI.follow h hc order hfirst) hfew

end Lasting

/-- Before each of some orders there are numbers left for what it spawns. -/
theorem few_before {start : Campaign Arena T P} {earlier later : List Order} {order : Order}
    (hfew : (allArrivals (earlier ++ order :: later) start).length < 2 ^ 32) :
    (allArrivals earlier start).length + (arrivals order (followAll earlier start)).length <
      2 ^ 32 := by
  rw [allArrivals_append, List.length_append, allArrivals, List.length_append] at hfew
  omega

theorem inSequence_eq (last count : Nat) (hfew : last + count < 2 ^ 32) :
    ∃ agents : List AgentId, inSequence last count = agents.map .ok ∧ agents.Nodup := by
  refine ⟨(List.range' (last + 1) count).map AgentId.ofNumber, (List.map_map ..).symm, ?_⟩
  refine List.pairwise_map.2 (List.Pairwise.imp_of_mem ?_ (List.pairwise_lt_range' 1))
  intro m n hm hn hlt heq
  rw [List.mem_range'_1] at hm hn
  have hnumbers := congrArg (·.value.toNat) heq
  simp only [AgentId.toNat_ofNumber (show m < 2 ^ 32 by omega),
    AgentId.toNat_ofNumber (show n < 2 ^ 32 by omega)] at hnumbers
  omega

/-- Fewer spawns than there are numbers never answer the same agent twice. -/
theorem nodup_allArrivals (profile : Profile) (world : WorldSettings) (trainer : T) (seed : UInt64)
    (policy : P) (orders : List Order)
    (hfew : (allArrivals orders (opening profile world trainer seed policy)).length < 2 ^ 32) :
    (allArrivals orders (opening profile world trainer seed policy)).Nodup := by
  have hopening : Agreed profile .empty 0 (opening profile world trainer seed policy) :=
    mustered_opening profile world trainer seed policy trivial
  obtain ⟨count, roll, hanswers, -⟩ := hopening.obeyedAll orders (by omega)
  rw [hanswers, length_inSequence] at hfew
  rw [hanswers]
  obtain ⟨agents, heq, hnodup⟩ := inSequence_eq 0 count (by omega)
  rw [heq]
  exact List.pairwise_map.2 (hnodup.imp fun hne hsame => hne (Except.ok.inj hsame))

/-- A campaign whose roster, records, teams and bodies are about the same agents, and agree on their
teams and groups. -/
structure Concord (c : Campaign Arena T P) : Prop where
  records : c.battle.combatants.keys = c.roster.keys
  teams : c.battle.teams.teams.keys = c.roster.keys
  bodies : c.battle.host.bodies.keys = c.roster.keys
  agreed : ∀ agent slot, c.roster.get? agent = some slot → slot.handle.id = agent ∧
    c.battle.teams.teamOf agent = some slot.handle.team ∧
    (∃ record, c.battle.combatants.get? agent = some record ∧ record.id = agent ∧
      record.team = slot.handle.team ∧ record.group = slot.handle.group) ∧
    ∃ body, c.battle.host.bodies.get? agent = some body ∧ body.team = slot.handle.team ∧
      body.group = slot.handle.group

omit [Trainer T] [Policy P] in
theorem Agreed.concord (h : Agreed profile roll last c) : Concord c := by
  refine ⟨IdMap.keys_eq h.recorded, IdMap.keys_eq ?_, IdMap.keys_eq ?_, ?_⟩
  · intro agent
    rw [← h.recorded agent]
    show (c.battle.teams.teamOf agent).isSome = _
    rw [h.sound.teamOf agent, Option.isSome_map]
    rfl
  · intro agent
    exact (h.contains_eq agent).2.2.trans (h.contains_eq agent).1.symm
  · intro agent slot hslot
    have hid := h.handle_id agent slot hslot
    have hlisted := h.listed hslot
    obtain ⟨record, hrecord, hteam, hgroup⟩ := h.record hlisted
    obtain ⟨body, hbody⟩ := h.body hlisted
    rw [hid] at hrecord hbody
    refine ⟨hid, ?_, ⟨record, hrecord, h.sound.record_id agent record hrecord, hteam, hgroup⟩,
      body, hbody⟩
    rw [h.sound.teamOf agent, hrecord, Option.map_some, hteam]

/-- Whatever a campaign is ordered, and also where an order fails, it keeps one account of who is
there; no two spawns answer the same agent; and a removal fails, and changes nothing, just for who
is not on the roster. -/
theorem followAll_concord (profile : Profile) (world : WorldSettings) (trainer : T) (seed : UInt64)
    (policy : P) (orders : List Order)
    (hfew : (allArrivals orders (opening profile world trainer seed policy)).length < 2 ^ 32) :
    let c := followAll orders (opening profile world trainer seed policy)
    Concord c ∧
    (∃ agents : List AgentId,
      allArrivals orders (opening profile world trainer seed policy) = agents.map .ok ∧
        agents.Nodup) ∧
    ∀ agent, (c.roster.contains agent = true → ∃ c', despawn agent c = .ok () c') ∧
      (c.roster.contains agent = false →
        despawn agent c = .error (.battle (.unknownAgent agent)) c) := by
  intro c
  have hopening : Agreed profile .empty 0 (opening profile world trainer seed policy) :=
    mustered_opening profile world trainer seed policy trivial
  obtain ⟨count, roll, hanswers, hleft⟩ := hopening.obeyedAll orders (by omega)
  refine ⟨hleft.concord, ?_, ?_⟩
  · rw [hanswers, length_inSequence] at hfew
    rw [hanswers]
    exact inSequence_eq 0 count (by omega)
  · intro agent
    constructor
    · intro hcontains
      obtain ⟨c', hdespawn, -⟩ := hleft.despawn hcontains
      exact ⟨c', hdespawn⟩
    · intro hcontains
      exact hleft.despawn_unknown hcontains

/-- A removal that is repeated, and a tick that fails since a draw has no probability. -/
def brawl : List Order :=
  let point : SpawnPoint := ⟨.zero, ⟨400.0, 200.0, 90.0⟩⟩
  [.spawn .zero .agent point.pose, .spawn .one .turret point.pose, .despawn ⟨2⟩, .despawn ⟨2⟩,
    .spawn .one .turret point.pose, .tick 0 point, .tick 1 point]

def rash : Campaign Arena ReplacementTrainer HoldPolicy :=
  opening { lifetime := 1, spawnJitter := 0 } {}
    (.ofSeed { populationSize := 1, exploitProbability := 2.0, replacementInterval := 1 } 0) 0 {}

theorem followAll_concord_brawl :
    (allArrivals brawl rash).length = 4 ∧ (followAll brawl rash).roster.keys = [⟨1⟩, ⟨3⟩, ⟨4⟩] ∧
      fails (brawl.getLast (by decide)) (followAll brawl.dropLast rash) = true ∧
      Concord (followAll brawl rash) ∧
      despawn ⟨2⟩ (followAll brawl rash) =
        .error (.battle (.unknownAgent ⟨2⟩)) (followAll brawl rash) := by
  have hlength : (allArrivals brawl rash).length = 4 := by decide +kernel
  have hfew : (allArrivals brawl rash).length < 2 ^ 32 := by omega
  obtain ⟨hconcord, -, hdespawn⟩ := followAll_concord _ _ _ _ _ brawl hfew
  have hgone : (followAll brawl rash).roster.contains ⟨2⟩ = false := by decide +kernel
  exact ⟨hlength, by decide +kernel, by decide +kernel, hconcord, (hdespawn ⟨2⟩).2 hgone⟩

end Campaign

end FlagCombat
