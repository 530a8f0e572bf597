import FlagCombat.Campaign.Progress
import FlagCombat.Proofs.Campaign.Elapsed
import Mathlib.Algebra.Order.Floor.Div

/-!
What a run comes to that nobody stops and no clock limits. Without agents it ends at once; else it
ends at its tick limit, after as many ticks, and its totals are those of its ticks, of the journal,
and of a progress that was told of the ticks.
-/

namespace FlagCombat

open Campaign

/-- An observer that leaves the limits of a run alone: at most it asks to stop. -/
class LawfulTickObserver (O : Type) [TickObserver O] : Prop where
  onTick_control : ∀ (observer : O) (control : RunControl) (summary : TickSummary)
    (views : List View),
    (TickObserver.onTick observer control summary views).2 = control ∨
      (TickObserver.onTick observer control summary views).2 = control.requestStop

instance : LawfulTickObserver Unit := ⟨fun _ _ _ _ => .inl rfl⟩

instance : LawfulTickObserver Progress := ⟨fun _ _ _ _ => .inl rfl⟩

/-- An observer that was told of some ticks, in order. -/
def attend {O : Type} [TickObserver O] (control : RunControl) (observer : O)
    (told : List Bulletin) : O :=
  told.foldl (fun o news => (TickObserver.onTick o control news.summary news.views).1) observer

/-- Ticks at one spawn point, numbered from zero on. -/
def consecutive (point : SpawnPoint) (count : Nat) : List (UInt64 × SpawnPoint) :=
  (List.range count).map fun n => (UInt64.ofNat n, point)

theorem consecutive_succ (point : SpawnPoint) (count : Nat) :
    consecutive point (count + 1) = consecutive point count ++ [(UInt64.ofNat count, point)] := by
  simp [consecutive, List.range_succ]

namespace Progress

/-- The multiples of `k` below `m`. -/
theorem countP_multiples {k : Nat} (hk : 0 < k) (m : Nat) :
    (List.range m).countP (fun n => n % k = 0) = m ⌈/⌉ k := by
  rw [Nat.ceilDiv_eq_add_pred_div]
  induction m with
  | zero => simp [Nat.div_eq_of_lt (Nat.sub_lt hk Nat.one_pos)]
  | succ m ih =>
    have hnext : m + 1 + k - 1 = m + k - 1 + 1 := by omega
    have hlast : m + k - 1 + 1 = m + k := by omega
    rw [List.range_succ, List.countP_append, ih, hnext, Nat.succ_div, hlast]
    simp [Nat.dvd_iff_mod_eq_zero, List.countP_singleton]

theorem onTick_counts (p : Progress) (summary : TickSummary) (views : List View) :
    (p.onTick summary views).interval = p.interval ∧
      (p.onTick summary views).episodes = p.episodes + summary.episodesEnded ∧
      (p.onTick summary views).lines = p.lines + if p.isDue summary.tick then 1 else 0 := by
  unfold onTick isDue
  dsimp only
  split <;> exact ⟨rfl, rfl, rfl⟩

/-- A progress counts the episodes of the ticks it is told of, and the ticks that are due. -/
theorem attend_counts (p : Progress) (control : RunControl) (told : List Bulletin) :
    (attend control p told).episodes =
        p.episodes + (told.map (·.summary.episodesEnded)).sum ∧
      (attend control p told).lines =
        p.lines + told.countP fun news => p.isDue news.summary.tick := by
  induction told generalizing p with
  | nil => exact ⟨rfl, rfl⟩
  | cons news told ih =>
    obtain ⟨hinterval, hepisodes, hlines⟩ := p.onTick_counts news.summary news.views
    have hdue : (p.onTick news.summary news.views).isDue = p.isDue := by
      unfold isDue
      rw [hinterval]
    obtain ⟨hallEpisodes, hallLines⟩ := ih (p.onTick news.summary news.views)
    refine ⟨hallEpisodes.trans ?_, hallLines.trans ?_⟩
    · rw [hepisodes, List.map_cons, List.sum_cons, Nat.add_assoc]
    · rw [hlines, hdue, List.countP_cons]
      omega

/-- What a fresh progress has counted after some ticks, numbered from zero on. -/
theorem attend_consecutive (interval : UInt64) (level : LogLevel) (control : RunControl)
    {told : List Bulletin} {point : SpawnPoint}
    (hnumbered : told.map (·.summary.tick) = (consecutive point told.length).map (·.1))
    (hfew : told.length < 2 ^ 64) :
    let p := attend control { interval, level : Progress } told
    p.episodes = (told.map (·.summary.episodesEnded)).sum ∧
      p.lines = if interval = 0 then 0 else told.length ⌈/⌉ interval.toNat := by
  obtain ⟨hepisodes, hlines⟩ := attend_counts { interval, level } control told
  refine ⟨hepisodes.trans (Nat.zero_add _), hlines.trans ?_⟩
  have hcount : told.countP (fun news => isDue { interval, level } news.summary.tick) =
      (List.range told.length).countP fun n => isDue { interval, level } (UInt64.ofNat n) := by
    have hticks := congrArg (List.countP (isDue { interval, level })) hnumbered
    rwa [List.countP_map, consecutive, List.map_map, List.countP_map] at hticks
  rw [hcount]
  split
  · rename_i hzero
    simp [isDue, hzero]
  · rename_i hnonzero
    have hpos : 0 < interval.toNat := Nat.pos_of_ne_zero fun h => hnonzero (UInt64.toNat.inj h)
    rw [← countP_multiples hpos, Nat.zero_add]
    refine List.countP_congr fun n hn => ?_
    have hn : n < 2 ^ 64 := (List.mem_range.1 hn).trans hfew
    have hmod : (UInt64.ofNat n % interval).toNat = n % interval.toNat := by
      rw [UInt64.toNat_mod, UInt64.toNat_ofNat_of_lt' hn]
    simp [isDue, hnonzero, ← UInt64.toNat_inj, hmod]

end Progress

namespace Run

variable {H T P O : Type} [Host H] [Trainer T] [Policy P] [TickObserver O]

section Advance

variable {point : SpawnPoint} {elapsed : Nat} {r : Run H T P O}

/-- A run after one tick more. -/
def ticked (r : Run H T P O) (summary : TickSummary) (campaign : Campaign H T P) : Run H T P O :=
  let (observer, control) :=
    TickObserver.onTick r.observer r.control summary campaign.battle.views
  { r with
    campaign, observer, control
    totalTicks := addCapped64 r.totalTicks 1
    episodesCompleted := r.episodesCompleted + summary.episodesEnded
    finalSummary := some summary }

theorem advance_of_halt {reason : EndReason} (h : r.haltBefore? elapsed = some reason) :
    r.advance point elapsed = r.finish reason := by
  unfold advance
  rw [h]

theorem advance_of_error {e : CampaignError} {c : Campaign H T P}
    (h : r.haltBefore? elapsed = none)
    (htick : Campaign.tick r.totalTicks point r.campaign = .error e c) :
    r.advance point elapsed = .failed e { r with campaign := c } := by
  unfold advance
  rw [h, htick]

theorem advance_of_ok {summary : TickSummary} {c : Campaign H T P}
    (h : r.haltBefore? elapsed = none)
    (htick : Campaign.tick r.totalTicks point r.campaign = .ok summary c) :
    r.advance point elapsed =
      if (r.ticked summary c).control.tickLimitReached (r.ticked summary c).totalTicks then
        (r.ticked summary c).finish .maxTicksReached
      else .goesOn (r.ticked summary c) := by
  unfold advance
  rw [h, htick]
  rfl

/-- A run that was asked to stop does so before its next tick. -/
theorem within_of_stopRequested (h : r.control.stopRequested = true) (clock : Nat → Nat)
    (turns : Nat) : within point clock (turns + 1) r = r.finish .stopRequested := by
  have hhalt : r.haltBefore? (clock turns) = some .stopRequested := by simp [haltBefore?, h]
  rw [within, advance_of_halt hhalt]
  rfl

end Advance

/-- A run after some ticks of which it told its observer. -/
structure Underway (point : SpawnPoint) (campaign : Campaign H T P) (control : RunControl)
    (observer : O) (told : List Bulletin) (r : Run H T P O) : Prop where
  ticks_eq : bulletins (consecutive point told.length) campaign = .ok told r.campaign
  observer_eq : r.observer = attend control observer told
  totalTicks_eq : r.totalTicks.toNat = told.length
  episodes_eq : r.episodesCompleted = (told.map (·.summary.episodesEnded)).sum
  hitsAtStart_eq : r.hitsAtStart = campaign.battle.hits
  final_eq : r.finalSummary = told.getLast?.map (·.summary)

/-- What a run has come to that its tick limit ended, by the ticks of which it told its observer and
the campaign after them. -/
structure Balanced (point : SpawnPoint) (campaign : Campaign H T P) (control : RunControl)
    (observer : O) (told : List Bulletin) (last : Campaign H T P) (summary : RunSummary)
    (run : Run H T P O) : Prop where
  ticks_eq : bulletins (consecutive point control.maxTicks.toNat) campaign = .ok told last
  numbers_eq : told.map (·.summary.tick.toNat) = List.range control.maxTicks.toNat
  observer_eq : run.observer = attend control observer told
  campaign_eq : run.campaign = { last with battle := last.battle.cleanup }
  /-- The clean-up stops the menu, once in the whole run. -/
  scripts_eq : ∀ log : ScriptLog H, log.stopped run.campaign.battle.host =
    log.stopped campaign.battle.host ++ [Host.menuScript]
  endReason_eq : summary.endReason = .maxTicksReached
  totalTicks_eq : summary.totalTicks = control.maxTicks
  episodes_eq : summary.episodesCompleted = (told.map (·.summary.episodesEnded)).sum
  reports_eq : summary.episodesCompleted =
    (journal (ticks (consecutive point control.maxTicks.toNat)) campaign).countP
      (·.request.isReport)
  finishes_eq : summary.episodesCompleted =
    (journal (ticks (consecutive point control.maxTicks.toNat)) campaign).countP
      (·.request.isFinish)
  hits_eq : summary.hits =
    (journal (ticks (consecutive point control.maxTicks.toNat)) campaign).countP Event.landed
  final_eq : ∃ news, told.getLast? = some news ∧ summary.finalSummary = some news.summary
  /-- A fresh progress that is told of the same ticks agrees. -/
  progress_eq : ∀ (interval : UInt64) (level : LogLevel),
    let p := attend control { interval, level : Progress } told
    p.episodes = summary.episodesCompleted ∧
      p.lines = if interval = 0 then 0 else control.maxTicks.toNat ⌈/⌉ interval.toNat

section Underway

variable {point : SpawnPoint} {campaign : Campaign H T P} {control : RunControl} {observer : O}
  {told : List Bulletin} {r : Run H T P O}

theorem underway_start :
    (start campaign control observer).Underway point campaign control observer [] :=
  ⟨rfl, rfl, rfl, rfl, rfl, rfl⟩

theorem Underway.elapsed (h : r.Underway point campaign control observer told) :
    told.map (·.summary.tick) = (consecutive point told.length).map (·.1) ∧
      Elapsed campaign (journal (ticks (consecutive point told.length)) campaign)
        (told.map (·.summary.episodesEnded)).sum r.campaign :=
  elapsed_bulletins h.ticks_eq

/-- The agents that were there at first still are. -/
theorem Underway.roster (h : r.Underway point campaign control observer told)
    (hlive : campaign.roster.isEmpty = false) : r.campaign.roster.isEmpty = false := by
  obtain ⟨agent, hagent⟩ := IdMap.isEmpty_eq_false_iff.1 hlive
  exact IdMap.isEmpty_eq_false_iff.2 ⟨agent, h.elapsed.2.running agent hagent⟩

theorem Underway.ticked (h : r.Underway point campaign control observer told)
    (hcontrol : r.control = control) (hfew : told.length + 1 < 2 ^ 64) {summary : TickSummary}
    {c : Campaign H T P}
    (htick : Campaign.tick r.totalTicks point r.campaign = .ok summary c) :
    (r.ticked summary c).Underway point campaign control observer
      (told ++ [{ summary, views := c.battle.views }]) := by
  have hnumber : r.totalTicks = UInt64.ofNat told.length := by
    rw [← h.totalTicks_eq, UInt64.ofNat_toNat]
  rw [hnumber] at htick
  constructor
  · rw [List.length_append, List.length_singleton, consecutive_succ]
    exact bulletins_concat h.ticks_eq htick
  · show (TickObserver.onTick r.observer r.control summary c.battle.views).1 = _
    rw [hcontrol, h.observer_eq, attend, attend, List.foldl_append]
    rfl
  · show (addCapped64 r.totalTicks 1).toNat = _
    rw [toNat_addCapped64, h.totalTicks_eq, List.length_append, List.length_singleton]
    simp [UInt64.size]
    omega
  · show r.episodesCompleted + summary.episodesEnded = _
    rw [h.episodes_eq, List.map_append, List.sum_append]
    simp
  · exact h.hitsAtStart_eq
  · rw [List.getLast?_concat]
    rfl

/-- What a turn can do to a run that has some ticks left. -/
inductive Advanced (point : SpawnPoint) (campaign : Campaign H T P) (control : RunControl)
    (observer : O) (told : List Bulletin) : Turn H T P O → Prop
  | failed (e : CampaignError) (run : Run H T P O) :
      Advanced point campaign control observer told (.failed e run)
  | ended {news : Bulletin} {r : Run H T P O} (hfull : told.length + 1 = control.maxTicks.toNat)
      (h : r.Underway point campaign control observer (told ++ [news]))
      (hcontrol : r.control = control ∨ r.control = control.requestStop) :
      Advanced point campaign control observer told (r.finish .maxTicksReached)
  | goesOn {news : Bulletin} {r : Run H T P O} (hleft : told.length + 1 < control.maxTicks.toNat)
      (h : r.Underway point campaign control observer (told ++ [news]))
      (hcontrol : r.control = control ∨ r.control = control.requestStop) :
      Advanced point campaign control observer told (.goesOn r)

variable [LawfulTickObserver O]

theorem Underway.advance (h : r.Underway point campaign control observer told)
    (hcontrol : r.control = control) (htime : control.maxSeconds = 0)
    (hstop : control.stopRequested = false) (hlive : campaign.roster.isEmpty = false)
    (hleft : told.length < control.maxTicks.toNat) (elapsed : Nat) :
    Advanced point campaign control observer told (r.advance point elapsed) := by
  have hhalt : r.haltBefore? elapsed = none := by
    simp [haltBefore?, RunControl.timeLimitReached, hcontrol, hstop, htime, h.roster hlive]
  cases htick : Campaign.tick r.totalTicks point r.campaign with
  | error e c =>
    rw [advance_of_error hhalt htick]
    exact .failed e _
  | ok summary c =>
    rw [advance_of_ok hhalt htick]
    have hmost := control.maxTicks.toNat_lt
    have hticked := h.ticked hcontrol (by omega) htick
    have hlaw : (r.ticked summary c).control = r.control ∨
        (r.ticked summary c).control = r.control.requestStop :=
      LawfulTickObserver.onTick_control r.observer r.control summary c.battle.views
    rw [hcontrol] at hlaw
    have hmaxTicks : (r.ticked summary c).control.maxTicks = control.maxTicks := by
      rcases hlaw with hsame | hasked
      · rw [hsame]
      · rw [hasked]
        rfl
    have hreached : (r.ticked summary c).control.tickLimitReached (r.ticked summary c).totalTicks =
        decide (told.length + 1 = control.maxTicks.toNat) := by
      have htotal := hticked.totalTicks_eq
      rw [List.length_append, List.length_singleton] at htotal
      unfold RunControl.tickLimitReached
      rw [hmaxTicks]
      simp only [gt_iff_lt, ge_iff_le, UInt64.lt_iff_toNat_lt, UInt64.le_iff_toNat_le, htotal,
        ← Bool.decide_and, decide_eq_decide, UInt64.toNat_zero]
      omega
    rw [hreached]
    by_cases hfull : told.length + 1 = control.maxTicks.toNat
    · rw [if_pos (decide_eq_true hfull)]
      exact .ended hfull hticked hlaw
    · rw [if_neg (by simpa using hfull)]
      exact .goesOn (by omega) hticked hlaw

/-- With turns for all the ticks that are left, a run stops. -/
theorem Underway.within_ne_goesOn (h : r.Underway point campaign control observer told)
    (hcontrol : r.control = control) (htime : control.maxSeconds = 0)
    (hstop : control.stopRequested = false) (hlive : campaign.roster.isEmpty = false)
    (hleft : told.length < control.maxTicks.toNat) (clock : Nat → Nat) {turns : Nat}
    (hturns : control.maxTicks.toNat ≤ told.length + turns) (run : Run H T P O) :
    within point clock turns r ≠ .goesOn run := by
  induction turns generalizing told r with
  | zero => omega
  | succ turns ih =>
    have hadvance := h.advance hcontrol htime hstop hlive hleft (clock turns)
    unfold within
    generalize r.advance point (clock turns) = turn at hadvance
    cases hadvance with
    | failed e run => exact nofun
    | ended hfull h' hcontrol' => exact nofun
    | @goesOn news r' hleft' h' hcontrol' =>
      show within point clock turns r' ≠ .goesOn run
      rcases hcontrol' with hsame | hasked
      · refine ih h' hsame ?_ ?_ <;> rw [List.length_append, List.length_singleton] <;> omega
      · obtain ⟨turns, rfl⟩ : ∃ n, turns = n + 1 := Nat.exists_eq_succ_of_ne_zero (by omega)
        rw [within_of_stopRequested (by rw [hasked]; rfl)]
        exact nofun

/-- A run that ends, and that nobody asked to stop, has reached its limit. -/
theorem Underway.within_ended (h : r.Underway point campaign control observer told)
    (hcontrol : r.control = control) (htime : control.maxSeconds = 0)
    (hstop : control.stopRequested = false) (hlive : campaign.roster.isEmpty = false)
    (hleft : told.length < control.maxTicks.toNat) {clock : Nat → Nat} {turns : Nat}
    {summary : RunSummary} {run : Run H T P O}
    (hended : within point clock turns r = .ended summary run)
    (hnostop : run.control.stopRequested = false) :
    ∃ all r', all.length = control.maxTicks.toNat ∧
      Underway point campaign control observer all r' ∧
      r'.finish .maxTicksReached = .ended summary run := by
  induction turns generalizing told r with
  | zero => cases hended
  | succ turns ih =>
    have hadvance := h.advance hcontrol htime hstop hlive hleft (clock turns)
    unfold within at hended
    generalize r.advance point (clock turns) = turn at hadvance hended
    cases hadvance with
    | failed e run => cases hended
    | @ended news r' hfull h' hcontrol' =>
      exact ⟨told ++ [news], r', by simpa using hfull, h', hended⟩
    | @goesOn news r' hleft' h' hcontrol' =>
      replace hended : within point clock turns r' = .ended summary run := hended
      rcases hcontrol' with hsame | hasked
      · exact ih h' hsame (by simpa using hleft') hended
      · -- the request to stop would still stand at the end
        cases turns with
        | zero => cases hended
        | succ turns =>
          have hrequested : r'.control.stopRequested = true := by rw [hasked]; rfl
          rw [within_of_stopRequested hrequested] at hended
          cases hended
          exact absurd (hrequested.symm.trans hnostop) Bool.noConfusion

omit [LawfulTickObserver O] in
/-- The accounts of a run that is finished at its limit balance. -/
theorem Underway.balanced (h : r.Underway point campaign control observer told)
    (hfull : told.length = control.maxTicks.toNat) (hpos : 0 < control.maxTicks)
    {summary : RunSummary} {run : Run H T P O}
    (hfinish : r.finish .maxTicksReached = .ended summary run) :
    Balanced point campaign control observer told r.campaign summary run := by
  obtain ⟨hnumbers, helapsed⟩ := h.elapsed
  have hmost := control.maxTicks.toNat_lt
  have hprogress (interval : UInt64) (level : LogLevel) :=
    Progress.attend_consecutive interval level control hnumbers (by omega)
  have hticks := h.ticks_eq
  rw [hfull] at hticks hprogress helapsed
  obtain ⟨news, hlast⟩ : ∃ news, told.getLast? = some news := by
    cases hnews : told.getLast? with
    | some news => exact ⟨news, rfl⟩
    | none =>
      rw [List.getLast?_eq_none_iff] at hnews
      rw [hnews] at hfull
      exact absurd hfull (Nat.ne_of_lt (UInt64.lt_iff_toNat_lt.1 hpos))
  cases hfinish
  exact {
    ticks_eq := hticks
    numbers_eq := by
      have hnats := congrArg (List.map UInt64.toNat) hnumbers
      rw [List.map_map, hfull, consecutive, List.map_map, List.map_map] at hnats
      refine hnats.trans ((List.map_congr_left fun n hn => ?_).trans (List.map_id _))
      exact UInt64.toNat_ofNat_of_lt' ((List.mem_range.1 hn).trans hmost)
    observer_eq := h.observer_eq
    campaign_eq := rfl
    scripts_eq := fun log =>
      (log.stopped_cleanup r.campaign.battle).trans (congrArg (· ++ _) (helapsed.scripts log))
    endReason_eq := rfl
    totalTicks_eq := UInt64.toNat_inj.1 (h.totalTicks_eq.trans hfull)
    episodes_eq := h.episodes_eq
    reports_eq := h.episodes_eq.trans helapsed.reports_eq.symm
    finishes_eq := h.episodes_eq.trans helapsed.finishes_eq.symm
    hits_eq := by
      show r.campaign.battle.hits - r.hitsAtStart = _
      rw [h.hitsAtStart_eq, helapsed.hits_eq, Nat.add_sub_cancel_left]
    final_eq := ⟨news, hlast, by show r.finalSummary = _; rw [h.final_eq, hlast]; rfl⟩
    progress_eq := fun interval level =>
      ⟨(hprogress interval level).1.trans h.episodes_eq.symm, (hprogress interval level).2⟩ }

end Underway

/-- A run under no time limit, which was not asked to stop when it started. If nobody is there it
ends at once. Else, under a tick limit, it stops within as many turns; and if it does not fail and
nobody has asked it to stop, it has reached the limit, and its accounts balance. -/
theorem ends_balanced [LawfulTickObserver O] (point : SpawnPoint) (clock : Nat → Nat)
    (campaign : Campaign H T P) (control : RunControl) (observer : O)
    (htime : control.maxSeconds = 0) (hstop : control.stopRequested = false) :
    (campaign.roster.isEmpty = true → ∀ turns,
      within point clock (turns + 1) (start campaign control observer) =
        .ended ⟨.noAgents, 0, 0, 0, none⟩ { start campaign control observer with
          campaign := { campaign with battle := campaign.battle.cleanup } }) ∧
    (campaign.roster.isEmpty = false → 0 < control.maxTicks →
      (∀ turns, control.maxTicks.toNat ≤ turns → ∀ run,
        within point clock turns (start campaign control observer) ≠ .goesOn run) ∧
      ∀ turns summary run,
        within point clock turns (start campaign control observer) = .ended summary run →
          run.control.stopRequested = false →
            ∃ told last, Balanced point campaign control observer told last summary run) := by
  constructor
  · intro hempty turns
    have hhalt : (start campaign control observer).haltBefore? (clock turns) = some .noAgents := by
      simp [start, haltBefore?, RunControl.timeLimitReached, hstop, htime, hempty]
    rw [within, advance_of_halt hhalt]
    show Turn.ended ⟨_, _, _, campaign.battle.hits - campaign.battle.hits, _⟩ _ = _
    rw [Nat.sub_self]
    rfl
  · intro hlive hpos
    have hleft : ([] : List Bulletin).length < control.maxTicks.toNat :=
      UInt64.lt_iff_toNat_lt.1 hpos
    constructor
    · intro turns hturns run
      refine underway_start.within_ne_goesOn rfl htime hstop hlive hleft clock ?_ run
      simpa using hturns
    · intro turns summary run hended hnostop
      obtain ⟨told, r, hfull, hunderway, hfinish⟩ :=
        underway_start.within_ended rfl htime hstop hlive hleft hended hnostop
      exact ⟨told, r.campaign, hunderway.balanced hfull hpos hfinish⟩

/-- Two opponents who have had their first step, and a turret sent out to where one of them stands;
the next check ends both episodes. -/
def ambush : Campaign (NotedHost OpenField) FixedTrainer HoldPolicy :=
  followAll [.spawn .zero .agent ⟨420.0, 230.0, 180.0⟩, .spawn .one .agent ⟨400.0, 200.0, 270.0⟩,
      .tick 0 ⟨.zero, ⟨400.0, 200.0, 90.0⟩⟩, .spawn .zero .turret ⟨400.0, 200.0, 90.0⟩]
    (outset { lifetime := 1, spawnJitter := 0 } { host := {} } {} 0 {})

/-- In the tick after, the turret strikes its foe, and the episodes of the two others end. -/
theorem ends_balanced_ambush :
    let point : SpawnPoint := ⟨.zero, ⟨400.0, 200.0, 90.0⟩⟩
    let control : RunControl := { maxTicks := 1 }
    ∃ summary run told last,
      within point (fun _ => 0) 1 (start ambush control { interval := 1 : Progress }) =
        .ended summary run ∧
      (summary.totalTicks, summary.episodesCompleted, summary.hits) = (1, 2, 1) ∧
      (run.observer.episodes, run.observer.lines) = (2, 1) ∧
      run.campaign.battle.host.stopped = ["menu"] ∧
      Balanced point ambush control { interval := 1 : Progress } told last summary run := by
  intro point control
  have hseen : (match within point (fun _ => 0) 1
        (start ambush control { interval := 1 : Progress }) with
      | .ended summary run => decide (run.control.stopRequested = false ∧
          (summary.totalTicks, summary.episodesCompleted, summary.hits) = (1, 2, 1) ∧
          (run.observer.episodes, run.observer.lines) = (2, 1) ∧
          run.campaign.battle.host.stopped = ["menu"])
      | _ => false) = true := by decide +kernel
  split at hseen
  · rename_i summary run hended
    obtain ⟨hnostop, htotals, hprogress, hstopped⟩ := of_decide_eq_true hseen
    obtain ⟨-, hlive⟩ := ends_balanced point (fun _ => 0) ambush control
      ({ interval := 1 : Progress }) rfl rfl
    obtain ⟨-, hbalanced⟩ := hlive (by decide +kernel) (by decide)
    obtain ⟨told, last, hbalanced⟩ := hbalanced 1 summary run hended hnostop
    exact ⟨summary, run, told, last, hended, htotals, hprogress, hstopped, hbalanced⟩
  · cases hseen

end Run

end FlagCombat
