import FlagCombat.Proofs.Battle.Ending
import FlagCombat.Proofs.Battle.Relabel

/-!
The layout of rewards is for whoever reads them. Battles that declare different dimensions and are
otherwise alike stay alike whatever happens to them, draw the same numbers and answer alike, but for
the rewards of a step and the shape of rewards; and what both declare they score alike.
-/

namespace FlagCombat

/-- Everything keeps its name, and rewards get a layout. -/
def relayout {H : Type} [Host H] (layout : List Dimension) : Relabelling H where
  team t := t
  team_opponent _ := rfl
  layout _ := layout
  host h := h
  sensor s := s
  sensors _ _ := (List.map_id _).symm
  rayCast _ _ _ := rfl
  transform _ _ := rfl
  setTransform _ _ _ := rfl
  setAnimation _ _ _ := rfl
  setAnimationSpeed _ _ _ := rfl
  frameDelay _ := rfl
  addSensor _ _ _ := rfl
  senseChannels _ _ _ := rfl
  spawnAgent _ _ _ _ := rfl
  despawnAgent _ _ := rfl
  stopScript _ _ := rfl

namespace Battle

variable {H T : Type}

/-- The battle with other dimensions declared. -/
def withLayout (b : Battle H T) (layout : List Dimension) : Battle H T :=
  { b with profile := { b.profile with dimensions := layout } }

/-- Outcomes of a call that differ at most in rewards: those of a step follow their own layouts and
agree on every dimension of both, those of a registration are the declared shapes. -/
def SameButRewards (layout layout' : List Dimension) :
    Call → Except BattleError Reply → Except BattleError Reply → Prop
  | .step _ _, .ok (.vector r), .ok (.vector r') =>
    r.length = layout.length ∧ r'.length = layout'.length ∧
      ∀ (i j : Nat) (d : Dimension), layout[i]? = some d → layout'[j]? = some d → r[i]? = r'[j]?
  | .register _, .ok (.shapes s), .ok (.shapes s') => s' = { s with rewards := s'.rewards }
  | _, outcome, outcome' => outcome' = outcome

variable [Host H]

theorem battle_relayout (b : Battle H T) (layout : List Dimension) :
    (relayout layout).battle b = b.withLayout layout := by
  have hrecords : b.combatants.mapValues (fun _ => (relayout (H := H) layout).combatant) =
      b.combatants := by
    apply IdMap.ext_get?
    intro agent
    rw [IdMap.get?_mapValues]
    exact Option.map_id_apply
  have hteams : (relayout (H := H) layout).teams b.teams = b.teams := by
    apply Teams.ext_teamOf
    intro agent
    exact (Teams.teamOf_relabel _ _ _ _).trans Option.map_id_apply
  simp only [Relabelling.battle, hrecords, hteams]
  rfl

theorem error_relayout (layout : List Dimension) (e : BattleError) :
    (relayout (H := H) layout).error e = e := by
  cases e <;> rfl

/-- The scores of two layouts agree on what both declare. -/
theorem sameButRewards_map (layout layout' : List Dimension) (agent : Handle) (action : List Float)
    (score : Dimension → Float) :
    SameButRewards layout layout' (.step agent action) (.ok (.vector (layout.map score)))
      (.ok (.vector (layout'.map score))) := by
  refine ⟨List.length_map _, List.length_map _, fun i j d hi hj => ?_⟩
  rw [List.getElem?_map, List.getElem?_map, hi, hj]

variable [Trainer T]

/-- A call does not look at the layout. -/
theorem perform_withLayout (b : Battle H T) (layout : List Dimension) (call : Call) :
    ((b.withLayout layout).perform call).2 = (b.perform call).2.withLayout layout ∧
      SameButRewards b.profile.dimensions layout call (b.perform call).1
        ((b.withLayout layout).perform call).1 := by
  have hrefused (e : BattleError) : ((relayout layout).battle b = b.withLayout layout) ∧
      (Except.error ((relayout (H := H) layout).error e) : Except BattleError Reply) = .error e :=
    ⟨battle_relayout b layout, congrArg Except.error (error_relayout layout e)⟩
  rw [← battle_relayout b]
  cases call with
  | beginTick tick =>
    refine ⟨?_, rfl⟩
    exact ((relayout layout).beginTick_battle b tick).trans (battle_relayout _ _)
  | cleanup =>
    refine ⟨?_, rfl⟩
    exact ((relayout layout).cleanup_battle b).trans (battle_relayout _ _)
  | removeAgent agent =>
    have hremove := (relayout layout).removeAgent_battle b agent
    simp only [perform, attempt, hremove]
    cases b.removeAgent agent with
    | error e => exact hrefused e
    | ok r => exact ⟨battle_relayout r.2 layout, rfl⟩
  | register agent =>
    have hregister : ((relayout layout).battle b).register agent = _ :=
      (relayout layout).register_battle b agent
    simp only [perform, attempt, hregister]
    cases b.register agent with
    | error e => exact hrefused e
    | ok r => exact ⟨battle_relayout r.2 layout, rfl⟩
  | reset agent =>
    have hreset : ((relayout layout).battle b).reset agent = _ :=
      (relayout layout).reset_battle b agent
    simp only [perform, attempt, hreset]
    cases b.reset agent with
    | error e => exact hrefused e
    | ok b' => exact ⟨battle_relayout b' layout, rfl⟩
  | sense agent values =>
    have hsense : ((relayout layout).battle b).sense agent values = _ :=
      (relayout layout).sense_battle b agent values
    simp only [perform, attempt, hsense]
    cases b.sense agent values with
    | error e => exact hrefused e
    | ok r => exact ⟨battle_relayout r.2 layout, rfl⟩
  | isEpisodeOver agent =>
    have hcheck : ((relayout layout).battle b).isEpisodeOver agent = _ :=
      (relayout layout).isEpisodeOver_battle b agent
    simp only [perform, attempt, hcheck]
    cases b.isEpisodeOver agent with
    | error e => exact hrefused e
    | ok r => exact ⟨battle_relayout r.2 layout, rfl⟩
  | step agent action =>
    obtain ⟨score, hscored, hstep⟩ := (relayout layout).step_battle b agent action
    have hstep : ((relayout layout).battle b).step agent action = _ := hstep
    simp only [perform, attempt, hstep]
    cases hok : b.step agent action with
    | error e => exact hrefused e
    | ok r =>
      refine ⟨battle_relayout r.2 layout, ?_⟩
      show SameButRewards _ _ _ (.ok (.vector r.1)) (.ok (.vector (layout.map score)))
      rw [hscored r.1 r.2 hok]
      exact sameButRewards_map _ layout agent action score

/-- What happens to battles that differ in the layout leaves them so. -/
theorem undergoAll_withLayout (b : Battle H T) (layout : List Dimension)
    (occurrences : List (Occurrence H T)) :
    (b.withLayout layout).undergoAll occurrences =
      (b.undergoAll occurrences).withLayout layout := by
  induction occurrences generalizing b with
  | nil => rfl
  | cons occurrence rest ih =>
    have hnext : (b.withLayout layout).undergo occurrence =
        (b.undergo occurrence).withLayout layout := by
      cases occurrence with
      | call call => exact (perform_withLayout b layout call).1
      | host host => rfl
      | trainer trainer => rfl
    show ((b.withLayout layout).undergo occurrence).undergoAll rest = _
    rw [hnext, ih]
    rfl

theorem profile_undergoAll (b : Battle H T) (occurrences : List (Occurrence H T)) :
    (b.undergoAll occurrences).profile = b.profile := by
  induction occurrences generalizing b with
  | nil => rfl
  | cons occurrence rest ih =>
    refine (ih (b.undergo occurrence)).trans ?_
    cases occurrence with
    | call call => exact (perform_changes b call).profile
    | host host => rfl
    | trainer trainer => rfl

/-- The layout of rewards never steers a battle: whatever has happened to two battles that declare
different dimensions, they are alike but for these, and the next call does the same in both and
answers alike but for rewards, in which it scores what both declare alike. -/
theorem layout_never_steers (profile : Profile) (layout : List Dimension) (host : H) (trainer : T)
    (seed : UInt64) (past : List (Occurrence H T)) (call : Call) :
    let b := (start profile host trainer seed).undergoAll past
    let b' := (start { profile with dimensions := layout } host trainer seed).undergoAll past
    b' = { b with profile := { profile with dimensions := layout } } ∧
      (b'.perform call).2 =
        { (b.perform call).2 with profile := { profile with dimensions := layout } } ∧
      SameButRewards profile.dimensions layout call (b.perform call).1 (b'.perform call).1 := by
  intro b b'
  have hprofile : b.profile = profile := profile_undergoAll _ past
  have hafter : (b.perform call).2.profile = profile :=
    (perform_changes b call).profile.trans hprofile
  have hsame : b' = b.withLayout layout :=
    undergoAll_withLayout (start profile host trainer seed) layout past
  obtain ⟨hnext, hanswer⟩ := perform_withLayout b layout call
  rw [hprofile] at hanswer
  rw [hsame]
  refine ⟨?_, hnext.trans ?_, hanswer⟩
  · rw [withLayout, hprofile]
  · rw [withLayout, hafter]

end Battle

end FlagCombat
