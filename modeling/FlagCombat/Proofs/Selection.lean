import FlagCombat.Proofs.Nearest
import Mathlib.Data.List.Induction

/-!
Which candidate a choice keeps. Targets and nearest agents are chosen alike: some candidates are
discarded, the others have a cost, and the first of least cost is answered. A fold that keeps the
first strict minimum does this for any cost. It finds the first minimum wherever there is one, and
there is one as soon as a candidate is kept and every cost is a number.
-/

namespace FlagCombat

section FirstLeast

variable {α : Type} {cost : α → Float} {l : List α} {x : α}

/-- One step of a choice by cost. -/
def lesserBy (cost : α → Float) (best : Option α) (x : α) : Option α :=
  match best with
  | none => some x
  | some current => if cost x < cost current then some x else some current

/-- The entry of least cost, the first one among equals. -/
def firstLeastBy (cost : α → Float) (l : List α) : Option α := l.foldl (lesserBy cost) none

theorem firstLeast_eq_firstLeastBy (candidates : List (AgentId × Float)) :
    firstLeast candidates = firstLeastBy (·.2) candidates := by
  unfold firstLeast firstLeastBy
  congr 1
  funext best candidate
  cases best <;> rfl

theorem firstLeastBy_mem (h : firstLeastBy cost l = some x) : x ∈ l := by
  have hmem := foldl_choice_mem (fun best candidate => ?_) l none h
  · exact hmem.resolve_right (by simp)
  · cases best with
    | none => exact .inl rfl
    | some current =>
      dsimp only [lesserBy]
      split
      · exact .inl rfl
      · exact .inr rfl

theorem firstLeastBy_append (cost : α → Float) (before after : List α) :
    firstLeastBy cost (before ++ after) = after.foldl (lesserBy cost) (firstLeastBy cost before) :=
  List.foldl_append

/-- Costs that are read off an answer are compared alike before and after the answer is made. -/
theorem firstLeastBy_map {β : Type} (cost : β → Float) (answer : α → β) (l : List α) :
    firstLeastBy cost (l.map answer) = (firstLeastBy (fun x => cost (answer x)) l).map answer := by
  induction l using List.reverseRecOn with
  | nil => rfl
  | append_singleton l x ih =>
    rw [List.map_append, firstLeastBy_append, firstLeastBy_append, ih]
    cases firstLeastBy (fun x => cost (answer x)) l with
    | none => rfl
    | some best =>
      simp only [Option.map_some, List.map_cons, List.map_nil, List.foldl_cons, List.foldl_nil,
        lesserBy]
      split <;> rfl

/-- An entry that costs strictly less than every one before it, and no more than any after it. -/
def Leads (cost : α → Float) (l : List α) (x : α) : Prop :=
  ∃ before after, l = before ++ x :: after ∧ (∀ y ∈ before, cost x < cost y) ∧
    ∀ y ∈ after, ¬cost y < cost x

theorem foldl_lesserBy_of_least (h : ∀ y ∈ l, ¬cost y < cost x) :
    l.foldl (lesserBy cost) (some x) = some x := by
  induction l with
  | nil => rfl
  | cons y l ih =>
    have hkept : lesserBy cost (some x) y = some x := if_neg (h y List.mem_cons_self)
    rw [List.foldl_cons, hkept]
    exact ih fun z hz => h z (List.mem_cons_of_mem _ hz)

/-- The choice finds the entry that leads, whatever the other costs are. -/
theorem Leads.firstLeastBy_eq (h : Leads cost l x) : firstLeastBy cost l = some x := by
  obtain ⟨before, after, rfl, hbefore, hafter⟩ := h
  have htaken : lesserBy cost (firstLeastBy cost before) x = some x := by
    cases hbest : firstLeastBy cost before with
    | none => rfl
    | some best => exact if_pos (hbefore best (firstLeastBy_mem hbest))
  rw [firstLeastBy_append, List.foldl_cons, htaken]
  exact foldl_lesserBy_of_least hafter

/-- Some entry leads if every cost is a number. -/
theorem exists_leads (hnumber : ∀ y ∈ l, (cost y).isNaN = false) (hne : l ≠ []) :
    ∃ x, Leads cost l x := by
  induction l using List.reverseRecOn with
  | nil => exact absurd rfl hne
  | append_singleton l last ih =>
    by_cases hempty : l = []
    · subst hempty
      exact ⟨last, [], [], rfl, by simp, by simp⟩
    · obtain ⟨x, before, after, rfl, hbefore, hafter⟩ :=
        ih (fun y hy => hnumber y (List.mem_append_left _ hy)) hempty
      by_cases hless : cost last < cost x
      · -- nothing before the last entry costs less than the one that led so far
        refine ⟨last, before ++ x :: after, [], rfl, fun y hy => ?_, by simp⟩
        rcases List.mem_append.1 hy with hy | hy
        · exact Binary64.lt_trans hless (hbefore y hy)
        · rcases List.mem_cons.1 hy with rfl | hy
          · exact hless
          · have hx := (Binary64.number_of_lt hless).2
            have hlast := (Binary64.number_of_lt hless).1
            have hy' : (cost y).isNaN = false := hnumber y (by simp [hy])
            have hnotless := hafter y hy
            rw [Binary64.lt_iff hy' hx] at hnotless
            rw [Binary64.lt_iff hlast hx] at hless
            rw [Binary64.lt_iff hlast hy']
            omega
      · refine ⟨x, before, after ++ [last], by simp, hbefore, fun y hy => ?_⟩
        rcases List.mem_append.1 hy with hy | hy
        · exact hafter y hy
        · rw [List.mem_singleton.1 hy]
          exact hless

theorem firstLeastBy_eq_none_iff : firstLeastBy cost l = none ↔ l = [] := by
  constructor
  · intro h
    induction l using List.reverseRecOn with
    | nil => rfl
    | append_singleton l last =>
      rw [firstLeastBy_append] at h
      cases hbest : firstLeastBy cost l with
      | none =>
        rw [hbest] at h
        cases h
      | some best =>
        simp only [hbest, List.foldl_cons, List.foldl_nil, lesserBy] at h
        split at h <;> cases h
  · rintro rfl
    rfl

end FirstLeast

/-- A choice among candidates, some of which are discarded: it answers for the first of those of
least cost that are kept. -/
structure KeepsFirst {α β : Type} (discarded : α → Prop) (cost : α → Float) (answer : α → β)
    (choose : List α → Option β) : Prop where
  none_iff : ∀ l, choose l = none ↔ ∀ x ∈ l, discarded x
  /-- A candidate is chosen if some are kept and what those cost are numbers. -/
  first : ∀ l, ¬(∀ x ∈ l, discarded x) → (∀ x ∈ l, ¬discarded x → (cost x).isNaN = false) →
    ∃ before x after, l = before ++ x :: after ∧ choose l = some (answer x) ∧ ¬discarded x ∧
      (∀ y ∈ l, ¬discarded y → ¬cost y < cost x) ∧ ∀ y ∈ before, ¬discarded y → cost x < cost y
  /-- Discarded candidates do not count, wherever they stand. -/
  insert : ∀ before x after, discarded x → choose (before ++ x :: after) = choose (before ++ after)

section Choices

variable {α β : Type} {discarded : α → Prop} {cost : α → Float} {answer : α → β}

/-- The choice of the first least among the candidates that pass a test. -/
theorem keepsFirst_filter (kept : α → Bool) (hkept : ∀ x, kept x = true ↔ ¬discarded x)
    {choose : List α → Option β}
    (hchoose : ∀ l, choose l = (firstLeastBy cost (l.filter kept)).map answer) :
    KeepsFirst discarded cost answer choose where
  none_iff l := by
    rw [hchoose, Option.map_eq_none_iff, firstLeastBy_eq_none_iff, List.filter_eq_nil_iff]
    simp only [hkept, not_not]
  first l hsome hnumber := by
    have hne : l.filter kept ≠ [] := by
      rw [Ne, List.filter_eq_nil_iff]
      simpa only [hkept, not_not] using hsome
    have hnumbers : ∀ y ∈ l.filter kept, (cost y).isNaN = false := fun y hy =>
      hnumber y (List.mem_filter.1 hy).1 ((hkept y).1 (List.mem_filter.1 hy).2)
    obtain ⟨x, hleads⟩ := exists_leads hnumbers hne
    have hchosen : choose l = some (answer x) := by rw [hchoose, hleads.firstLeastBy_eq]; rfl
    obtain ⟨before, after, hsplit, hbefore, hafter⟩ := hleads
    -- the same split of all candidates, those that are discarded among them
    obtain ⟨head, rest, rfl, rfl, hrest⟩ := List.filter_eq_append_iff.1 hsplit
    obtain ⟨skipped, tail, rfl, hskipped, hx, rfl⟩ := List.filter_eq_cons_iff.1 hrest
    have hearlier (y : α) (hy : y ∈ head ++ skipped) (hmine : ¬discarded y) : cost x < cost y := by
      rcases List.mem_append.1 hy with hy | hy
      · exact hbefore y (List.mem_filter.2 ⟨hy, (hkept y).2 hmine⟩)
      · exact absurd ((hkept y).2 hmine) (hskipped y hy)
    refine ⟨head ++ skipped, x, tail, by simp, hchosen, (hkept x).1 hx, fun y hy hmine => ?_,
      hearlier⟩
    rw [← List.append_assoc] at hy
    rcases List.mem_append.1 hy with hy | hy
    · exact fun hless => Binary64.lt_irrefl _ (Binary64.lt_trans hless (hearlier y hy hmine))
    · rcases List.mem_cons.1 hy with rfl | hy
      · exact Binary64.lt_irrefl _
      · exact hafter y (List.mem_filter.2 ⟨hy, (hkept y).2 hmine⟩)
  insert before x after hx := by
    have hdropped : ¬kept x = true := fun h => (hkept x).1 h hx
    rw [hchoose, hchoose, List.filter_append, List.filter_cons_of_neg hdropped, List.filter_append]

end Choices

/-- The target is the first foe of least cost among those in the cone. -/
theorem Targeting.keepsFirst_select (t : Targeting) (requester : Pose) :
    KeepsFirst (fun foe : AgentId × Pose => offAngle requester foe.2 > t.coneHalfAngle)
      (fun foe => t.cost requester foe.2) (·.1) (t.select requester) := by
  refine keepsFirst_filter (fun foe => !t.outside requester foe.2) (fun foe => ?_) fun foes => ?_
  · simp [outside]
  · unfold select
    dsimp only
    rw [firstLeast_eq_firstLeastBy, firstLeastBy_map, Option.map_map]
    rfl

/-- The nearest agent is the first one at the least distance among those that are not excluded. -/
theorem keepsFirst_nearest (origin : Point) (exclude : AgentId) :
    KeepsFirst (fun c : AgentId × Point => c.1 = exclude) (fun c => origin.distance c.2)
      (fun c => (c.1, origin.distance c.2)) (nearest origin exclude) := by
  refine keepsFirst_filter (fun c => c.1 ≠ exclude) (fun c => ?_) fun candidates => ?_
  · exact decide_eq_true_iff
  · unfold nearest
    rw [firstLeast_eq_firstLeastBy, firstLeastBy_map]

/-- The choice of a target, and that of a nearest agent, keep the first strict minimum. There is no
answer exactly if every candidate is discarded: the foes at an angle beyond the cone, the excluded
agent. Otherwise, as long as the costs of the others are numbers, the answer is the first of them
that none undercuts. A discarded candidate never changes the answer. -/
theorem choices_keep_first_minimum :
    (∀ (t : Targeting) (requester : Pose),
      KeepsFirst (fun foe : AgentId × Pose =>
          (requester.bearing foe.2.position).abs > t.coneHalfAngle)
        (fun foe => t.cost requester foe.2) (·.1) (t.select requester)) ∧
    ∀ (origin : Point) (exclude : AgentId),
      KeepsFirst (fun c : AgentId × Point => c.1 = exclude) (fun c => origin.distance c.2)
        (fun c => (c.1, origin.distance c.2)) (nearest origin exclude) :=
  ⟨Targeting.keepsFirst_select, keepsFirst_nearest⟩

/-- Of two at one distance the first stays; the excluded one, at no distance, does not count. -/
example : nearest .origin ⟨9⟩ [(⟨9⟩, .origin), (⟨2⟩, ⟨3.0, 4.0⟩), (⟨1⟩, ⟨-4.0, 3.0⟩)] =
    some (⟨2⟩, 5.0) := by decide +kernel

end FlagCombat
