import FlagCombat.Arena.Basic
import FlagCombat.Proofs.Selection
import FlagCombat.Proofs.Binary64.Undefined
import Mathlib.Data.List.Nodup

/-!
What a ray meets. An arena has four walls, of which a ray meets at most the nearest one, and solids:
the obstacles, the flag and the bodies. A cast returns what the mask selects of what the ray meets,
each once, by ascending fraction, and in the order of walls, obstacles, flag and bodies where
fractions are equal. A ray meets no solid that it starts in, and so never the body at its start.
-/

namespace FlagCombat

open Binary64

namespace Disc

variable {d : Disc} {start finish : Point}

theorem entry?_range {t : Float} (h : d.entry? start finish = some t) : 0.0 ≤ t ∧ t ≤ 1.0 := by
  unfold entry? at h
  dsimp only at h
  split at h
  · cases h
  · split at h
    · rename_i hrange
      cases h
      simpa using hrange
    · cases h

/-- A ray does not enter a disc that it starts in. -/
theorem entry?_of_contains (h : d.contains start = true) (finish : Point) :
    d.entry? start finish = none := by
  unfold entry?
  dsimp only
  rw [h, Bool.or_true, if_pos rfl]

/-- A ray does not enter a disc from the center, wherever that is: if a coordinate is infinite or
not a number, neither is the fraction. -/
theorem entry?_of_center {radius : Float} (h : 0.0 ≤ radius) (p finish : Point) :
    entry? ⟨p, radius⟩ p finish = none := by
  have hnan (hcoordinate : (p.x - p.x).isNaN = true ∨ (p.y - p.y).isNaN = true) :
      entry? ⟨p, radius⟩ p finish = none := by
    have hb : (2.0 * fusedMulAdd (p.x - p.x) (finish.x - p.x)
        ((p.y - p.y) * (finish.y - p.y))).isNaN = true := by
      apply mul_nan
      rcases hcoordinate with hx | hy
      · exact nan_fusedMulAdd hx _ _
      · exact fusedMulAdd_nan _ _ (nan_mul hy _)
    unfold entry?
    dsimp only
    split
    · rfl
    · rw [if_neg]
      rw [Bool.and_eq_true, decide_eq_true_eq]
      intro hrange
      exact not_le_nan (nan_div (nan_sub ((isNaN_neg _).trans hb) _) _) hrange.1
  rcases sub_self_cases p.x with hx | hx
  · rcases sub_self_cases p.y with hy | hy
    · apply entry?_of_contains
      have hdistance : hypotenuse 0.0 0.0 = 0.0 := by decide +kernel
      unfold contains Point.distance
      rw [hx, hy, hdistance]
      exact decide_eq_true h
    · exact hnan (.inr hy)
  · exact hnan (.inl hx)

end Disc

namespace Arena

variable {a : Arena} {start finish : Point} {mask : Mask}

/-- Something round in an arena: what a mask must have for a ray to meet it, where it is, and what a
ray that meets it reports. -/
structure Solid where
  kind : Mask
  disc : Disc
  name : Strike

/-- What a ray reports of a solid. -/
def Solid.struck? (s : Solid) (start finish : Point) (mask : Mask) : Option Crossing :=
  if mask.intersects s.kind then (s.disc.entry? start finish).map (⟨·, s.name⟩) else none

theorem Solid.struck?_eq_some_iff {s : Solid} {c : Crossing} :
    s.struck? start finish mask = some c ↔
      mask.intersects s.kind = true ∧ s.disc.entry? start finish = some c.fraction ∧
        c.strike = s.name := by
  obtain ⟨fraction, strike⟩ := c
  unfold struck?
  split
  · rename_i hkind
    simp only [Option.map_eq_some_iff, hkind, true_and, Crossing.mk.injEq]
    constructor
    · rintro ⟨t, ht, rfl, rfl⟩
      exact ⟨ht, rfl⟩
    · rintro ⟨ht, rfl⟩
      exact ⟨fraction, ht, rfl, rfl⟩
  · rename_i hkind
    simp [hkind]

section Walls

theorem lineCrossing?_range {near far line t : Float} (h : lineCrossing? near far line = some t) :
    0.0 < t ∧ t ≤ 1.0 := by
  unfold lineCrossing? at h
  dsimp only at h
  split at h
  · cases h
  · split at h
    · rename_i hrange
      cases h
      simpa using hrange
    · cases h

/-- What a ray meets of the lines of the four walls, in the order of their numbers. -/
def wallCrossings (a : Arena) (start finish : Point) : List Crossing :=
  [((0 : UInt32), lineCrossing? start.x finish.x 0.0),
    (1, lineCrossing? start.x finish.x a.width),
    (2, lineCrossing? start.y finish.y 0.0),
    (3, lineCrossing? start.y finish.y a.height)].filterMap
      fun (wall, crossing) => crossing.map (⟨·, .object ⟨wall⟩⟩)

theorem wallEntry?_eq (a : Arena) (start finish : Point) :
    a.wallEntry? start finish = firstLeastBy (·.fraction) (a.wallCrossings start finish) := by
  unfold wallEntry? wallCrossings firstLeastBy
  rw [List.foldl_filterMap]
  dsimp only
  congr 1
  funext nearest ⟨wall, crossing⟩
  cases nearest <;> cases crossing <;> rfl

theorem wallCrossings_range {c : Crossing} (h : c ∈ a.wallCrossings start finish) :
    0.0 < c.fraction ∧ c.fraction ≤ 1.0 := by
  obtain ⟨⟨wall, crossing⟩, hwall, hcrossing⟩ := List.mem_filterMap.1 h
  obtain ⟨t, rfl, rfl⟩ := Option.map_eq_some_iff.1 hcrossing
  simp only [List.mem_cons, List.not_mem_nil, or_false, Prod.mk.injEq] at hwall
  rcases hwall with ⟨-, h⟩ | ⟨-, h⟩ | ⟨-, h⟩ | ⟨-, h⟩ <;> exact lineCrossing?_range h.symm

/-- The wall that a ray meets is the first one of least fraction. -/
theorem wallEntry?_eq_some_iff {c : Crossing} :
    a.wallEntry? start finish = some c ↔ Leads (·.fraction) (a.wallCrossings start finish) c := by
  rw [wallEntry?_eq]
  refine ⟨fun hfirst => ?_, Leads.firstLeastBy_eq⟩
  have hne : a.wallCrossings start finish ≠ [] := fun hnil => by
    rw [firstLeastBy_eq_none_iff.2 hnil] at hfirst
    cases hfirst
  obtain ⟨x, hx⟩ := exists_leads (fun y hy => (number_of_le (wallCrossings_range hy).2).1) hne
  rw [hx.firstLeastBy_eq] at hfirst
  cases hfirst
  exact hx

end Walls

/-- The solids of an arena: the obstacles as configured, the flag, and the bodies by id. -/
def solids (a : Arena) : List Solid :=
  a.obstacles.map (fun (id, disc) => ⟨.obstacle, disc, .object id⟩) ++
    [⟨.flag, a.flag, .object flagObject⟩] ++
    a.bodies.entries.map fun (id, body) => ⟨.team body.team, body.disc, .agent id⟩

/-- What a ray meets, in no order of distance. -/
def met (a : Arena) (start finish : Point) (mask : Mask) : List Crossing :=
  (if mask.intersects .obstacle then (a.wallEntry? start finish).toList else []) ++
    a.solids.filterMap (·.struck? start finish mask)

theorem crossings_eq (a : Arena) (start finish : Point) (mask : Mask) :
    a.crossings start finish mask = a.met start finish mask := by
  let obstacle : ObjectId × Disc → Solid := fun (id, disc) => ⟨.obstacle, disc, .object id⟩
  have hobstacles : (if mask.intersects .obstacle then
      a.obstacles.filterMap fun (id, disc) => (disc.entry? start finish).map (⟨·, .object id⟩)
      else []) = (a.obstacles.map obstacle).filterMap (·.struck? start finish mask) := by
    rw [List.filterMap_map]
    unfold Solid.struck? Function.comp
    dsimp only
    split
    · rfl
    · exact (List.filterMap_eq_nil_iff.2 fun _ _ => rfl).symm
  let flag : Solid := ⟨.flag, a.flag, .object flagObject⟩
  have hflag : (if mask.intersects .flag then
      ((a.flag.entry? start finish).map (⟨·, .object flagObject⟩)).toList else []) =
        [flag].filterMap (·.struck? start finish mask) := by
    unfold Solid.struck?
    dsimp only [List.filterMap]
    split
    · cases a.flag.entry? start finish <;> rfl
    · rfl
  unfold crossings met solids
  rw [List.filterMap_append, List.filterMap_append, ← hobstacles, ← hflag, List.filterMap_map,
    ← List.append_assoc, ← List.append_assoc]
  rfl

theorem mem_met_iff {c : Crossing} : c ∈ a.met start finish mask ↔
    (mask.intersects .obstacle = true ∧ a.wallEntry? start finish = some c) ∨
      ∃ s ∈ a.solids, s.struck? start finish mask = some c := by
  unfold met
  rw [List.mem_append, List.mem_filterMap]
  refine or_congr_left ?_
  split <;> simp [*]

section Sorted

private theorem nearer_trans (c d e : Crossing)
    (h : decide (rank c.fraction ≤ rank d.fraction) = true)
    (h' : decide (rank d.fraction ≤ rank e.fraction) = true) :
    decide (rank c.fraction ≤ rank e.fraction) = true := by
  rw [decide_eq_true_eq] at *
  omega

private theorem nearer_total (c d : Crossing) : (decide (rank c.fraction ≤ rank d.fraction) ||
    decide (rank d.fraction ≤ rank c.fraction)) = true := by
  rw [Bool.or_eq_true, decide_eq_true_eq, decide_eq_true_eq]
  omega

theorem cast_perm (a : Arena) (start finish : Point) (mask : Mask) :
    (a.cast start finish mask).Perm (a.met start finish mask) := by
  rw [← crossings_eq]
  exact List.mergeSort_perm _ _

theorem pairwise_cast (a : Arena) (start finish : Point) (mask : Mask) :
    (a.cast start finish mask).Pairwise fun c d => rank c.fraction ≤ rank d.fraction :=
  (List.pairwise_mergeSort nearer_trans nearer_total _).imp fun h => of_decide_eq_true h

/-- A list of all that is met, by strictly ascending fraction, is what a cast returns. -/
theorem cast_of_perm {hits : List Crossing} (hperm : hits.Perm (a.crossings start finish mask))
    (hsorted : hits.Pairwise fun c d => rank c.fraction < rank d.fraction) :
    a.cast start finish mask = hits := by
  have hcast : (a.cast start finish mask).Perm hits :=
    (a.cast_perm start finish mask).trans (a.crossings_eq start finish mask ▸ hperm.symm)
  have hranks : (hits.map fun c => rank c.fraction).Nodup :=
    List.pairwise_map.2 (hsorted.imp Int.ne_of_lt)
  refine List.Perm.eq_of_pairwise (fun c d hc hd hle hge => ?_) (a.pairwise_cast start finish mask)
    (hsorted.imp Int.le_of_lt) hcast
  exact List.inj_on_of_nodup_map hranks (hcast.mem_iff.1 hc) hd (Int.le_antisymm hle hge)

theorem rayCast_of_perm {hits : List Crossing}
    (hperm : hits.Perm (a.crossings start finish mask))
    (hsorted : hits.Pairwise fun c d => rank c.fraction < rank d.fraction) :
    (Host.rayCast a start finish mask).1 = hits.map Crossing.strike :=
  congrArg (List.map Crossing.strike) (cast_of_perm hperm hsorted)

/-- Crossings of one rank keep their order: as they stand they are sorted, so the sort leaves them
as they stand, and it adds no others. -/
theorem filter_cast (a : Arena) (start finish : Point) (mask : Mask) (place : Int) :
    (a.cast start finish mask).filter (fun c => rank c.fraction = place) =
      (a.met start finish mask).filter fun c => rank c.fraction = place := by
  have hsorted : ((a.met start finish mask).filter fun c => rank c.fraction = place).Pairwise
      fun c d => decide (rank c.fraction ≤ rank d.fraction) = true := by
    rw [List.pairwise_iff_forall_sublist]
    intro c d hpair
    have hc := hpair.subset List.mem_cons_self
    have hd := hpair.subset (List.mem_cons_of_mem _ List.mem_cons_self)
    rw [List.mem_filter, decide_eq_true_eq] at hc hd
    exact decide_eq_true (Int.le_of_eq (hc.2.trans hd.2.symm))
  have hkept : ((a.met start finish mask).filter fun c => rank c.fraction = place).Sublist
      ((a.cast start finish mask).filter fun c => rank c.fraction = place) := by
    have hsub := List.Sublist.filter (fun c : Crossing => decide (rank c.fraction = place))
      (List.sublist_mergeSort nearer_trans nearer_total hsorted List.filter_sublist)
    rw [List.filter_filter] at hsub
    simp only [Bool.and_self, ← crossings_eq] at hsub ⊢
    exact hsub
  exact (hkept.eq_of_length ((cast_perm a start finish mask).filter _).length_eq.symm).symm

end Sorted

/-- What a cast of a ray returns. -/
structure Casts (a : Arena) (start finish : Point) (mask : Mask) (hits : List Crossing) : Prop where
  sorted : hits.Pairwise fun c d => rank c.fraction ≤ rank d.fraction
  /-- All that is met is returned once, and nothing else is. -/
  complete : hits.Perm (a.met start finish mask)
  /-- Equal fractions are in the order of wall, obstacles, flag and bodies. -/
  stable : ∀ place, hits.filter (fun c => rank c.fraction = place) =
    (a.met start finish mask).filter fun c => rank c.fraction = place
  within : ∀ c ∈ hits, 0.0 ≤ c.fraction ∧ c.fraction ≤ 1.0
  /-- A hit is the nearest wall, or a solid that the mask selects, that the ray enters, and that it
  does not start in. -/
  source : ∀ c, c ∈ hits ↔
    (mask.intersects .obstacle = true ∧ Leads (·.fraction) (a.wallCrossings start finish) c) ∨
      ∃ s ∈ a.solids, mask.intersects s.kind = true ∧ s.disc.contains start = false ∧
        s.disc.entry? start finish = some c.fraction ∧ c.strike = s.name

theorem casts_cast (a : Arena) (start finish : Point) (mask : Mask) :
    a.Casts start finish mask (a.cast start finish mask) where
  sorted := pairwise_cast a start finish mask
  complete := cast_perm a start finish mask
  stable := filter_cast a start finish mask
  within c hc := by
    rw [(cast_perm a start finish mask).mem_iff, mem_met_iff] at hc
    rcases hc with ⟨-, hwall⟩ | ⟨s, -, hstruck⟩
    · rw [wallEntry?_eq] at hwall
      obtain ⟨hpos, hle⟩ := wallCrossings_range (firstLeastBy_mem hwall)
      exact ⟨Binary64.le_of_lt hpos, hle⟩
    · exact Disc.entry?_range (Solid.struck?_eq_some_iff.1 hstruck).2.1
  source c := by
    rw [(cast_perm a start finish mask).mem_iff, mem_met_iff, wallEntry?_eq_some_iff]
    refine or_congr_right (exists_congr fun s => and_congr_right fun _ => ?_)
    rw [Solid.struck?_eq_some_iff]
    refine and_congr_right fun _ => ⟨fun h => ⟨?_, h⟩, And.right⟩
    rw [Bool.eq_false_iff]
    intro hcontains
    rw [Disc.entry?_of_contains hcontains] at h
    cases h.1

/-- The solids that are agents are their bodies. -/
theorem body_of_solid {s : Solid} {agent : AgentId} (hs : s ∈ a.solids)
    (hname : s.name = .agent agent) :
    ∃ body, a.bodies.get? agent = some body ∧ s.disc = body.disc := by
  unfold solids at hs
  simp only [List.mem_append, List.mem_map, List.mem_singleton] at hs
  rcases hs with (⟨_, -, rfl⟩ | rfl) | ⟨⟨id, body⟩, hbody, rfl⟩
  · cases hname
  · cases hname
  · cases hname
    exact ⟨body, (IdMap.mem_entries_iff _).1 hbody, rfl⟩

/-- A ray that starts at the center of a body does not strike it. -/
theorem not_mem_rayCast {agent : AgentId} {pose : Pose}
    (hshown : Host.transform a agent = some pose) (finish : Point) (mask : Mask) :
    .agent agent ∉ (Host.rayCast a pose.position finish mask).1 := by
  intro hstruck
  obtain ⟨c, hc, hname⟩ := List.mem_map.1 hstruck
  rcases ((casts_cast a pose.position finish mask).source c).1 hc with ⟨-, hwall⟩ |
    ⟨s, hs, -, -, hentry, hstrike⟩
  · obtain ⟨before, after, hsplit, -⟩ := hwall
    have hmem : c ∈ a.wallCrossings pose.position finish := by simp [hsplit]
    obtain ⟨⟨wall, crossing⟩, -, hcrossing⟩ := List.mem_filterMap.1 hmem
    obtain ⟨t, -, rfl⟩ := Option.map_eq_some_iff.1 hcrossing
    cases hname
  · obtain ⟨body, hbody, hdisc⟩ := body_of_solid hs (hstrike.symm.trans hname)
    obtain ⟨_, hbody', rfl⟩ := Option.map_eq_some_iff.1 hshown
    rw [hbody] at hbody'
    cases hbody'
    rw [hdisc] at hentry
    unfold Body.disc at hentry
    rw [Disc.entry?_of_center (by decide +kernel)] at hentry
    cases hentry

end Arena

end FlagCombat
