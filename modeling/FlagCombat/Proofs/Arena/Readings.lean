import FlagCombat.Proofs.Arena.Casting
import FlagCombat.Proofs.Battle.Exchange
import FlagCombat.Proofs.Binary64.Hypotenuse
import FlagCombat.Proofs.Campaign.Turn

/-!
What the sensors of an agent read. Every reading is a number from zero to one, wherever bodies and
sensors are: a ray reads a fraction of itself, and a radar sums closenesses none of which is below
zero, because a distance never is. A sum that is not a number is read as one. The readings go to the
head of the observation, each sensor to its slot.
-/

namespace FlagCombat

namespace Binary64

open Float.Model (Format UnpackedFloat)

variable {x y range radius : Float}

/-- A number from zero to one. -/
structure InUnit (x : Float) : Prop where
  number : x.isNaN = false
  low : 0.0 ≤ x
  high : x ≤ 1.0

/-- A number that is not negative is finite or the positive infinity. -/
theorem IsNonneg.cases (h : IsNonneg x) :
    x.isFinite = true ∨ x.toModel.unpack = .infinity .positive := by
  obtain ⟨hnumber, hnonneg⟩ := h
  rw [isNaN_eq] at hnumber
  unfold value at hnonneg
  show x.toModel.unpack.isFinite = true ∨ _
  cases hunpack : x.toModel.unpack with
  | notANumber =>
    rw [hunpack] at hnumber
    cases hnumber
  | zero | finite => exact .inl rfl
  | infinity s =>
    cases s with
    | positive => exact .inr rfl
    | negative =>
      rw [hunpack] at hnonneg
      change 0 ≤ unit .negative * power 1024 at hnonneg
      rw [unit_negative, neg_one_mul, neg_nonneg] at hnonneg
      exact absurd hnonneg (power_pos _).not_ge

theorem NeverNegative.add (hx : NeverNegative x) (hy : NeverNegative y) :
    NeverNegative (x + y) := by
  obtain hx | hx := hx
  · exact .inl (nan_add hx y)
  obtain hy | hy := hy
  · exact .inl (add_nan x hy)
  right
  have hinfinity : UnpackedFloat.unpack Format.binary64
      (UnpackedFloat.pack Format.binary64 (.infinity .positive)) = .infinity .positive :=
    unpack_pack (f := .infinity .positive) trivial
  have hsum (h : UnpackedFloat.add Format.binary64 x.toModel.unpack y.toModel.unpack =
      .infinity .positive) : IsNonneg (x + y) :=
    isNonneg_of_infinity ((congrArg (fun f => UnpackedFloat.unpack Format.binary64
      (UnpackedFloat.pack Format.binary64 f)) h).trans hinfinity)
  obtain hfinite | hunpack := hx.cases
  · obtain hfinite' | hunpack' := hy.cases
    · exact (rounds_add hfinite hfinite').isNonneg (add_nonneg hx.nonneg hy.nonneg)
    · apply hsum
      rw [hunpack']
      obtain ⟨s, hunpack⟩ | ⟨s, m, e, hm, hunpack⟩ := finite_cases hfinite <;> rw [hunpack] <;> rfl
  · apply hsum
    rw [hunpack]
    obtain hfinite' | hunpack' := hy.cases
    · obtain ⟨s, hunpack'⟩ | ⟨s, m, e, hm, hunpack'⟩ := finite_cases hfinite' <;>
        rw [hunpack'] <;> rfl
    · rw [hunpack']
      rfl

/-- A finite number relative to a finite one that is no smaller is at most one, or not a number if
both are zero. -/
theorem div_cases (hx : x.isFinite = true) (hy : y.isFinite = true) (hx0 : 0 ≤ value x)
    (hle : value x ≤ value y) :
    (x / y).isNaN = true ∨ (x / y).isFinite = true ∧ value (x / y) ≤ 1 := by
  obtain hzero | hpos := (hx0.trans hle).eq_or_lt
  · left
    obtain ⟨s, hunpack⟩ := exists_zero hx (placeOf_eq_zero hx (by linarith))
    obtain ⟨s', hunpack'⟩ := exists_zero hy (placeOf_eq_zero hy hzero.symm)
    apply isNaN_of_unpacked
    show UnpackedFloat.div _ x.toModel.unpack y.toModel.unpack = _
    rw [hunpack, hunpack']
    rfl
  · right
    have hquotient := rounds_div hx (isProper_of_value hy hpos.ne')
    have hone : Representable 1 := by
      rw [← value_one]
      exact representable_value finite_one
    have hquotient1 : value x / value y ≤ 1 := (div_le_one hpos).2 hle
    have hquotient0 : 0 ≤ value x / value y := div_nonneg hx0 hpos.le
    exact ⟨hquotient.isFinite hone (by rwa [abs_of_nonneg hquotient0]),
      hquotient.le_of_le hone hquotient1⟩

/-- A number relative to an infinite one is zero, or not a number. -/
theorem div_infinite_cases {s : Float.Model.UnpackedFloat.Sign} (hx : IsNonneg x)
    (hy : y.toModel.unpack = .infinity s) :
    (x / y).isNaN = true ∨ (x / y).isFinite = true ∧ value (x / y) ≤ 1 := by
  obtain hfinite | hunpack := hx.cases
  · right
    have hzero : ∃ s, UnpackedFloat.div Format.binary64 x.toModel.unpack y.toModel.unpack =
        .zero s := by
      rw [hy]
      obtain ⟨s, hunpack⟩ | ⟨s, m, e, hm, hunpack⟩ := finite_cases hfinite <;> rw [hunpack] <;>
        exact ⟨_, rfl⟩
    obtain ⟨s, hzero⟩ := hzero
    have hunpack : (x / y).toModel.unpack = .zero s :=
      (congrArg (fun f => UnpackedFloat.unpack Format.binary64
        (UnpackedFloat.pack Format.binary64 f)) hzero).trans (unpack_pack (f := .zero s) trivial)
    unfold value
    show (x / y).toModel.unpack.isFinite = true ∧ _
    rw [hunpack]
    exact ⟨rfl, zero_le_one⟩
  · left
    apply isNaN_of_unpacked
    show UnpackedFloat.div _ x.toModel.unpack y.toModel.unpack = _
    rw [hunpack, hy]
    rfl

/-- What is left of one is never negative, if a range is taken relative to a radius that it does not
exceed; the radius may be zero or infinite. -/
theorem neverNegative_closeness (hrange : NeverNegative range) (hle : range ≤ radius) :
    NeverNegative (1.0 - range / radius) := by
  obtain ⟨hnumber, hnumber'⟩ := number_of_le hle
  obtain hnan | hnonneg := hrange
  · rw [hnumber] at hnan
    cases hnan
  have hquotient : (range / radius).isNaN = true ∨
      (range / radius).isFinite = true ∧ value (range / radius) ≤ 1 := by
    cases hfinite : radius.isFinite with
    | true =>
      have hplace := (le_iff hnumber hnumber').1 hle
      have hlow := zero_le_of_value hnumber hnonneg.nonneg
      have hhigh := natAbs_placeOf_lt hfinite
      rw [zero_le_iff hnumber] at hlow
      have hfinite' := isFinite_of_place hnumber (by omega) (by omega)
      exact div_cases hfinite' hfinite hnonneg.nonneg (value_le_value hfinite' hfinite hle)
    | false =>
      rw [isNaN_eq] at hnumber'
      change radius.toModel.unpack.isFinite = false at hfinite
      cases hunpack : radius.toModel.unpack with
      | infinity s => exact div_infinite_cases hnonneg hunpack
      | notANumber =>
        rw [hunpack] at hnumber'
        cases hnumber'
      | zero | finite =>
        rw [hunpack] at hfinite
        cases hfinite
  refine hquotient.imp (sub_nan 1.0) fun ⟨hfinite, hone⟩ => ?_
  refine (rounds_sub finite_one hfinite).isNonneg ?_
  rw [value_one]
  exact sub_nonneg.2 hone

/-- A sum that is never negative is cut to a number from zero to one. -/
theorem inUnit_minNumber (h : NeverNegative x) : InUnit (minNumber x 1.0) := by
  have hone : (1.0 : Float).isNaN = false ∧ (0.0 : Float) ≤ 1.0 ∧ (1.0 : Float) ≤ 1.0 := by
    decide +kernel
  unfold minNumber
  obtain hnan | hnonneg := h
  · rw [if_pos hnan]
    exact ⟨hone.1, hone.2.1, hone.2.2⟩
  · rw [hnonneg.number, if_neg Bool.false_ne_true]
    by_cases hlt : 1.0 < x
    · rw [if_pos hlt]
      exact ⟨hone.1, hone.2.1, hone.2.2⟩
    · rw [if_neg hlt]
      refine ⟨hnonneg.number, zero_le_of_value hnonneg.number hnonneg.nonneg, ?_⟩
      rw [lt_iff hone.1 hnonneg.number] at hlt
      rw [le_iff hnonneg.number hone.1]
      omega

end Binary64

open Binary64

namespace Arena

variable (a : Arena)

theorem inUnit_rayReading (pose : Pose) (angle radius : Float) (mask : Mask) :
    InUnit (a.rayReading pose angle radius mask) := by
  unfold rayReading
  dsimp only
  cases hhits : a.cast pose.position _ mask with
  | nil => exact ⟨by decide +kernel, by decide +kernel, by decide +kernel⟩
  | cons c hits =>
    have hc := List.mem_cons_self (a := c) (l := hits)
    rw [← hhits] at hc
    obtain ⟨hlow, hhigh⟩ := (casts_cast a pose.position _ mask).within c hc
    exact ⟨(number_of_le hlow).2, hlow, hhigh⟩

theorem inUnit_radarReading (owner : AgentId) (pose : Pose) (left right radius : Float)
    (mask : Mask) : InUnit (a.radarReading owner pose left right radius mask) := by
  unfold radarReading
  dsimp only
  apply inUnit_minNumber
  generalize a.radarPoints owner mask = points
  have hstart : NeverNegative 0.0 := .inr ⟨by decide +kernel, le_rfl⟩
  generalize (0.0 : Float) = sum at hstart ⊢
  -- The sum so far is never negative, and a point in the sector adds what is never negative.
  induction points generalizing sum with
  | nil => exact hstart
  | cons point points ih =>
    rw [List.foldl_cons]
    apply ih
    split
    · rename_i hshown
      obtain ⟨hle, -⟩ := Bool.and_eq_true_iff.1 hshown
      exact hstart.add (neverNegative_closeness (neverNegative_hypotenuse _ _)
        (of_decide_eq_true hle))
    · exact hstart

/-- Every sensor reads a number from zero to one. -/
theorem inUnit_reading (owner : AgentId) (pose : Pose) (s : Sensor) :
    InUnit (a.reading owner pose s) := by
  cases s with
  | ray angle radius mask => exact a.inUnit_rayReading pose angle radius mask
  | radar left right bottom top radius mask =>
    exact a.inUnit_radarReading owner pose left right radius mask

/-- The arena with other sensors attached to its bodies. -/
def attach (attached : AgentId → List Sensor) : Arena :=
  { a with bodies := a.bodies.mapValues fun id body => { body with sensors := attached id } }

/-- What a sensor reads does not depend on the sensors that are attached, itself included. -/
theorem reading_attach (attached : AgentId → List Sensor) (owner : AgentId) (pose : Pose)
    (s : Sensor) : (a.attach attached).reading owner pose s = a.reading owner pose s := by
  have hentries : (a.attach attached).bodies.entries =
      a.bodies.entries.map fun e => (e.1, { e.2 with sensors := attached e.1 }) := rfl
  cases s with
  | ray angle radius mask =>
    have hcrossings (start finish : Point) :
        (a.attach attached).crossings start finish mask = a.crossings start finish mask := by
      unfold crossings
      rw [hentries, List.filterMap_map]
      rfl
    show (a.attach attached).rayReading pose angle radius mask = _
    unfold rayReading cast
    simp only [hcrossings]
    rfl
  | radar left right bottom top radius mask =>
    have hpoints : (a.attach attached).radarPoints owner mask = a.radarPoints owner mask := by
      unfold radarPoints
      rw [hentries, List.filterMap_map]
      rfl
    show (a.attach attached).radarReading owner pose left right radius mask = _
    unfold radarReading
    rw [hpoints]
    rfl

theorem getElem?_overwriteHead (values rest : List Float) (i : Nat) :
    (overwriteHead values rest)[i]? =
      if i < min rest.length values.length then values[i]? else rest[i]? := by
  induction values generalizing rest i with
  | nil => cases rest <;> simp [overwriteHead]
  | cons value values ih =>
    cases rest with
    | nil => simp [overwriteHead]
    | cons first rest =>
      cases i with
      | zero => simp [overwriteHead]
      | succ i => simpa [overwriteHead] using ih rest i

/-- What the sensors of a body make of an observation. -/
structure Senses (agent : AgentId) (body : Body) (before after : List Float) : Prop where
  length : after.length = before.length
  /-- The head has the reading of each sensor, a number from zero to one, which is the same
  whichever sensors are attached besides. -/
  head : ∀ i < min before.length body.sensors.length, ∃ s, body.sensors[i]? = some s ∧
    after[i]? = some (a.reading agent body.pose s) ∧ InUnit (a.reading agent body.pose s) ∧
      ∀ attached, (a.attach attached).reading agent body.pose s = a.reading agent body.pose s
  rest : ∀ i, min before.length body.sensors.length ≤ i → after[i]? = before[i]?

/-- An unknown agent leaves the observation as it is; the sensors of a body write its head, in their
order, with numbers from zero to one. -/
theorem sensed_in_unit (agent : AgentId) (observations : List Float) :
    match a.bodies.get? agent with
    | none => a.senseChannels agent observations = observations
    | some body => a.Senses agent body observations (a.senseChannels agent observations) := by
  cases hbody : a.bodies.get? agent with
  | none =>
    show a.senseChannels agent observations = observations
    unfold senseChannels
    rw [hbody]
  | some body =>
    have hslot (i : Nat) : (a.senseChannels agent observations)[i]? =
        if i < min observations.length body.sensors.length then
          body.sensors[i]?.map (a.reading agent body.pose)
        else observations[i]? := by
      unfold senseChannels
      rw [hbody]
      dsimp only
      rw [getElem?_overwriteHead, List.length_map, List.length_take, ← Nat.min_assoc, Nat.min_self]
      refine if_ctx_congr Iff.rfl (fun hi => ?_) fun _ => rfl
      rw [List.getElem?_map, List.getElem?_take_of_lt (by omega)]
    refine ⟨a.length_senseChannels agent observations, fun i hi => ?_, fun i hi => ?_⟩
    · obtain ⟨s, hs⟩ : ∃ s, body.sensors[i]? = some s :=
        ⟨_, List.getElem?_eq_getElem (show i < body.sensors.length by omega)⟩
      refine ⟨s, hs, ?_, a.inUnit_reading agent body.pose s,
        fun attached => a.reading_attach attached agent body.pose s⟩
      rw [hslot, if_pos hi, hs, Option.map_some]
    · rw [hslot, if_neg (Nat.not_lt.2 hi)]

end Arena

end FlagCombat
