import FlagCombat.Document.Values
import FlagCombat.Proofs.Document.Records

/-!
The written forms of the values that cross the border of a battle are stable: ids, masks and teams,
the named cases, records of stable fields, and the two sums, what a ray strikes and a sensor, whose
case stands as the only field of a record.
-/

namespace FlagCombat

open Document FieldReader

section Schemes

variable {α β : Type} [Readable α] [Writable α] [HasFloats α]
variable [Readable β] [Writable β] [HasFloats β]

/-- A value that is written as what it wraps. -/
theorem Stable.of_wrapped {wrap : α → β} {inner : β → α} (h : Stable α)
    (hfloats : ∀ v : β, floats v = floats (inner v))
    (hencode : ∀ v : β, encode v = encode (inner v))
    (hdecode : ∀ d, (decode .json d : Option β) = (decode .json d).map wrap)
    (hwrap : ∀ v, wrap (inner v) = v) (hinner : ∀ v, inner (wrap v) = v) : Stable β := by
  refine .of_reads (fun v => ?json) (fun v hfinite => ?returns) fun d v hd hv => ?reads
  case json =>
    rw [hencode]
    exact h.json (inner v)
  case returns =>
    rw [AllFinite, hfloats] at hfinite
    rw [hencode, hdecode, h.comes_back hfinite, Option.map_some, hwrap]
  case reads =>
    rw [hdecode] at hv
    obtain ⟨a, ha, rfl⟩ := Option.map_eq_some_iff.1 hv
    rw [AllFinite, hfloats, hinner]
    exact h.reads hd ha

/-- A value that is written as the name of its case. -/
theorem Stable.of_named {name : α → String} {ofName? : String → Option α}
    (hfloats : ∀ v : α, floats v = []) (hencode : ∀ v : α, encode v = text (name v))
    (hdecode : ∀ d, (decode .json d : Option α) = (d.caseName? .json).bind ofName?)
    (hname : ∀ v, ofName? (name v) = some v) : Stable α := by
  refine .of_returns hfloats (fun v => ?json) fun v => ?returns
  case json =>
    rw [hencode]
    exact .text (name v)
  case returns =>
    rw [hencode, hdecode]
    exact hname v

end Schemes

instance : HasFloats AgentId := ⟨fun _ => []⟩
instance : HasFloats ObjectId := ⟨fun _ => []⟩
instance : HasFloats Mask := ⟨fun _ => []⟩
instance : HasFloats Team := ⟨fun _ => []⟩
instance : HasFloats Group := ⟨fun _ => []⟩
instance : HasFloats Dimension := ⟨fun _ => []⟩
instance : HasFloats Episode.Reason := ⟨fun _ => []⟩

theorem stable_agentId : Stable AgentId :=
  .of_wrapped stable_uint32 (fun _ => rfl) (fun _ => rfl) (fun _ => rfl) (fun _ => rfl) fun _ => rfl

theorem stable_objectId : Stable ObjectId :=
  .of_wrapped stable_uint32 (fun _ => rfl) (fun _ => rfl) (fun _ => rfl) (fun _ => rfl) fun _ => rfl

theorem stable_mask : Stable Mask :=
  .of_wrapped stable_uint32 (fun _ => rfl) (fun _ => rfl) (fun _ => rfl) (fun _ => rfl) fun _ => rfl

theorem stable_team : Stable Team := by
  refine .of_returns (fun _ => rfl) (fun t => ?json) fun t => ?returns
  case json => cases t <;> exact .integer (by decide) (by decide)
  case returns => cases t <;> rfl

theorem index_of_ofIndex? {n : Nat} {t : Team} (h : Team.ofIndex? n = some t) : n = t.index := by
  unfold Team.ofIndex? at h
  split at h <;> cases h <;> rfl

theorem decode_team {d : Document} (hd : d.IsJson) :
    (∃ t : Team, decode .json d = some t) ↔ d = .integer 0 ∨ d = .integer 1 := by
  constructor
  · rintro ⟨t, ht⟩
    obtain ⟨n, hn, hindex⟩ := Option.bind_eq_some_iff.1 ht
    cases hd with
    | @integer z _ _ =>
      simp only [nat?] at hn
      split at hn
      · rename_i hz
        cases hn
        have hz : z = t.index := by
          have htoNat := index_of_ofIndex? hindex
          omega
        cases t with
        | zero => exact .inl (congrArg integer hz)
        | one => exact .inr (congrArg integer hz)
      · cases hn
    | null | bool | real | text | list | record => cases hn
  · rintro (rfl | rfl)
    · exact ⟨.zero, rfl⟩
    · exact ⟨.one, rfl⟩

theorem stable_group : Stable Group :=
  .of_named (fun _ => rfl) (fun _ => rfl) (fun _ => rfl) fun g => by cases g <;> decide

theorem stable_dimension : Stable Dimension :=
  .of_named (fun _ => rfl) (fun _ => rfl) (fun _ => rfl) fun d => by cases d <;> decide

theorem stable_reason : Stable Episode.Reason :=
  .of_named (fun _ => rfl) (fun _ => rfl) (fun _ => rfl) fun r => by cases r <;> decide

instance : HasFloats Point := ⟨fun p => floats p.x ++ floats p.y⟩
instance : HasFloats Pose := ⟨fun p => floats p.x ++ (floats p.y ++ floats p.heading)⟩
instance : HasFloats Handle := ⟨fun _ => []⟩
instance : HasFloats View :=
  ⟨fun v => floats v.pose ++ floats v.previousPose⟩
instance : HasFloats Interval := ⟨fun b => floats b.low ++ floats b.high⟩
instance : HasFloats Shape := ⟨fun s => floats s.bounds⟩
instance : HasFloats Interface :=
  ⟨fun i => floats i.sensors ++ (floats i.actions ++ floats i.rewards)⟩

theorem stable_point : Stable Point := by
  refine .of_record ["x", "y"] (fun p => [encode p.x, encode p.y]) (fun _ => rfl) (fun _ => rfl)
    (by decide) (fun _ => rfl) (fun p => ?json) (fun p hfinite => ?returns) ?reads
  case json => simp [stable_float.json]
  case returns =>
    obtain ⟨hx, hy⟩ := List.forall_mem_append.1 hfinite
    simp [bind_apply, map_apply, required_cons, stable_float.comes_back hx,
      stable_float.comes_back hy]
  case reads =>
    refine .bind (.required stable_float) fun x hx => ?_
    refine .map (.required stable_float) fun y hy => ?_
    exact List.forall_mem_append.2 ⟨hx, hy⟩

theorem stable_pose : Stable Pose := by
  refine .of_record ["x", "y", "heading"] (fun p => [encode p.x, encode p.y, encode p.heading])
    (fun _ => rfl) (fun _ => rfl) (by decide) (fun _ => rfl) (fun p => ?json)
    (fun p hfinite => ?returns) ?reads
  case json => simp [stable_float.json]
  case returns =>
    obtain ⟨hx, hfinite⟩ := List.forall_mem_append.1 hfinite
    obtain ⟨hy, hheading⟩ := List.forall_mem_append.1 hfinite
    simp [bind_apply, map_apply, required_cons, stable_float.comes_back hx,
      stable_float.comes_back hy, stable_float.comes_back hheading]
  case reads =>
    refine .bind (.required stable_float) fun x hx => ?_
    refine .bind (.required stable_float) fun y hy => ?_
    refine .map (.required stable_float) fun heading hheading => ?_
    exact List.forall_mem_append.2 ⟨hx, List.forall_mem_append.2 ⟨hy, hheading⟩⟩

theorem stable_handle : Stable Handle := by
  refine .of_record ["id", "team", "group", "step"]
    (fun h => [encode h.id, encode h.team, encode h.group, encode h.step])
    (fun _ => rfl) (fun _ => rfl) (by decide) (fun _ => rfl) (fun h => ?json)
    (fun h _ => ?returns) ?reads
  case json => simp [stable_agentId.json, stable_team.json, stable_group.json, stable_uint64.json]
  case returns =>
    simp [bind_apply, map_apply, required_cons, stable_agentId.comes_back (allFinite_of rfl),
      stable_team.comes_back (allFinite_of rfl), stable_group.comes_back (allFinite_of rfl),
      stable_uint64.comes_back (allFinite_of rfl)]
  case reads =>
    refine .bind (.required stable_agentId) fun id _ => ?_
    refine .bind (.required stable_team) fun team _ => ?_
    refine .bind (.required stable_group) fun group _ => ?_
    refine .map (.required stable_uint64) fun step _ => ?_
    exact allFinite_of rfl

theorem stable_view : Stable View := by
  refine .of_record ["id", "team", "pose", "prev_pose", "total_damage"]
    (fun v => [encode v.id, encode v.team, encode v.pose, encode v.previousPose,
      encode v.totalDamage])
    (fun _ => rfl) (fun _ => rfl) (by decide) (fun _ => rfl) (fun v => ?json)
    (fun v hfinite => ?returns) ?reads
  case json =>
    simp [stable_agentId.json, stable_team.json, stable_pose.json, stable_uint32.json]
  case returns =>
    obtain ⟨hpose, hprevious⟩ := List.forall_mem_append.1 hfinite
    simp [bind_apply, map_apply, required_cons, stable_agentId.comes_back (allFinite_of rfl),
      stable_team.comes_back (allFinite_of rfl), stable_pose.comes_back hpose,
      stable_pose.comes_back hprevious, stable_uint32.comes_back (allFinite_of rfl)]
  case reads =>
    refine .bind (.required stable_agentId) fun id _ => ?_
    refine .bind (.required stable_team) fun team _ => ?_
    refine .bind (.required stable_pose) fun pose hpose => ?_
    refine .bind (.required stable_pose) fun previous hprevious => ?_
    refine .map (.required stable_uint32) fun damage _ => ?_
    exact List.forall_mem_append.2 ⟨hpose, hprevious⟩

theorem stable_interval : Stable Interval := by
  refine .of_record ["min", "max"] (fun b => [encode b.low, encode b.high]) (fun _ => rfl)
    (fun _ => rfl) (by decide) (fun _ => rfl) (fun b => ?json) (fun b hfinite => ?returns) ?reads
  case json => simp [stable_float.json]
  case returns =>
    obtain ⟨hlow, hhigh⟩ := List.forall_mem_append.1 hfinite
    simp [bind_apply, map_apply, required_cons, stable_float.comes_back hlow,
      stable_float.comes_back hhigh]
  case reads =>
    refine .bind (.required stable_float) fun low hlow => ?_
    refine .map (.required stable_float) fun high hhigh => ?_
    exact List.forall_mem_append.2 ⟨hlow, hhigh⟩

theorem stable_shape : Stable Shape := by
  have hbounds := stable_list stable_interval
  refine .of_record ["bounds"] (fun s => [encode s.bounds]) (fun _ => rfl) (fun _ => rfl)
    (by decide) (fun _ => rfl) (fun s => ?json) (fun s hfinite => ?returns) ?reads
  case json => simp [hbounds.json]
  case returns =>
    simp [map_apply, required_cons, hbounds.comes_back hfinite]
  case reads => exact .map (.required hbounds) fun bounds hfinite => hfinite

theorem stable_interface : Stable Interface := by
  refine .of_record ["sensors", "actions", "rewards"]
    (fun i => [encode i.sensors, encode i.actions, encode i.rewards]) (fun _ => rfl)
    (fun _ => rfl) (by decide) (fun _ => rfl) (fun i => ?json) (fun i hfinite => ?returns) ?reads
  case json => simp [stable_shape.json]
  case returns =>
    obtain ⟨hsensors, hfinite⟩ := List.forall_mem_append.1 hfinite
    obtain ⟨hactions, hrewards⟩ := List.forall_mem_append.1 hfinite
    simp [bind_apply, map_apply, required_cons, stable_shape.comes_back hsensors,
      stable_shape.comes_back hactions, stable_shape.comes_back hrewards]
  case reads =>
    refine .bind (.required stable_shape) fun sensors hsensors => ?_
    refine .bind (.required stable_shape) fun actions hactions => ?_
    refine .map (.required stable_shape) fun rewards hrewards => ?_
    exact List.forall_mem_append.2 ⟨hsensors, List.forall_mem_append.2 ⟨hactions, hrewards⟩⟩

instance : HasFloats Strike := ⟨fun _ => []⟩
instance : HasFloats Sensor where
  floats
    | .ray angle radius _ => floats angle ++ floats radius
    | .radar left right bottom top radius _ =>
      floats left ++ (floats right ++ (floats bottom ++ (floats top ++ floats radius)))

/-- The case of a sum stands as the only field of a record. -/
theorem isJson_case {name : String} {d : Document} : (record [(name, d)]).IsJson ↔ d.IsJson := by
  constructor
  · rintro (_ | _ | _ | _ | _ | _ | hfields)
    exact hfields _ List.mem_cons_self
  · exact fun hd => .record (by simp [hd])

theorem stable_strike : Stable Strike := by
  refine .of_returns (fun _ => rfl) (fun s => ?json) fun s => ?returns
  case json =>
    cases s with
    | agent id => exact isJson_case.2 (stable_agentId.json id)
    | object id => exact isJson_case.2 (stable_objectId.json id)
  case returns =>
    cases s with
    | agent id =>
      exact congrArg (Option.map Strike.agent) (stable_agentId.comes_back (allFinite_of rfl))
    | object id =>
      exact congrArg (Option.map Strike.object) (stable_objectId.comes_back (allFinite_of rfl))

/-! The contents of a ray and of a radar are read as records of their own. -/

section Contents

variable {angle radius left right bottom top : Float}

def rayReader : FieldReader Sensor := do
  return .ray (← required .json) (← required .json) (← required .json)

def radarReader : FieldReader Sensor := do
  return .radar (← required .json) (← required .json) (← required .json) (← required .json)
    (← required .json) (← required .json)

theorem yields_ray : rayReader.Yields AllFinite := by
  refine .bind (.required stable_float) fun angle hangle => ?_
  refine .bind (.required stable_float) fun radius hradius => ?_
  refine .map (.required stable_mask) fun mask _ => ?_
  exact List.forall_mem_append.2 ⟨hangle, hradius⟩

theorem yields_radar : radarReader.Yields AllFinite := by
  refine .bind (.required stable_float) fun left hleft => ?_
  refine .bind (.required stable_float) fun right hright => ?_
  refine .bind (.required stable_float) fun bottom hbottom => ?_
  refine .bind (.required stable_float) fun top htop => ?_
  refine .bind (.required stable_float) fun radius hradius => ?_
  refine .map (.required stable_mask) fun mask _ => ?_
  simp only [AllFinite, floats, List.forall_mem_append]
  exact ⟨hleft, hright, hbottom, htop, hradius⟩

theorem isJson_ray (mask : Mask) : (encode (Sensor.ray angle radius mask)).carried.IsJson := by
  have hfields := isJson_record ["angle", "radius", "mask"]
    [encode angle, encode radius, encode mask] (by simp [stable_float.json, stable_mask.json])
  exact isJson_case.2 hfields

theorem isJson_radar (mask : Mask) :
    (encode (Sensor.radar left right bottom top radius mask)).carried.IsJson := by
  have hfields := isJson_record ["left", "right", "bottom", "top", "radius", "mask"]
    [encode left, encode right, encode bottom, encode top, encode radius, encode mask]
    (by simp [stable_float.json, stable_mask.json])
  exact isJson_case.2 hfields

theorem decode_ray (hangle : AllFinite angle) (hradius : AllFinite radius) (mask : Mask) :
    decode .json (encode (Sensor.ray angle radius mask)).carried =
      some (Sensor.ray angle radius mask) := by
  refine run_record ["angle", "radius", "mask"] [encode angle, encode radius, encode mask]
    (by decide) rfl (show rayReader _ = _ from ?_)
  simp [rayReader, bind_apply, map_apply, required_cons, stable_float.comes_back hangle,
    stable_float.comes_back hradius, stable_mask.comes_back (allFinite_of rfl)]

theorem decode_radar (hleft : AllFinite left) (hright : AllFinite right)
    (hbottom : AllFinite bottom) (htop : AllFinite top) (hradius : AllFinite radius)
    (mask : Mask) :
    decode .json (encode (Sensor.radar left right bottom top radius mask)).carried =
      some (Sensor.radar left right bottom top radius mask) := by
  refine run_record ["left", "right", "bottom", "top", "radius", "mask"]
    [encode left, encode right, encode bottom, encode top, encode radius, encode mask]
    (by decide) rfl (show radarReader _ = _ from ?_)
  simp [radarReader, bind_apply, map_apply, required_cons, stable_float.comes_back hleft,
    stable_float.comes_back hright, stable_float.comes_back hbottom,
    stable_float.comes_back htop, stable_float.comes_back hradius,
    stable_mask.comes_back (allFinite_of rfl)]

end Contents

theorem stable_sensor : Stable Sensor := by
  refine .of_reads (fun s => ?json) (fun s hfinite => ?returns) fun d s hd hs => ?reads
  case json =>
    cases s with
    | ray angle radius mask => exact isJson_ray mask
    | radar left right bottom top radius mask => exact isJson_radar mask
  case returns =>
    simp only [AllFinite] at hfinite
    cases s with
    | ray angle radius mask =>
      simp only [floats, List.forall_mem_append] at hfinite
      obtain ⟨hangle, hradius⟩ := hfinite
      exact decode_ray hangle hradius mask
    | radar left right bottom top radius mask =>
      simp only [floats, List.forall_mem_append] at hfinite
      obtain ⟨hleft, hright, hbottom, htop, hradius⟩ := hfinite
      exact decode_radar hleft hright hbottom htop hradius mask
  case reads =>
    simp only [decode] at hs
    split at hs
    · exact yields_ray.of_run (isJson_case.1 hd) hs
    · exact yields_radar.of_run (isJson_case.1 hd) hs
    · cases hs

/-- All values that cross the border come back from the JSON they are written to as long as their
floats are finite, and whatever JSON one was read from, it is written to JSON that is read as the
same; the only teams are 0 and 1. -/
theorem forms_stable :
    ((Stable AgentId ∧ Stable ObjectId ∧ Stable Mask ∧ Stable Team) ∧
      (Stable Group ∧ Stable Dimension ∧ Stable Episode.Reason) ∧
      (Stable Point ∧ Stable Pose ∧ Stable Handle ∧ Stable View) ∧
      (Stable Strike ∧ Stable Sensor) ∧
      (Stable Interval ∧ Stable Shape ∧ Stable Interface)) ∧
    ∀ d : Document, d.IsJson →
      ((∃ t : Team, decode .json d = some t) ↔ d = .integer 0 ∨ d = .integer 1) := by
  refine ⟨⟨?numbers, ?names, ?records, ?sums, ?shapes⟩, fun d hd => decode_team hd⟩
  case numbers => exact ⟨stable_agentId, stable_objectId, stable_mask, stable_team⟩
  case names => exact ⟨stable_group, stable_dimension, stable_reason⟩
  case records => exact ⟨stable_point, stable_pose, stable_handle, stable_view⟩
  case sums => exact ⟨stable_strike, stable_sensor⟩
  case shapes => exact ⟨stable_interval, stable_shape, stable_interface⟩

/-- A handle as the list of its fields, its step being the last that a word of 64 bits counts. -/
def listedHandle : Document :=
  .list [.integer 7, .integer 1, .text "turret", .integer 18446744073709551615]

theorem forms_stable_listed :
    listedHandle.IsJson ∧ (∃ t : Team, decode .json (.integer 1) = some t) ∧
      ∃ h : Handle, decode .json listedHandle = some h ∧ h.step = 18446744073709551615 ∧
        decode .json (encode h).carried = some h := by
  have hjson : listedHandle.IsJson := by
    refine .list fun item hitem => ?_
    simp only [List.mem_cons, List.not_mem_nil, or_false] at hitem
    rcases hitem with rfl | rfl | rfl | rfl
    · exact .integer (by decide) (by decide)
    · exact .integer (by decide) (by decide)
    · exact .text _
    · exact .integer (by decide) (by decide)
  obtain ⟨⟨-, -, ⟨-, -, hhandle, -⟩, -, -⟩, hteam⟩ := forms_stable
  have hread : decode .json listedHandle =
      some (⟨⟨7⟩, .one, .turret, 18446744073709551615⟩ : Handle) := by rfl
  refine ⟨hjson, (hteam _ (.integer (by decide) (by decide))).2 (.inr rfl), _, hread, rfl, ?_⟩
  exact hhandle.again listedHandle _ hjson hread

end FlagCombat
