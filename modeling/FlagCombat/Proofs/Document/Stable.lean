import FlagCombat.Document.Values
import FlagCombat.Proofs.Document.Carried

/-!
Forms that are stable. A value of finite floats comes back from the JSON that it is written to, and
whatever JSON a value was read from, objects with further fields and lists of fields included, it is
written to JSON from which it comes back.
-/

namespace FlagCombat

open Document

/-- Values with floats in them. -/
class HasFloats (α : Type) where
  floats : α → List Float

export HasFloats (floats)

/-- Whether all floats of a value are finite. -/
def AllFinite {α : Type} [HasFloats α] (v : α) : Prop := ∀ x ∈ floats v, x.isFinite = true

theorem allFinite_of {α : Type} [HasFloats α] {v : α} (hfloats : floats v = []) : AllFinite v := by
  intro x hx
  rw [hfloats] at hx
  cases hx

/-- What is written is JSON; it is read back just if all floats are finite; and what was read from
JSON is written to JSON that is read as the same. -/
structure Stable (α : Type) [Readable α] [Writable α] [HasFloats α] : Prop where
  json : ∀ v : α, (encode v).carried.IsJson
  returns : ∀ v : α, decode .json (encode v).carried = some v ↔ AllFinite v
  again : ∀ (d : Document) (v : α), d.IsJson → decode .json d = some v →
    decode .json (encode v).carried = some v

section Stable

variable {α : Type} [Readable α] [Writable α] [HasFloats α]

theorem Stable.of_reads (json : ∀ v : α, (encode v).carried.IsJson)
    (returns : ∀ v : α, AllFinite v → decode .json (encode v).carried = some v)
    (reads : ∀ (d : Document) (v : α), d.IsJson → decode .json d = some v → AllFinite v) :
    Stable α where
  json := json
  returns v := ⟨reads _ v (json v), returns v⟩
  again d v hd hv := returns v (reads d v hd hv)

theorem Stable.reads (h : Stable α) {d : Document} {v : α} (hd : d.IsJson)
    (hv : decode .json d = some v) : AllFinite v := (h.returns v).1 (h.again d v hd hv)

theorem Stable.comes_back (h : Stable α) {v : α} (hfinite : AllFinite v) :
    decode .json (encode v).carried = some v := (h.returns v).2 hfinite

/-- Without floats, it is enough that what is written is read back. -/
theorem Stable.of_returns (hfloats : ∀ v : α, floats v = [])
    (json : ∀ v : α, (encode v).carried.IsJson)
    (returns : ∀ v : α, decode .json (encode v).carried = some v) : Stable α :=
  .of_reads json (fun v _ => returns v) fun _ v _ _ => allFinite_of (hfloats v)

end Stable

instance : HasFloats Float := ⟨fun x => [x]⟩
instance : HasFloats UInt32 := ⟨fun _ => []⟩
instance : HasFloats UInt64 := ⟨fun _ => []⟩
instance {α : Type} [HasFloats α] : HasFloats (List α) := ⟨fun l => l.flatMap floats⟩

theorem stable_float : Stable Float := by
  have hcarried (x : Float) : (encode x).carried = if x.isFinite then .real x else .null := rfl
  refine .of_reads (fun x => ?json) (fun x hfinite => ?returns) fun d x hd hx y hy => ?reads
  case json =>
    rw [hcarried]
    split
    · rename_i hx
      exact .real hx
    · exact .null
  case returns =>
    have hx : x.isFinite = true := hfinite x (List.mem_singleton_self x)
    rw [hcarried, if_pos hx]
    rfl
  case reads =>
    rw [List.mem_singleton.1 hy]
    exact hd.isFinite hx

theorem nat?_natCast (n : Nat) : (integer n).nat? = some n := by
  simp [nat?]

theorem stable_uint32 : Stable UInt32 := by
  refine .of_returns (fun _ => rfl) (fun n => ?json) fun n => ?returns
  case json =>
    have hlt := n.toNat_lt
    exact .integer (by omega) (by omega)
  case returns =>
    show (nat? (integer n.toNat)).bind fit32? = some n
    rw [nat?_natCast, Option.bind_some, fit32?, if_pos n.toNat_lt]
    exact congrArg some (UInt32.ofNat_toNat)

theorem stable_uint64 : Stable UInt64 := by
  refine .of_returns (fun _ => rfl) (fun n => ?json) fun n => ?returns
  case json =>
    have hlt := n.toNat_lt
    exact .integer (by omega) (by omega)
  case returns =>
    show (nat? (integer n.toNat)).bind fit64? = some n
    rw [nat?_natCast, Option.bind_some, fit64?, if_pos n.toNat_lt]
    exact congrArg some (UInt64.ofNat_toNat)

theorem mapM_map_eq_some {α β : Type} {f : α → β} {g : β → Option α} {l : List α} :
    (l.map f).mapM g = some l ↔ ∀ a ∈ l, g (f a) = some a := by
  induction l with
  | nil => simp
  | cons a l ih =>
    simp only [List.map_cons, List.mapM_cons, List.forall_mem_cons, Option.bind_eq_bind,
      Option.bind_eq_some_iff, Option.pure_def, Option.some.injEq, List.cons.injEq, ← ih]
    constructor
    · rintro ⟨_, ha, _, hl, rfl, rfl⟩
      exact ⟨ha, hl⟩
    · rintro ⟨ha, hl⟩
      exact ⟨a, ha, l, hl, rfl, rfl⟩

theorem stable_list {α : Type} [Readable α] [Writable α] [HasFloats α] (h : Stable α) :
    Stable (List α) := by
  have hcarried (l : List α) : (encode l).carried = .list (l.map fun v => (encode v).carried) := by
    show (Document.list (l.map encode)).carried = _
    rw [carried_list, List.map_map]
    rfl
  refine .of_reads (fun l => ?json) (fun l hfinite => ?returns) fun d l hd hl => ?reads
  case json =>
    rw [hcarried]
    refine .list fun item hitem => ?_
    obtain ⟨v, -, rfl⟩ := List.mem_map.1 hitem
    exact h.json v
  case returns =>
    rw [hcarried]
    refine mapM_map_eq_some.2 fun v hv => (h.returns v).2 fun x hx => ?_
    exact hfinite x (List.mem_flatMap.2 ⟨v, hv, hx⟩)
  case reads =>
    obtain ⟨items, hitems, hread⟩ := Option.bind_eq_some_iff.1 hl
    cases hd with
    | list hjson =>
      cases hitems
      intro x hx
      obtain ⟨v, hv, hx⟩ := List.mem_flatMap.1 hx
      obtain ⟨item, hitem, hdecoded⟩ := exists_of_mapM hread hv
      exact h.reads (hjson item hitem) hdecoded x hx
    | _ => simp [items?] at hitems

end FlagCombat
