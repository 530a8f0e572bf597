import FlagCombat.Proofs.Document.Stable

/-!
Records that are stable. The fields of a record are written under their names, and each is read
where its name is found or, in a list, where its turn is. A record of stable fields is stable.
-/

namespace FlagCombat

open Document

namespace FieldReader

variable {α β : Type} {P : α → Prop} {Q : β → Prop} {fields rest : List (Option Document)}

theorem bind_apply (x : FieldReader α) (f : α → FieldReader β) :
    (x >>= f) fields = (x fields).bind fun read => f read.1 read.2 := rfl

theorem map_apply (f : α → β) (x : FieldReader α) :
    (f <$> x) fields = (x fields).map fun read => (f read.1, read.2) := by
  show ((x fields).bind fun read => some (f read.1, read.2)) = _
  rw [Option.map_eq_bind]
  rfl

theorem required_cons [Readable α] (d : Document) :
    (required .json : FieldReader α) (some d :: rest) = (decode .json d).map (·, rest) := rfl

/-- What the reader makes of fields of JSON has the property. -/
def Yields (x : FieldReader α) (P : α → Prop) : Prop :=
  ∀ fields v rest, (∀ d, some d ∈ fields → d.IsJson) → x fields = some (v, rest) →
    P v ∧ ∀ d, some d ∈ rest → d.IsJson

theorem Yields.required [Readable α] [Writable α] [HasFloats α] (h : Stable α) :
    Yields (required .json) (AllFinite : α → Prop) := by
  intro fields v rest hjson hread
  match fields with
  | [] | none :: _ => cases hread
  | some d :: others =>
    obtain ⟨v, hv, heq⟩ := Option.map_eq_some_iff.1 hread
    cases heq
    exact ⟨h.reads (hjson d List.mem_cons_self) hv, fun d hd => hjson d (List.mem_cons_of_mem _ hd)⟩

theorem Yields.bind {x : FieldReader α} {f : α → FieldReader β} (hx : x.Yields P)
    (hf : ∀ a, P a → (f a).Yields Q) : (x >>= f).Yields Q := by
  intro fields v rest hjson hread
  rw [bind_apply] at hread
  obtain ⟨⟨a, middle⟩, ha, hread⟩ := Option.bind_eq_some_iff.1 hread
  obtain ⟨hPa, hmiddle⟩ := hx fields a middle hjson ha
  exact hf a hPa middle v rest hmiddle hread

theorem Yields.map {x : FieldReader α} {f : α → β} (hx : x.Yields P) (hf : ∀ a, P a → Q (f a)) :
    (f <$> x).Yields Q := by
  intro fields v rest hjson hread
  rw [map_apply] at hread
  obtain ⟨⟨a, others⟩, ha, heq⟩ := Option.map_eq_some_iff.1 hread
  cases heq
  obtain ⟨hPa, hrest⟩ := hx fields a others hjson ha
  exact ⟨hf a hPa, hrest⟩

variable {names : List String} {x : FieldReader α} {v : α}

/-- A record is read from its values in the order of their names. -/
theorem run_record (names : List String) (docs : List Document) (hnames : names.Nodup)
    (hlength : docs.length = names.length)
    (h : x (docs.map fun d => some d.carried) = some (v, [])) :
    FieldReader.run .json names x (record (names.zip docs)).carried = some v := by
  have hcarried : (record (names.zip docs)).carried = record (names.zip (docs.map carried)) := by
    rw [carried_record, List.zip_map_right]
    rfl
  have hfound := fields?_zip hnames ((List.length_map carried).trans hlength)
  rw [FieldReader.run, hcarried, hfound, Option.bind_some, List.map_map]
  exact congrArg (Option.map Prod.fst) h

theorem Yields.of_run (hx : x.Yields P) {d : Document} (hd : d.IsJson)
    (h : FieldReader.run .json names x d = some v) : P v := by
  obtain ⟨fields, hfields, hread⟩ := Option.bind_eq_some_iff.1 h
  obtain ⟨⟨a, rest⟩, ha, heq⟩ := Option.map_eq_some_iff.1 hread
  cases heq
  exact (hx fields a rest (hd.of_fields? hfields) ha).1

end FieldReader

theorem isJson_record (names : List String) (docs : List Document)
    (h : ∀ d ∈ docs, d.carried.IsJson) : (record (names.zip docs)).carried.IsJson := by
  rw [carried_record]
  refine .record fun field hfield => ?_
  obtain ⟨⟨name, d⟩, hmem, rfl⟩ := List.mem_map.1 hfield
  exact h d (List.of_mem_zip hmem).2

/-- A record is stable when its reader takes all fields that are written and makes only finite
values of fields that are JSON. -/
theorem Stable.of_record {α : Type} [Readable α] [Writable α] [HasFloats α]
    (names : List String) (docs : α → List Document) {x : FieldReader α}
    (hencode : ∀ v, encode v = record (names.zip (docs v)))
    (hdecode : ∀ d, (decode .json d : Option α) = FieldReader.run .json names x d)
    (hnames : names.Nodup) (hlength : ∀ v, (docs v).length = names.length)
    (hjson : ∀ v, ∀ d ∈ docs v, d.carried.IsJson)
    (hreturns : ∀ v, AllFinite v → x ((docs v).map fun d => some d.carried) = some (v, []))
    (hreads : x.Yields AllFinite) : Stable α := by
  refine .of_reads (fun v => ?json) (fun v hfinite => ?returns) fun d v hd hv => ?reads
  case json =>
    rw [hencode]
    exact isJson_record names (docs v) (hjson v)
  case returns =>
    rw [hencode, hdecode]
    exact FieldReader.run_record names (docs v) hnames (hlength v) (hreturns v hfinite)
  case reads =>
    rw [hdecode] at hv
    exact hreads.of_run hd hv

end FlagCombat
