import FlagCombat.Document.Codec
import FlagCombat.Proofs.Binary64.Whole

/-!
What JSON carries of a document. A number that is not finite has no form and is null; what a JSON
text can hold is null, truth values, integers of 64 bits, finite numbers, quoted texts, and lists
and records of these.
-/

namespace FlagCombat

namespace Document

mutual

/-- The document as JSON carries it. -/
def carried : Document → Document
  | .real x => if x.isFinite then .real x else .null
  | .list items => .list (carriedItems items)
  | .record fields => .record (carriedFields fields)
  | .mapping pairs => .mapping (carriedPairs pairs)
  | .null => .null
  | .bool value => .bool value
  | .integer value => .integer value
  | .text value => .text value
  | .plain written => .plain written

def carriedItems : List Document → List Document
  | [] => []
  | item :: rest => carried item :: carriedItems rest

def carriedFields : List (String × Document) → List (String × Document)
  | [] => []
  | (name, value) :: rest => (name, carried value) :: carriedFields rest

def carriedPairs : List (Document × Document) → List (Document × Document)
  | [] => []
  | (key, value) :: rest => (carried key, carried value) :: carriedPairs rest

end

theorem carriedItems_eq (items : List Document) : carriedItems items = items.map carried := by
  induction items with
  | nil => rfl
  | cons item rest ih => rw [carriedItems, ih, List.map_cons]

theorem carriedFields_eq (fields : List (String × Document)) :
    carriedFields fields = fields.map fun field => (field.1, field.2.carried) := by
  induction fields with
  | nil => rfl
  | cons field rest ih => rw [carriedFields, ih, List.map_cons]

@[simp] theorem carried_list (items : List Document) :
    (list items).carried = .list (items.map carried) := by
  rw [carried, carriedItems_eq]

@[simp] theorem carried_record (fields : List (String × Document)) :
    (record fields).carried = .record (fields.map fun field => (field.1, field.2.carried)) := by
  rw [carried, carriedFields_eq]

mutual

/-- The text of a document is that of what JSON carries of it. -/
theorem render_carried : (d : Document) → d.carried.render = d.render
  | .real x => by
    by_cases hx : x.isFinite = true
    · rw [carried, if_pos hx]
    · rw [carried, if_neg hx, render, render, renderReal, if_neg hx]
  | .list items => by rw [carried, render, render, renderItems_carried items]
  | .record fields => by rw [carried, render, render, renderFields_carried fields]
  | .mapping pairs => by rw [carried, render, render, renderPairs_carried pairs]
  | .null | .bool _ | .integer _ | .text _ | .plain _ => rfl

theorem renderItems_carried : (items : List Document) →
    renderItems (carriedItems items) = renderItems items
  | [] => rfl
  | item :: rest => by
    rw [carriedItems, renderItems, renderItems, render_carried item, renderItems_carried rest]

theorem renderFields_carried : (fields : List (String × Document)) →
    renderFields (carriedFields fields) = renderFields fields
  | [] => rfl
  | (name, value) :: rest => by
    rw [carriedFields, renderFields, renderFields, render_carried value, renderFields_carried rest]

theorem renderPairs_carried : (pairs : List (Document × Document)) →
    renderPairs (carriedPairs pairs) = renderPairs pairs
  | [] => rfl
  | (key, value) :: rest => by
    rw [carriedPairs, renderPairs, renderPairs, render_carried key, render_carried value,
      renderPairs_carried rest]

end

/-- What a JSON text can hold. -/
inductive IsJson : Document → Prop
  | null : IsJson .null
  | bool (value : Bool) : IsJson (.bool value)
  | integer {n : Int} (hlow : -2 ^ 63 ≤ n) (hhigh : n < 2 ^ 64) : IsJson (.integer n)
  | real {x : Float} (h : x.isFinite = true) : IsJson (.real x)
  | text (s : String) : IsJson (.text s)
  | list {items : List Document} (h : ∀ item ∈ items, IsJson item) : IsJson (.list items)
  | record {fields : List (String × Document)} (h : ∀ field ∈ fields, IsJson field.2) :
      IsJson (.record fields)

/-- The float of a JSON number is finite, whole numbers included. -/
theorem IsJson.isFinite {d : Document} (h : d.IsJson) {x : Float} (hx : d.float? = some x) :
    x.isFinite = true := by
  cases h with
  | integer hlow hhigh =>
    cases hx
    exact Binary64.isFinite_ofInt hlow hhigh
  | real hfinite =>
    cases hx
    exact hfinite
  | null | bool | text | list | record => cases hx

section Fields

variable {fields : List (String × Document)} {name : String} {value : Document}

/-- A field that is given once is found. -/
theorem field?_of_mem (hnodup : (fields.map Prod.fst).Nodup) (hmem : (name, value) ∈ fields) :
    field? fields name = some (some value) := by
  have hfilter : fields.filter (·.1 = name) = [(name, value)] := by
    induction fields with
    | nil => cases hmem
    | cons field rest ih =>
      obtain ⟨hnew, hnodup⟩ := List.nodup_cons.1 hnodup
      rcases List.mem_cons.1 hmem with rfl | hmem
      · have hrest : rest.filter (·.1 = name) = [] := by
          refine List.filter_eq_nil_iff.2 fun other hother hsame => hnew ?_
          exact List.mem_map.2 ⟨other, hother, of_decide_eq_true hsame⟩
        simp [hrest]
      · have hother : field.1 ≠ name := by
          rintro rfl
          exact hnew (List.mem_map.2 ⟨_, hmem, rfl⟩)
        simpa [hother] using ih hnodup hmem
  unfold field?
  rw [hfilter]

theorem mem_of_field? (h : field? fields name = some (some value)) : (name, value) ∈ fields := by
  unfold field? at h
  split at h
  · cases h
  · rename_i found value heq
    cases h
    have hmem : (found, value) ∈ fields.filter (·.1 = name) := by simp [heq]
    obtain ⟨hmem, hsame⟩ := List.mem_filter.1 hmem
    rwa [← of_decide_eq_true hsame]
  · cases h

end Fields

theorem exists_of_mapM {α β : Type} {f : α → Option β} {l : List α} {r : List β} {b : β}
    (h : l.mapM f = some r) (hb : b ∈ r) : ∃ a ∈ l, f a = some b := by
  induction l generalizing r with
  | nil =>
    cases h
    cases hb
  | cons a l ih =>
    simp only [List.mapM_cons, Option.bind_eq_bind, Option.bind_eq_some_iff] at h
    obtain ⟨first, hfirst, rest, hrest, heq⟩ := h
    cases heq
    rcases List.mem_cons.1 hb with rfl | hb
    · exact ⟨a, List.mem_cons_self, hfirst⟩
    · obtain ⟨a', ha', hfound⟩ := ih hrest hb
      exact ⟨a', List.mem_cons_of_mem _ ha', hfound⟩

/-- The fields of a record are found in the order of their names. -/
theorem fields?_zip {names : List String} {docs : List Document} (hnodup : names.Nodup)
    (hlength : docs.length = names.length) :
    fields? .json names (.record (names.zip docs)) = some (docs.map some) := by
  have hkeys : ((names.zip docs).map Prod.fst).Nodup := by
    rwa [List.map_fst_zip (Nat.le_of_eq hlength.symm)]
  have hfound : ∀ pair ∈ names.zip docs, field? (names.zip docs) pair.1 = some (some pair.2) :=
    fun pair hpair => field?_of_mem hkeys hpair
  show names.mapM (field? (names.zip docs)) = _
  generalize field? (names.zip docs) = find at hfound
  clear hkeys hnodup
  induction names generalizing docs with
  | nil =>
    rw [List.length_eq_zero_iff.1 hlength]
    rfl
  | cons name names ih =>
    cases docs with
    | nil => cases hlength
    | cons d docs =>
      have hfirst := hfound (name, d) (by simp)
      have hrest := ih (Nat.succ.inj hlength) fun pair hpair => hfound pair (by simp [hpair])
      simp [List.mapM_cons, hfirst, hrest]

/-- What is found of a JSON document is JSON. -/
theorem IsJson.of_fields? {d : Document} (h : d.IsJson) {names : List String}
    {found : List (Option Document)} (hfound : d.fields? .json names = some found) :
    ∀ value, some value ∈ found → value.IsJson := by
  intro value hvalue
  cases h with
  | record hfields =>
    obtain ⟨name, -, hname⟩ := exists_of_mapM (show names.mapM _ = some found from hfound) hvalue
    exact hfields _ (mem_of_field? hname)
  | @list items hitems =>
    have hfound : (if Format.json = .json ∧ items.length ≤ names.length then
        some (items.map some ++ List.replicate (names.length - items.length) none)
      else none) = some found := hfound
    split at hfound
    · cases hfound
      exact hitems value (by simpa using hvalue)
    · cases hfound
  | null | bool | integer | real | text => simp [fields?] at hfound

end Document

end FlagCombat
