import FlagCombat.Agent.Identity

/-!
Finite maps from agent ids, kept as a list in ascending order of the ids. Two maps are equal as soon
as they give the same answer for every id (`IdMap.ext_get?`), and `get?` says what each operation
does.
-/

namespace FlagCombat

/-- A finite map from agent ids; `entries` has every bound id once, in ascending order. -/
structure IdMap (α : Type u) where
  entries : List (AgentId × α)
  ascending : entries.Pairwise (·.1 < ·.1)

namespace IdMap

variable {α : Type u} {β : Type v}

def lookup (k : AgentId) : List (AgentId × α) → Option α
  | [] => none
  | (k', a) :: rest => if k = k' then some a else lookup k rest

/-- Puts an entry at its place, over the one with its id. -/
def place (k : AgentId) (a : α) : List (AgentId × α) → List (AgentId × α)
  | [] => [(k, a)]
  | (k', a') :: rest =>
    if k < k' then (k, a) :: (k', a') :: rest
    else if k = k' then (k, a) :: rest
    else (k', a') :: place k a rest

theorem mem_place {k : AgentId} {a : α} {l : List (AgentId × α)} {e : AgentId × α}
    (h : e ∈ place k a l) : e = (k, a) ∨ e ∈ l := by
  induction l with
  | nil => simpa [place] using h
  | cons head rest ih =>
    simp only [place] at h
    split at h
    · simpa using h
    · split at h
      · rcases List.mem_cons.1 h with h | h
        · exact .inl h
        · exact .inr (List.mem_cons_of_mem _ h)
      · rcases List.mem_cons.1 h with h | h
        · exact .inr (h ▸ List.mem_cons_self)
        · exact (ih h).imp id (List.mem_cons_of_mem _)

theorem pairwise_place {k : AgentId} {a : α} {l : List (AgentId × α)}
    (h : l.Pairwise (·.1 < ·.1)) : (place k a l).Pairwise (·.1 < ·.1) := by
  induction l with
  | nil => simp [place]
  | cons head rest ih =>
    obtain ⟨hhead, hrest⟩ := List.pairwise_cons.1 h
    simp only [place]
    split
    · rename_i hk
      refine List.pairwise_cons.2 ⟨fun e he => ?_, h⟩
      rcases List.mem_cons.1 he with rfl | he
      · exact hk
      · exact Nat.lt_trans hk (hhead e he)
    · rename_i hk
      split
      · rename_i heq
        subst heq
        exact List.pairwise_cons.2 ⟨hhead, hrest⟩
      · rename_i hne
        refine List.pairwise_cons.2 ⟨fun e he => ?_, ih hrest⟩
        rcases mem_place he with rfl | he
        · rcases AgentId.lt_trichotomy k head.1 with h | h | h
          · exact absurd h hk
          · exact absurd h hne
          · exact h
        · exact hhead e he

/-- The place of an id above all others is the end. -/
theorem place_of_lt {k : AgentId} {a : α} {l : List (AgentId × α)} (h : ∀ e ∈ l, e.1 < k) :
    place k a l = l ++ [(k, a)] := by
  induction l with
  | nil => rfl
  | cons head rest ih =>
    have hhead : head.1 < k := h head List.mem_cons_self
    have hnot : ¬k < head.1 := fun hlt => Nat.lt_irrefl _ (Nat.lt_trans hlt hhead)
    have hne : k ≠ head.1 := fun heq => Nat.lt_irrefl _ (AgentId.lt_iff.1 (heq ▸ hhead))
    simp only [place]
    rw [if_neg hnot, if_neg hne, ih fun e he => h e (List.mem_cons_of_mem _ he)]
    rfl

theorem lookup_place {k : AgentId} {a : α} (l : List (AgentId × α)) (k' : AgentId) :
    lookup k' (place k a l) = if k' = k then some a else lookup k' l := by
  induction l with
  | nil => simp [place, lookup]
  | cons head rest ih =>
    obtain ⟨h, b⟩ := head
    simp only [place]
    split
    · simp [lookup]
    · split
      · rename_i heq
        subst heq
        by_cases hk : k' = k <;> simp [lookup, hk]
      · rename_i hne
        by_cases hk : k' = h
        · subst hk
          have : k' ≠ k := fun e => hne e.symm
          simp [lookup, this]
        · simp [lookup, hk, ih]

theorem lookup_eq_none {l : List (AgentId × α)} {k : AgentId} (h : ∀ e ∈ l, e.1 ≠ k) :
    lookup k l = none := by
  induction l with
  | nil => rfl
  | cons head rest ih =>
    have hk : ¬ k = head.1 := fun e => h head List.mem_cons_self e.symm
    simp [lookup, hk, ih fun e he => h e (List.mem_cons_of_mem _ he)]

theorem lookup_erase (l : List (AgentId × α)) (k k' : AgentId) :
    lookup k' (l.filter (·.1 ≠ k)) = if k' = k then none else lookup k' l := by
  induction l with
  | nil => simp [lookup]
  | cons head rest ih =>
    by_cases hk : head.1 = k <;> by_cases hk' : k' = head.1 <;> simp_all [lookup]

theorem lookup_mapValues (l : List (AgentId × α)) (f : AgentId → α → β) (k : AgentId) :
    lookup k (l.map fun e => (e.1, f e.1 e.2)) = (lookup k l).map (f k) := by
  induction l with
  | nil => rfl
  | cons head rest ih => by_cases hk : k = head.1 <;> simp_all [lookup]

theorem lookup_filter {l : List (AgentId × α)} (h : l.Pairwise (·.1 < ·.1))
    (p : AgentId → α → Bool) (k : AgentId) :
    lookup k (l.filter fun e => p e.1 e.2) = (lookup k l).filter (p k) := by
  induction l with
  | nil => rfl
  | cons head rest ih =>
    obtain ⟨hhead, hrest⟩ := List.pairwise_cons.1 h
    have hnone : lookup head.1 rest = none :=
      lookup_eq_none fun e he h => absurd (hhead e he) (by rw [h]; exact Nat.lt_irrefl _)
    have ih := ih hrest
    by_cases hk : k = head.1
    · subst hk
      rw [hnone] at ih
      by_cases hp : p head.1 head.2 <;> simp_all [lookup, Option.filter]
    · by_cases hp : p head.1 head.2 <;> simp_all [lookup]

theorem mem_iff_lookup {l : List (AgentId × α)} (h : l.Pairwise (·.1 < ·.1)) {k : AgentId} {a : α} :
    (k, a) ∈ l ↔ lookup k l = some a := by
  induction l with
  | nil => simp [lookup]
  | cons head rest ih =>
    obtain ⟨hhead, hrest⟩ := List.pairwise_cons.1 h
    obtain ⟨head, b⟩ := head
    by_cases hk : k = head
    · subst hk
      have hnot : (k, a) ∉ rest := fun hmem => absurd (hhead _ hmem) (Nat.lt_irrefl _)
      simp [lookup, hnot, eq_comm]
    · simp [lookup, hk, ih hrest]

def empty : IdMap α := ⟨[], .nil⟩

instance : EmptyCollection (IdMap α) := ⟨empty⟩

instance : Inhabited (IdMap α) := ⟨empty⟩

def get? (m : IdMap α) (k : AgentId) : Option α := lookup k m.entries

def contains (m : IdMap α) (k : AgentId) : Bool := (m.get? k).isSome

/-- The map that binds `k` to `a` and every other id as `m` does. -/
def insert (m : IdMap α) (k : AgentId) (a : α) : IdMap α :=
  ⟨place k a m.entries, pairwise_place m.ascending⟩

/-- The map that does not bind `k` and every other id as `m` does. -/
def erase (m : IdMap α) (k : AgentId) : IdMap α :=
  ⟨m.entries.filter (·.1 ≠ k), m.ascending.filter _⟩

/-- The map whose values are those of `m` under a function of id and value. -/
def mapValues (m : IdMap α) (f : AgentId → α → β) : IdMap β :=
  ⟨m.entries.map fun e => (e.1, f e.1 e.2), List.pairwise_map.2 m.ascending⟩

/-- The bindings of `m` that satisfy a test. -/
def filter (m : IdMap α) (p : AgentId → α → Bool) : IdMap α :=
  ⟨m.entries.filter fun e => p e.1 e.2, m.ascending.filter _⟩

/-- The map of a list of bindings; a later one wins. -/
def ofList (l : List (AgentId × α)) : IdMap α := l.foldl (fun m e => m.insert e.1 e.2) empty

def keys (m : IdMap α) : List AgentId := m.entries.map (·.1)

def values (m : IdMap α) : List α := m.entries.map (·.2)

def size (m : IdMap α) : Nat := m.entries.length

def isEmpty (m : IdMap α) : Bool := m.entries.isEmpty

@[simp] theorem get?_empty (k : AgentId) : (empty : IdMap α).get? k = none := rfl

@[simp] theorem get?_insert (m : IdMap α) (k k' : AgentId) (a : α) :
    (m.insert k a).get? k' = if k' = k then some a else m.get? k' := lookup_place _ _

@[simp] theorem get?_erase (m : IdMap α) (k k' : AgentId) :
    (m.erase k).get? k' = if k' = k then none else m.get? k' := lookup_erase _ _ _

@[simp] theorem get?_mapValues (m : IdMap α) (f : AgentId → α → β) (k : AgentId) :
    (m.mapValues f).get? k = (m.get? k).map (f k) := lookup_mapValues _ _ _

/-- An entry of the list is a binding, and each binding is an entry. -/
theorem mem_entries_iff (m : IdMap α) {k : AgentId} {a : α} :
    (k, a) ∈ m.entries ↔ m.get? k = some a := mem_iff_lookup m.ascending

theorem mem_keys_iff (m : IdMap α) {k : AgentId} : k ∈ m.keys ↔ m.contains k = true := by
  unfold keys contains
  rw [List.mem_map, Option.isSome_iff_exists]
  constructor
  · rintro ⟨e, he, rfl⟩
    exact ⟨e.2, m.mem_entries_iff.1 he⟩
  · rintro ⟨a, h⟩
    exact ⟨(k, a), m.mem_entries_iff.2 h, rfl⟩

/-- The ids are listed once each, in ascending order. -/
theorem pairwise_keys (m : IdMap α) : m.keys.Pairwise (· < ·) := List.pairwise_map.2 m.ascending

theorem nodup_keys (m : IdMap α) : m.keys.Nodup :=
  m.pairwise_keys.imp fun {a b} hlt heq => by
    subst heq
    exact Nat.lt_irrefl _ (AgentId.lt_iff.1 hlt)

/-- An id above all others is listed last. -/
theorem keys_insert_of_lt {m : IdMap α} {k : AgentId} (h : ∀ k' ∈ m.keys, k' < k) (a : α) :
    (m.insert k a).keys = m.keys ++ [k] := by
  have hentries : (m.insert k a).entries = m.entries ++ [(k, a)] :=
    place_of_lt fun e he => h e.1 (List.mem_map_of_mem he)
  unfold keys
  rw [hentries, List.map_append]
  rfl

@[simp] theorem get?_filter (m : IdMap α) (p : AgentId → α → Bool) (k : AgentId) :
    (m.filter p).get? k = (m.get? k).filter (p k) := lookup_filter m.ascending _ _

/-- Maps that answer alike are equal. -/
theorem ext_get? {m n : IdMap α} (h : ∀ k, m.get? k = n.get? k) : m = n := by
  obtain ⟨l, hl⟩ := m
  obtain ⟨r, hr⟩ := n
  congr
  induction l generalizing r with
  | nil =>
    cases r with
    | nil => rfl
    | cons head rest => simpa [get?, lookup] using h head.1
  | cons head rest ih =>
    cases r with
    | nil => simpa [get?, lookup] using h head.1
    | cons head' rest' =>
      have hmem : ∀ e, e ∈ head :: rest ↔ e ∈ head' :: rest' := fun e => by
        rw [mem_entries_iff ⟨_, hl⟩ (k := e.1) (a := e.2),
          mem_entries_iff ⟨_, hr⟩ (k := e.1) (a := e.2), h]
      obtain ⟨hhead, hrest⟩ := List.pairwise_cons.1 hl
      obtain ⟨hhead', hrest'⟩ := List.pairwise_cons.1 hr
      have heads : head = head' := by
        rcases List.mem_cons.1 ((hmem head).1 List.mem_cons_self) with e | e
        · exact e
        · rcases List.mem_cons.1 ((hmem head').2 List.mem_cons_self) with e' | e'
          · exact e'.symm
          · exact absurd (Nat.lt_trans (hhead _ e') (hhead' _ e)) (Nat.lt_irrefl _)
      subst heads
      refine congrArg _ (ih hrest rest' hrest' fun k => ?_)
      have hk := h k
      by_cases e : k = head.1
      · have below : ∀ l : List (AgentId × α), (∀ x ∈ l, head.1 < x.1) → lookup k l = none :=
          fun l hl => lookup_eq_none fun x hx hxk =>
            absurd (hl x hx) (by rw [hxk, e]; exact Nat.lt_irrefl _)
        show lookup k rest = lookup k rest'
        rw [below rest hhead, below rest' hhead']
      · simpa [get?, lookup, e] using hk

theorem get?_foldl_insert {l : List (AgentId × α)} (h : l.Pairwise (·.1 < ·.1)) (m : IdMap α)
    (k : AgentId) :
    (l.foldl (fun m e => m.insert e.1 e.2) m).get? k = (lookup k l).or (m.get? k) := by
  induction l generalizing m with
  | nil => rfl
  | cons head rest ih =>
    obtain ⟨hhead, hrest⟩ := List.pairwise_cons.1 h
    rw [List.foldl_cons, ih hrest, get?_insert]
    by_cases hk : k = head.1
    · have hnone : lookup head.1 rest = none :=
        lookup_eq_none fun e he heq => absurd (hhead e he) (by rw [heq]; exact Nat.lt_irrefl _)
      simp [lookup, hk, hnone]
    · simp [lookup, hk]

/-- The map of the entries of a map is that map. -/
theorem ofList_entries (m : IdMap α) : ofList m.entries = m := by
  apply ext_get?
  intro k
  rw [ofList, get?_foldl_insert m.ascending, get?_empty, Option.or_none]
  rfl

/-- The map of the values of a map under keys read off the values, if every value carries its own
key. -/
theorem ofList_values (m : IdMap α) {key : α → AgentId} (f : α → β)
    (h : ∀ k a, m.get? k = some a → key a = k) :
    ofList (m.values.map fun a => (key a, f a)) = m.mapValues fun _ a => f a := by
  rw [← ofList_entries (m.mapValues fun _ a => f a), values, List.map_map]
  apply congrArg ofList
  apply List.map_congr_left
  rintro ⟨k, a⟩ hmem
  simp [h k a (m.mem_entries_iff.1 hmem)]

theorem contains_eq_true_iff (m : IdMap α) {k : AgentId} :
    m.contains k = true ↔ ∃ a, m.get? k = some a := Option.isSome_iff_exists

theorem contains_eq_false_iff (m : IdMap α) {k : AgentId} :
    m.contains k = false ↔ m.get? k = none :=
  Option.isSome_eq_false_iff.trans Option.isNone_iff_eq_none

@[simp] theorem mapValues_insert (m : IdMap α) (k : AgentId) (a : α) (f : AgentId → α → β) :
    (m.insert k a).mapValues f = (m.mapValues f).insert k (f k a) := by
  apply ext_get?
  intro k'
  simp only [get?_mapValues, get?_insert]
  split
  · rename_i hk
    rw [hk, Option.map_some]
  · rfl

@[simp] theorem mapValues_erase (m : IdMap α) (k : AgentId) (f : AgentId → α → β) :
    (m.erase k).mapValues f = (m.mapValues f).erase k := by
  apply ext_get?
  intro k'
  simp only [get?_mapValues, get?_erase]
  split <;> rfl

theorem erase_of_not_contains {m : IdMap α} {k : AgentId} (h : m.contains k = false) :
    m.erase k = m := by
  apply ext_get?
  intro k'
  rw [get?_erase]
  split
  · rename_i hk
    rw [hk]
    exact (m.contains_eq_false_iff.1 h).symm
  · rfl

theorem erase_insert (m : IdMap α) (k : AgentId) (a : α) : (m.insert k a).erase k = m.erase k := by
  apply ext_get?
  intro k'
  rw [get?_erase, get?_erase]
  split
  · rfl
  · rename_i hk
    rw [get?_insert, if_neg hk]

theorem contains_insert (m : IdMap α) (k k' : AgentId) (a : α) :
    (m.insert k a).contains k' = (decide (k' = k) || m.contains k') := by
  by_cases h : k' = k <;> simp [contains, h]

theorem contains_erase (m : IdMap α) (k k' : AgentId) :
    (m.erase k).contains k' = (!decide (k' = k) && m.contains k') := by
  by_cases h : k' = k <;> simp [contains, h]

@[simp] theorem contains_mapValues (m : IdMap α) (f : AgentId → α → β) (k : AgentId) :
    (m.mapValues f).contains k = m.contains k := by simp [contains]

/-- Maps that bind the same ids list them alike. -/
theorem keys_eq {m : IdMap α} {n : IdMap β} (h : ∀ k, m.contains k = n.contains k) :
    m.keys = n.keys := by
  have hunit : m.mapValues (fun _ _ => ()) = n.mapValues fun _ _ => () := by
    apply ext_get?
    intro k
    have hk := h k
    unfold contains at hk
    rw [get?_mapValues, get?_mapValues]
    cases hm : m.get? k <;> cases hn : n.get? k <;> simp [hm, hn] at hk ⊢
  have hkeys := congrArg keys hunit
  simpa [keys, mapValues, Function.comp_def] using hkeys

/-- The map with the value of one id changed, if it is bound. -/
def modify (m : IdMap α) (k : AgentId) (f : α → α) : IdMap α :=
  match m.get? k with
  | none => m
  | some a => m.insert k (f a)

@[simp] theorem get?_modify (m : IdMap α) (k k' : AgentId) (f : α → α) :
    (m.modify k f).get? k' = if k' = k then (m.get? k').map f else m.get? k' := by
  unfold modify
  by_cases hk : k' = k
  · subst hk
    cases h : m.get? k' <;> simp [h]
  · cases m.get? k <;> simp [hk]

@[simp] theorem contains_modify (m : IdMap α) (k k' : AgentId) (f : α → α) :
    (m.modify k f).contains k' = m.contains k' := by
  by_cases hk : k' = k <;> simp [contains, hk]

theorem insert_eq_modify {m : IdMap α} {k : AgentId} {a : α} (h : m.get? k = some a) (f : α → α) :
    m.insert k (f a) = m.modify k f := by simp [modify, h]

end IdMap

end FlagCombat
