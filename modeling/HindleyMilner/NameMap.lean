/-! Finite maps from names, listed in ascending order of the names.

The order is part of the type, so two maps that give every name the same value are equal, and
listing a map needs no sorting. Names ascend by code point. -/

set_option autoImplicit false

namespace HindleyMilner

variable {α β : Type}

def Ascending (entries : List (String × α)) : Prop :=
  entries.Pairwise fun a b => a.1 < b.1

structure NameMap (α : Type) where
  entries : List (String × α)
  ascending : Ascending entries

namespace NameMap

def empty : NameMap α := ⟨[], .nil⟩

instance : EmptyCollection (NameMap α) := ⟨empty⟩

def findEntry (name : String) : List (String × α) → Option α
  | [] => none
  | (key, value) :: rest => if name = key then some value else findEntry name rest

def find? (map : NameMap α) (name : String) : Option α := findEntry name map.entries

def contains (map : NameMap α) (name : String) : Bool := (map.find? name).isSome

def names (map : NameMap α) : List String := map.entries.map Prod.fst

def size (map : NameMap α) : Nat := map.entries.length

def isEmpty (map : NameMap α) : Bool := map.entries.isEmpty

/-- Put an entry in its place; an entry of the same name is replaced. -/
def insertEntry (name : String) (value : α) : List (String × α) → List (String × α)
  | [] => [(name, value)]
  | (key, old) :: rest =>
    if name < key then (name, value) :: (key, old) :: rest
    else if name = key then (name, value) :: rest
    else (key, old) :: insertEntry name value rest

theorem mem_insertEntry {name : String} {value : α} {entries : List (String × α)}
    {entry : String × α} (mem : entry ∈ insertEntry name value entries) :
    entry = (name, value) ∨ entry ∈ entries := by
  induction entries with
  | nil => simpa [insertEntry] using mem
  | cons head rest ih =>
    obtain ⟨key, old⟩ := head
    unfold insertEntry at mem
    split at mem
    · simpa using mem
    · split at mem
      · rcases List.mem_cons.1 mem with same | inRest
        · exact .inl same
        · exact .inr (List.mem_cons_of_mem _ inRest)
      · rcases List.mem_cons.1 mem with same | inRest
        · exact .inr (same ▸ List.mem_cons_self)
        · exact (ih inRest).imp_right (List.mem_cons_of_mem _)

theorem ascending_insertEntry (name : String) (value : α) {entries : List (String × α)}
    (sorted : Ascending entries) : Ascending (insertEntry name value entries) := by
  induction entries with
  | nil => exact List.pairwise_singleton _ _
  | cons head rest ih =>
    obtain ⟨key, old⟩ := head
    obtain ⟨least, sortedRest⟩ := List.pairwise_cons.1 sorted
    unfold insertEntry
    split
    · rename_i below
      refine List.pairwise_cons.2 ⟨fun entry mem => ?_, sorted⟩
      rcases List.mem_cons.1 mem with rfl | inRest
      · exact below
      · exact String.lt_trans below (least entry inRest)
    · rename_i notBelow
      split
      · rename_i same
        exact List.pairwise_cons.2 ⟨fun entry mem => same ▸ least entry mem, sortedRest⟩
      · rename_i different
        have above : key < name := by
          rcases Std.lt_trichotomy name key with below | same | above
          · exact absurd below notBelow
          · exact absurd same different
          · exact above
        refine List.pairwise_cons.2 ⟨fun entry mem => ?_, ih sortedRest⟩
        rcases mem_insertEntry mem with rfl | inRest
        · exact above
        · exact least entry inRest

def insert (map : NameMap α) (name : String) (value : α) : NameMap α :=
  ⟨insertEntry name value map.entries, ascending_insertEntry name value map.ascending⟩

def single (name : String) (value : α) : NameMap α := (empty : NameMap α).insert name value

/-- Later entries of the list replace earlier ones of the same name. -/
def ofList (entries : List (String × α)) : NameMap α :=
  entries.foldl (fun map entry => map.insert entry.1 entry.2) empty

def erase (map : NameMap α) (name : String) : NameMap α :=
  ⟨map.entries.filter (·.1 ≠ name), map.ascending.filter _⟩

def map (f : α → β) (m : NameMap α) : NameMap β :=
  ⟨m.entries.map fun entry => (entry.1, f entry.2),
    List.pairwise_map.2 (m.ascending.imp fun less => less)⟩

/-- Both maps together; where both have an entry, the one of `first` counts. -/
def union (first second : NameMap α) : NameMap α :=
  first.entries.foldl (fun map entry => map.insert entry.1 entry.2) second

@[simp] theorem find?_empty (name : String) : (empty : NameMap α).find? name = none := rfl

@[simp] theorem find?_emptyCollection (name : String) : (∅ : NameMap α).find? name = none := rfl

theorem findEntry_insertEntry (name : String) (value : α) (entries : List (String × α))
    (query : String) :
    findEntry query (insertEntry name value entries) =
      if query = name then some value else findEntry query entries := by
  induction entries with
  | nil => simp [insertEntry, findEntry]
  | cons head rest ih =>
    obtain ⟨key, old⟩ := head
    unfold insertEntry
    split
    · simp [findEntry]
    · split <;> grind [findEntry]

@[simp] theorem find?_insert (map : NameMap α) (name : String) (value : α) (query : String) :
    (map.insert name value).find? query = if query = name then some value else map.find? query :=
  findEntry_insertEntry name value map.entries query

@[simp] theorem find?_single (name : String) (value : α) (query : String) :
    (single name value).find? query = if query = name then some value else none := by
  simp [single]

@[simp] theorem find?_map (f : α → β) (m : NameMap α) (query : String) :
    (m.map f).find? query = (m.find? query).map f := by
  obtain ⟨entries, sorted⟩ := m
  simp only [find?, map]
  clear sorted
  induction entries with
  | nil => rfl
  | cons head rest ih =>
    simp only [List.map_cons, findEntry]
    split
    · rfl
    · exact ih

@[simp] theorem find?_erase (m : NameMap α) (name query : String) :
    (m.erase name).find? query = if query = name then none else m.find? query := by
  obtain ⟨entries, sorted⟩ := m
  simp only [find?, erase]
  clear sorted
  induction entries with
  | nil => simp [findEntry]
  | cons head rest ih =>
    by_cases gone : head.1 = name <;> grind [findEntry]

theorem find?_foldl_insert (first : List (String × α)) (second : NameMap α) (query : String)
    (absent : findEntry query first = none) :
    (first.foldl (fun map entry => map.insert entry.1 entry.2) second).find? query =
      second.find? query := by
  induction first generalizing second with
  | nil => rfl
  | cons head rest ih =>
    have other : query ≠ head.1 := by
      intro same
      simp [findEntry, same] at absent
    simp only [findEntry, other, if_false] at absent
    simp [ih _ absent, other]

theorem findEntry_eq_none_of_lt {name : String} {entries : List (String × α)}
    (least : ∀ entry ∈ entries, name < entry.1) : findEntry name entries = none := by
  induction entries with
  | nil => rfl
  | cons head rest ih =>
    have below := least head List.mem_cons_self
    have other : name ≠ head.1 := fun same => String.lt_irrefl _ (same ▸ below)
    simp [findEntry, other, ih fun entry mem => least entry (List.mem_cons_of_mem _ mem)]

@[simp] theorem find?_union (first second : NameMap α) (query : String) :
    (first.union second).find? query = (first.find? query).or (second.find? query) := by
  obtain ⟨entries, sorted⟩ := first
  simp only [union]
  induction entries generalizing second with
  | nil => simp [find?, findEntry]
  | cons head rest ih =>
    obtain ⟨least, sortedRest⟩ := List.pairwise_cons.1 sorted
    by_cases hit : query = head.1
    · have absent : findEntry query rest = none :=
        findEntry_eq_none_of_lt fun entry mem => hit ▸ least entry mem
      rw [List.foldl_cons, find?_foldl_insert rest _ query absent, find?_insert]
      simp [hit, find?, findEntry]
    · rw [List.foldl_cons, ih _ sortedRest, find?_insert]
      simp [hit, find?, findEntry]

theorem findEntry_eq_some_of_mem {name : String} {value : α} {entries : List (String × α)}
    (sorted : Ascending entries) (mem : (name, value) ∈ entries) :
    findEntry name entries = some value := by
  induction entries with
  | nil => exact absurd mem List.not_mem_nil
  | cons head rest ih =>
    obtain ⟨least, sortedRest⟩ := List.pairwise_cons.1 sorted
    rcases List.mem_cons.1 mem with rfl | inRest
    · simp [findEntry]
    · have below := least (name, value) inRest
      have other : name ≠ head.1 := fun same => String.lt_irrefl _ (same ▸ below)
      simp [findEntry, other, ih sortedRest inRest]

theorem mem_of_findEntry {name : String} {value : α} {entries : List (String × α)}
    (found : findEntry name entries = some value) : (name, value) ∈ entries := by
  induction entries with
  | nil => cases found
  | cons head rest ih =>
    obtain ⟨key, old⟩ := head
    unfold findEntry at found
    split at found
    · rename_i same
      cases found
      exact same ▸ List.mem_cons_self
    · exact List.mem_cons_of_mem _ (ih found)

theorem findEntry_eq_none {name : String} {entries : List (String × α)} :
    findEntry name entries = none ↔ ∀ value, (name, value) ∉ entries := by
  induction entries with
  | nil => simp [findEntry]
  | cons head rest ih =>
    obtain ⟨key, old⟩ := head
    by_cases same : name = key
    · simp only [findEntry, same, if_true, List.mem_cons, Prod.mk.injEq, true_and]
      constructor
      · intro impossible
        cases impossible
      · intro absent
        exact absurd (.inl rfl) (absent old)
    · simp [findEntry, same, ih]

theorem findEntry_append (name : String) (first second : List (String × α)) :
    findEntry name (first ++ second) = (findEntry name first).or (findEntry name second) := by
  induction first with
  | nil => rfl
  | cons head rest ih =>
    obtain ⟨key, old⟩ := head
    by_cases same : name = key <;> simp [findEntry, same, ih]

theorem find?_ofList (entries : List (String × α)) (query : String) :
    (ofList entries).find? query = findEntry query entries.reverse := by
  suffices step : ∀ map : NameMap α,
      (entries.foldl (fun map entry => map.insert entry.1 entry.2) map).find? query =
        (findEntry query entries.reverse).or (map.find? query) by
    rw [ofList, step, find?_empty, Option.or_none]
  induction entries with
  | nil => exact fun _ => rfl
  | cons head rest ih =>
    intro map
    rw [List.foldl_cons, ih, find?_insert, List.reverse_cons, findEntry_append, Option.or_assoc]
    by_cases same : query = head.1 <;> simp [findEntry, same]

theorem find?_ofList_of_mem {name : String} {value : α} {entries : List (String × α)}
    (mem : (name, value) ∈ entries) (only : ∀ other, (name, other) ∈ entries → other = value) :
    (ofList entries).find? name = some value := by
  rw [find?_ofList]
  cases found : findEntry name entries.reverse with
  | none => exact absurd (List.mem_reverse.2 mem) (findEntry_eq_none.1 found value)
  | some other => rw [only other (List.mem_reverse.1 (mem_of_findEntry found))]

theorem find?_ofList_eq_none {name : String} {entries : List (String × α)}
    (absent : ∀ value, (name, value) ∉ entries) : (ofList entries).find? name = none := by
  rw [find?_ofList, findEntry_eq_none]
  exact fun value mem => absent value (List.mem_reverse.1 mem)

theorem mem_entries {map : NameMap α} {name : String} {value : α} :
    (name, value) ∈ map.entries ↔ map.find? name = some value :=
  ⟨findEntry_eq_some_of_mem map.ascending, mem_of_findEntry⟩

theorem ext_find? {first second : NameMap α} (same : ∀ name, first.find? name = second.find? name) :
    first = second := by
  obtain ⟨left, sortedLeft⟩ := first
  obtain ⟨right, sortedRight⟩ := second
  simp only [find?] at same
  congr 1
  induction left generalizing right with
  | nil =>
    cases right with
    | nil => rfl
    | cons head rest => simpa [findEntry] using same head.1
  | cons head rest ih =>
    cases right with
    | nil => simpa [findEntry] using same head.1
    | cons head' rest' =>
      obtain ⟨key, value⟩ := head
      obtain ⟨key', value'⟩ := head'
      obtain ⟨least, sortedRest⟩ := List.pairwise_cons.1 sortedLeft
      obtain ⟨least', sortedRest'⟩ := List.pairwise_cons.1 sortedRight
      have sameKey : key = key' := by
        rcases Std.lt_trichotomy key key' with below | equal | above
        · have gone : findEntry key rest' = none :=
            findEntry_eq_none_of_lt fun entry mem => String.lt_trans below (least' entry mem)
          have other : key ≠ key' := fun equal => String.lt_irrefl _ (equal ▸ below)
          simpa [findEntry, gone, other] using same key
        · exact equal
        · have gone : findEntry key' rest = none :=
            findEntry_eq_none_of_lt fun entry mem => String.lt_trans above (least entry mem)
          have other : key' ≠ key := fun equal => String.lt_irrefl _ (equal ▸ above)
          simpa [findEntry, gone, other] using same key'
      subst sameKey
      have sameValue : value = value' := by simpa [findEntry] using same key
      have sameRest : rest = rest' := by
        refine ih sortedRest rest' sortedRest' fun name => ?_
        by_cases hit : name = key
        · subst hit
          rw [findEntry_eq_none_of_lt least, findEntry_eq_none_of_lt least']
        · simpa [findEntry, hit] using same name
      rw [sameValue, sameRest]

end NameMap

end HindleyMilner
