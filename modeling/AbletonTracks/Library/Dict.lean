import Mathlib.Data.List.Perm.Subperm
import Mathlib.Data.List.Nodup

/-!
# Insertion-ordered dictionaries

A dictionary keeps its entries in the order in which their keys were first
inserted, as Python's `dict` does.  Key uniqueness is a field, so every
dictionary that can be built is well formed and no caller proves it again.

Lookups are characterized by `get?`; the order of the entries matters only to
iteration (`keys`, `find?`).
-/

namespace Library

universe u v

/-- Entries in insertion order, with pairwise distinct keys. -/
structure Dict (κ : Type u) (ν : Type v) where
  /-- The key-value pairs, oldest key first. -/
  entries : List (κ × ν)
  /-- No key occurs twice. -/
  nodup : (entries.map Prod.fst).Nodup

namespace Dict

variable {κ : Type u} {ν : Type v}

/-- Two dictionaries with the same entries in the same order are equal. -/
@[ext] theorem ext
    {left right : Dict κ ν}
    (equal : left.entries = right.entries) :
    left = right := by
  cases left
  cases right
  cases equal
  rfl

instance [DecidableEq κ] [DecidableEq ν] : DecidableEq (Dict κ ν) :=
  fun left right =>
    decidable_of_iff (left.entries = right.entries)
      ⟨Dict.ext, fun equal => equal ▸ rfl⟩

/-- The dictionary without entries. -/
def empty : Dict κ ν := ⟨[], List.nodup_nil⟩

instance : EmptyCollection (Dict κ ν) := ⟨empty⟩

/-- The keys in insertion order. -/
def keys (dict : Dict κ ν) : List κ := dict.entries.map Prod.fst

theorem nodup_keys (dict : Dict κ ν) : dict.keys.Nodup := dict.nodup

instance : Membership κ (Dict κ ν) := ⟨fun dict key => key ∈ dict.keys⟩

theorem mem_iff_mem_keys {dict : Dict κ ν} {key : κ} :
    key ∈ dict ↔ key ∈ dict.keys := Iff.rfl

theorem mem_of_mem_entries
    {dict : Dict κ ν}
    {entry : κ × ν}
    (member : entry ∈ dict.entries) :
    entry.1 ∈ dict :=
  List.mem_map_of_mem member

@[simp] theorem not_mem_empty (key : κ) : key ∉ (∅ : Dict κ ν) := by
  simp [mem_iff_mem_keys, keys, EmptyCollection.emptyCollection, empty]

variable [DecidableEq κ]

instance (dict : Dict κ ν) (key : κ) : Decidable (key ∈ dict) :=
  inferInstanceAs (Decidable (key ∈ dict.keys))

/-- The value stored under a key, if any. -/
def get? (dict : Dict κ ν) (key : κ) : Option ν :=
  (dict.entries.find? fun entry => entry.1 = key).map Prod.snd

/-- A stored pair is exactly a successful lookup: keys are unique. -/
theorem mem_entries_iff
    {dict : Dict κ ν}
    {key : κ}
    {value : ν} :
    (key, value) ∈ dict.entries ↔ dict.get? key = some value := by
  obtain ⟨entries, nodup⟩ := dict
  simp only [get?]
  induction entries with
  | nil => simp
  | cons entry rest inductionHypothesis =>
      obtain ⟨head, stored⟩ := entry
      simp only [List.map_cons, List.nodup_cons] at nodup
      by_cases same : head = key
      · subst same
        have absent : (head, value) ∉ rest := fun member =>
          nodup.1 (List.mem_map_of_mem (f := Prod.fst) member)
        simp [absent, eq_comm]
      · have different : ¬(key = head ∧ value = stored) :=
          fun both => same both.1.symm
        simpa [same, different] using inductionHypothesis nodup.2

theorem get?_eq_none_iff
    {dict : Dict κ ν}
    {key : κ} :
    dict.get? key = none ↔ key ∉ dict := by
  simp only [get?, Option.map_eq_none_iff, List.find?_eq_none,
    decide_eq_true_eq, mem_iff_mem_keys, keys, List.mem_map, not_exists,
    not_and]

theorem mem_iff_exists_get?
    {dict : Dict κ ν}
    {key : κ} :
    key ∈ dict ↔ ∃ value, dict.get? key = some value := by
  rw [← Option.ne_none_iff_exists', Ne, get?_eq_none_iff, not_not]

theorem mem_of_get?
    {dict : Dict κ ν}
    {key : κ}
    {value : ν}
    (found : dict.get? key = some value) :
    key ∈ dict :=
  mem_iff_exists_get?.mpr ⟨value, found⟩

@[simp] theorem get?_empty (key : κ) : (∅ : Dict κ ν).get? key = none :=
  get?_eq_none_iff.mpr (not_mem_empty key)

/-- Python's `d[key] = value`: replace in place, or append a new key. -/
def insert (dict : Dict κ ν) (key : κ) (value : ν) : Dict κ ν :=
  if present : key ∈ dict then
    ⟨dict.entries.map fun entry =>
        if entry.1 = key then (entry.1, value) else entry, by
      have unchanged : (dict.entries.map fun entry =>
          if entry.1 = key then (entry.1, value) else entry).map Prod.fst =
            dict.entries.map Prod.fst := by
        rw [List.map_map]
        refine List.map_congr_left fun entry _ => ?_
        simp only [Function.comp]
        split <;> rfl
      rw [unchanged]
      exact dict.nodup⟩
  else
    ⟨dict.entries ++ [(key, value)], by
      rw [List.map_append]
      exact List.Nodup.append dict.nodup (List.nodup_singleton key)
        (List.disjoint_singleton.mpr present)⟩

/-- Python's `d.pop(key, None)`, without the returned value. -/
def erase (dict : Dict κ ν) (key : κ) : Dict κ ν :=
  ⟨dict.entries.filter fun entry => entry.1 ≠ key,
    dict.nodup.sublist (List.filter_sublist.map Prod.fst)⟩

/-- Rewrite the value under one key in place; other keys are untouched. -/
def modify (dict : Dict κ ν) (key : κ) (change : ν → ν) : Dict κ ν :=
  match dict.get? key with
  | none => dict
  | some value => dict.insert key (change value)

/-- The entries whose keys satisfy a predicate, in the same order. -/
def filterKeys (dict : Dict κ ν) (keep : κ → Bool) : Dict κ ν :=
  ⟨dict.entries.filter fun entry => keep entry.1,
    dict.nodup.sublist (List.filter_sublist.map Prod.fst)⟩

/-- Python's `left == right`: the same items, in whatever order. -/
def sameItems [DecidableEq ν] (left right : Dict κ ν) : Bool :=
  left.entries.length = right.entries.length &&
    left.entries.all fun entry => right.get? entry.1 = some entry.2

theorem keys_insert_of_mem
    {dict : Dict κ ν}
    {key : κ}
    (present : key ∈ dict)
    (value : ν) :
    (dict.insert key value).keys = dict.keys := by
  rw [insert, dif_pos present]
  simp only [keys, List.map_map]
  refine List.map_congr_left fun entry _ => ?_
  simp only [Function.comp]
  split <;> rfl

theorem entries_insert_of_not_mem
    {dict : Dict κ ν}
    {key : κ}
    (absent : key ∉ dict)
    (value : ν) :
    (dict.insert key value).entries = dict.entries ++ [(key, value)] := by
  rw [insert, dif_neg absent]

theorem keys_insert_of_not_mem
    {dict : Dict κ ν}
    {key : κ}
    (absent : key ∉ dict)
    (value : ν) :
    (dict.insert key value).keys = dict.keys ++ [key] := by
  simp [keys, entries_insert_of_not_mem absent]

@[simp] theorem mem_insert
    {dict : Dict κ ν}
    {key other : κ}
    {value : ν} :
    other ∈ dict.insert key value ↔ other = key ∨ other ∈ dict := by
  by_cases present : key ∈ dict
  · rw [mem_iff_mem_keys, keys_insert_of_mem present, ← mem_iff_mem_keys]
    constructor
    · exact Or.inr
    · rintro (rfl | member)
      · exact present
      · exact member
  · rw [mem_iff_mem_keys, keys_insert_of_not_mem present, List.mem_append,
      List.mem_singleton, ← mem_iff_mem_keys, or_comm]

@[simp] theorem get?_insert_self
    (dict : Dict κ ν)
    (key : κ)
    (value : ν) :
    (dict.insert key value).get? key = some value := by
  rw [← mem_entries_iff]
  by_cases present : key ∈ dict
  · obtain ⟨entry, member, rfl⟩ := List.mem_map.mp present
    rw [insert, dif_pos present]
    exact List.mem_map.mpr ⟨entry, member, by simp⟩
  · simp [entries_insert_of_not_mem present]

theorem get?_insert_of_ne
    (dict : Dict κ ν)
    {key other : κ}
    (different : other ≠ key)
    (value : ν) :
    (dict.insert key value).get? other = dict.get? other := by
  ext stored
  rw [← mem_entries_iff, ← mem_entries_iff]
  by_cases present : key ∈ dict
  · rw [insert, dif_pos present]
    simp only [List.mem_map, Prod.exists]
    constructor
    · rintro ⟨first, second, member, equal⟩
      by_cases same : first = key
      · rw [if_pos same, Prod.mk.injEq] at equal
        exact absurd (equal.1.symm.trans same) different
      · rw [if_neg same] at equal
        exact equal ▸ member
    · intro member
      exact ⟨other, stored, member, by simp [different]⟩
  · simp [entries_insert_of_not_mem present, different]

theorem get?_insert
    (dict : Dict κ ν)
    (key other : κ)
    (value : ν) :
    (dict.insert key value).get? other =
      if other = key then some value else dict.get? other := by
  by_cases same : other = key
  · subst same
    simp
  · rw [get?_insert_of_ne dict same, if_neg same]

/-- What a table holds after insertions was there before, or was inserted. -/
theorem get?_foldl_insert
    {α : Type*}
    {name : α → κ} {content : α → ν}
    {items : List α} {dict : Dict κ ν}
    {key : κ} {value : ν}
    (found : (items.foldl
      (fun table item => table.insert (name item) (content item)) dict).get?
        key = some value) :
    dict.get? key = some value ∨
      ∃ item ∈ items, name item = key ∧ content item = value := by
  induction items generalizing dict with
  | nil => exact Or.inl found
  | cons item rest inductionHypothesis =>
      rcases inductionHypothesis found with inserted | ⟨later, member, same⟩
      · rw [get?_insert] at inserted
        split at inserted
        · rename_i own
          exact Or.inr ⟨item, List.mem_cons_self, own.symm,
            Option.some.inj inserted⟩
        · exact Or.inl inserted
      · exact Or.inr ⟨later, List.mem_cons_of_mem _ member, same⟩

/-- The last item that is accepted, of a list that grew by one: what a table
holds, when later items overwrite earlier ones. -/
theorem getLast?_filter_append_singleton
    {α : Type*}
    (accepts : α → Bool)
    (items : List α)
    (item : α) :
    ((items ++ [item]).filter accepts).getLast? =
      if accepts item then some item
      else (items.filter accepts).getLast? := by
  rw [List.filter_append]
  split
  · rename_i accepted
    rw [List.filter_cons_of_pos accepted, List.filter_nil,
      List.getLast?_append]
    rfl
  · rename_i refused
    rw [List.filter_cons_of_neg refused, List.filter_nil, List.append_nil]

/-- A value that is overwritten at once leaves no trace. -/
@[simp] theorem insert_insert
    (dict : Dict κ ν)
    (key : κ)
    (first second : ν) :
    (dict.insert key first).insert key second = dict.insert key second := by
  ext1
  have present : key ∈ dict.insert key first := mem_insert.mpr (Or.inl rfl)
  by_cases before : key ∈ dict
  · rw [insert, dif_pos present, insert, insert, dif_pos before,
      dif_pos before]
    simp only [List.map_map]
    refine List.map_congr_left fun entry _ => ?_
    by_cases same : entry.1 = key <;> simp [same]
  · have others : dict.entries.map (fun entry =>
        if entry.1 = key then (entry.1, second) else entry) =
          dict.entries := by
      refine (List.map_congr_left fun entry member => ?_).trans
        (List.map_id dict.entries)
      have different : entry.1 ≠ key := fun same =>
        before (same ▸ mem_of_mem_entries member)
      simp [different]
    rw [insert, dif_pos present]
    simp [entries_insert_of_not_mem before, others]

@[simp] theorem mem_erase
    {dict : Dict κ ν}
    {key other : κ} :
    other ∈ dict.erase key ↔ other ∈ dict ∧ other ≠ key := by
  simp only [mem_iff_mem_keys, keys, erase, List.mem_map, List.mem_filter,
    decide_eq_true_eq]
  constructor
  · rintro ⟨entry, ⟨member, different⟩, rfl⟩
    exact ⟨⟨entry, member, rfl⟩, different⟩
  · rintro ⟨⟨entry, member, rfl⟩, different⟩
    exact ⟨entry, ⟨member, different⟩, rfl⟩

theorem mem_entries_erase
    {dict : Dict κ ν}
    {key : κ}
    {entry : κ × ν} :
    entry ∈ (dict.erase key).entries ↔
      entry ∈ dict.entries ∧ entry.1 ≠ key := by
  simp [erase]

@[simp] theorem get?_erase_self
    (dict : Dict κ ν)
    (key : κ) :
    (dict.erase key).get? key = none := by
  rw [get?_eq_none_iff]
  simp

theorem get?_erase_of_ne
    (dict : Dict κ ν)
    {key other : κ}
    (different : other ≠ key) :
    (dict.erase key).get? other = dict.get? other := by
  ext stored
  rw [← mem_entries_iff, ← mem_entries_iff, mem_entries_erase]
  simp [different]

theorem get?_erase
    (dict : Dict κ ν)
    (key other : κ) :
    (dict.erase key).get? other =
      if other = key then none else dict.get? other := by
  by_cases same : other = key
  · subst same
    simp
  · rw [get?_erase_of_ne dict same, if_neg same]

theorem keys_erase (dict : Dict κ ν) (key : κ) :
    (dict.erase key).keys = dict.keys.filter fun other => other ≠ key := by
  simp only [keys, erase, List.filter_map]
  rfl

@[simp] theorem keys_modify
    (dict : Dict κ ν)
    (key : κ)
    (change : ν → ν) :
    (dict.modify key change).keys = dict.keys := by
  unfold modify
  cases found : dict.get? key with
  | none => rfl
  | some value => exact keys_insert_of_mem (mem_of_get? found) (change value)

@[simp] theorem mem_modify
    {dict : Dict κ ν}
    {key other : κ}
    {change : ν → ν} :
    other ∈ dict.modify key change ↔ other ∈ dict := by
  simp [mem_iff_mem_keys]

theorem get?_modify
    (dict : Dict κ ν)
    (key other : κ)
    (change : ν → ν) :
    (dict.modify key change).get? other =
      if other = key then (dict.get? other).map change
      else dict.get? other := by
  unfold modify
  cases found : dict.get? key with
  | none =>
      by_cases same : other = key
      · subst same
        simp [found]
      · simp [same]
  | some value =>
      rw [get?_insert]
      by_cases same : other = key
      · subst same
        simp [found]
      · simp [same]

/-- The first key in insertion order whose value satisfies a predicate, as
`next((k for k, v in d.items() if p(v)), None)` finds it. -/
def findKey? (dict : Dict κ ν) (accepts : ν → Bool) : Option κ :=
  (dict.entries.find? fun entry => accepts entry.2).map Prod.fst

omit [DecidableEq κ] in
theorem findKey?_eq_none_iff
    {dict : Dict κ ν}
    {accepts : ν → Bool} :
    dict.findKey? accepts = none ↔
      ∀ entry ∈ dict.entries, accepts entry.2 = false := by
  simp [findKey?]

theorem get?_of_findKey?
    {dict : Dict κ ν}
    {accepts : ν → Bool}
    {key : κ}
    (found : dict.findKey? accepts = some key) :
    ∃ value, dict.get? key = some value ∧ accepts value = true := by
  simp only [findKey?, Option.map_eq_some_iff] at found
  obtain ⟨entry, entryFound, rfl⟩ := found
  exact ⟨entry.2, mem_entries_iff.mp (List.mem_of_find?_eq_some entryFound),
    by simpa using List.find?_some entryFound⟩

theorem findKey?_eq_none_iff_get?
    {dict : Dict κ ν}
    {accepts : ν → Bool} :
    dict.findKey? accepts = none ↔
      ∀ key value, dict.get? key = some value → accepts value = false := by
  rw [findKey?_eq_none_iff]
  constructor
  · intro none_accepted key value found
    exact none_accepted (key, value) (mem_entries_iff.mpr found)
  · intro none_accepted entry member
    exact none_accepted entry.1 entry.2 (mem_entries_iff.mp member)

/-- Of the entries those are left whose keys are kept. -/
theorem get?_filterKeys
    (dict : Dict κ ν)
    (keep : κ → Bool)
    (key : κ) :
    (dict.filterKeys keep).get? key =
      if keep key then dict.get? key else none := by
  ext stored
  rw [← mem_entries_iff]
  split
  · rename_i kept
    rw [← mem_entries_iff]
    simp [filterKeys, kept]
  · rename_i dropped
    simp [filterKeys, dropped]

omit [DecidableEq κ] in
theorem nodup_entries (dict : Dict κ ν) : dict.entries.Nodup :=
  List.Nodup.of_map Prod.fst dict.nodup

/-- Two dictionaries have the same items when they agree at every key. -/
theorem sameItems_iff
    [DecidableEq ν]
    {left right : Dict κ ν} :
    left.sameItems right = true ↔ ∀ key, left.get? key = right.get? key := by
  simp only [sameItems, Bool.and_eq_true, decide_eq_true_eq, List.all_eq_true]
  constructor
  · rintro ⟨length, inside⟩ key
    have subset : left.entries ⊆ right.entries := fun entry member =>
      mem_entries_iff.mpr (inside entry member)
    have perm : left.entries.Perm right.entries :=
      (List.subperm_of_subset left.nodup_entries subset).perm_of_length_le
        (Nat.le_of_eq length.symm)
    ext value
    rw [← mem_entries_iff, ← mem_entries_iff, perm.mem_iff]
  · intro same
    have perm : left.entries.Perm right.entries := by
      refine (List.perm_ext_iff_of_nodup left.nodup_entries
        right.nodup_entries).mpr fun entry => ?_
      rw [mem_entries_iff, mem_entries_iff, same]
    refine ⟨perm.length_eq, fun entry member => ?_⟩
    rw [← same]
    exact mem_entries_iff.mp member

end Dict
end Library
