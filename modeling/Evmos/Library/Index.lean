import Evmos.Library.Store

/-! An index kept beside a store: the keys under which what is stored can be looked up again. -/

namespace Library

variable {K I V : Type*}

namespace Store

variable [LinearOrder I]

/-- Enters an index key, if there is one. -/
def mark (index : Store I Unit) : Option I → Store I Unit
  | some entry => index.set entry ()
  | none => index

/-- Removes an index key, if there is one. -/
def clear (index : Store I Unit) : Option I → Store I Unit
  | some entry => index.delete entry
  | none => index

@[simp] theorem mark_some (index : Store I Unit) (entry : I) :
    index.mark (some entry) = index.set entry () := rfl

@[simp] theorem mark_none (index : Store I Unit) : index.mark none = index := rfl

@[simp] theorem clear_some (index : Store I Unit) (entry : I) :
    index.clear (some entry) = index.delete entry := rfl

@[simp] theorem clear_none (index : Store I Unit) : index.clear none = index := rfl

theorem get?_mark {index : Store I Unit} {added : Option I} {entry : I} :
    (index.mark added).get? entry = some () ↔
      added = some entry ∨ index.get? entry = some () := by
  cases added with
  | none => simp
  | some key =>
    -- The entry is the key itself, or it is looked up as before.
    by_cases same : entry = key
    · subst same
      simp
    · rw [mark_some, get?_set_of_ne index same, Option.some.injEq]
      exact ⟨.inr, fun held => held.resolve_left fun equal => same equal.symm⟩

theorem get?_clear {index : Store I Unit} {removed : Option I} {entry : I} :
    (index.clear removed).get? entry = some () ↔
      removed ≠ some entry ∧ index.get? entry = some () := by
  cases removed with
  | none => simp
  | some key =>
    -- The entry is the key itself, or it is looked up as before.
    by_cases same : entry = key
    · subst same
      simp
    · rw [clear_some, get?_delete_of_ne index same, ne_eq, Option.some.injEq]
      exact ⟨fun held => ⟨fun equal => same equal.symm, held⟩, And.right⟩

section Scan

variable {α : Type*} [DecidableEq α] [LinearOrder (List α)]

/-- The keys of an index that begin with given elements, without these. -/
def scan (index : Store (List α) Unit) (lead : List α) : List (List α) :=
  (index.entries.filter fun entry => decide (lead <+: entry.1)).map fun entry =>
    entry.1.drop lead.length

/-- A scan finds the remainders of the keys that the index holds. -/
theorem mem_scan {index : Store (List α) Unit} {lead rest : List α} :
    rest ∈ index.scan lead ↔ index.get? (lead ++ rest) = some () := by
  -- The prefix is cut off each key that begins with it.
  simp only [scan, List.mem_map, List.mem_filter, decide_eq_true_eq, get?_eq_some]
  constructor
  · rintro ⟨⟨key, ⟨⟩⟩, ⟨member, ⟨rest, rfl⟩⟩, rfl⟩
    rw [List.drop_left]
    exact member
  · intro member
    exact ⟨_, ⟨member, List.prefix_append lead rest⟩, List.drop_left⟩

theorem nodup_scan (index : Store (List α) Unit) (lead : List α) : (index.scan lead).Nodup := by
  have distinct : (index.entries.filter fun entry => decide (lead <+: entry.1)).Nodup :=
    (List.Nodup.of_map _ index.nodup_keys).filter _
  refine distinct.map_on ?_
  rintro ⟨key, ⟨⟩⟩ first ⟨other, ⟨⟩⟩ second same
  -- Keys with the same beginning and the same remainder are the same.
  obtain ⟨rest, rfl⟩ := of_decide_eq_true (List.mem_filter.mp first).2
  obtain ⟨again, rfl⟩ := of_decide_eq_true (List.mem_filter.mp second).2
  simp only [List.drop_left] at same
  rw [same]

theorem length_scan_le (index : Store (List α) Unit) (lead : List α) :
    (index.scan lead).length ≤ index.entries.length := by
  rw [scan, List.length_map]
  exact List.length_filter_le _ _

end Scan

end Store

/-- Index keys that lead back to the one place where their entry is stored. -/
def LeadsBack (indexKey : K → V → Option I) : Prop :=
  ∀ ⦃key other value content entry⦄,
    indexKey key value = some entry → indexKey other content = some entry → key = other

variable [LinearOrder K]

/-- The index key of what is stored at a key, if anything is. -/
def indexKeyAt (indexKey : K → V → Option I) (store : Store K V) (key : K) : Option I :=
  (store.get? key).bind (indexKey key)

variable {indexKey : K → V → Option I} {store : Store K V}

theorem indexKeyAt_set_self (store : Store K V) (key : K) (value : V) :
    indexKeyAt indexKey (store.set key value) key = indexKey key value := by
  simp [indexKeyAt]

theorem indexKeyAt_set_of_ne (store : Store K V) {key other : K} (elsewhere : other ≠ key)
    (value : V) :
    indexKeyAt indexKey (store.set key value) other = indexKeyAt indexKey store other := by
  rw [indexKeyAt, Store.get?_set_of_ne store elsewhere, indexKeyAt]

theorem LeadsBack.eq (leadsBack : LeadsBack indexKey) {key other : K} {entry : I}
    (first : indexKeyAt indexKey store key = some entry)
    (second : indexKeyAt indexKey store other = some entry) : key = other := by
  obtain ⟨value, -, first⟩ := Option.bind_eq_some_iff.mp first
  obtain ⟨content, -, second⟩ := Option.bind_eq_some_iff.mp second
  exact leadsBack first second

variable [LinearOrder I]

/-- An index that holds exactly the index keys of what is stored. -/
def Indexes (indexKey : K → V → Option I) (index : Store I Unit) (store : Store K V) : Prop :=
  ∀ entry, index.get? entry = some () ↔ ∃ key, indexKeyAt indexKey store key = some entry

variable {index : Store I Unit}

theorem Indexes.empty : Indexes indexKey Store.empty Store.empty := by
  intro entry
  simp [indexKeyAt]

/-- Storing a value keeps an index exact when its key takes the place of the one before. -/
theorem Indexes.set (leadsBack : LeadsBack indexKey) (exact : Indexes indexKey index store)
    (key : K) (value : V) :
    Indexes indexKey ((index.clear (indexKeyAt indexKey store key)).mark (indexKey key value))
      (store.set key value) := by
  intro entry
  rw [Store.get?_mark, Store.get?_clear, exact entry]
  constructor
  · rintro (new | ⟨notOld, other, held⟩)
    · exact ⟨key, (indexKeyAt_set_self store key value).trans new⟩
    · -- What was not the old key of this place is the key of another one, which is kept.
      have elsewhere : other ≠ key := fun same => notOld (same ▸ held)
      exact ⟨other, (indexKeyAt_set_of_ne store elsewhere value).trans held⟩
  · rintro ⟨other, held⟩
    by_cases same : other = key
    · subst same
      exact .inl ((indexKeyAt_set_self store other value).symm.trans held)
    · rw [indexKeyAt_set_of_ne store same] at held
      exact .inr ⟨fun old => same (leadsBack.eq held old), other, held⟩

/-- Storing a value under the index key of the one before it needs no change of the index. -/
theorem Indexes.set_same (exact : Indexes indexKey index store) {key : K} {value : V}
    (same : indexKey key value = indexKeyAt indexKey store key) :
    Indexes indexKey index (store.set key value) := by
  intro entry
  -- At every key of the store the index key is what it was.
  have unchanged : ∀ other, indexKeyAt indexKey (store.set key value) other =
      indexKeyAt indexKey store other := by
    intro other
    by_cases here : other = key
    · rw [here, indexKeyAt_set_self, same]
    · exact indexKeyAt_set_of_ne store here value
  simp only [unchanged]
  exact exact entry

/-- Deleting an entry keeps an index exact when its key is removed. -/
theorem Indexes.delete (leadsBack : LeadsBack indexKey) (exact : Indexes indexKey index store)
    (key : K) :
    Indexes indexKey (index.clear (indexKeyAt indexKey store key)) (store.delete key) := by
  intro entry
  rw [Store.get?_clear, exact entry]
  constructor
  · rintro ⟨notOld, other, held⟩
    have elsewhere : other ≠ key := fun same => notOld (same ▸ held)
    refine ⟨other, ?_⟩
    rw [indexKeyAt, Store.get?_delete_of_ne store elsewhere]
    exact held
  · rintro ⟨other, held⟩
    -- Nothing is left at the deleted place, so the key belongs to another one.
    have elsewhere : other ≠ key := by
      rintro rfl
      simp [indexKeyAt] at held
    rw [indexKeyAt, Store.get?_delete_of_ne store elsewhere] at held
    exact ⟨fun old => elsewhere (leadsBack.eq held old), other, held⟩

end Library
