import Mathlib

/-! A key-value store that is iterated in the order of its keys, and totals over its entries. -/

namespace Library

variable {K V M : Type*}

/-- A store, as the list an iterator over it visits. -/
structure Store (K V : Type*) [LinearOrder K] where
  -- The entries, each key with its value.
  entries : List (K × V)
  -- Keys strictly increase, so no key is stored twice.
  sorted : entries.Pairwise fun first second => first.1 < second.1

namespace Store

variable [LinearOrder K] {key other : K} {store : Store K V} {value content : V}
  {entries : List (K × V)}

/-- The store without entries. -/
def empty : Store K V := ⟨[], .nil⟩

/-- The value stored at a key. -/
def get? (store : Store K V) (key : K) : Option V :=
  (store.entries.find? fun entry => entry.1 = key).map Prod.snd

/-- Removes the entry of a key, if there is one. -/
def delete (store : Store K V) (key : K) : Store K V where
  entries := store.entries.filter fun entry => entry.1 ≠ key
  sorted := store.sorted.filter _

/-- Stores a value at a key, in place of the value stored there before. -/
def set (store : Store K V) (key : K) (value : V) : Store K V where
  -- Smaller keys come before the new entry, and larger ones after it.
  entries := store.entries.filter (fun entry => entry.1 < key) ++
    (key, value) :: store.entries.filter fun entry => key < entry.1
  sorted := by
    refine List.pairwise_append.mpr ⟨store.sorted.filter _, List.pairwise_cons.mpr ⟨?_,
      store.sorted.filter _⟩, ?_⟩
    · intro entry member
      simpa using (List.mem_filter.mp member).2
    · intro below memberBelow above memberAbove
      have low : below.1 < key := by simpa using (List.mem_filter.mp memberBelow).2
      rcases List.mem_cons.mp memberAbove with rfl | memberAbove
      · exact low
      · have high : key < above.1 := by simpa using (List.mem_filter.mp memberAbove).2
        exact low.trans high

/-- The values added up over all entries. -/
def total [AddCommMonoid M] (weight : K → V → M) (store : Store K V) : M :=
  (store.entries.map fun entry => weight entry.1 entry.2).sum

@[ext] theorem ext {other : Store K V} (same : store.entries = other.entries) : store = other := by
  obtain ⟨entries, sorted⟩ := store
  obtain rfl : entries = other.entries := same
  rfl

theorem unique (store : Store K V) {other : V} (member : (key, value) ∈ store.entries)
    (second : (key, other) ∈ store.entries) : value = other := by
  -- Strictly increasing keys do not repeat, so a key determines its entry.
  have keys : (store.entries.map Prod.fst).Nodup :=
    List.pairwise_map.mpr (store.sorted.imp fun less => less.ne)
  have same := List.inj_on_of_nodup_map keys member second rfl
  exact congrArg Prod.snd same

theorem get?_eq_some :
    store.get? key = some value ↔ (key, value) ∈ store.entries := by
  constructor
  · intro found
    obtain ⟨entry, hit, rfl⟩ := Option.map_eq_some_iff.mp found
    have here : entry.1 = key := by simpa using List.find?_some hit
    exact here ▸ List.mem_of_find?_eq_some hit
  · intro member
    rcases hit : store.entries.find? (fun entry => entry.1 = key) with _ | entry
    · have missed := List.find?_eq_none.mp hit (key, value) member
      simp at missed
    · have here : entry.1 = key := by simpa using List.find?_some hit
      -- Keys are stored once, so the entry that is found first is the one.
      have same : entry.2 = value := store.unique (here ▸ List.mem_of_find?_eq_some hit) member
      rw [get?, hit, Option.map_some, same]

theorem get?_eq_none :
    store.get? key = none ↔ ∀ value, (key, value) ∉ store.entries := by
  simp only [← get?_eq_some, Option.eq_none_iff_forall_ne_some, ne_eq]

theorem eq_empty (absent : ∀ key, store.get? key = none) : store = empty := by
  refine ext (List.eq_nil_iff_forall_not_mem.mpr ?_)
  rintro ⟨key, value⟩ member
  exact get?_eq_none.mp (absent key) value member

/-- Stores in which every key reads the same are equal. -/
theorem ext_get? {other : Store K V} (same : ∀ key, store.get? key = other.get? key) :
    store = other := by
  have distinct : ∀ store : Store K V, store.entries.Nodup := fun store =>
    store.sorted.imp fun less equal => less.ne (congrArg Prod.fst equal)
  -- The two lists have the same entries, and both are sorted by distinct keys.
  have permuted : store.entries.Perm other.entries := by
    refine (List.perm_ext_iff_of_nodup (distinct store) (distinct other)).mpr ?_
    rintro ⟨key, value⟩
    rw [← get?_eq_some, ← get?_eq_some, same key]
  refine ext (permuted.eq_of_pairwise ?_ store.sorted other.sorted)
  intro first second _ _ less more
  exact absurd less more.asymm

@[simp] theorem get?_empty (key : K) : (empty : Store K V).get? key = none := rfl

@[simp] theorem entries_empty : (empty : Store K V).entries = [] := rfl

theorem mem_set :
    (other, content) ∈ (store.set key value).entries ↔
      other = key ∧ content = value ∨ other ≠ key ∧ (other, content) ∈ store.entries := by
  simp only [set, List.mem_append, List.mem_cons, List.mem_filter, Prod.mk.injEq,
    decide_eq_true_eq]
  constructor
  · rintro (⟨member, low⟩ | here | ⟨member, high⟩)
    · exact .inr ⟨low.ne, member⟩
    · exact .inl here
    · exact .inr ⟨high.ne', member⟩
  · rintro (here | ⟨elsewhere, member⟩)
    · exact .inr (.inl here)
    · -- The smaller keys stay before the new entry and the larger ones behind it.
      rcases lt_or_gt_of_ne elsewhere with low | high
      · exact .inl ⟨member, low⟩
      · exact .inr (.inr ⟨member, high⟩)

theorem mem_delete :
    (other, content) ∈ (store.delete key).entries ↔
      other ≠ key ∧ (other, content) ∈ store.entries := by
  simp [delete, and_comm]

@[simp] theorem get?_set_self (store : Store K V) (key : K) (value : V) :
    (store.set key value).get? key = some value :=
  get?_eq_some.mpr (mem_set.mpr (.inl ⟨rfl, rfl⟩))

theorem get?_set_of_ne (store : Store K V) (elsewhere : other ≠ key) (value : V) :
    (store.set key value).get? other = store.get? other := by
  ext content
  simp [get?_eq_some, mem_set, elsewhere]

@[simp] theorem get?_delete_self (store : Store K V) (key : K) :
    (store.delete key).get? key = none :=
  get?_eq_none.mpr fun _ member => (mem_delete.mp member).1 rfl

theorem get?_delete_of_ne (store : Store K V) (elsewhere : other ≠ key) :
    (store.delete key).get? other = store.get? other := by
  ext content
  simp [get?_eq_some, mem_delete, elsewhere]

theorem get?_set_eq_some :
    (store.set key value).get? other = some content ↔
      other = key ∧ content = value ∨ other ≠ key ∧ store.get? other = some content := by
  rw [get?_eq_some, get?_eq_some]
  exact mem_set

theorem get?_delete_eq_some :
    (store.delete key).get? other = some content ↔
      other ≠ key ∧ store.get? other = some content := by
  rw [get?_eq_some, get?_eq_some]
  exact mem_delete

theorem get?_foldl_delete (keys : List K) (store : Store K V) (key : K) :
    (keys.foldl delete store).get? key = if key ∈ keys then none else store.get? key := by
  induction keys generalizing store with
  | nil => simp
  | cons first keys ih =>
    rw [List.foldl_cons, ih]
    -- A key may be deleted more than once.
    by_cases later : key ∈ keys
    · rw [if_pos later, if_pos (List.mem_cons_of_mem _ later)]
    · rw [if_neg later]
      by_cases here : key = first
      · rw [if_pos (List.mem_cons.mpr (.inl here)), here, get?_delete_self]
      · rw [if_neg (fun member => (List.mem_cons.mp member).elim here later),
          get?_delete_of_ne _ here]

theorem entries_set_of_lt (store : Store K V) (above : ∀ entry ∈ store.entries, entry.1 < key)
    (value : V) : (store.set key value).entries = store.entries ++ [(key, value)] := by
  have below : store.entries.filter (fun entry => entry.1 < key) = store.entries :=
    List.filter_eq_self.mpr fun entry member => by simpa using above entry member
  have none : store.entries.filter (fun entry => key < entry.1) = [] :=
    List.filter_eq_nil_iff.mpr fun entry member => by simpa using (above entry member).le
  simp only [set]
  rw [below, none]

/-- Writing the entries of a store in their order into an empty one copies the store. -/
theorem foldl_set_entries (store : Store K V) :
    store.entries.foldl (fun copy entry => copy.set entry.1 entry.2) empty = store := by
  -- What is still to be written lies above what has been written.
  have general : ∀ (entries : List (K × V)) (copy : Store K V),
      (copy.entries ++ entries).Pairwise (fun first second => first.1 < second.1) →
        (entries.foldl (fun copy entry => copy.set entry.1 entry.2) copy).entries =
          copy.entries ++ entries := by
    intro entries
    induction entries with
    | nil =>
      intro copy _
      simp
    | cons entry entries ih =>
      intro copy sorted
      have above : ∀ written ∈ copy.entries, written.1 < entry.1 := fun written member =>
        (List.pairwise_append.mp sorted).2.2 written member entry List.mem_cons_self
      have extended := entries_set_of_lt copy above entry.2
      rw [List.foldl_cons, ih, extended, List.append_assoc, List.singleton_append]
      rw [extended, List.append_assoc, List.singleton_append]
      exact sorted
  have copied := general store.entries empty (by simpa using store.sorted)
  rw [entries_empty, List.nil_append] at copied
  exact ext copied

/-- Stores a list of entries, one after the other. -/
def setAll (store : Store K V) (entries : List (K × V)) : Store K V :=
  entries.foldl (fun copy entry => copy.set entry.1 entry.2) store

@[simp] theorem setAll_nil (store : Store K V) : store.setAll [] = store := rfl

@[simp] theorem setAll_cons (store : Store K V) (entry : K × V) (entries : List (K × V)) :
    store.setAll (entry :: entries) = (store.set entry.1 entry.2).setAll entries := rfl

theorem get?_setAll_of_notMem (absent : key ∉ entries.map Prod.fst) (store : Store K V) :
    (store.setAll entries).get? key = store.get? key := by
  induction entries generalizing store with
  | nil => rfl
  | cons entry entries ih =>
    rw [List.map_cons, List.mem_cons, not_or] at absent
    -- The first entry is set under another key.
    rw [setAll_cons, ih absent.2, get?_set_of_ne store absent.1]

/-- A list without repeated keys is stored as it is. -/
theorem get?_setAll_of_mem (nodup : (entries.map Prod.fst).Nodup) (member : (key, value) ∈ entries)
    (store : Store K V) : (store.setAll entries).get? key = some value := by
  induction entries generalizing store with
  | nil => cases member
  | cons entry entries ih =>
    rw [List.map_cons, List.nodup_cons] at nodup
    rw [setAll_cons]
    rcases List.mem_cons.mp member with rfl | member
    · -- No later entry has the key.
      rw [get?_setAll_of_notMem nodup.1, get?_set_self]
    · exact ih nodup.2 member _

theorem get?_setAll_map {α : Type*} {key : α → K} (value : α → V) {items : List α}
    (nodup : (items.map key).Nodup) {item : α} (member : item ∈ items) (store : Store K V) :
    (store.setAll (items.map fun item => (key item, value item))).get? (key item) =
      some (value item) := by
  -- The item is an entry of the list.
  have listed : (key item, value item) ∈ items.map fun item => (key item, value item) :=
    List.mem_map.mpr ⟨item, member, rfl⟩
  refine get?_setAll_of_mem ?_ listed store
  rw [List.map_map]
  exact nodup

theorem mem_of_get?_setAll (found : (store.setAll entries).get? key = some value) :
    (key, value) ∈ entries ∨ store.get? key = some value := by
  induction entries generalizing store with
  | nil => exact .inr found
  | cons entry entries ih =>
    -- What the later entries do not set was set by the first one, or stored before.
    rcases ih found with member | found
    · exact .inl (List.mem_cons_of_mem _ member)
    · rcases get?_set_eq_some.mp found with ⟨rfl, rfl⟩ | ⟨-, before⟩
      · exact .inl List.mem_cons_self
      · exact .inr before

theorem get?_setAll_ne_none (member : key ∈ entries.map Prod.fst) (store : Store K V) :
    (store.setAll entries).get? key ≠ none := by
  induction entries generalizing store with
  | nil => cases member
  | cons entry entries ih =>
    -- The last entry with the key is the one that counts.
    by_cases later : key ∈ entries.map Prod.fst
    · exact ih later _
    · have own : key = entry.1 := (List.mem_cons.mp member).resolve_right later
      rw [setAll_cons, get?_setAll_of_notMem later, own, get?_set_self]
      exact Option.some_ne_none _

theorem nodup_keys (store : Store K V) : (store.entries.map Prod.fst).Nodup :=
  List.pairwise_map.mpr (store.sorted.imp fun order => order.ne)

/-- As many entries are stored from a list as it has different keys. -/
theorem length_setAll_empty (entries : List (K × V)) :
    ((empty : Store K V).setAll entries).entries.length =
      (entries.map Prod.fst).toFinset.card := by
  -- The store has the keys of the list, each of them once.
  have keys : (((empty : Store K V).setAll entries).entries.map Prod.fst).toFinset =
      (entries.map Prod.fst).toFinset := by
    ext key
    rw [List.mem_toFinset, List.mem_toFinset]
    constructor
    · intro stored
      obtain ⟨entry, member, rfl⟩ := List.mem_map.mp stored
      have found := mem_of_get?_setAll (get?_eq_some.mpr member)
      rw [get?_empty, or_iff_left (by nofun)] at found
      exact List.mem_map_of_mem found
    · intro listed
      obtain ⟨value, found⟩ := Option.ne_none_iff_exists'.mp (get?_setAll_ne_none listed empty)
      exact List.mem_map_of_mem (get?_eq_some.mp found)
  rw [← keys, List.toFinset_card_of_nodup (nodup_keys _), List.length_map]

/-- No item of a list is lost exactly when no key is repeated. -/
theorem length_setAll_map_iff {α : Type*} (key : α → K) (value : α → V) (items : List α) :
    ((empty : Store K V).setAll (items.map fun item => (key item, value item))).entries.length =
        items.length ↔ (items.map key).Nodup := by
  have keys : (items.map fun item => (key item, value item)).map Prod.fst = items.map key :=
    List.map_map
  rw [length_setAll_empty, keys, ← Multiset.coe_nodup, ← Multiset.toFinset_card_eq_card_iff_nodup,
    Multiset.coe_card, List.length_map, List.toFinset_coe]

/-- The entries of a list whose keys are listed again after them. -/
def shadowed : List (K × V) → List (K × V)
  | [] => []
  | entry :: rest => if entry.1 ∈ rest.map Prod.fst then entry :: shadowed rest else shadowed rest

theorem shadowed_of_nodup (nodup : (entries.map Prod.fst).Nodup) : shadowed entries = [] := by
  induction entries with
  | nil => rfl
  | cons entry entries ih =>
    rw [List.map_cons, List.nodup_cons] at nodup
    rw [shadowed, if_neg nodup.1, ih nodup.2]

/-- Applies a function to every value. -/
def mapValues (f : V → V) (store : Store K V) : Store K V where
  entries := store.entries.map fun entry => (entry.1, f entry.2)
  sorted := List.pairwise_map.mpr store.sorted

@[simp] theorem get?_mapValues (f : V → V) (store : Store K V) (key : K) :
    (store.mapValues f).get? key = (store.get? key).map f := by
  simp only [get?, mapValues, List.find?_map, Option.map_map]
  rfl

section Totals

variable [AddCommMonoid M] (weight : K → V → M) {key : K}

@[simp] theorem total_empty : (empty : Store K V).total weight = 0 := rfl

theorem filter_key (store : Store K V) (key : K) :
    store.entries.filter (fun entry => entry.1 = key) =
      (store.get? key).elim [] fun value => [(key, value)] := by
  rcases found : store.get? key with _ | value
  · -- An absent key matches no entry.
    refine List.filter_eq_nil_iff.mpr fun entry member here => ?_
    have here : entry.1 = key := by simpa using here
    exact get?_eq_none.mp found entry.2 (here ▸ member)
  · -- All matches are the one entry, and sorted entries do not repeat.
    have distinct : (store.entries.filter fun entry => entry.1 = key).Nodup :=
      (store.sorted.imp fun less same => less.ne (congrArg Prod.fst same)).filter _
    have only : ∀ entry ∈ store.entries.filter (fun entry => entry.1 = key),
        entry = (key, value) := by
      rintro ⟨here, content⟩ member
      obtain ⟨inside, same⟩ := List.mem_filter.mp member
      obtain rfl : here = key := by simpa using same
      rw [store.unique inside (get?_eq_some.mp found)]
    have copies := List.eq_replicate_of_mem only
    have member : (key, value) ∈ store.entries.filter (fun entry => entry.1 = key) :=
      List.mem_filter.mpr ⟨get?_eq_some.mp found, by simp⟩
    have present := List.length_pos_of_mem member
    rw [copies, List.nodup_replicate] at distinct
    have once : (store.entries.filter fun entry => entry.1 = key).length = 1 := by omega
    rw [copies, once]
    rfl

omit [LinearOrder K] in
theorem sum_filter_add (entries : List (K × V)) (selected : K × V → Bool) :
    ((entries.filter selected).map fun entry => weight entry.1 entry.2).sum +
        ((entries.filter fun entry => !selected entry).map fun entry => weight entry.1 entry.2).sum =
      (entries.map fun entry => weight entry.1 entry.2).sum := by
  have parts := (List.filter_append_perm selected entries).map fun entry => weight entry.1 entry.2
  rw [← parts.sum_eq, List.map_append, List.sum_append]

theorem total_delete (store : Store K V) (key : K) :
    (store.delete key).total weight + (store.get? key).elim 0 (weight key) =
      store.total weight := by
  -- The entries are those of the key, of which there is at most one, and the others.
  have parts := sum_filter_add weight store.entries fun entry => entry.1 = key
  rw [filter_key] at parts
  rw [add_comm, total, total, ← parts]
  congr 1
  · cases store.get? key <;> simp
  · simp [delete]

theorem total_congr {weight other : K → V → M} (store : Store K V)
    (same : ∀ key value, store.get? key = some value → weight key value = other key value) :
    store.total weight = store.total other := by
  refine congrArg List.sum (List.map_congr_left ?_)
  intro entry member
  exact same entry.1 entry.2 (get?_eq_some.mpr member)

/-- Changing the weight of one entry changes the total by as much. -/
theorem total_change (other : K → V → M) (store : Store K V) {value : V}
    (found : store.get? key = some value)
    (same : ∀ rest content, store.get? rest = some content → rest ≠ key →
      weight rest content = other rest content) :
    store.total other + weight key value = store.total weight + other key value := by
  -- Without the entry, both totals are the same.
  have rest : (store.delete key).total weight = (store.delete key).total other := by
    refine total_congr _ ?_
    intro other content stored
    obtain ⟨apart, member⟩ := mem_delete.mp (get?_eq_some.mp stored)
    exact same other content (get?_eq_some.mpr member) apart
  have first := total_delete weight store key
  have second := total_delete other store key
  rw [found] at first second
  rw [← first, ← second, rest]
  simp only [Option.elim_some]
  abel

/-- Setting a key replaces its weight in the total. -/
theorem total_set (store : Store K V) (key : K) (value : V) :
    (store.set key value).total weight + (store.get? key).elim 0 (weight key) =
      store.total weight + weight key value := by
  -- The other entries are those that deleting the key would leave.
  have others : (store.delete key).total weight =
      ((store.entries.filter fun entry => entry.1 < key).map
          fun entry => weight entry.1 entry.2).sum +
        ((store.entries.filter fun entry => key < entry.1).map
          fun entry => weight entry.1 entry.2).sum := by
    have parts := sum_filter_add weight (store.delete key).entries fun entry => entry.1 < key
    rw [total, ← parts]
    congr 3 <;> simp only [delete, List.filter_filter] <;>
      refine List.filter_congr fun entry _ => ?_
    · rcases lt_or_ge entry.1 key with low | high
      · simp [low, low.ne]
      · simp [high.not_gt]
    · rcases lt_trichotomy entry.1 key with low | same | high
      · simp [low, low.le]
      · simp [same]
      · simp [high, high.ne', high.not_gt]
  have removed := total_delete weight store key
  rw [others] at removed
  rw [← removed, total]
  simp only [set, List.map_append, List.map_cons, List.sum_append, List.sum_cons]
  abel

theorem total_set_delete (store : Store K V) {gone : K} (value : V) {removed : V}
    (elsewhere : gone ≠ key) (found : store.get? gone = some removed) :
    ((store.set key value).delete gone).total weight + weight gone removed +
        (store.get? key).elim 0 (weight key) =
      store.total weight + weight key value := by
  have written := total_set weight store key value
  have deleted := total_delete weight (store.set key value) gone
  -- The two keys differ, so the deleted value is still the old one.
  rw [get?_set_of_ne _ elsewhere, found, Option.elim_some] at deleted
  rw [deleted, written]

theorem total_of_others {store after : Store K V}
    (others : ∀ other, other ≠ key → after.get? other = store.get? other) :
    after.total weight + (store.get? key).elim 0 (weight key) =
      store.total weight + (after.get? key).elim 0 (weight key) := by
  -- Without the key both stores are the same.
  have rest : after.delete key = store.delete key := by
    refine ext_get? fun other => ?_
    rcases eq_or_ne other key with rfl | elsewhere
    · simp
    · rw [get?_delete_of_ne _ elsewhere, get?_delete_of_ne _ elsewhere, others other elsewhere]
  rw [← total_delete weight after key, ← total_delete weight store key, rest]
  abel

/-- The totals when one key is deleted and another one may have been written. -/
theorem total_of_moved {store after : Store K V} {gone : K} {removed : V} (elsewhere : gone ≠ key)
    (found : store.get? gone = some removed) (absent : after.get? gone = none)
    (others : ∀ other, other ≠ gone → other ≠ key → after.get? other = store.get? other) :
    after.total weight + weight gone removed + (store.get? key).elim 0 (weight key) =
      store.total weight + (after.get? key).elim 0 (weight key) := by
  -- Once the key is deleted, the two stores differ at the other key only.
  have agree : ∀ other, other ≠ key → after.get? other = (store.delete gone).get? other := by
    intro other notKey
    rcases eq_or_ne other gone with rfl | notGone
    · rw [absent, get?_delete_self]
    · rw [get?_delete_of_ne _ notGone, others other notGone notKey]
  have totals := total_of_others weight agree
  have deleted := total_delete weight store gone
  rw [get?_delete_of_ne _ elsewhere.symm] at totals
  rw [found, Option.elim_some] at deleted
  rw [← deleted, add_right_comm, totals]
  abel

theorem total_at (store : Store K V) (key : K) :
    store.total (fun other value => if other = key then weight other value else 0) =
      (store.get? key).elim 0 (weight key) := by
  -- All other keys weigh nothing.
  have nothing : (store.delete key).total
      (fun other value => if other = key then weight other value else 0) = 0 := by
    refine List.sum_eq_zero ?_
    intro amount member
    obtain ⟨entry, kept, rfl⟩ := List.mem_map.mp member
    exact if_neg (mem_delete.mp kept).1
  have parts := total_delete (fun other value => if other = key then weight other value else 0)
    store key
  rw [← parts, nothing, zero_add]
  simp

theorem total_add (other : K → V → M) (store : Store K V) :
    store.total (fun key value => weight key value + other key value) =
      store.total weight + store.total other :=
  List.sum_map_add

theorem total_mapValues (f : V → V) (store : Store K V) :
    (store.mapValues f).total weight = store.total fun key value => weight key (f value) := by
  rw [total, mapValues, List.map_map]
  rfl

theorem total_one (store : Store K V) : (store.total fun _ _ => 1) = store.entries.length := by
  simp [total]

theorem total_le_total {N : Type*} [AddCommMonoid N] [PartialOrder N] [IsOrderedAddMonoid N]
    {weight other : K → V → N} (store : Store K V)
    (below : ∀ key value, store.get? key = some value → weight key value ≤ other key value) :
    store.total weight ≤ store.total other := by
  refine List.sum_le_sum ?_
  intro entry member
  exact below entry.1 entry.2 (get?_eq_some.mpr member)

/-- The total over the entries whose keys are among the given ones. -/
def totalOf (keys : List K) (store : Store K V) : M :=
  store.total fun key value => if key ∈ keys then weight key value else 0

theorem totalOf_cons_of_notMem {keys : List K} (fresh : key ∉ keys) (store : Store K V) :
    store.totalOf weight (key :: keys) =
      store.totalOf weight keys + (store.get? key).elim 0 (weight key) := by
  rw [← total_at, totalOf, totalOf, ← total_add]
  -- No entry counts on both sides, since the key is not among the others.
  refine total_congr store fun other value _ => ?_
  by_cases own : other = key
  · subst own
    simp [fresh]
  · simp [own]

theorem totalOf_cons_of_mem {keys : List K} (known : key ∈ keys) (store : Store K V) :
    store.totalOf weight (key :: keys) = store.totalOf weight keys := by
  refine total_congr store fun other value _ => ?_
  by_cases own : other = key
  · subst own
    simp [known]
  · simp [own]

/-- What a list stores counts once a key: shadowed entries and overwritten ones are left out. -/
theorem total_setAll (entries : List (K × V)) (store : Store K V) :
    (store.setAll entries).total weight +
        ((shadowed entries).map fun entry => weight entry.1 entry.2).sum +
        store.totalOf weight (entries.map Prod.fst) =
      store.total weight + (entries.map fun entry => weight entry.1 entry.2).sum := by
  induction entries generalizing store with
  | nil => simp [shadowed, totalOf, total]
  | cons entry entries ih =>
    have rest := ih (store.set entry.1 entry.2)
    have written := total_set weight store entry.1 entry.2
    have among := total_set (fun key value => if key ∈ entries.map Prod.fst then weight key value
      else 0) store entry.1 entry.2
    rw [setAll_cons, List.map_cons, List.map_cons, List.sum_cons, shadowed]
    by_cases again : entry.1 ∈ entries.map Prod.fst
    · -- The entry is stored and then overwritten, as one of the keys that come later.
      simp only [again, if_true] at among
      rw [if_pos again, List.map_cons, List.sum_cons, totalOf_cons_of_mem weight again]
      calc _ = (((store.set entry.1 entry.2).setAll entries).total weight +
            ((shadowed entries).map fun entry => weight entry.1 entry.2).sum) +
            (store.totalOf weight (entries.map Prod.fst) + weight entry.1 entry.2) := by abel
        _ = _ := by
          rw [totalOf, ← among, ← add_assoc]
          rw [totalOf] at rest
          rw [rest, add_right_comm, written]
          abel
    · -- The entry stays, and takes the place of what was stored at its key before.
      simp only [again, if_false] at among
      rw [if_neg again, totalOf_cons_of_notMem weight again, ← add_assoc]
      have same : (store.set entry.1 entry.2).totalOf weight (entries.map Prod.fst) =
          store.totalOf weight (entries.map Prod.fst) := by
        have nothing : ((store.get? entry.1).elim 0 fun _ => (0 : M)) = 0 := by
          cases store.get? entry.1 <;> rfl
        rw [nothing, add_zero, add_zero] at among
        exact among
      rw [← same, rest, add_right_comm, written]
      abel

/-- An empty store is filled with the entries of a list that are not shadowed. -/
theorem total_setAll_empty (entries : List (K × V)) :
    ((empty : Store K V).setAll entries).total weight +
        ((shadowed entries).map fun entry => weight entry.1 entry.2).sum =
      (entries.map fun entry => weight entry.1 entry.2).sum := by
  have filled := total_setAll weight entries (empty : Store K V)
  rw [totalOf, total_empty, total_empty, add_zero, zero_add] at filled
  exact filled

end Totals

section Iteration

variable {σ ε : Type*} {body : σ → K × V → Except ε σ} (view : σ → Store K V)

/-- The iteration rule for a list of entries that are all still as they were read. -/
private theorem foldlM_current (inv : List (K × V) → σ → Prop)
    (keeps : ∀ s entry rest after, inv (entry :: rest) s → (view s).get? entry.1 = some entry.2 →
      body s entry = .ok after →
      inv rest after ∧ ∀ other, other ≠ entry.1 → (view after).get? other = (view s).get? other)
    {last : σ} (entries : List (K × V))
    (distinct : entries.Pairwise fun entry other => entry.1 ≠ other.1) :
    ∀ s, inv entries s → (∀ entry ∈ entries, (view s).get? entry.1 = some entry.2) →
      entries.foldlM body s = .ok last → inv [] last := by
  induction entries with
  | nil =>
    intro s holds _ done
    obtain rfl := Except.ok.inj done
    exact holds
  | cons entry entries ih =>
    intro s holds current done
    obtain ⟨fresh, distinct⟩ := List.pairwise_cons.mp distinct
    rw [List.foldlM_cons] at done
    rcases visited : body s entry with err | next
    · simp [visited, Bind.bind, Except.bind] at done
    · simp only [visited, Bind.bind, Except.bind] at done
      obtain ⟨holds, frame⟩ := keeps s entry entries next holds
        (current entry List.mem_cons_self) visited
      refine ih distinct next holds ?_ done
      -- The visit has not touched the entries to come.
      intro later member
      rw [frame later.1 (fresh later member).symm]
      exact current later (List.mem_cons_of_mem _ member)

/--
The rule for iterating over a store whose body changes the store at the visited key only.

Every entry is then still as it was read when its turn comes.
The property may depend on the entries that are still to come.
-/
theorem iterate_induction (inv : List (K × V) → σ → Prop) {origin last : σ}
    (keeps : ∀ s entry rest after, inv (entry :: rest) s → (view s).get? entry.1 = some entry.2 →
      body s entry = .ok after →
      inv rest after ∧ ∀ other, other ≠ entry.1 → (view after).get? other = (view s).get? other)
    (initially : inv (view origin).entries origin)
    (done : (view origin).entries.foldlM body origin = .ok last) : inv [] last := by
  -- The keys of a store differ, so each entry is current when it is visited.
  refine foldlM_current view inv keeps (view origin).entries ?_ origin initially ?_ done
  · exact (view origin).sorted.imp fun less => less.ne
  · intro entry member
    exact get?_eq_some.mpr member

/-- The same rule for a property that only depends on the state. -/
theorem iterate_invariant (inv : σ → Prop) {origin last : σ}
    (keeps : ∀ s entry after, entry ∈ (view origin).entries → inv s →
      (view s).get? entry.1 = some entry.2 → body s entry = .ok after →
      inv after ∧ ∀ other, other ≠ entry.1 → (view after).get? other = (view s).get? other)
    (initially : inv origin) (done : (view origin).entries.foldlM body origin = .ok last) :
    inv last := by
  -- The entries still to come are among those of the beginning.
  refine (iterate_induction view
    (fun rest s => inv s ∧ ∀ entry ∈ rest, entry ∈ (view origin).entries) ?_
    ⟨initially, fun _ member => member⟩ done).1
  intro s entry rest after ⟨holds, among⟩ current visited
  obtain ⟨holds, frame⟩ := keeps s entry after (among entry List.mem_cons_self) holds current visited
  exact ⟨⟨holds, fun later member => among later (List.mem_cons_of_mem _ member)⟩, frame⟩

end Iteration

end Store

end Library
