import Evmos.Library.Interleave
import Evmos.Library.Store

/-! Timelines merged into one, which their instants and amounts determine. -/

namespace Library

variable {A : Type*}

/-- Every event comes strictly after the ones before it. -/
def Sorted (events : List (ℤ × A)) : Prop :=
  events.Pairwise fun first second => first.1 < second.1

/-- Spans of at least one unit of time end one strictly after the other. -/
theorem sorted_eventsFrom (start : ℤ) {spans : List (Span A)}
    (positive : ∀ span ∈ spans, 1 ≤ span.length) : Sorted (eventsFrom start spans) := by
  induction spans generalizing start with
  | nil => exact .nil
  | cons span rest ih =>
    have tail : ∀ span ∈ rest, 1 ≤ span.length := fun later member =>
      positive later (List.mem_cons_of_mem _ member)
    refine List.pairwise_cons.mpr ⟨?_, ih (start + span.length) tail⟩
    -- Whatever follows ends after the end of the first of the later spans.
    intro event member
    cases rest with
    | nil => cases member
    | cons second rest =>
      have long := tail second List.mem_cons_self
      have forward : Forward rest := fun later inside =>
        (tail later (List.mem_cons_of_mem _ inside)).trans' (by decide)
      rw [eventsFrom] at member
      rcases List.mem_cons.mp member with rfl | member
      · change start + span.length < start + span.length + second.length
        omega
      · have bound := (forward.event_bounds member).1
        change start + span.length < event.1
        omega

theorem eventsFrom_injective {start : ℤ} {spans others : List (Span A)}
    (same : eventsFrom start spans = eventsFrom start others) : spans = others := by
  induction spans generalizing start others with
  | nil =>
    cases others with
    | nil => rfl
    | cons other others => cases same
  | cons span rest ih =>
    cases others with
    | nil => cases same
    | cons other others =>
      obtain ⟨first, later⟩ := List.cons.inj same
      obtain ⟨ends, amounts⟩ := Prod.mk.inj first
      -- Both spans start at the same instant and end at the same one.
      have lengths : span.length = other.length := by omega
      rw [lengths] at later
      obtain ⟨length, amount⟩ := span
      obtain ⟨otherLength, otherAmount⟩ := other
      simp only at lengths amounts
      rw [lengths, amounts, ih later]

private theorem lt_of_sorted {time : ℤ} {event : ℤ × A} {events : List (ℤ × A)}
    (sorted : Sorted (event :: events)) (before : time < event.1) {instant : ℤ}
    (member : instant ∈ (event :: events).map Prod.fst) : time < instant := by
  obtain ⟨found, inside, rfl⟩ := List.mem_map.mp member
  rcases List.mem_cons.mp inside with rfl | inside
  · exact before
  · exact before.trans ((List.pairwise_cons.mp sorted).1 found inside)

section Instants

variable [AddCommMonoid A]

/-- Two timelines are visited together exactly at the instants of either. -/
theorem mem_times_interleave (time timeL timeR : ℤ) (ls rs : List (Span A)) :
    time ∈ (interleave timeL timeR ls rs).map Joint.time ↔
      time ∈ (eventsFrom timeL ls).map Prod.fst ∨ time ∈ (eventsFrom timeR rs).map Prod.fst := by
  fun_induction interleave timeL timeR ls rs with
  | case1 timeL timeR l ls r rs earlier ih =>
    rw [List.map_cons, List.mem_cons, ih, eventsFrom.eq_2 timeL, List.map_cons, List.mem_cons,
      or_assoc]
  | case2 timeL timeR l ls r rs notLess earlier ih =>
    rw [List.map_cons, List.mem_cons, ih, eventsFrom.eq_2 timeR, List.map_cons, List.mem_cons,
      or_left_comm]
  | case3 timeL timeR l ls r rs notLess notMore ih =>
    -- Simultaneous events are one instant.
    have same : timeR + r.length = timeL + l.length := by omega
    rw [List.map_cons, List.mem_cons, ih, eventsFrom, eventsFrom, same, List.map_cons,
      List.map_cons, List.mem_cons, List.mem_cons]
    tauto
  | case4 timeL timeR l ls ih =>
    rw [List.map_cons, List.mem_cons, ih, eventsFrom.eq_2 timeL, List.map_cons, List.mem_cons,
      or_assoc]
  | case5 timeL timeR r rs ih =>
    rw [List.map_cons, List.mem_cons, ih, eventsFrom.eq_2 timeR, List.map_cons, List.mem_cons,
      or_left_comm]
  | case6 timeL timeR => simp [eventsFrom]

/-- Sorted timelines are visited together without a pause at the same instant. -/
theorem interleave_sorted {timeL timeR : ℤ} {ls rs : List (Span A)}
    (sortedL : Sorted (eventsFrom timeL ls)) (sortedR : Sorted (eventsFrom timeR rs)) :
    (interleave timeL timeR ls rs).Pairwise fun first second => first.time < second.time := by
  -- What is visited later is an instant of what is left on either side.
  have visited : ∀ {time timeL timeR : ℤ} {ls rs : List (Span A)},
      (∀ instant ∈ (eventsFrom timeL ls).map Prod.fst, time < instant) →
      (∀ instant ∈ (eventsFrom timeR rs).map Prod.fst, time < instant) →
      ∀ joint ∈ interleave timeL timeR ls rs, time < joint.time := by
    intro time timeL timeR ls rs left right joint member
    rcases (mem_times_interleave _ timeL timeR ls rs).mp (List.mem_map_of_mem member) with here | here
    · exact left _ here
    · exact right _ here
  -- After the first event of a sorted timeline everything is later.
  have rest : ∀ {time : ℤ} {amount : A} {events : List (ℤ × A)}, Sorted ((time, amount) :: events) →
      ∀ instant ∈ events.map Prod.fst, time < instant := by
    intro time amount events sorted instant member
    obtain ⟨found, inside, rfl⟩ := List.mem_map.mp member
    exact (List.pairwise_cons.mp sorted).1 found inside
  fun_induction interleave timeL timeR ls rs with
  | case1 timeL timeR l ls r rs earlier ih =>
    exact List.pairwise_cons.mpr ⟨visited (rest sortedL) fun _ => lt_of_sorted sortedR earlier,
      ih (List.pairwise_cons.mp sortedL).2 sortedR⟩
  | case2 timeL timeR l ls r rs notLess earlier ih =>
    exact List.pairwise_cons.mpr ⟨visited (fun _ => lt_of_sorted sortedL earlier) (rest sortedR),
      ih sortedL (List.pairwise_cons.mp sortedR).2⟩
  | case3 timeL timeR l ls r rs notLess notMore ih =>
    have same : timeR + r.length = timeL + l.length := by omega
    rw [eventsFrom, same] at sortedR
    exact List.pairwise_cons.mpr ⟨visited (rest sortedL) (rest sortedR),
      ih (List.pairwise_cons.mp sortedL).2 (List.pairwise_cons.mp sortedR).2⟩
  | case4 timeL timeR l ls ih =>
    exact List.pairwise_cons.mpr ⟨visited (rest sortedL) (by simp [eventsFrom]),
      ih (List.pairwise_cons.mp sortedL).2 sortedR⟩
  | case5 timeL timeR r rs ih =>
    exact List.pairwise_cons.mpr ⟨visited (by simp [eventsFrom]) (rest sortedR),
      ih sortedL (List.pairwise_cons.mp sortedR).2⟩
  | case6 => exact .nil

end Instants

section Unions

variable [AddCommMonoid A] {events : List (ℤ × A)}

/-- The amounts due at one instant. -/
def amountAt (events : List (ℤ × A)) (time : ℤ) : A :=
  totalOf (events.filter fun event => event.1 = time)

/-- A sorted timeline with the instants of all its sources, and the sum of their amounts at each. -/
structure IsUnion (events : List (ℤ × A)) (sources : List (List (ℤ × A))) : Prop where
  sorted : Sorted events
  instants : ∀ time, time ∈ events.map Prod.fst ↔ ∃ source ∈ sources, time ∈ source.map Prod.fst
  amounts : ∀ time, amountAt events time = (sources.map (amountAt · time)).sum

theorem IsUnion.single (sorted : Sorted events) : IsUnion events [events] :=
  ⟨sorted, by simp, by simp⟩

private theorem amountAt_eq (sorted : Sorted events) (time : ℤ) :
    amountAt events time = ((⟨events, sorted⟩ : Store ℤ A).get? time).elim 0 id := by
  have one := (⟨events, sorted⟩ : Store ℤ A).filter_key time
  rw [amountAt]
  rw [one]
  cases (⟨events, sorted⟩ : Store ℤ A).get? time <;> simp

omit [AddCommMonoid A] in
private theorem isSome_get? (sorted : Sorted events) (time : ℤ) :
    ((⟨events, sorted⟩ : Store ℤ A).get? time).isSome ↔ time ∈ events.map Prod.fst := by
  simp [Option.isSome_iff_exists, Store.get?_eq_some]

/-- The union of the same sources, in whatever order, is the same timeline. -/
theorem IsUnion.unique {others : List (ℤ × A)} {sources reordered : List (List (ℤ × A))}
    (union : IsUnion events sources) (other : IsUnion others reordered)
    (permuted : sources.Perm reordered) : events = others := by
  have same : (⟨events, union.sorted⟩ : Store ℤ A) = ⟨others, other.sorted⟩ := by
    -- A sorted timeline is a store, which is known by what it holds at each instant.
    refine Store.ext_get? fun time => ?_
    have amounts : amountAt events time = amountAt others time := by
      rw [union.amounts, other.amounts]
      exact (permuted.map _).sum_eq
    have instants : time ∈ events.map Prod.fst ↔ time ∈ others.map Prod.fst := by
      rw [union.instants, other.instants]
      simp only [permuted.mem_iff]
    rw [amountAt_eq union.sorted, amountAt_eq other.sorted] at amounts
    rw [← isSome_get? union.sorted, ← isSome_get? other.sorted] at instants
    rcases here : (⟨events, union.sorted⟩ : Store ℤ A).get? time with _ | amount <;>
      rcases there : (⟨others, other.sorted⟩ : Store ℤ A).get? time with _ | another <;>
      simp_all
  exact congrArg Store.entries same

/-- Both sides of a joint visit as one timeline. -/
def joined (joints : List (Joint A)) : List (ℤ × A) :=
  joints.map fun joint => (joint.time, joint.left + joint.right)

theorem totalOf_joined (due : ℤ → Bool) (joints : List (Joint A)) :
    totalOf ((joined joints).filter fun event => due event.1) =
      totalOf ((lefts joints).filter fun event => due event.1) +
        totalOf ((rights joints).filter fun event => due event.1) := by
  induction joints with
  | nil => simp [joined, lefts, rights]
  | cons joint joints ih =>
    simp only [joined, lefts, rights, List.map_cons] at ih ⊢
    -- A joint counts on both sides or on none.
    by_cases here : due joint.time = true
    · simp only [List.filter_cons, here, if_true, totalOf_cons, ih]
      abel
    · simp only [List.filter_cons, here, Bool.false_eq_true, if_false, ih]

theorem readAt_joined (timeL timeR time : ℤ) (ls rs : List (Span A)) :
    readAt (joined (interleave timeL timeR ls rs)) time =
      readAt (eventsFrom timeL ls) time + readAt (eventsFrom timeR rs) time := by
  rw [← readAt_lefts timeL timeR time ls rs, ← readAt_rights timeL timeR time ls rs]
  exact totalOf_joined (· ≤ time) _

theorem mem_times_joined (time timeL timeR : ℤ) (ls rs : List (Span A)) :
    time ∈ (joined (interleave timeL timeR ls rs)).map Prod.fst ↔
      time ∈ (eventsFrom timeL ls).map Prod.fst ∨ time ∈ (eventsFrom timeR rs).map Prod.fst := by
  have times : (joined (interleave timeL timeR ls rs)).map Prod.fst =
      (interleave timeL timeR ls rs).map Joint.time := by
    simp [joined]
  rw [times, mem_times_interleave]

/-- Visiting a union together with one more sorted timeline joins that timeline to the union. -/
theorem IsUnion.join {timeL timeR : ℤ} {ls rs : List (Span A)} {sources : List (List (ℤ × A))}
    (union : IsUnion (eventsFrom timeL ls) sources) (sorted : Sorted (eventsFrom timeR rs)) :
    IsUnion (joined (interleave timeL timeR ls rs)) (eventsFrom timeR rs :: sources) := by
  refine ⟨?_, ?_, ?_⟩
  · exact List.pairwise_map.mpr (interleave_sorted union.sorted sorted)
  · intro time
    rw [mem_times_joined, union.instants]
    simp only [List.mem_cons, exists_eq_or_imp]
    exact or_comm
  · intro time
    -- Every amount is on one of the two sides.
    have left := totalOf_lefts_interleave (fun instant => instant = time) timeL timeR ls rs
    have right := totalOf_rights_interleave (fun instant => instant = time) timeL timeR ls rs
    have amounts := union.amounts time
    rw [List.map_cons, List.sum_cons, ← amounts]
    simp only [amountAt]
    rw [totalOf_joined (fun instant => instant = time), left, right]
    exact add_comm _ _

end Unions

end Library
