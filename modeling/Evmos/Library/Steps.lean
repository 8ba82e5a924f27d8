import Evmos.Library.Union

/-! Timelines whose amounts may be negative, and when their readings never go down. -/

namespace Library

variable {A : Type*}

section Amounts

variable [AddCommMonoid A]

theorem amountAt_cons (event : ℤ × A) (events : List (ℤ × A)) (time : ℤ) :
    amountAt (event :: events) time =
      (if event.1 = time then event.2 else 0) + amountAt events time := by
  by_cases here : event.1 = time <;> simp [amountAt, here]

/-- From one instant to the next a reading changes by the amounts of the later one. -/
theorem readAt_add_one (events : List (ℤ × A)) (time : ℤ) :
    readAt events (time + 1) = readAt events time + amountAt events (time + 1) := by
  induction events with
  | nil => simp [amountAt]
  | cons event events ih =>
    rw [readAt_cons, readAt_cons, amountAt_cons, ih]
    -- An event has come by the later instant if it had come before, or if it comes right then.
    rcases lt_trichotomy event.1 (time + 1) with before | here | after
    · rw [if_pos before.le, if_pos (by omega), if_neg before.ne, zero_add, add_assoc]
    · rw [if_pos here.le, if_neg (by omega), if_pos here, zero_add, add_left_comm]
    · rw [if_neg (by omega), if_neg (by omega), if_neg after.ne', zero_add, zero_add, zero_add]

theorem amountAt_of_forall_ne {events : List (ℤ × A)} {time : ℤ}
    (absent : ∀ event ∈ events, event.1 ≠ time) : amountAt events time = 0 := by
  have none : events.filter (fun event => event.1 = time) = [] := by
    simpa [List.filter_eq_nil_iff] using fun instant amount member =>
      absent (instant, amount) member
  simp [amountAt, none]

/-- What holds of nothing has to be checked only at the instants of the events. -/
theorem forall_amountAt_iff {events : List (ℤ × A)} {P : A → Prop} (zero : P 0)
    (within : ℤ → Prop) :
    (∀ time, within time → P (amountAt events time)) ↔
      ∀ event ∈ events, within event.1 → P (amountAt events event.1) := by
  constructor
  · exact fun always event _ inside => always event.1 inside
  · intro checked time inside
    -- At all other instants nothing falls due.
    by_cases present : ∃ event ∈ events, event.1 = time
    · obtain ⟨event, member, rfl⟩ := present
      exact checked event member inside
    · push Not at present
      rw [amountAt_of_forall_ne present]
      exact zero

/-- Readings stay empty exactly as long as nothing falls due on balance. -/
theorem readAt_eq_zero_iff {events : List (ℤ × A)} {first : ℤ}
    (later : ∀ event ∈ events, first < event.1) (within : ℤ → Prop)
    (closed : ∀ {time}, within (time + 1) → within time) :
    (∀ time, first ≤ time → within time → readAt events time = 0) ↔
      ∀ time, within time → amountAt events time = 0 := by
  constructor
  · intro empty time inside
    rcases le_or_gt time first with early | after
    · exact amountAt_of_forall_ne fun event member => by have := later event member; omega
    · -- Both readings around the instant are empty.
      have stepped := readAt_add_one events (time - 1)
      rw [sub_add_cancel, empty time after.le inside,
        empty (time - 1) (by omega) (closed (by rwa [sub_add_cancel])), zero_add] at stepped
      exact stepped.symm
  · intro nothing time after
    -- From the first instant on, one instant after the other adds nothing.
    induction time, after using Int.leInduction with
    | base => exact fun _ => readAt_before later
    | succ time _ ih =>
      intro inside
      rw [readAt_add_one, ih (closed inside), nothing _ inside, zero_add]

end Amounts

section Signed

variable [AddCommGroup A] [PartialOrder A] [IsOrderedAddMonoid A]

/-- Readings never go down exactly when no instant takes more than it gives. -/
theorem monotoneOn_readAt_iff (events : List (ℤ × A)) (first last : ℤ) :
    MonotoneOn (readAt events) (Set.Icc first last) ↔
      ∀ time, first < time ∧ time ≤ last → 0 ≤ amountAt events time := by
  constructor
  · rintro mono time ⟨after, upTo⟩
    -- Compare the reading with the one just before.
    have rises := mono (a := time - 1) (b := time) ⟨by omega, by omega⟩ ⟨by omega, upTo⟩ (by omega)
    have stepped := readAt_add_one events (time - 1)
    rw [sub_add_cancel] at stepped
    rw [stepped] at rises
    exact le_add_iff_nonneg_right _ |>.mp rises
  · intro gives
    refine monotoneOn_of_le_add_one Set.ordConnected_Icc fun time _ here after => ?_
    rw [readAt_add_one]
    exact le_add_of_nonneg_right (gives _ ⟨by have := here.1; omega, after.2⟩)

theorem amountAt_nonneg {events : List (ℤ × A)}
    (nonneg : ∀ event ∈ events, 0 ≤ event.2) (time : ℤ) : 0 ≤ amountAt events time := by
  refine List.sum_nonneg fun amount member => ?_
  obtain ⟨event, inside, rfl⟩ := List.mem_map.mp member
  exact nonneg event (List.mem_of_mem_filter inside)

end Signed

end Library
