import Mathlib

/-! Timelines of amounts that fall due at fixed instants, read as step functions of time. -/

namespace Library

variable {A : Type*}

/-- A stretch of time whose amount falls due at its end. -/
structure Span (A : Type*) where
  /-- The time from the end of the stretch before. -/
  length : ℤ
  /-- The amount due at the end. -/
  amount : A
  deriving DecidableEq

/-- The instants at which consecutive spans end, each with its amount. -/
def eventsFrom (start : ℤ) : List (Span A) → List (ℤ × A)
  | [] => []
  | span :: rest => (start + span.length, span.amount) :: eventsFrom (start + span.length) rest

/-- The time covered by consecutive spans. -/
def totalLength (spans : List (Span A)) : ℤ :=
  (spans.map Span.length).sum

/-- No span runs backwards in time. -/
def Forward (spans : List (Span A)) : Prop :=
  ∀ span ∈ spans, 0 ≤ span.length

@[simp] theorem totalLength_nil : totalLength ([] : List (Span A)) = 0 := rfl

@[simp] theorem totalLength_cons (span : Span A) (rest : List (Span A)) :
    totalLength (span :: rest) = span.length + totalLength rest := by
  simp [totalLength]

@[simp] theorem totalLength_append (spans more : List (Span A)) :
    totalLength (spans ++ more) = totalLength spans + totalLength more := by
  simp [totalLength]

@[simp] theorem forward_nil : Forward ([] : List (Span A)) := by
  simp [Forward]

@[simp] theorem forward_cons (span : Span A) (rest : List (Span A)) :
    Forward (span :: rest) ↔ 0 ≤ span.length ∧ Forward rest := by
  simp [Forward]

@[simp] theorem forward_append (spans more : List (Span A)) :
    Forward (spans ++ more) ↔ Forward spans ∧ Forward more := by
  simp [Forward, or_imp, forall_and]

variable {spans : List (Span A)}

theorem Forward.take (forward : Forward spans) (count : ℕ) : Forward (spans.take count) :=
  fun span member => forward span (List.mem_of_mem_take member)

theorem Forward.totalLength_nonneg (forward : Forward spans) : 0 ≤ totalLength spans := by
  induction spans with
  | nil => simp
  | cons span rest ih =>
    obtain ⟨head, tail⟩ := (forward_cons span rest).mp forward
    have := ih tail
    rw [totalLength_cons]
    omega

theorem eventsFrom_append (start : ℤ) (spans more : List (Span A)) :
    eventsFrom start (spans ++ more) =
      eventsFrom start spans ++ eventsFrom (start + totalLength spans) more := by
  induction spans generalizing start with
  | nil => simp [eventsFrom]
  | cons span rest ih => simp [eventsFrom, ih, add_assoc]

/-- Forward spans end between the start and the end of the whole timeline. -/
theorem Forward.event_bounds (forward : Forward spans) {start : ℤ} {event : ℤ × A}
    (member : event ∈ eventsFrom start spans) :
    start ≤ event.1 ∧ event.1 ≤ start + totalLength spans := by
  -- Each later span starts where the one before it ended, which is never earlier.
  induction spans generalizing start with
  | nil => simp [eventsFrom] at member
  | cons span rest ih =>
    obtain ⟨head, tail⟩ := (forward_cons span rest).mp forward
    have ends := tail.totalLength_nonneg
    simp only [eventsFrom, List.mem_cons] at member
    rw [totalLength_cons]
    rcases member with rfl | member
    · constructor <;> simp only <;> omega
    · have bounds := ih tail member
      omega

/-- A timeline that has spans at all ends with an event. -/
theorem exists_event_at_end (start : ℤ) (nonempty : spans ≠ []) :
    ∃ event ∈ eventsFrom start spans, event.1 = start + totalLength spans := by
  induction spans generalizing start with
  | nil => exact absurd rfl nonempty
  | cons span rest ih =>
    rcases eq_or_ne rest [] with rfl | more
    · exact ⟨_, List.mem_cons_self, by simp⟩
    · -- The end of the others, counted from the end of the first span, is the end of all.
      obtain ⟨event, member, instant⟩ := ih (start + span.length) more
      exact ⟨event, List.mem_cons_of_mem _ member, by rw [instant, totalLength_cons, add_assoc]⟩

theorem exists_span_of_event {start : ℤ} {event : ℤ × A} (member : event ∈ eventsFrom start spans) :
    ∃ span ∈ spans, span.amount = event.2 := by
  induction spans generalizing start with
  | nil => cases member
  | cons span rest ih =>
    rcases List.mem_cons.mp member with rfl | member
    · exact ⟨span, List.mem_cons_self, rfl⟩
    · obtain ⟨other, inside, amount⟩ := ih member
      exact ⟨other, List.mem_cons_of_mem _ inside, amount⟩

/-- A timeline takes time exactly when something falls due after its start. -/
theorem Forward.totalLength_pos_iff (forward : Forward spans) (start : ℤ) :
    0 < totalLength spans ↔ ∃ event ∈ eventsFrom start spans, start < event.1 := by
  constructor
  · intro positive
    induction spans generalizing start with
    | nil => simp at positive
    | cons span rest ih =>
      obtain ⟨head, tail⟩ := (forward_cons span rest).mp forward
      rw [totalLength_cons] at positive
      rcases head.lt_or_eq with takes | instant
      · exact ⟨_, List.mem_cons_self, by simpa using takes⟩
      · -- A first span without a length leaves the time to the others.
        obtain ⟨event, member, later⟩ := ih tail (start + span.length) (by omega)
        exact ⟨event, List.mem_cons_of_mem _ member, by omega⟩
  · rintro ⟨event, member, later⟩
    have bound := (forward.event_bounds member).2
    omega

section Amounts

variable [AddCommMonoid A]

/-- The amount of all spans together. -/
def totalAmount (spans : List (Span A)) : A :=
  (spans.map Span.amount).sum

/-- The total of all amounts on a timeline, whatever their instants. -/
def totalOf (events : List (ℤ × A)) : A :=
  (events.map Prod.snd).sum

/-- The total of the amounts whose instant has come by the given time. -/
def readAt (events : List (ℤ × A)) (time : ℤ) : A :=
  -- An event counts from its own instant on, so the comparison is not strict.
  totalOf (events.filter fun event => event.1 ≤ time)

@[simp] theorem totalAmount_nil : totalAmount ([] : List (Span A)) = 0 := rfl

@[simp] theorem totalAmount_cons (span : Span A) (rest : List (Span A)) :
    totalAmount (span :: rest) = span.amount + totalAmount rest := by
  simp [totalAmount]

@[simp] theorem totalAmount_append (spans more : List (Span A)) :
    totalAmount (spans ++ more) = totalAmount spans + totalAmount more := by
  simp [totalAmount]

@[simp] theorem totalOf_nil : totalOf ([] : List (ℤ × A)) = 0 := rfl

@[simp] theorem totalOf_cons (event : ℤ × A) (events : List (ℤ × A)) :
    totalOf (event :: events) = event.2 + totalOf events := by
  simp [totalOf]

@[simp] theorem readAt_nil (time : ℤ) : readAt ([] : List (ℤ × A)) time = 0 := rfl

theorem readAt_cons (event : ℤ × A) (events : List (ℤ × A)) (time : ℤ) :
    readAt (event :: events) time =
      (if event.1 ≤ time then event.2 else 0) + readAt events time := by
  by_cases due : event.1 ≤ time <;> simp [readAt, due]

@[simp] theorem totalOf_eventsFrom (start : ℤ) (spans : List (Span A)) :
    totalOf (eventsFrom start spans) = totalAmount spans := by
  induction spans generalizing start with
  | nil => rfl
  | cons span rest ih => simp [eventsFrom, ih]

theorem readAt_before {events : List (ℤ × A)} {time : ℤ}
    (later : ∀ event ∈ events, time < event.1) : readAt events time = 0 := by
  -- No event passes the filter.
  have none : events.filter (fun event => event.1 ≤ time) = [] := by
    simpa [List.filter_eq_nil_iff] using fun instant amount member => later (instant, amount) member
  simp [readAt, none]

theorem readAt_after {events : List (ℤ × A)} {time : ℤ}
    (due : ∀ event ∈ events, event.1 ≤ time) : readAt events time = totalOf events := by
  -- Every event passes the filter.
  have all : events.filter (fun event => event.1 ≤ time) = events := by
    simpa [List.filter_eq_self] using fun instant amount member => due (instant, amount) member
  simp [readAt, all]

theorem readAt_append (events more : List (ℤ × A)) (time : ℤ) :
    readAt (events ++ more) time = readAt events time + readAt more time := by
  simp [readAt, totalOf]

/-- Reading only what falls due by a deadline is reading no later than the deadline. -/
theorem readAt_filter (events : List (ℤ × A)) (deadline time : ℤ) :
    readAt (events.filter fun event => event.1 ≤ deadline) time =
      readAt events (min deadline time) := by
  simp only [readAt, List.filter_filter]
  congr 1
  -- Both conditions are upper bounds of the instant.
  refine List.filter_congr fun event _ => ?_
  simp [Bool.and_comm]

section Ordered

variable [PartialOrder A] [IsOrderedAddMonoid A] [CanonicallyOrderedAdd A]

theorem readAt_mono (events : List (ℤ × A)) {earlier later : ℤ} (order : earlier ≤ later) :
    readAt events earlier ≤ readAt events later := by
  -- Each event that counts at the earlier time still counts at the later one.
  induction events with
  | nil => simp
  | cons event events ih =>
    rw [readAt_cons, readAt_cons]
    refine add_le_add ?_ ih
    split_ifs with first second
    · exact le_rfl
    · omega
    · exact zero_le
    · exact le_rfl

theorem readAt_le_totalOf (events : List (ℤ × A)) (time : ℤ) :
    readAt events time ≤ totalOf events := by
  induction events with
  | nil => simp
  | cons event events ih =>
    rw [readAt_cons, totalOf_cons]
    refine add_le_add ?_ ih
    -- An event counts in full or not at all.
    split_ifs
    · exact le_rfl
    · exact zero_le

/-- What falls due later is missing from a reading. -/
theorem readAt_add_le_totalOf {events : List (ℤ × A)} {event : ℤ × A} (member : event ∈ events)
    {time : ℤ} (later : time < event.1) : readAt events time + event.2 ≤ totalOf events := by
  induction events with
  | nil => cases member
  | cons first events ih =>
    rw [readAt_cons, totalOf_cons]
    -- The event that is missing is the first one or a later one.
    rcases List.mem_cons.mp member with rfl | member
    · rw [if_neg (not_le.mpr later), zero_add, add_comm]
      exact add_le_add le_rfl (readAt_le_totalOf events time)
    · rw [add_assoc]
      refine add_le_add ?_ (ih member)
      split_ifs
      · exact le_rfl
      · exact zero_le

end Ordered

theorem readAt_min [SemilatticeInf A] [IsOrderedAddMonoid A] [CanonicallyOrderedAdd A]
    (events : List (ℤ × A)) (first second : ℤ) :
    readAt events (min first second) = readAt events first ⊓ readAt events second := by
  rcases le_total first second with order | order
  · rw [min_eq_left order, inf_eq_left.mpr (readAt_mono events order)]
  · rw [min_eq_right order, inf_eq_right.mpr (readAt_mono events order)]

end Amounts

end Library
