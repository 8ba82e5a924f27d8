import Evmos.Library.Timeline

/-! Two timelines visited together in order of time. -/

namespace Library

variable {A : Type*} [AddCommMonoid A]

/-- One instant of two timelines, with a zero amount on a side that has nothing due. -/
structure Joint (A : Type*) where
  /-- The instant visited. -/
  time : ℤ
  /-- The amount due on the left timeline. -/
  left : A
  /-- The amount due on the right timeline. -/
  right : A

/-- Visits the events of two timelines in order of time, simultaneous ones at once. -/
def interleave : ℤ → ℤ → List (Span A) → List (Span A) → List (Joint A)
  | timeL, timeR, l :: ls, r :: rs =>
    if timeL + l.length < timeR + r.length then
      ⟨timeL + l.length, l.amount, 0⟩ :: interleave (timeL + l.length) timeR ls (r :: rs)
    else if timeR + r.length < timeL + l.length then
      ⟨timeR + r.length, 0, r.amount⟩ :: interleave timeL (timeR + r.length) (l :: ls) rs
    else
      ⟨timeL + l.length, l.amount, r.amount⟩ ::
        interleave (timeL + l.length) (timeL + l.length) ls rs
  | timeL, timeR, l :: ls, [] =>
    ⟨timeL + l.length, l.amount, 0⟩ :: interleave (timeL + l.length) timeR ls []
  | timeL, timeR, [], r :: rs =>
    ⟨timeR + r.length, 0, r.amount⟩ :: interleave timeL (timeR + r.length) [] rs
  | _, _, [], [] => []
termination_by _ _ ls rs => ls.length + rs.length

/-- The left side of a joint visit as a timeline of its own. -/
def lefts (joints : List (Joint A)) : List (ℤ × A) :=
  joints.map fun joint => (joint.time, joint.left)

/-- The right side of a joint visit as a timeline of its own. -/
def rights (joints : List (Joint A)) : List (ℤ × A) :=
  joints.map fun joint => (joint.time, joint.right)

/-- The visited instants never step back, starting from a bound. -/
def OrderedFrom (bound : ℤ) : List (Joint A) → Prop
  | [] => True
  | joint :: rest => bound ≤ joint.time ∧ OrderedFrom joint.time rest

private theorem totalOf_filter_cons (due : ℤ → Bool) (event : ℤ × A) (events : List (ℤ × A)) :
    totalOf ((event :: events).filter fun event => due event.1) =
      (if due event.1 then event.2 else 0) + totalOf (events.filter fun event => due event.1) := by
  by_cases selected : due event.1 <;> simp [selected]

/-- At every choice of instants, the joint visit pays the left side what the left timeline pays. -/
theorem totalOf_lefts_interleave (due : ℤ → Bool) (timeL timeR : ℤ) (ls rs : List (Span A)) :
    totalOf ((lefts (interleave timeL timeR ls rs)).filter fun event => due event.1) =
      totalOf ((eventsFrom timeL ls).filter fun event => due event.1) := by
  -- A visit of the right side alone adds a zero amount on the left.
  fun_induction interleave timeL timeR ls rs with
  | case1 timeL timeR l ls r rs earlier ih =>
    simpa only [lefts, List.map_cons, eventsFrom, totalOf_filter_cons] using
      congrArg (_ + ·) ih
  | case2 timeL timeR l ls r rs _ earlier ih =>
    simpa only [lefts, List.map_cons, totalOf_filter_cons, ite_self, zero_add] using ih
  | case3 timeL timeR l ls r rs _ _ ih =>
    simpa only [lefts, List.map_cons, eventsFrom, totalOf_filter_cons] using
      congrArg (_ + ·) ih
  | case4 timeL timeR l ls ih =>
    simpa only [lefts, List.map_cons, eventsFrom, totalOf_filter_cons] using
      congrArg (_ + ·) ih
  | case5 timeL timeR r rs ih =>
    simpa only [lefts, List.map_cons, totalOf_filter_cons, ite_self, zero_add] using ih
  | case6 => rfl

/-- At every choice of instants, the joint visit pays the right side what the right timeline pays. -/
theorem totalOf_rights_interleave (due : ℤ → Bool) (timeL timeR : ℤ) (ls rs : List (Span A)) :
    totalOf ((rights (interleave timeL timeR ls rs)).filter fun event => due event.1) =
      totalOf ((eventsFrom timeR rs).filter fun event => due event.1) := by
  -- A visit of the left side alone adds a zero amount on the right.
  fun_induction interleave timeL timeR ls rs with
  | case1 timeL timeR l ls r rs earlier ih =>
    simpa only [rights, List.map_cons, totalOf_filter_cons, ite_self, zero_add] using ih
  | case2 timeL timeR l ls r rs _ earlier ih =>
    simpa only [rights, List.map_cons, eventsFrom, totalOf_filter_cons] using
      congrArg (_ + ·) ih
  | case3 timeL timeR l ls r rs notLess notMore ih =>
    have same : timeL + l.length = timeR + r.length := by omega
    rw [same] at ih ⊢
    simpa only [rights, List.map_cons, eventsFrom, totalOf_filter_cons] using
      congrArg (_ + ·) ih
  | case4 timeL timeR l ls ih =>
    simpa only [rights, List.map_cons, totalOf_filter_cons, ite_self, zero_add] using ih
  | case5 timeL timeR r rs ih =>
    simpa only [rights, List.map_cons, eventsFrom, totalOf_filter_cons] using
      congrArg (_ + ·) ih
  | case6 => rfl

theorem totalOf_lefts (timeL timeR : ℤ) (ls rs : List (Span A)) :
    totalOf (lefts (interleave timeL timeR ls rs)) = totalAmount ls := by
  simpa using totalOf_lefts_interleave (fun _ => true) timeL timeR ls rs

theorem totalOf_rights (timeL timeR : ℤ) (ls rs : List (Span A)) :
    totalOf (rights (interleave timeL timeR ls rs)) = totalAmount rs := by
  simpa using totalOf_rights_interleave (fun _ => true) timeL timeR ls rs

theorem readAt_lefts (timeL timeR time : ℤ) (ls rs : List (Span A)) :
    readAt (lefts (interleave timeL timeR ls rs)) time = readAt (eventsFrom timeL ls) time :=
  totalOf_lefts_interleave (· ≤ time) timeL timeR ls rs

theorem readAt_rights (timeL timeR time : ℤ) (ls rs : List (Span A)) :
    readAt (rights (interleave timeL timeR ls rs)) time = readAt (eventsFrom timeR rs) time :=
  totalOf_rights_interleave (· ≤ time) timeL timeR ls rs

omit [AddCommMonoid A] in
theorem OrderedFrom.bound_le {bound : ℤ} {joints : List (Joint A)}
    (ordered : OrderedFrom bound joints) {joint : Joint A} (member : joint ∈ joints) :
    bound ≤ joint.time := by
  induction joints generalizing bound with
  | nil => simp at member
  | cons first joints ih =>
    -- The bound of the rest is the first instant.
    rcases List.mem_cons.mp member with rfl | member
    · exact ordered.1
    · exact ordered.1.trans (ih ordered.2 member)

/-- Forward timelines are visited without stepping back in time. -/
theorem interleave_ordered {timeL timeR bound : ℤ} {ls rs : List (Span A)}
    (forwardL : Forward ls) (forwardR : Forward rs)
    (afterL : ∀ event ∈ eventsFrom timeL ls, bound ≤ event.1)
    (afterR : ∀ event ∈ eventsFrom timeR rs, bound ≤ event.1) :
    OrderedFrom bound (interleave timeL timeR ls rs) := by
  -- The earlier next event is visited, and it bounds every event left on either side.
  fun_induction interleave timeL timeR ls rs generalizing bound with
  | case1 timeL timeR l ls r rs earlier ih =>
    obtain ⟨_, restL⟩ := (forward_cons l ls).mp forwardL
    obtain ⟨_, restR⟩ := (forward_cons r rs).mp forwardR
    refine ⟨afterL _ List.mem_cons_self, ih restL forwardR
      (fun event member => (restL.event_bounds member).1) fun event member => ?_⟩
    simp only [eventsFrom, List.mem_cons] at member
    show timeL + l.length ≤ event.1
    rcases member with rfl | member
    · exact earlier.le
    · exact earlier.le.trans (restR.event_bounds member).1
  | case2 timeL timeR l ls r rs _ earlier ih =>
    obtain ⟨_, restL⟩ := (forward_cons l ls).mp forwardL
    obtain ⟨_, restR⟩ := (forward_cons r rs).mp forwardR
    refine ⟨afterR _ List.mem_cons_self, ih forwardL restR (fun event member => ?_)
      fun event member => (restR.event_bounds member).1⟩
    simp only [eventsFrom, List.mem_cons] at member
    show timeR + r.length ≤ event.1
    rcases member with rfl | member
    · exact earlier.le
    · exact earlier.le.trans (restL.event_bounds member).1
  | case3 timeL timeR l ls r rs _ _ ih =>
    obtain ⟨_, restL⟩ := (forward_cons l ls).mp forwardL
    obtain ⟨_, restR⟩ := (forward_cons r rs).mp forwardR
    exact ⟨afterL _ List.mem_cons_self, ih restL restR
      (fun event member => (restL.event_bounds member).1)
      fun event member => (restR.event_bounds member).1⟩
  | case4 timeL timeR l ls ih =>
    obtain ⟨_, restL⟩ := (forward_cons l ls).mp forwardL
    exact ⟨afterL _ List.mem_cons_self, ih restL forwardR
      (fun event member => (restL.event_bounds member).1) (by simp [eventsFrom])⟩
  | case5 timeL timeR r rs ih =>
    obtain ⟨_, restR⟩ := (forward_cons r rs).mp forwardR
    exact ⟨afterR _ List.mem_cons_self, ih forwardL restR (by simp [eventsFrom])
      fun event member => (restR.event_bounds member).1⟩
  | case6 => trivial

/-- The earlier of the two starts bounds every visited instant. -/
theorem interleave_ordered_min (timeL timeR : ℤ) {ls rs : List (Span A)}
    (forwardL : Forward ls) (forwardR : Forward rs) :
    OrderedFrom (min timeL timeR) (interleave timeL timeR ls rs) :=
  interleave_ordered forwardL forwardR
    (fun _ member => (min_le_left _ _).trans (forwardL.event_bounds member).1)
    (fun _ member => (min_le_right _ _).trans (forwardR.event_bounds member).1)

end Library
