import Mathlib.Data.List.Basic

/-! Removing the matches of a pattern from a text of bytes, which is read as runes of UTF-8. -/

namespace Library

/-- The rune that stands for bytes which do not encode one. -/
def runeError : ℕ := 0xFFFD

/-- A byte lies in a range. -/
def inRange (low high : ℕ) (byte : UInt8) : Bool := decide (low ≤ byte.toNat ∧ byte.toNat ≤ high)

/-- The least second byte after a leading one, such that no encoding is longer than needed. -/
def secondLow (lead : UInt8) : ℕ :=
  if lead.toNat = 0xE0 then 0xA0 else if lead.toNat = 0xF0 then 0x90 else 0x80

/-- The greatest second byte after a leading one, such that it is no surrogate and not too large. -/
def secondHigh (lead : UInt8) : ℕ :=
  if lead.toNat = 0xED then 0x9F else if lead.toNat = 0xF4 then 0x8F else 0xBF

/-- The first rune of a text and the number of its bytes, one byte if they do not encode a rune. -/
def decodeRune : List UInt8 → ℕ × ℕ
  | [] => (runeError, 0)
  | lead :: rest =>
    if lead.toNat < 0x80 then (lead.toNat, 1)
    else if inRange 0xC2 0xDF lead then
      match rest with
      | second :: _ =>
        if inRange 0x80 0xBF second then (lead.toNat % 32 * 64 + second.toNat % 64, 2)
        else (runeError, 1)
      | _ => (runeError, 1)
    else if inRange 0xE0 0xEF lead then
      match rest with
      | second :: third :: _ =>
        if inRange (secondLow lead) (secondHigh lead) second && inRange 0x80 0xBF third then
          (lead.toNat % 16 * 4096 + second.toNat % 64 * 64 + third.toNat % 64, 3)
        else (runeError, 1)
      | _ => (runeError, 1)
    else if inRange 0xF0 0xF4 lead then
      match rest with
      | second :: third :: fourth :: _ =>
        if inRange (secondLow lead) (secondHigh lead) second && inRange 0x80 0xBF third &&
            inRange 0x80 0xBF fourth then
          (lead.toNat % 8 * 262144 + second.toNat % 64 * 4096 + third.toNat % 64 * 64 +
            fourth.toNat % 64, 4)
        else (runeError, 1)
      | _ => (runeError, 1)
    else (runeError, 1)

/-- The second byte is beyond ASCII, and adds what the leading byte alone would lack. -/
theorem secondLow_bounds (lead : UInt8) :
    0x80 ≤ secondLow lead ∧ (lead.toNat = 0xE0 → secondLow lead = 0xA0) ∧
      (lead.toNat = 0xF0 → secondLow lead = 0x90) ∧ secondHigh lead ≤ 0xBF := by
  unfold secondLow secondHigh
  refine ⟨?_, ?_, ?_, ?_⟩
  · split_ifs <;> decide
  · intro equal
    rw [if_pos equal]
  · intro equal
    rw [if_neg (by omega), if_pos equal]
  · split_ifs <;> decide

/-- Bytes that belong to runes beyond ASCII, or to none. -/
def Beyond (bytes : List UInt8) : Prop := ∀ byte ∈ bytes, 0x80 ≤ byte.toNat

theorem decodeRune_ascii {lead : UInt8} (ascii : lead.toNat < 0x80) (rest : List UInt8) :
    decodeRune (lead :: rest) = (lead.toNat, 1) := by
  rw [decodeRune.eq_def]
  exact if_pos ascii

/-- Any other byte begins a rune beyond ASCII, all of whose bytes are beyond it too. -/
theorem decodeRune_beyond {lead : UInt8} (beyond : 0x80 ≤ lead.toNat) (rest : List UInt8) :
    ∃ rune more others, rest = more ++ others ∧ 0x80 ≤ rune ∧ Beyond (lead :: more) ∧
      decodeRune (lead :: rest) = (rune, (lead :: more).length) := by
  -- What does not encode a rune is passed over byte by byte.
  have alone : ∃ rune more others, rest = more ++ others ∧ 0x80 ≤ rune ∧ Beyond (lead :: more) ∧
      (runeError, 1) = (rune, (lead :: more).length) :=
    ⟨runeError, [], rest, rfl, by decide, by simpa [Beyond] using beyond, rfl⟩
  have low : ¬ lead.toNat < 0x80 := Nat.not_lt.mpr beyond
  have least := secondLow_bounds lead
  simp only [decodeRune, if_neg low]
  split_ifs with two three four
  · split
    · split_ifs with continued
      · simp only [inRange, decide_eq_true_eq] at two continued
        refine ⟨_, [_], _, rfl, by omega, ?_, rfl⟩
        simp only [Beyond, List.mem_cons, List.not_mem_nil, or_false, forall_eq_or_imp, forall_eq]
        omega
      · exact alone
    · exact alone
  · split
    · split_ifs with continued
      · simp only [inRange, Bool.and_eq_true, decide_eq_true_eq] at three continued
        refine ⟨_, [_, _], _, rfl, by omega, ?_, rfl⟩
        simp only [Beyond, List.mem_cons, List.not_mem_nil, or_false, forall_eq_or_imp, forall_eq]
        omega
      · exact alone
    · exact alone
  · split
    · split_ifs with continued
      · simp only [inRange, Bool.and_eq_true, decide_eq_true_eq] at four continued
        refine ⟨_, [_, _, _], _, rfl, by omega, ?_, rfl⟩
        simp only [Beyond, List.mem_cons, List.not_mem_nil, or_false, forall_eq_or_imp, forall_eq]
        omega
      · exact alone
    · exact alone
  · exact alone

/-- How many bytes a pattern matches at a place, given the byte before it, zero if it does not. -/
abbrev Pattern := Option UInt8 → List UInt8 → ℕ

/-- Removes the leftmost matches that do not overlap, where fuel bounds the number of steps. -/
def removeFrom (pattern : Pattern) : ℕ → Option UInt8 → List UInt8 → List UInt8
  | 0, _, _ => []
  | _ + 1, _, [] => []
  | fuel + 1, before, byte :: rest =>
    let text := byte :: rest
    let matched := pattern before text
    if matched = 0 then
      -- The rune is copied.
      let width := (decodeRune text).2
      text.take width ++ removeFrom pattern fuel (text.take width).getLast? (text.drop width)
    else removeFrom pattern fuel (text.take matched).getLast? (text.drop matched)

/-- Removes all matches of a pattern, which are not empty. -/
def removeAll (pattern : Pattern) (text : List UInt8) : List UInt8 :=
  removeFrom pattern text.length none text

section Steps

variable {pattern : Pattern} {fuel : ℕ} {before : Option UInt8} {byte : UInt8}
  {more rest : List UInt8}

theorem removeFrom_copied {rune : ℕ} (unmatched : pattern before (byte :: (more ++ rest)) = 0)
    (decoded : decodeRune (byte :: (more ++ rest)) = (rune, (byte :: more).length)) :
    removeFrom pattern (fuel + 1) before (byte :: (more ++ rest)) =
      byte :: more ++ removeFrom pattern fuel (byte :: more).getLast? rest := by
  simp only [removeFrom, unmatched, if_true, decoded]
  rw [← List.cons_append, List.take_left, List.drop_left]

theorem removeFrom_matched
    (matched : pattern before (byte :: (more ++ rest)) = (byte :: more).length) :
    removeFrom pattern (fuel + 1) before (byte :: (more ++ rest)) =
      removeFrom pattern fuel (byte :: more).getLast? rest := by
  -- A match has at least one byte, so it is not the empty one.
  have some : (byte :: more).length ≠ 0 := by simp
  simp only [removeFrom, matched, if_neg some]
  rw [← List.cons_append, List.take_left, List.drop_left]

theorem removeFrom_copied_byte {rune : ℕ} (unmatched : pattern before (byte :: rest) = 0)
    (decoded : decodeRune (byte :: rest) = (rune, 1)) :
    removeFrom pattern (fuel + 1) before (byte :: rest) =
      byte :: removeFrom pattern fuel (some byte) rest := by
  simp [removeFrom, unmatched, decoded]

theorem removeFrom_matched_byte (matched : pattern before (byte :: rest) = 1) :
    removeFrom pattern (fuel + 1) before (byte :: rest) =
      removeFrom pattern fuel (some byte) rest := by
  simp [removeFrom, matched]

end Steps

end Library
