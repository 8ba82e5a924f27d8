import Evmos.Erc20.Sanitize
import Evmos.Erc20.Types

/-! When a sanitised name begins with a letter and stays as it is when it is sanitised again. -/

namespace Evmos.Erc20.GoString

open Library

section Classes

theorem not_denom_of_beyond {rune : ℕ} (beyond : 0x80 ≤ rune) : isDenomRune rune = false := by
  simp only [isDenomRune, isLetter, isDigit, Bool.or_eq_false_iff, decide_eq_false_iff_not]
  omega

theorem not_digit_of_beyond {rune : ℕ} (beyond : 0x80 ≤ rune) : isDigit rune = false := by
  simp only [isDigit, decide_eq_false_iff_not]
  omega

theorem not_letter_of_beyond {rune : ℕ} (beyond : 0x80 ≤ rune) : isLetter rune = false := by
  simp only [isLetter, decide_eq_false_iff_not]
  omega

theorem not_line_of_beyond {byte : UInt8} (beyond : 0x80 ≤ byte.toNat) : byte ≠ 10 := by
  rintro rfl
  exact absurd beyond (by decide)

theorem not_line_of_digit {byte : UInt8} (digit : isDigit byte.toNat = true) : byte ≠ 10 := by
  rintro rfl
  exact absurd digit (by decide)

theorem denom_of_letter {rune : ℕ} (letter : isLetter rune = true) : isDenomRune rune = true := by
  simp [isDenomRune, letter]

end Classes

/-- `removeLeadingNumbers` byte by byte. -/
def stripDigits (atLineStart : Bool) : GoString → GoString
  | [] => []
  | byte :: rest =>
    if atLineStart && isDigit byte.toNat then stripDigits true rest
    else byte :: stripDigits (byte = 10) rest

/-- The bytes that stay in a name after its first rune. -/
def keepDenom (str : GoString) : GoString := str.filter fun byte => isDenomRune byte.toNat

/-- `removeSpecialChars` byte by byte. -/
def keepName : GoString → GoString
  | [] => []
  | byte :: rest => (if isLetter byte.toNat then [byte] else []) ++ keepDenom rest

section Passes

theorem stripDigits_true (str : GoString) :
    stripDigits true str = stripDigits false (str.dropWhile fun byte => isDigit byte.toNat) := by
  induction str with
  | nil => rfl
  | cons byte rest ih =>
    -- After the first byte that is no digit the line goes on.
    cases digit : isDigit byte.toNat with
    | true => simp [stripDigits, digit, ih]
    | false => simp [stripDigits, digit]

/-- Bytes beyond ASCII are copied, and the line goes on after them. -/
theorem stripDigits_beyond {byte : UInt8} {more : List UInt8} (beyond : Beyond (byte :: more))
    (atLineStart : Bool) (rest : GoString) :
    stripDigits atLineStart (byte :: more ++ rest) = byte :: more ++ stripDigits false rest := by
  -- The first of the bytes may stand at a line start, where it is no digit either.
  induction more generalizing byte atLineStart with
  | nil =>
    have own := beyond byte List.mem_cons_self
    simp [stripDigits, not_digit_of_beyond own, not_line_of_beyond own]
  | cons next more ih =>
    have own := beyond byte List.mem_cons_self
    have rest' := ih (fun other member => beyond other (List.mem_cons_of_mem _ member))
    simp only [List.cons_append] at rest' ⊢
    rw [stripDigits, not_digit_of_beyond own, Bool.and_false, if_neg (by decide), rest']

theorem keepDenom_beyond {bytes : List UInt8} (beyond : Beyond bytes) (rest : GoString) :
    keepDenom (bytes ++ rest) = keepDenom rest := by
  -- The filter drops every byte of an encoded character beyond ASCII.
  have none : keepDenom bytes = [] := by
    rw [keepDenom, List.filter_eq_nil_iff]
    intro byte member
    rw [not_denom_of_beyond (beyond byte member)]
    decide
  rw [keepDenom, List.filter_append, ← keepDenom, none, List.nil_append, keepDenom]

theorem getLast_not_line {byte : UInt8} {more : List UInt8}
    (within : ∀ other ∈ byte :: more, other ≠ 10) :
    ((byte :: more).getLast?.all (· = 10)) = false := by
  have last := List.getLast?_eq_some_getLast (List.cons_ne_nil byte more)
  rw [last, Option.all_some, decide_eq_false_iff_not]
  exact within _ (List.getLast_mem (List.cons_ne_nil byte more))

theorem leading_digits (str : GoString) :
    ∃ digits others, str = digits ++ others ∧ (∀ byte ∈ digits, isDigit byte.toNat = true) ∧
      str.takeWhile (fun byte => isDigit byte.toNat) = digits ∧
      str.dropWhile (fun byte => isDigit byte.toNat) = others :=
  ⟨_, _, List.takeWhile_append_dropWhile.symm,
    fun _ member => List.mem_takeWhile_imp (p := fun byte : UInt8 => isDigit byte.toNat) member,
    rfl, rfl⟩

theorem reLeadingNumbers_eq_zero {before : Option UInt8} {byte : UInt8} (rest : GoString)
    (other : ¬ (before.all (· = 10) && isDigit byte.toNat) = true) :
    reLeadingNumbers before (byte :: rest) = 0 := by
  cases start : before.all (· = 10) with
  | false => simp [reLeadingNumbers, start]
  | true =>
    rw [start, Bool.true_and] at other
    simp [reLeadingNumbers, start, other]

/-- The loop of the first pattern goes byte by byte. -/
theorem removeFrom_leadingNumbers (fuel : ℕ) (before : Option UInt8) (str : GoString)
    (enough : str.length ≤ fuel) :
    removeFrom reLeadingNumbers fuel before str = stripDigits (before.all (· = 10)) str := by
  induction fuel generalizing before str with
  | zero =>
    obtain rfl := List.length_eq_zero_iff.mp (Nat.le_zero.mp enough)
    rfl
  | succ fuel ih =>
    rcases str with _ | ⟨byte, rest⟩
    · rfl
    rw [List.length_cons] at enough
    by_cases number : (before.all (· = 10) && isDigit byte.toNat) = true
    · -- All the digits are one match, after which no line begins.
      obtain ⟨start, digit⟩ := Bool.and_eq_true_iff.mp number
      obtain ⟨digits, others, rfl, all, taken, dropped⟩ := leading_digits rest
      have matched : reLeadingNumbers before (byte :: (digits ++ others)) =
          (byte :: digits).length := by
        simp [reLeadingNumbers, start, digit, taken]
      have within : ∀ other ∈ byte :: digits, other ≠ 10 := List.forall_mem_cons.mpr
        ⟨not_line_of_digit digit, fun other among => not_line_of_digit (all other among)⟩
      rw [List.length_append] at enough
      rw [removeFrom_matched matched, ih _ _ (by omega), getLast_not_line within, start,
        stripDigits_true]
      simp [digit, dropped]
    · -- Nothing matches here, so a rune is copied.
      have unmatched := reLeadingNumbers_eq_zero rest number
      by_cases ascii : byte.toNat < 0x80
      · rw [removeFrom_copied_byte unmatched (decodeRune_ascii ascii rest), ih _ _ (by omega),
          stripDigits, if_neg number]
        rfl
      · obtain ⟨rune, more, others, rfl, -, beyond, decoded⟩ :=
          decodeRune_beyond (not_lt.mp ascii) rest
        have within : ∀ other ∈ byte :: more, other ≠ 10 :=
          fun other member => not_line_of_beyond (beyond other member)
        rw [List.length_append] at enough
        rw [removeFrom_copied unmatched decoded, ih _ _ (by omega), getLast_not_line within,
          ← List.cons_append, stripDigits_beyond beyond]

theorem removeLeadingNumbers_eq (str : GoString) : removeLeadingNumbers str = stripDigits true str :=
  removeFrom_leadingNumbers str.length none str le_rfl

/-- The loop of the second pattern keeps what may stay, once a first rune is behind it. -/
theorem removeFrom_dnmString (fuel : ℕ) (before : UInt8) (str : GoString)
    (enough : str.length ≤ fuel) :
    removeFrom reDnmString fuel (some before) str = keepDenom str := by
  -- The induction follows the fuel; each round takes one rune off the text.
  induction fuel generalizing before str with
  | zero =>
    obtain rfl := List.length_eq_zero_iff.mp (Nat.le_zero.mp enough)
    rfl
  | succ fuel ih =>
    rcases str with _ | ⟨byte, rest⟩
    · rfl
    rw [List.length_cons] at enough
    by_cases ascii : byte.toNat < 0x80
    · have decoded := decodeRune_ascii ascii rest
      cases kept : isDenomRune byte.toNat with
      | true =>
        have unmatched : reDnmString (some before) (byte :: rest) = 0 := by
          simp [reDnmString, decoded, kept]
        rw [removeFrom_copied_byte unmatched decoded, ih _ _ (by omega)]
        simp [keepDenom, kept]
      | false =>
        have matched : reDnmString (some before) (byte :: rest) = 1 := by
          simp [reDnmString, decoded, kept]
        rw [removeFrom_matched_byte matched, ih _ _ (by omega)]
        simp [keepDenom, kept]
    · -- A rune of several bytes, or an invalid one, is removed as a whole.
      obtain ⟨rune, more, others, rfl, high, beyond, decoded⟩ :=
        decodeRune_beyond (not_lt.mp ascii) rest
      have matched : reDnmString (some before) (byte :: (more ++ others)) =
          (byte :: more).length := by
        simp [reDnmString, decoded, not_denom_of_beyond high]
      rw [List.length_append] at enough
      obtain ⟨last, ends⟩ : ∃ last, (byte :: more).getLast? = some last :=
        ⟨_, List.getLast?_eq_some_getLast (List.cons_ne_nil byte more)⟩
      rw [removeFrom_matched matched, ends, ih _ _ (by omega), ← List.cons_append,
        keepDenom_beyond beyond]

theorem removeSpecialChars_eq (str : GoString) : removeSpecialChars str = keepName str := by
  -- Only the first round sees the start of the text, where a letter is asked for.
  rcases str with _ | ⟨byte, rest⟩
  · rfl
  rw [removeSpecialChars, removeAll, List.length_cons]
  by_cases ascii : byte.toNat < 0x80
  · have decoded := decodeRune_ascii ascii rest
    cases letter : isLetter byte.toNat with
    | true =>
      have unmatched : reDnmString none (byte :: rest) = 0 := by
        simp [reDnmString, decoded, letter, denom_of_letter letter]
      rw [removeFrom_copied_byte unmatched decoded, removeFrom_dnmString _ _ _ le_rfl, keepName,
        letter]
      rfl
    | false =>
      have matched : reDnmString none (byte :: rest) = 1 := by
        simp [reDnmString, decoded, letter]
      rw [removeFrom_matched_byte matched, removeFrom_dnmString _ _ _ le_rfl, keepName, letter]
      rfl
  · -- No byte of such a rune is kept, the first included.
    obtain ⟨rune, more, others, rfl, high, beyond, decoded⟩ :=
      decodeRune_beyond (not_lt.mp ascii) rest
    have matched : reDnmString none (byte :: (more ++ others)) = (byte :: more).length := by
      simp [reDnmString, decoded, not_denom_of_beyond high]
    obtain ⟨last, ends⟩ : ∃ last, (byte :: more).getLast? = some last :=
      ⟨_, List.getLast?_eq_some_getLast (List.cons_ne_nil byte more)⟩
    have own := beyond byte List.mem_cons_self
    have others' : Beyond more := fun other member => beyond other (List.mem_cons_of_mem _ member)
    rw [removeFrom_matched matched, ends, removeFrom_dnmString _ _ _ (by simp), keepName,
      not_letter_of_beyond own, keepDenom_beyond others']
    rfl

end Passes

/-- `ibc/`. -/
def ibcPrefix : GoString := [105, 98, 99, 47]

/-- `erc20/`. -/
def erc20Prefix : GoString := [101, 114, 99, 50, 48, 47]

/-- A text made of the two invalid prefixes, in any number and order. -/
inductive InvalidLead : GoString → Prop where
  | nil : InvalidLead []
  | ibc {lead : GoString} (invalid : InvalidLead lead) : InvalidLead (ibcPrefix ++ lead)
  | erc20 {lead : GoString} (invalid : InvalidLead lead) : InvalidLead (erc20Prefix ++ lead)

/-- A text is empty or begins with a letter. -/
def BeginsWithLetter (str : GoString) : Prop :=
  ∀ first rest, str = first :: rest → isLetter first.toNat = true

/-- The line that a text ends in has digits only. -/
def lineOfDigits (before : GoString) : Bool :=
  (before.reverse.takeWhile (· ≠ 10)).all fun byte => isDigit byte.toNat

/--
A byte of a name stays behind the bytes before it.

It may stay in a name, it is no digit with only digits before it in its line, and it is a letter if
there are only digits before it in the name.
-/
def stays (before : GoString) (byte : UInt8) : Bool :=
  isDenomRune byte.toNat && !(lineOfDigits before && isDigit byte.toNat) &&
    (!before.all (fun other => isDigit other.toNat) || isLetter byte.toNat)

/-- The bytes of a text that stay, behind the bytes before it. -/
def staying (before : GoString) : GoString → GoString
  | [] => []
  | byte :: rest => (if stays before byte then [byte] else []) ++ staying (before ++ [byte]) rest

/-- A digit, a slash or a hyphen stays, and only invalid prefixes stay before it. -/
def Exposed (name : GoString) : Prop :=
  ∃ before byte after, name = before ++ byte :: after ∧ stays before byte = true ∧
    isLetter byte.toNat = false ∧ InvalidLead (staying [] before) ∧
    (staying [] before).length < 128

section Staying

/-- One more byte goes on with the line, unless it breaks it. -/
theorem lineOfDigits_append (before : GoString) (byte : UInt8) :
    lineOfDigits (before ++ [byte]) =
      (decide (byte = 10) || lineOfDigits before && isDigit byte.toNat) := by
  by_cases line : byte = 10
  · simp [lineOfDigits, line]
  · simp [lineOfDigits, line, Bool.and_comm]

variable {before : GoString}

theorem lineOfDigits_of_digits (digits : before.all (fun byte => isDigit byte.toNat) = true) :
    lineOfDigits before = true := by
  rw [List.all_eq_true] at digits
  rw [lineOfDigits, List.all_eq_true]
  intro byte member
  -- The bytes of the line are among those of the text.
  exact digits byte (List.mem_reverse.mp (List.takeWhile_sublist _ |>.mem member))

/-- The first two passes keep what stays, once a byte is behind them. -/
theorem keepDenom_stripDigits_eq (behind : before.all (fun byte => isDigit byte.toNat) = false)
    (rest : GoString) :
    keepDenom (stripDigits (lineOfDigits before) rest) = staying before rest := by
  -- The flag of the first pass says whether the line so far has digits only.
  induction rest generalizing before with
  | nil => rfl
  | cons byte rest ih =>
    have still : (before ++ [byte]).all (fun byte => isDigit byte.toNat) = false := by
      rw [List.all_append, behind]
      rfl
    have next := ih still
    rw [lineOfDigits_append] at next
    rw [stripDigits, staying, ← next, stays, behind]
    cases number : lineOfDigits before && isDigit byte.toNat with
    | true => simp
    | false =>
      cases kept : isDenomRune byte.toNat with
      | true => simp [keepDenom, kept]
      | false => simp [keepDenom, kept]

/-- At the beginning of a name, digits are passed over until a byte stays or is removed. -/
theorem keepName_stripDigits_eq (digits : before.all (fun byte => isDigit byte.toNat) = true)
    (rest : GoString) : keepName (stripDigits true rest) = staying before rest := by
  induction rest generalizing before with
  | nil => rfl
  | cons byte rest ih =>
    have line := lineOfDigits_of_digits digits
    rw [stripDigits, staying, stays, line, digits]
    cases number : isDigit byte.toNat with
    | true => simpa using ih (by rw [List.all_append, digits]; simp [number])
    | false =>
      -- From here on a byte is behind the passes.
      have behind : (before ++ [byte]).all (fun byte => isDigit byte.toNat) = false := by
        rw [List.all_append, digits]
        simp [number]
      have next := keepDenom_stripDigits_eq behind rest
      rw [lineOfDigits_append, number, Bool.and_false, Bool.or_false] at next
      rw [Bool.and_false, if_neg (by decide), keepName, next]
      cases letter : isLetter byte.toNat with
      | true => simp [denom_of_letter letter]
      | false => simp

/-- What stays of a name is what the first two passes leave of it. -/
theorem staying_eq (name : GoString) : keepName (stripDigits true name) = staying [] name :=
  keepName_stripDigits_eq rfl name

theorem staying_append (before first second : GoString) :
    staying before (first ++ second) =
      staying before first ++ staying (before ++ first) second := by
  -- What stays depends on all that is before it.
  induction first generalizing before with
  | nil => simp [staying]
  | cons byte first ih =>
    rw [List.cons_append, staying, ih, staying, List.append_assoc, List.append_assoc]
    rfl

/-- A byte among those that stay is at a place of the text. -/
theorem exists_of_staying {text lead rest : GoString} {byte : UInt8}
    (split : staying before text = lead ++ byte :: rest) :
    ∃ first after, text = first ++ byte :: after ∧ stays (before ++ first) byte = true ∧
      staying before first = lead := by
  induction text generalizing before lead with
  | nil => simp [staying] at split
  | cons other text ih =>
    rw [staying] at split
    cases kept : stays before other with
    | false =>
      -- The byte is further on, and this one leaves nothing before it.
      rw [kept, if_neg (by decide), List.nil_append] at split
      obtain ⟨first, after, rfl, stay, same⟩ := ih split
      refine ⟨other :: first, after, rfl, ?_, ?_⟩
      · simpa using stay
      · rw [staying, kept, same]
        rfl
    | true =>
      rw [kept, if_pos rfl, List.singleton_append] at split
      cases lead with
      | nil =>
        obtain ⟨rfl, -⟩ := List.cons.inj split
        exact ⟨[], text, rfl, by simpa using kept, rfl⟩
      | cons head lead =>
        obtain ⟨rfl, others⟩ := List.cons.inj split
        obtain ⟨first, after, rfl, stay, same⟩ := ih others
        refine ⟨other :: first, after, rfl, ?_, ?_⟩
        · simpa using stay
        · rw [staying, kept, same]
          rfl

/-- A name is exposed if behind invalid prefixes the cut text goes on with no letter. -/
theorem exposed_iff {name : GoString} :
    Exposed name ↔ ∃ lead byte rest, (staying [] name).take 128 = lead ++ byte :: rest ∧
      InvalidLead lead ∧ isLetter byte.toNat = false := by
  constructor
  · rintro ⟨before, byte, after, rfl, stay, exposed, invalid, short⟩
    -- The lead is shorter than the cut, so the byte behind it is kept.
    rw [staying_append, staying, List.nil_append, if_pos stay, List.take_append,
      List.take_of_length_le short.le]
    obtain ⟨room, size⟩ := Nat.exists_eq_add_of_lt short
    rw [show 128 - (staying [] before).length = room + 1 by omega]
    exact ⟨_, byte, _, rfl, invalid, exposed⟩
  · rintro ⟨lead, byte, rest, cut, invalid, exposed⟩
    -- What is kept is found in the name again, byte by byte.
    have whole := (List.take_append_drop 128 (staying [] name)).symm
    rw [cut, List.append_assoc] at whole
    obtain ⟨first, after, rfl, stay, rfl⟩ := exists_of_staying whole
    have length := congrArg List.length cut
    rw [List.length_take, List.length_append, List.length_cons] at length
    exact ⟨first, byte, after, rfl, stay, exposed, invalid, by omega⟩

end Staying

section Prefixes

theorem removeInvalidPrefixes_suffix (str : GoString) : removeInvalidPrefixes str <:+ str := by
  -- Each round drops one prefix.
  fun_induction removeInvalidPrefixes str with
  | case1 rest ih => exact ih.trans (List.suffix_append ibcPrefix rest)
  | case2 rest ih => exact ih.trans (List.suffix_append erc20Prefix rest)
  | case3 str => exact List.suffix_rfl

theorem removeInvalidPrefixes_clean (str : GoString) :
    ¬ ibcPrefix <+: removeInvalidPrefixes str ∧ ¬ erc20Prefix <+: removeInvalidPrefixes str := by
  fun_induction removeInvalidPrefixes str with
  | case1 rest ih => exact ih
  | case2 rest ih => exact ih
  -- The recursion ends only where neither prefix matches.
  | case3 str ibc erc20 =>
    constructor
    · rintro ⟨rest, same⟩
      exact ibc rest same.symm
    · rintro ⟨rest, same⟩
      exact erc20 rest same.symm

theorem removeInvalidPrefixes_of_clean {str : GoString}
    (clean : ¬ ibcPrefix <+: str ∧ ¬ erc20Prefix <+: str) : removeInvalidPrefixes str = str := by
  fun_cases removeInvalidPrefixes str with
  | case1 rest => exact absurd (List.prefix_append ibcPrefix rest) clean.1
  | case2 rest => exact absurd (List.prefix_append erc20Prefix rest) clean.2
  | case3 => rfl

theorem exists_invalidLead (str : GoString) :
    ∃ lead, InvalidLead lead ∧ str = lead ++ removeInvalidPrefixes str := by
  -- The dropped prefixes are collected in their order.
  fun_induction removeInvalidPrefixes str with
  | case1 rest ih =>
    obtain ⟨lead, invalid, split⟩ := ih
    refine ⟨_, invalid.ibc, ?_⟩
    rw [List.append_assoc, ← split]
    rfl
  | case2 rest ih =>
    obtain ⟨lead, invalid, split⟩ := ih
    refine ⟨_, invalid.erc20, ?_⟩
    rw [List.append_assoc, ← split]
    rfl
  | case3 str => exact ⟨[], .nil, rfl⟩

theorem removeInvalidPrefixes_exposed {lead rest : GoString} {byte : UInt8}
    (invalid : InvalidLead lead) (exposed : isLetter byte.toNat = false) :
    removeInvalidPrefixes (lead ++ byte :: rest) = byte :: rest := by
  induction invalid with
  | nil =>
    apply removeInvalidPrefixes_of_clean
    -- Both prefixes begin with a letter.
    constructor
    · rintro ⟨others, same⟩
      rw [← (List.cons.inj same).1] at exposed
      exact absurd exposed (by decide)
    · rintro ⟨others, same⟩
      rw [← (List.cons.inj same).1] at exposed
      exact absurd exposed (by decide)
  | ibc _ ih => exact ih
  | erc20 _ ih => exact ih

end Prefixes

section Lengths

theorem length_stripDigits_le (atLineStart : Bool) (str : GoString) :
    (stripDigits atLineStart str).length ≤ str.length := by
  induction str generalizing atLineStart with
  | nil => rfl
  | cons byte rest ih =>
    rw [stripDigits]
    split_ifs
    · exact (ih true).trans (Nat.le_succ _)
    · exact Nat.succ_le_succ (ih _)

theorem length_keepName_le (str : GoString) : (keepName str).length ≤ str.length := by
  cases str with
  | nil => rfl
  | cons byte rest =>
    have kept : (keepDenom rest).length ≤ rest.length := List.length_filter_le _ _
    rw [keepName]
    -- The first byte is kept if it is a letter, and the others as the filter says.
    split_ifs
    · exact Nat.succ_le_succ kept
    · exact kept.trans (Nat.le_succ _)

/-- A text that does not begin with a letter loses its first byte. -/
theorem length_keepName_stripDigits_le {byte : UInt8} (exposed : isLetter byte.toNat = false)
    (rest : GoString) : (keepName (stripDigits true (byte :: rest))).length ≤ rest.length := by
  -- A digit is lost to the first pass, and anything else to the second.
  cases digit : isDigit byte.toNat with
  | true =>
    rw [stripDigits, digit, Bool.and_true, if_pos rfl]
    exact (length_keepName_le _).trans (length_stripDigits_le _ _)
  | false =>
    rw [stripDigits, digit, Bool.and_false, if_neg (by decide), keepName, exposed]
    exact (List.length_filter_le _ _).trans (length_stripDigits_le _ _)

theorem denom_of_mem_keepName {str : GoString} {byte : UInt8} (member : byte ∈ keepName str) :
    isDenomRune byte.toNat = true := by
  cases str with
  | nil => cases member
  | cons first rest =>
    -- The first byte stays as a letter, and the others by the filter.
    rcases List.mem_append.mp member with leading | kept
    · split_ifs at leading with letter
      · rw [List.mem_singleton.mp leading]
        exact denom_of_letter letter
      · cases leading
    · exact (List.mem_filter.mp kept).2

end Lengths

section Result

/-- The passes over a name, byte by byte. -/
theorem sanitizeERC20Name_eq (name : GoString) :
    sanitizeERC20Name name =
      removeInvalidPrefixes ((keepName (stripDigits true name)).take 128) := by
  -- The cut is made only on a text that is too long.
  simp only [sanitizeERC20Name, removeLeadingNumbers_eq, removeSpecialChars_eq]
  split_ifs with long
  · rfl
  · rw [List.take_of_length_le (not_lt.mp long)]

/-- A result that begins with a letter goes through the passes unchanged. -/
theorem keepName_stripDigits_of_letter {str : GoString} (letter : BeginsWithLetter str)
    (denom : ∀ byte ∈ str, isDenomRune byte.toNat = true) :
    keepName (stripDigits true str) = str := by
  -- No line break is left, so nothing but the beginning could lose digits.
  have within : ∀ rest : GoString, (∀ byte ∈ rest, isDenomRune byte.toNat = true) →
      stripDigits false rest = rest := by
    intro rest kept
    induction rest with
    | nil => rfl
    | cons byte rest ih =>
      obtain ⟨own, others⟩ := List.forall_mem_cons.mp kept
      have line : byte ≠ 10 := by
        rintro rfl
        exact absurd own (by decide)
      simp [stripDigits, line, ih others]
  cases str with
  | nil => rfl
  | cons first rest =>
    have isFirst := letter first rest rfl
    obtain ⟨-, others⟩ := List.forall_mem_cons.mp denom
    have digit : isDigit first.toNat = false := by
      simp only [isLetter, decide_eq_true_eq] at isFirst
      simp only [isDigit, decide_eq_false_iff_not]
      omega
    have line : first ≠ 10 := by
      rintro rfl
      exact absurd isFirst (by decide)
    have kept : keepDenom rest = rest := List.filter_eq_self.mpr others
    simp [stripDigits, digit, line, within rest others, keepName, isFirst, kept]

variable (name : GoString)

theorem denom_of_mem_sanitized {byte : UInt8} (member : byte ∈ sanitizeERC20Name name) :
    isDenomRune byte.toNat = true := by
  rw [sanitizeERC20Name_eq] at member
  have before := (removeInvalidPrefixes_suffix _).subset member
  exact denom_of_mem_keepName (List.mem_of_mem_take before)

theorem length_sanitized_le : (sanitizeERC20Name name).length ≤ 128 := by
  rw [sanitizeERC20Name_eq]
  exact (removeInvalidPrefixes_suffix _).length_le.trans (List.length_take_le _ _)

/-- The result begins with a letter unless something else is exposed. -/
theorem sanitized_beginsWithLetter_iff :
    BeginsWithLetter (sanitizeERC20Name name) ↔ ¬ Exposed name := by
  rw [sanitizeERC20Name_eq, staying_eq, exposed_iff]
  constructor
  · -- An exposed byte stops the removal of prefixes and comes out first.
    rintro letter ⟨lead, byte, rest, split, invalid, exposed⟩
    rw [split, removeInvalidPrefixes_exposed invalid exposed] at letter
    rw [letter byte rest rfl] at exposed
    cases exposed
  · -- Whatever else comes out first was exposed by the prefixes before it.
    intro covered first rest same
    by_contra other
    obtain ⟨lead, invalid, split⟩ := exists_invalidLead ((staying [] name).take 128)
    rw [same] at split
    exact covered ⟨lead, first, rest, split, invalid, by simpa using other⟩

/-- The result is a fixed point exactly when it begins with a letter. -/
theorem sanitized_fixed_iff :
    sanitizeERC20Name (sanitizeERC20Name name) = sanitizeERC20Name name ↔
      BeginsWithLetter (sanitizeERC20Name name) := by
  constructor
  · intro fixed first rest same
    by_contra exposed
    -- Otherwise the second round is shorter than the first one.
    have shorter := length_keepName_stripDigits_le (by simpa using exposed) rest
    have length := congrArg List.length fixed
    rw [same, sanitizeERC20Name_eq, List.length_cons] at length
    have last := (removeInvalidPrefixes_suffix
      ((keepName (stripDigits true (first :: rest))).take 128)).length_le
    have cut := List.length_take_le' 128 (keepName (stripDigits true (first :: rest)))
    omega
  · intro letter
    have denom : ∀ byte ∈ sanitizeERC20Name name, isDenomRune byte.toNat = true :=
      fun _ member => denom_of_mem_sanitized name member
    have clean := removeInvalidPrefixes_clean ((keepName (stripDigits true name)).take 128)
    rw [← sanitizeERC20Name_eq] at clean
    rw [sanitizeERC20Name_eq (sanitizeERC20Name name), keepName_stripDigits_of_letter letter denom,
      List.take_of_length_le (length_sanitized_le name), removeInvalidPrefixes_of_clean clean]

end Result

section Texts

/-- The bytes of a text. -/
def utf8 (chars : List Char) : GoString := chars.flatMap String.utf8EncodeChar

theorem utf8_cons (c : Char) (chars : List Char) :
    utf8 (c :: chars) = String.utf8EncodeChar c ++ utf8 chars := List.flatMap_cons

/-- A character is encoded as one byte, or by bytes beyond ASCII. -/
theorem utf8EncodeChar_cases (c : Char) :
    (∃ byte : UInt8, String.utf8EncodeChar c = [byte] ∧ byte.toNat = c.toNat ∧ c.toNat < 0x80) ∨
      0x80 ≤ c.toNat ∧ ∃ byte more, String.utf8EncodeChar c = byte :: more ∧
        Beyond (byte :: more) := by
  -- The tag bits of the longer encodings lift every byte out of ASCII.
  have value : c.val.toNat = c.toNat := rfl
  simp only [String.utf8EncodeChar, value]
  split_ifs with one two three
  · refine .inl ⟨_, rfl, ?_, by omega⟩
    rw [UInt8.toNat_ofNat']
    omega
  all_goals
    refine .inr ⟨by omega, _, _, rfl, ?_⟩
    simp only [Beyond, List.mem_cons, List.not_mem_nil, or_false, forall_eq_or_imp, forall_eq,
      UInt8.toNat_ofNat']
    omega

theorem isDigit_toNat (c : Char) : isDigit c.toNat = c.isDigit := by
  simp [isDigit, Char.isDigit, UInt32.le_iff_toNat_le]

theorem isLetter_toNat (c : Char) : isLetter c.toNat = c.isAlpha := by
  simp [isLetter, Char.isAlpha, Char.isUpper, Char.isLower, UInt32.le_iff_toNat_le]

theorem isDenomRune_toNat (c : Char) : isDenomRune c.toNat = isDenomChar c := by
  have same : ∀ other : Char, decide (c.toNat = other.toNat) = decide (c = other) :=
    fun other => decide_eq_decide.mpr Char.toNat_inj
  rw [isDenomRune, isLetter_toNat, isDigit_toNat, isDenomChar, Char.isAlphanum, ← same, ← same]
  rfl

theorem ascii_of_denom {c : Char} (denom : isDenomChar c = true) : c.toNat < 0x80 := by
  by_contra beyond
  rw [← isDenomRune_toNat, not_denom_of_beyond (not_lt.mp beyond)] at denom
  cases denom

/-- The first pass goes character by character on a text. -/
theorem stripDigits_utf8 (atLineStart : Bool) (chars : List Char) :
    stripDigits atLineStart (utf8 chars) =
      utf8 (Erc20.removeLeadingNumbers atLineStart chars) := by
  induction chars generalizing atLineStart with
  | nil => rfl
  | cons c chars ih =>
    rw [utf8_cons, Erc20.removeLeadingNumbers]
    rcases utf8EncodeChar_cases c with ⟨byte, encoded, same, -⟩ | ⟨high, byte, more, encoded, beyond⟩
    · have line : decide (byte = 10) = decide (c = '\n') := by
        rw [decide_eq_decide, ← UInt8.toNat_inj, same, ← Char.toNat_inj]
        rfl
      rw [encoded, List.singleton_append, stripDigits, same, isDigit_toNat, line]
      split_ifs
      · exact ih true
      · rw [ih, utf8_cons, encoded, List.singleton_append]
    · -- A character beyond ASCII is neither a digit nor a line break.
      have digit : c.isDigit = false := by rw [← isDigit_toNat, not_digit_of_beyond high]
      have line : c ≠ '\n' := by
        rintro rfl
        exact absurd high (by decide)
      rw [encoded, stripDigits_beyond beyond, ih, digit, Bool.and_false, if_neg (by decide),
        decide_eq_false line, utf8_cons, encoded]

/-- What is kept of a text is kept character by character. -/
theorem keepDenom_utf8 (chars : List Char) :
    keepDenom (utf8 chars) = utf8 (chars.filter isDenomChar) := by
  induction chars with
  | nil => rfl
  | cons c chars ih =>
    rw [utf8_cons, List.filter_cons, ← isDenomRune_toNat]
    -- Beyond ASCII neither the character nor any of its bytes is kept.
    rcases utf8EncodeChar_cases c with ⟨byte, encoded, same, -⟩ | ⟨high, byte, more, encoded, beyond⟩
    · rw [encoded, List.singleton_append, keepDenom, List.filter_cons, same, ← keepDenom, ih]
      split_ifs
      · rw [utf8_cons, encoded, List.singleton_append]
      · rfl
    · rw [encoded, keepDenom_beyond beyond, ih, not_denom_of_beyond high]
      rfl

theorem keepName_utf8 (chars : List Char) :
    keepName (utf8 chars) = utf8 (Erc20.removeSpecialChars chars) := by
  cases chars with
  | nil => rfl
  | cons c chars =>
    rw [utf8_cons, Erc20.removeSpecialChars, ← isLetter_toNat]
    -- A character is encoded as its own byte, or by bytes beyond ASCII.
    rcases utf8EncodeChar_cases c with ⟨byte, encoded, same, -⟩ | ⟨high, byte, more, encoded, beyond⟩
    · rw [encoded, List.singleton_append, keepName, same, keepDenom_utf8]
      split_ifs
      · rw [List.singleton_append, List.singleton_append, utf8_cons, encoded, List.singleton_append]
      · rfl
    · have first := not_letter_of_beyond (beyond byte List.mem_cons_self)
      have others : Beyond more := fun other member => beyond other (List.mem_cons_of_mem _ member)
      rw [encoded, List.cons_append, keepName, first, keepDenom_beyond others, keepDenom_utf8,
        not_letter_of_beyond high]
      rfl

/-- The characters that are kept have one byte each. -/
theorem take_utf8 (count : ℕ) {chars : List Char} (ascii : ∀ c ∈ chars, c.toNat < 0x80) :
    (utf8 chars).take count = utf8 (chars.take count) := by
  -- The cut counts bytes, which are characters as long as all is ASCII.
  induction chars generalizing count with
  | nil => simp [utf8]
  | cons c chars ih =>
    obtain ⟨own, others⟩ := List.forall_mem_cons.mp ascii
    rcases utf8EncodeChar_cases c with ⟨byte, encoded, -, -⟩ | ⟨high, -⟩
    · cases count with
      | zero => rfl
      | succ count =>
        rw [utf8_cons, encoded, List.singleton_append, List.take_succ_cons, ih count others,
          List.take_succ_cons, utf8_cons, encoded, List.singleton_append]
    · omega

/-- The bytes of ASCII characters begin a text only if the characters do. -/
theorem prefix_of_utf8 (lead : List Char) {chars : List Char} (ascii : ∀ c ∈ lead, c.toNat < 0x80)
    (begins : utf8 lead <+: utf8 chars) : lead <+: chars := by
  induction lead generalizing chars with
  | nil => exact List.nil_prefix
  | cons c lead ih =>
    obtain ⟨own, others⟩ := List.forall_mem_cons.mp ascii
    rcases utf8EncodeChar_cases c with ⟨byte, encoded, same, -⟩ | ⟨high, -⟩
    · rw [utf8_cons, encoded, List.singleton_append] at begins
      cases chars with
      | nil => exact absurd (List.prefix_nil.mp begins) (by simp)
      | cons other chars =>
        rw [utf8_cons] at begins
        rcases utf8EncodeChar_cases other with ⟨first, second, equal, -⟩ |
            ⟨-, first, more, second, beyond⟩
        · rw [second, List.singleton_append, List.cons_prefix_cons] at begins
          have chars := Char.toNat_inj.mp (same.symm.trans ((congrArg _ begins.1).trans equal))
          rw [chars, List.prefix_cons_inj]
          exact ih others begins.2
        · -- The first byte would have to be both below and beyond.
          rw [second, List.cons_append, List.cons_prefix_cons] at begins
          have high := beyond first List.mem_cons_self
          rw [← begins.1] at high
          omega
    · omega

theorem removeInvalidPrefixes_utf8 (chars : List Char) :
    removeInvalidPrefixes (utf8 chars) = utf8 (Erc20.removeInvalidPrefixes chars) := by
  fun_induction Erc20.removeInvalidPrefixes chars with
  | case1 rest ih => exact ih
  | case2 rest ih => exact ih
  | case3 chars ibc erc20 =>
    apply removeInvalidPrefixes_of_clean
    -- The prefixes are ASCII, so they match bytes where they match characters.
    have ibcBytes : utf8 ['i', 'b', 'c', '/'] = ibcPrefix := by decide
    have erc20Bytes : utf8 ['e', 'r', 'c', '2', '0', '/'] = erc20Prefix := by decide
    rw [← ibcBytes, ← erc20Bytes]
    constructor
    · intro begins
      obtain ⟨rest, rfl⟩ := prefix_of_utf8 _ (by simp) begins
      exact ibc rest rfl
    · intro begins
      obtain ⟨rest, rfl⟩ := prefix_of_utf8 _ (by simp) begins
      exact erc20 rest rfl

/-- The keeper's function on texts is this one on their bytes. -/
theorem sanitizeERC20Name_utf8 (name : String) :
    sanitizeERC20Name (utf8 name.toList) = utf8 (Erc20.sanitizeERC20Name name).toList := by
  -- The second pass leaves ASCII only, so that the cut can be moved inside.
  have ascii : ∀ c ∈ Erc20.removeSpecialChars (Erc20.removeLeadingNumbers true name.toList),
      c.toNat < 0x80 := by
    generalize Erc20.removeLeadingNumbers true name.toList = chars
    intro c member
    cases chars with
    | nil => cases member
    | cons first rest =>
      rcases List.mem_append.mp member with leading | kept
      · split_ifs at leading with letter
        · rw [List.mem_singleton.mp leading]
          apply ascii_of_denom
          simp [isDenomChar, Char.isAlphanum, letter]
        · cases leading
      · exact ascii_of_denom (List.mem_filter.mp kept).2
  have cut : ∀ chars : List Char,
      (if 128 < chars.length then chars.take 128 else chars) = chars.take 128 := by
    intro chars
    split_ifs with long
    · rfl
    · rw [List.take_of_length_le (not_lt.mp long)]
  rw [sanitizeERC20Name_eq, stripDigits_utf8, keepName_utf8, take_utf8 128 ascii,
    removeInvalidPrefixes_utf8, Erc20.sanitizeERC20Name]
  simp only [cut, String.toList_ofList]

end Texts

/--
A sanitised name has the right characters, the right length, and neither prefix.

It begins with a letter, if it is not empty, and is not changed by a second round, exactly when no
digit, slash or hyphen of the name stays behind nothing but invalid prefixes: the passes do not look
at the beginning again after one of them has removed a character or a prefix there.
-/
theorem sanitized_name_wellFormed_iff (name : GoString) :
    (∀ byte ∈ sanitizeERC20Name name, isDenomRune byte.toNat = true) ∧
    (sanitizeERC20Name name).length ≤ 128 ∧
    ¬ ibcPrefix <+: sanitizeERC20Name name ∧ ¬ erc20Prefix <+: sanitizeERC20Name name ∧
    (BeginsWithLetter (sanitizeERC20Name name) ↔ ¬ Exposed name) ∧
    (sanitizeERC20Name (sanitizeERC20Name name) = sanitizeERC20Name name ↔ ¬ Exposed name) := by
  have clean := removeInvalidPrefixes_clean ((keepName (stripDigits true name)).take 128)
  rw [← sanitizeERC20Name_eq] at clean
  -- A second round changes the name exactly where it does not begin with a letter.
  have letter := sanitized_beginsWithLetter_iff name
  exact ⟨fun byte member => denom_of_mem_sanitized name member, length_sanitized_le name, clean.1,
    clean.2, letter, (sanitized_fixed_iff name).trans letter⟩

/--
Removing a first character, or a prefix, can expose what is no letter.

The names are `--a`, ` 1abc` and `ibc/1abc`. Only a second round makes `a` and `abc` of them.
-/
theorem exposed_names :
    sanitizeERC20Name [45, 45, 97] = [45, 97] ∧ sanitizeERC20Name [45, 97] = [97] ∧
    sanitizeERC20Name [32, 49, 97, 98, 99] = [49, 97, 98, 99] ∧
    sanitizeERC20Name [105, 98, 99, 47, 49, 97, 98, 99] = [49, 97, 98, 99] ∧
    sanitizeERC20Name [49, 97, 98, 99] = [97, 98, 99] ∧
    ¬ BeginsWithLetter [45, 97] ∧ ¬ BeginsWithLetter [49, 97, 98, 99] := by
  -- Each round is computed, and the first byte is no letter.
  refine ⟨by decide, by decide, by decide, by decide, by decide, ?_, ?_⟩
  · intro letter
    exact absurd (letter _ _ rfl) (by decide)
  · intro letter
    exact absurd (letter _ _ rfl) (by decide)

end Evmos.Erc20.GoString
