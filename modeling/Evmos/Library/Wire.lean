import Mathlib

/-! The wire format of protocol buffers: what a message is written as, and how it is written. -/

namespace Library.Wire

/-- A byte. -/
abbrev Byte := Fin 256

theorem mod_lt_byte (value : ℕ) : value % 256 < 256 := Nat.mod_lt value (by decide)

/-- A byte with the low bits of a number. -/
def byte (value : ℕ) : Byte := ⟨value % 256, mod_lt_byte value⟩

section Format

/-- A number in groups of seven bits, the lowest first; ten groups hold sixty-four bits. -/
def varintFrom : ℕ → ℕ → List Byte
  | 0, _ => []
  | groups + 1, value =>
    if value < 128 then [byte value]
    -- All groups but the last are marked by their high bit.
    else byte (value % 128 + 128) :: varintFrom groups (value / 128)

/-- A number of variable length. -/
def varint (value : ℕ) : List Byte := varintFrom 10 value

/-- A field of a message with its content. -/
inductive Entry where
  | varint (number value : ℕ)
  | bytes (number : ℕ) (content : List Byte)
  /-- Packed booleans. -/
  | bools (number : ℕ) (flags : List Bool)
  | message (number : ℕ) (entries : List Entry)

/-- The byte before a field: its number and the type of its encoding. -/
def tag (number wireType : ℕ) : Byte := byte (8 * number + wireType)

/-- A boolean takes one byte. -/
def flag (value : Bool) : Byte := byte value.toNat

/-- Content with its length before it. -/
def delimited (number : ℕ) (content : List Byte) : List Byte :=
  tag number 2 :: (varint content.length ++ content)

mutual

/-- What a field is written as. -/
def Entry.encode : Entry → List Byte
  | .varint number value => tag number 0 :: Wire.varint value
  | .bytes number content => delimited number content
  | .bools number flags => delimited number (flags.map flag)
  | .message number entries => delimited number (encodeAll entries)

/-- What a message is written as: its fields one after the other. -/
def encodeAll : List Entry → List Byte
  | [] => []
  | entry :: entries => entry.encode ++ encodeAll entries

end

mutual

/-- A field that the format can express. -/
def Entry.Valid : Entry → Prop
  | .varint number value => 0 < number ∧ number < 16 ∧ value < 2 ^ 64
  | .bytes number content => 0 < number ∧ number < 16 ∧ content.length < 2 ^ 63
  | .bools number flags => 0 < number ∧ number < 16 ∧ flags.length < 2 ^ 63
  | .message number entries =>
    0 < number ∧ number < 16 ∧ (encodeAll entries).length < 2 ^ 63 ∧ ValidAll entries

/-- Fields that the format can express. -/
def ValidAll : List Entry → Prop
  | [] => True
  | entry :: entries => entry.Valid ∧ ValidAll entries

end

/-- A number that is written unless it is zero. -/
def optionalVarint (number value : ℕ) : List Entry :=
  if value = 0 then [] else [.varint number value]

/-- Content that is written unless it is empty. -/
def optionalBytes (number : ℕ) (content : List Byte) : List Entry :=
  if content = [] then [] else [.bytes number content]

end Format

section Size

/-- The groups of seven bits in a number, of which there is at least one. -/
def sov (value : ℕ) : ℕ := ((value ||| 1).log2 + 1 + 6) / 7

/-- The size of content with its length and its tag. -/
def delimitedSize (length : ℕ) : ℕ := 1 + length + sov length

mutual

/-- The size of a field, which is computed before it is written. -/
def Entry.size : Entry → ℕ
  | .varint _ value => 1 + sov value
  | .bytes _ content => delimitedSize content.length
  | .bools _ flags => delimitedSize flags.length
  | .message _ entries => delimitedSize (sizeAll entries)

/-- The size of a message. -/
def sizeAll : List Entry → ℕ
  | [] => 0
  | entry :: entries => entry.size + sizeAll entries

end

end Size

section Buffer

/-- A buffer that is filled from its end, with the start of what is written. -/
structure Buffer where
  dAtA : List Byte
  i : ℕ

namespace Buffer

/-- Writes a byte at an index, which has to be one of the buffer. -/
def setAt (dAtA : List Byte) (index : ℕ) (value : Byte) : Option (List Byte) :=
  if index < dAtA.length then some (dAtA.set index value) else none

/-- Writes a number forwards, group by group. -/
def putGroups : ℕ → List Byte → ℕ → ℕ → Option (List Byte)
  | 0, dAtA, _, _ => some dAtA
  | groups + 1, dAtA, offset, value =>
    if value < 128 then setAt dAtA offset (byte value)
    else do
      let dAtA ← setAt dAtA offset (byte (value % 128 + 128))
      putGroups groups dAtA (offset + 1) (value / 128)

/-- Writes a number in front, where room is made for its size. -/
def encodeVarint (buffer : Buffer) (value : ℕ) : Option Buffer :=
  if buffer.i < sov value then none
  else do
    let dAtA ← putGroups 10 buffer.dAtA (buffer.i - sov value) value
    some ⟨dAtA, buffer.i - sov value⟩

/-- Writes a byte in front. -/
def put (buffer : Buffer) (value : Byte) : Option Buffer :=
  if buffer.i = 0 then none
  else do
    let dAtA ← setAt buffer.dAtA (buffer.i - 1) value
    some ⟨dAtA, buffer.i - 1⟩

/-- Copies content to the front, as far as the buffer goes. -/
def copy (buffer : Buffer) (content : List Byte) : Option Buffer :=
  if buffer.i < content.length then none
  else
    let start := buffer.i - content.length
    some ⟨buffer.dAtA.take start ++ content.take (buffer.dAtA.length - start) ++
      buffer.dAtA.drop (start + content.length), start⟩

/-- Writes the length of what was written since an index, and a tag. -/
def close (buffer : Buffer) (number before : ℕ) : Option Buffer := do
  let buffer ← buffer.encodeVarint (before - buffer.i)
  buffer.put (tag number 2)

end Buffer

mutual

/-- Writes a field in front, its last byte first. -/
def Entry.write : Entry → Buffer → Option Buffer
  | .varint number value, buffer => do
    let buffer ← buffer.encodeVarint value
    buffer.put (tag number 0)
  | .bytes number content, buffer => do
    let after ← buffer.copy content
    after.close number buffer.i
  | .bools number flags, buffer => do
    let after ← (flags.map flag).reverse.foldlM Buffer.put buffer
    after.close number buffer.i
  | .message number entries, buffer => do
    -- A message sees the part of the buffer that is free.
    let inner ← writeAll entries ⟨buffer.dAtA.take buffer.i, buffer.i⟩
    Buffer.close ⟨inner.dAtA ++ buffer.dAtA.drop buffer.i, inner.i⟩ number buffer.i

/-- Writes a message, its last field first. -/
def writeAll : List Entry → Buffer → Option Buffer
  | [], buffer => some buffer
  | entry :: entries, buffer => do
    let buffer ← writeAll entries buffer
    entry.write buffer

end

/-- Writes a message into a buffer of its size, and returns what is written. -/
def marshal (entries : List Entry) : Option (List Byte) := do
  let size := sizeAll entries
  let buffer ← writeAll entries ⟨List.replicate size (byte 0), size⟩
  some (buffer.dAtA.take (size - buffer.i))

end Buffer

section Length

/-- The lowest bit does not count for the size of a number. -/
theorem log2_or_one (value : ℕ) : (value ||| 1).log2 = value.log2 := by
  -- Setting the lowest bit neither lowers a number nor takes it over the next power of two.
  apply le_antisymm
  · have bound : value < 2 ^ (value.log2 + 1) := Nat.lt_log2_self
    have within : value ||| 1 < 2 ^ (value.log2 + 1) :=
      Nat.or_lt_two_pow bound (Nat.one_lt_two_pow (by omega))
    have := (Nat.log2_lt (Nat.ne_of_gt (Nat.lt_of_lt_of_le Nat.one_pos Nat.right_le_or))).mpr within
    omega
  · rw [Nat.log2_eq_log_two, Nat.log2_eq_log_two]
    exact Nat.log_mono_right Nat.left_le_or

variable {value : ℕ}

theorem sov_of_lt (small : value < 128) : sov value = 1 := by
  have bound : Nat.log 2 value < 7 := Nat.log_lt_of_lt_pow' (by decide) small
  rw [← Nat.log2_eq_log_two] at bound
  rw [sov, log2_or_one]
  omega

theorem sov_of_le (large : 128 ≤ value) : sov value = sov (value / 128) + 1 := by
  -- A group has seven bits, by which the logarithm falls.
  have shifted : (value / 128).log2 = value.log2 - 7 := by
    rw [Nat.log2_eq_log_two, Nat.log2_eq_log_two]
    exact Nat.log_div_base_pow 2 value 7
  have atLeast : 7 ≤ value.log2 := by
    rw [Nat.log2_eq_log_two]
    exact Nat.le_log_of_pow_le (by decide) large
  rw [sov, sov, log2_or_one, log2_or_one, shifted]
  omega

theorem sov_le (small : value < 2 ^ 64) : sov value ≤ 10 := by
  have bound : Nat.log 2 value < 64 := Nat.log_lt_of_lt_pow' (by decide) small
  rw [← Nat.log2_eq_log_two] at bound
  rw [sov, log2_or_one]
  omega

theorem div_lt_of_lt {groups : ℕ} (small : value < 2 ^ (7 * (groups + 1))) :
    value / 128 < 2 ^ (7 * groups) := by
  rw [Nat.div_lt_iff_lt_mul (by decide)]
  calc value < 2 ^ (7 * (groups + 1)) := small
    _ = 2 ^ (7 * groups) * 128 := by rw [Nat.mul_add, Nat.pow_add]

/-- The size of a number is that of its groups, if there are enough of them. -/
theorem length_varintFrom {groups : ℕ} (small : value < 2 ^ (7 * (groups + 1))) :
    (varintFrom (groups + 1) value).length = sov value := by
  induction groups generalizing value with
  | zero =>
    have last : value < 128 := small
    rw [varintFrom, if_pos last, sov_of_lt last, List.length_singleton]
  | succ groups ih =>
    rw [varintFrom]
    -- The last group has no continuation bit.
    split_ifs with last
    · rw [sov_of_lt last, List.length_singleton]
    · rw [List.length_cons, ih (div_lt_of_lt small), ← sov_of_le (by omega)]

theorem length_varint (small : value < 2 ^ 64) : (varint value).length = sov value :=
  length_varintFrom (small.trans (by decide))

end Length

section Puts

/-- An action that puts content into the room in front of what is written. -/
def Puts (action : Buffer → Option Buffer) (content : List Byte) : Prop :=
  ∀ front room written : List Byte, room.length = content.length →
    action ⟨front ++ (room ++ written), front.length + room.length⟩ =
      some ⟨front ++ (content ++ written), front.length⟩

private theorem split_room {room : List Byte} {nearSize farSize : ℕ}
    (exact : room.length = nearSize + farSize) :
    ∃ near far, room = near ++ far ∧ near.length = nearSize ∧ far.length = farSize :=
  ⟨room.take nearSize, room.drop nearSize, (List.take_append_drop ..).symm,
    List.length_take_of_le (by omega), by rw [List.length_drop]; omega⟩

theorem Puts.andThen {first second : Buffer → Option Buffer} {content before : List Byte}
    (puts : Puts first content) (thenPuts : Puts second before) :
    Puts (fun buffer => first buffer >>= second) (before ++ content) := by
  intro front room written exact
  rw [List.length_append] at exact
  -- The room for what comes first is in front for the first action.
  obtain ⟨near, far, rfl, nearExact, farExact⟩ := split_room exact
  have one := puts (front ++ near) far written farExact
  have two := thenPuts front near (content ++ written) nearExact
  rw [List.length_append, List.append_assoc] at one
  rw [List.length_append, ← Nat.add_assoc, List.append_assoc]
  dsimp only
  rw [one, Option.bind_eq_bind, Option.bind_some, List.append_assoc, two, List.append_assoc]

theorem setAt_append (front : List Byte) (old value : Byte) (rest : List Byte) :
    Buffer.setAt (front ++ old :: rest) front.length value = some (front ++ value :: rest) := by
  have inside : front.length < (front ++ old :: rest).length := by simp
  rw [Buffer.setAt, if_pos inside, List.set_append_right _ _ le_rfl, Nat.sub_self,
    List.set_cons_zero]

theorem puts_put (value : Byte) : Puts (·.put value) [value] := by
  intro front room written exact
  obtain ⟨old, rfl⟩ := List.length_eq_one_iff.mp exact
  have positive : front.length + 1 ≠ 0 := by omega
  simp only [Buffer.put, List.length_singleton, positive, if_false, Nat.add_sub_cancel,
    List.singleton_append, setAt_append, Option.bind_eq_bind, Option.bind_some]

theorem putGroups_append {groups value : ℕ} (front room rest : List Byte)
    (exact : room.length = (varintFrom groups value).length) :
    Buffer.putGroups groups (front ++ (room ++ rest)) front.length value =
      some (front ++ (varintFrom groups value ++ rest)) := by
  induction groups generalizing value front room with
  | zero =>
    obtain rfl := List.length_eq_zero_iff.mp exact
    rfl
  | succ groups ih =>
    rw [Buffer.putGroups, varintFrom] at *
    split_ifs at exact ⊢ with last
    · obtain ⟨old, rfl⟩ := List.length_eq_one_iff.mp exact
      exact setAt_append ..
    · obtain ⟨old, room, rfl⟩ := List.exists_cons_of_length_eq_add_one exact
      -- The first group is written, and counts as front for the others.
      have more := ih (front ++ [byte (value % 128 + 128)]) room (by simpa using exact)
      rw [List.length_append, List.length_singleton, List.append_assoc, List.append_assoc] at more
      rw [List.cons_append, setAt_append, Option.bind_eq_bind, Option.bind_some]
      exact more

theorem puts_encodeVarint {value : ℕ} (small : value < 2 ^ 64) :
    Puts (·.encodeVarint value) (varint value) := by
  intro front room written exact
  have size := length_varint small
  have enough : ¬front.length + room.length < sov value := by omega
  -- The number is written forwards, from where its size says that it begins.
  have start : front.length + room.length - sov value = front.length := by omega
  dsimp only
  rw [Buffer.encodeVarint, if_neg enough, start]
  dsimp only
  rw [putGroups_append front room written exact]
  rfl

theorem puts_copy (content : List Byte) : Puts (·.copy content) content := by
  intro front room written exact
  have enough : ¬front.length + room.length < content.length := by omega
  dsimp only
  rw [Buffer.copy, if_neg enough]
  simp [← exact]

theorem Puts.close {action : Buffer → Option Buffer} {content : List Byte}
    (puts : Puts action content) (number : ℕ) (short : content.length < 2 ^ 63) :
    Puts (fun buffer => do let after ← action buffer; after.close number buffer.i)
      (delimited number content) := by
  intro front room written exact
  -- What was written since the start is the content, whose length is written next.
  have size : content.length < 2 ^ 64 := by omega
  have length := (puts_encodeVarint size).andThen (puts_put (tag number 2))
  rw [delimited, ← List.cons_append, List.length_append] at exact
  obtain ⟨near, far, rfl, nearExact, farExact⟩ := split_room exact
  have one := puts (front ++ near) far written farExact
  have two := length front near (content ++ written) nearExact
  rw [List.length_append, List.append_assoc] at one
  rw [List.length_append, ← Nat.add_assoc, List.append_assoc]
  dsimp only
  rw [one, Option.bind_eq_bind, Option.bind_some, Buffer.close, List.append_assoc, farExact,
    Nat.add_sub_cancel_left]
  simpa [delimited] using two

theorem puts_reverse (content : List Byte) :
    Puts (content.reverse.foldlM Buffer.put) content := by
  induction content with
  | nil =>
    intro front room written exact
    obtain rfl := List.length_eq_zero_iff.mp exact
    rfl
  | cons first content ih =>
    -- The first byte is written last, in front of the others.
    have both := ih.andThen (puts_put first)
    simpa [List.foldlM_append] using both

mutual

/-- A field is written as the format says. -/
theorem Entry.puts_write : (entry : Entry) → entry.Valid → Puts entry.write entry.encode
  | .varint number value, ⟨_, _, small⟩ => by
    have both := (puts_encodeVarint small).andThen (puts_put (tag number 0))
    intro front room written exact
    simp only [Entry.write, Entry.encode] at exact ⊢
    exact both front room written exact
  | .bytes number content, ⟨_, _, short⟩ => by
    have closed := (puts_copy content).close number short
    intro front room written exact
    simp only [Entry.write, Entry.encode] at exact ⊢
    exact closed front room written exact
  | .bools number flags, ⟨_, _, short⟩ => by
    have closed := (puts_reverse (flags.map flag)).close number (by rwa [List.length_map])
    intro front room written exact
    simp only [Entry.write, Entry.encode] at exact ⊢
    exact closed front room written exact
  | .message number entries, ⟨_, _, short, valid⟩ => by
    have inner := puts_writeAll entries valid
    -- The message is written into the free part, and what follows is put back after it.
    have framed : Puts (fun buffer => do
        let inner ← writeAll entries ⟨buffer.dAtA.take buffer.i, buffer.i⟩
        some ⟨inner.dAtA ++ buffer.dAtA.drop buffer.i, inner.i⟩) (encodeAll entries) := by
      intro front room written exact
      have alone := inner front room [] exact
      have free : (front ++ (room ++ written)).take (front.length + room.length) =
          front ++ (room ++ []) := by
        rw [← List.append_assoc, ← List.length_append, List.take_left, List.append_nil]
      have rest : (front ++ (room ++ written)).drop (front.length + room.length) = written := by
        rw [← List.append_assoc, ← List.length_append, List.drop_left]
      dsimp only
      rw [free, rest, alone, Option.bind_eq_bind, Option.bind_some, List.append_nil,
        List.append_assoc]
    have closed := framed.close number short
    intro front room written exact
    simp only [Entry.write, Entry.encode] at exact ⊢
    have filled := closed front room written exact
    simpa only [Option.bind_assoc, Option.bind_eq_bind, Option.bind_some] using filled

/-- A message is written as the format says. -/
theorem puts_writeAll : (entries : List Entry) → ValidAll entries →
    Puts (writeAll entries) (encodeAll entries)
  | [], _ => by
    intro front room written exact
    obtain rfl := List.length_eq_zero_iff.mp exact
    rfl
  | entry :: entries, valid => by
    have both := (puts_writeAll entries valid.2).andThen (Entry.puts_write entry valid.1)
    intro front room written exact
    simp only [writeAll, encodeAll] at exact ⊢
    exact both front room written exact

end

theorem length_delimited (number : ℕ) {content : List Byte} (short : content.length < 2 ^ 63) :
    (delimited number content).length = delimitedSize content.length := by
  rw [delimited, List.length_cons, List.length_append, length_varint (by omega), delimitedSize]
  omega

mutual

/-- The size of a field is computed right. -/
theorem Entry.length_encode : (entry : Entry) → entry.Valid → entry.encode.length = entry.size
  | .varint number value, ⟨_, _, small⟩ => by
    rw [Entry.encode, Entry.size, List.length_cons, length_varint small, Nat.add_comm]
  | .bytes number content, ⟨_, _, short⟩ => by
    rw [Entry.encode, Entry.size, length_delimited number short]
  | .bools number flags, ⟨_, _, short⟩ => by
    rw [Entry.encode, Entry.size, length_delimited number (by rwa [List.length_map]),
      List.length_map]
  | .message number entries, ⟨_, _, short, valid⟩ => by
    rw [Entry.encode, Entry.size, length_delimited number short, length_encodeAll entries valid]

theorem length_encodeAll : (entries : List Entry) → ValidAll entries →
    (encodeAll entries).length = sizeAll entries
  | [], _ => by rw [encodeAll, sizeAll, List.length_nil]
  | entry :: entries, valid => by
    rw [encodeAll, sizeAll, List.length_append, Entry.length_encode entry valid.1,
      length_encodeAll entries valid.2]

end

/-- Writing backwards into a buffer of the computed size gives the format, and never panics. -/
theorem marshal_eq {entries : List Entry} (valid : ValidAll entries) :
    marshal entries = some (encodeAll entries) := by
  have size := length_encodeAll entries valid
  -- The buffer is as large as the message, so there is neither a front nor a rest.
  have filled := puts_writeAll entries valid [] (List.replicate (sizeAll entries) (byte 0)) []
    (by rw [List.length_replicate, size])
  simp only [List.nil_append, List.append_nil, List.length_nil, Nat.zero_add,
    List.length_replicate] at filled
  rw [marshal, filled, Option.bind_eq_bind, Option.bind_some, Nat.sub_zero, ← size,
    List.take_length]

end Puts

section Bounds

mutual

/-- A field whose numbers the format can express. -/
def Entry.Shaped : Entry → Prop
  | .varint number value => 0 < number ∧ number < 16 ∧ value < 2 ^ 64
  | .bytes number _ => 0 < number ∧ number < 16
  | .bools number _ => 0 < number ∧ number < 16
  | .message number entries => 0 < number ∧ number < 16 ∧ ShapedAll entries

/-- Fields whose numbers the format can express. -/
def ShapedAll : List Entry → Prop
  | [] => True
  | entry :: entries => entry.Shaped ∧ ShapedAll entries

end

mutual

theorem Entry.valid_of_size : (entry : Entry) → entry.Shaped → entry.size < 2 ^ 63 → entry.Valid
  | .varint number value, shaped, _ => shaped
  | .bytes number content, ⟨positive, small⟩, bound => by
    rw [Entry.size, delimitedSize] at bound
    exact ⟨positive, small, by omega⟩
  | .bools number flags, ⟨positive, small⟩, bound => by
    rw [Entry.size, delimitedSize] at bound
    exact ⟨positive, small, by omega⟩
  | .message number entries, ⟨positive, small, shaped⟩, bound => by
    rw [Entry.size, delimitedSize] at bound
    have valid := validAll_of_size entries shaped (by omega)
    refine ⟨positive, small, ?_, valid⟩
    rw [length_encodeAll entries valid]
    omega

theorem validAll_of_size : (entries : List Entry) → ShapedAll entries →
    sizeAll entries < 2 ^ 63 → ValidAll entries
  | [], _, _ => trivial
  | entry :: entries, shaped, bound => by
    rw [sizeAll] at bound
    exact ⟨Entry.valid_of_size entry shaped.1 (by omega),
      validAll_of_size entries shaped.2 (by omega)⟩

end

theorem shapedAll_append {first second : List Entry} (shaped : ShapedAll first)
    (others : ShapedAll second) : ShapedAll (first ++ second) := by
  induction first with
  | nil => exact others
  | cons entry first ih => exact ⟨shaped.1, ih shaped.2⟩

theorem sizeAll_append (first second : List Entry) :
    sizeAll (first ++ second) = sizeAll first + sizeAll second := by
  induction first with
  | nil => rw [List.nil_append, sizeAll, Nat.zero_add]
  | cons entry first ih => rw [List.cons_append, sizeAll, sizeAll, ih, Nat.add_assoc]

/-- A field is not larger than the message it stands in. -/
theorem size_le_sizeAll {entry : Entry} {entries : List Entry} (member : entry ∈ entries) :
    entry.size ≤ sizeAll entries := by
  induction entries with
  | nil => cases member
  | cons first entries ih =>
    rw [sizeAll]
    rcases List.mem_cons.mp member with rfl | member
    · omega
    · have bound := ih member
      omega

theorem sizeAll_optionalVarint {number value : ℕ} (range : value < 2 ^ 64) :
    sizeAll (optionalVarint number value) ≤ 11 := by
  have bound := sov_le range
  unfold optionalVarint
  split_ifs
  · rw [sizeAll]
    omega
  · rw [sizeAll, sizeAll, Entry.size]
    omega

end Bounds

end Library.Wire
