import Evmos.Library.Wire

/-! How messages in the wire format of protocol buffers are read. -/

namespace Library.Wire

/-- Why bytes are not a message. -/
inductive Error where
  | intOverflow
  | unexpectedEOF
  | invalidLength
  | unexpectedEndOfGroup
  | illegalWireType (wireType : ℕ)
  | endGroup (message : String)
  | illegalTag (message : String) (fieldNum : ℤ) (wire : ℕ)
  | wrongWireType (wireType : ℕ) (field : String)
  /-- The content of a field is refused. -/
  | content (reason : String)
  deriving DecidableEq

/-- An unsigned number of some bits, read as a signed one. -/
def toSigned (bits value : ℕ) : ℤ :=
  if value < 2 ^ (bits - 1) then value else (value : ℤ) - 2 ^ bits

section Cursor

/-- A position in the bytes, with what is left of them. -/
structure Cursor where
  iNdEx : ℕ
  rest : List Byte

/-- Reads groups of seven bits from some bit on. -/
def readGroups (iNdEx shift value : ℕ) : List Byte → Except Error (ℕ × Cursor)
  | [] => .error (if 64 ≤ shift then .intOverflow else .unexpectedEOF)
  | b :: rest =>
    if 64 ≤ shift then .error .intOverflow
    else
      -- The bits of a group lie above those read before, and those above the word are lost.
      let value := (value + b.val % 128 * 2 ^ shift) % 2 ^ 64
      if b.val < 128 then .ok (value, ⟨iNdEx + 1, rest⟩)
      else readGroups (iNdEx + 1) (shift + 7) value rest

namespace Cursor

/-- Reads a number of variable length. -/
def readVarint (cursor : Cursor) : Except Error (ℕ × Cursor) :=
  readGroups cursor.iNdEx 0 0 cursor.rest

/-- Moves on, possibly behind the end. -/
def advance (cursor : Cursor) (count : ℕ) : Cursor :=
  ⟨cursor.iNdEx + count, cursor.rest.drop count⟩

/-- Reads a length, as far as there are that many bytes. -/
def readLength (cursor : Cursor) : Except Error (ℕ × Cursor) := do
  let (length, cursor) ← cursor.readVarint
  if toSigned 64 length < 0 then .error .invalidLength
  -- The sum overflows.
  else if 2 ^ 63 ≤ cursor.iNdEx + length then .error .invalidLength
  else if cursor.rest.length < length then .error .unexpectedEOF
  else .ok (length, cursor)

/-- Skips groups and fields until no group is open. -/
def skipFrom : ℕ → ℕ → Cursor → Except Error Cursor
  | 0, _, _ => .error .unexpectedEOF
  | fuel + 1, depth, cursor => do
    if cursor.rest = [] then .error .unexpectedEOF
    else
      let (wire, cursor) ← cursor.readVarint
      let (depth, cursor) ←
        match wire % 8 with
        | 0 => do
          let (_, cursor) ← cursor.readVarint
          .ok (depth, cursor)
        | 1 => .ok (depth, cursor.advance 8)
        | 2 => do
          let (length, cursor) ← cursor.readVarint
          if toSigned 64 length < 0 then .error .invalidLength
          else .ok (depth, cursor.advance length)
        | 3 => .ok (depth + 1, cursor)
        | 4 => if depth = 0 then .error .unexpectedEndOfGroup else .ok (depth - 1, cursor)
        | 5 => .ok (depth, cursor.advance 4)
        | wireType => .error (.illegalWireType wireType)
      if 2 ^ 63 ≤ cursor.iNdEx then .error .invalidLength
      else if depth = 0 then .ok cursor
      else skipFrom fuel depth cursor

/-- Skips a field that is not known, from its tag on. -/
def skip (cursor : Cursor) : Except Error Cursor := do
  let skippy := (← skipFrom cursor.rest.length 0 ⟨0, cursor.rest⟩).iNdEx
  if 2 ^ 63 ≤ cursor.iNdEx + skippy then .error .invalidLength
  else if cursor.rest.length < skippy then .error .unexpectedEOF
  else .ok (cursor.advance skippy)

end Cursor

end Cursor

section Message

variable {σ : Type}

/-- How the content of a field is stored. -/
inductive Kind (σ : Type) where
  | varint (store : ℕ → σ → σ)
  | delimited (store : List Byte → σ → Except Error σ)
  /-- Repeated numbers, which may be packed. -/
  | packed (store : ℕ → σ → σ)

/-- A field of a message. -/
structure Field (σ : Type) where
  name : String
  number : ℕ
  kind : Kind σ

/-- A message, by its fields. -/
structure Message (σ : Type) where
  name : String
  fields : List (Field σ)

/-- Reads packed numbers until their end, or after it if the last one goes on. -/
def readPacked (store : ℕ → σ → σ) (postIndex : ℕ) :
    ℕ → σ → Cursor → Except Error (σ × Cursor)
  | 0, m, cursor => .ok (m, cursor)
  | fuel + 1, m, cursor => do
    if postIndex ≤ cursor.iNdEx then .ok (m, cursor)
    else
      let (value, cursor) ← cursor.readVarint
      readPacked store postIndex fuel (store value m) cursor

/-- Reads the content of a field after its tag. -/
def Field.read (field : Field σ) (wireType : ℕ) (m : σ) (cursor : Cursor) :
    Except Error (σ × Cursor) :=
  match field.kind with
  | .varint store =>
    if wireType ≠ 0 then .error (.wrongWireType wireType field.name)
    else do
      let (value, cursor) ← cursor.readVarint
      .ok (store value m, cursor)
  | .delimited store =>
    if wireType ≠ 2 then .error (.wrongWireType wireType field.name)
    else do
      let (length, cursor) ← cursor.readLength
      let m ← store (cursor.rest.take length) m
      .ok (m, cursor.advance length)
  | .packed store =>
    if wireType = 0 then do
      let (value, cursor) ← cursor.readVarint
      .ok (store value m, cursor)
    else if wireType = 2 then do
      let (length, cursor) ← cursor.readLength
      readPacked store (cursor.iNdEx + length) length m cursor
    else .error (.wrongWireType wireType field.name)

namespace Message

variable (message : Message σ)

/-- The field with a number. -/
def field? (number : ℤ) : Option (Field σ) :=
  message.fields.find? fun field => field.number = number

/-- Reads one field with its tag. -/
def readField (m : σ) (start : Cursor) : Except Error (σ × Cursor) := do
  let (wire, cursor) ← start.readVarint
  let fieldNum := toSigned 32 (wire / 8 % 2 ^ 32)
  let wireType := wire % 8
  if wireType = 4 then .error (.endGroup message.name)
  else if fieldNum ≤ 0 then .error (.illegalTag message.name fieldNum wire)
  else
    match message.field? fieldNum with
    | some field => field.read wireType m cursor
    | none => do
      let cursor ← start.skip
      .ok (m, cursor)

/-- Reads fields until the bytes end. Every field takes at least one of them. -/
def readFields : ℕ → σ → Cursor → Except Error σ
  | 0, m, cursor => if cursor.rest = [] then .ok m else .error .unexpectedEOF
  | fuel + 1, m, cursor =>
    if cursor.rest = [] then .ok m
    else do
      let (m, cursor) ← message.readField m cursor
      readFields fuel m cursor

/-- Reads a message into a value. -/
def unmarshal (m : σ) (dAtA : List Byte) : Except Error σ :=
  message.readFields dAtA.length m ⟨0, dAtA⟩

end Message

end Message

section Numbers

/-- The groups of a number add up to it, on top of what was read before. -/
theorem readGroups_varintFrom {groups value : ℕ} (fits : value < 2 ^ (7 * (groups + 1)))
    {iNdEx shift before : ℕ} (room : shift < 64) (small : before + value * 2 ^ shift < 2 ^ 64)
    (rest : List Byte) :
    readGroups iNdEx shift before (varintFrom (groups + 1) value ++ rest) =
      .ok (before + value * 2 ^ shift,
        ⟨iNdEx + (varintFrom (groups + 1) value).length, rest⟩) := by
  induction groups generalizing value iNdEx shift before with
  | zero =>
    have last : value < 128 := fits
    have low : (byte value).val = value := Nat.mod_eq_of_lt (by omega)
    rw [varintFrom, if_pos last, List.singleton_append, readGroups, if_neg (by omega), low,
      Nat.mod_eq_of_lt last, Nat.mod_eq_of_lt small, if_pos last, List.length_singleton]
  | succ groups ih =>
    rw [varintFrom]
    split_ifs with last
    · have low : (byte value).val = value := Nat.mod_eq_of_lt (by omega)
      rw [List.singleton_append, readGroups, if_neg (by omega), low, Nat.mod_eq_of_lt last,
        Nat.mod_eq_of_lt small, if_pos last, List.length_singleton]
    · -- The first group is taken off, and the others are read seven bits higher.
      have low : (byte (value % 128 + 128)).val = value % 128 + 128 := Nat.mod_eq_of_lt (by omega)
      have parts : value % 128 * 2 ^ shift + value / 128 * 2 ^ (shift + 7) = value * 2 ^ shift := by
        rw [Nat.pow_add, Nat.mul_comm (2 ^ shift), ← Nat.mul_assoc, ← Nat.add_mul]
        congr 1
        omega
      have higher : shift + 7 < 64 := by
        by_contra beyond
        have large : 2 ^ 64 ≤ 128 * 2 ^ shift := by
          calc 2 ^ 64 ≤ 2 ^ (7 + shift) := Nat.pow_le_pow_right (by decide) (by omega)
            _ = 128 * 2 ^ shift := by rw [Nat.pow_add]
        have more : 128 * 2 ^ shift ≤ value * 2 ^ shift := Nat.mul_le_mul_right _ (by omega)
        omega
      have masked : (value % 128 + 128) % 128 = value % 128 := by omega
      have kept : (before + value % 128 * 2 ^ shift) % 2 ^ 64 = before + value % 128 * 2 ^ shift :=
        Nat.mod_eq_of_lt (by omega)
      rw [List.cons_append, readGroups, if_neg (by omega), low, masked, kept, if_neg (by omega),
        ih (div_lt_of_lt fits) higher (by omega), Nat.add_assoc before, parts, List.length_cons,
        Nat.add_assoc iNdEx, Nat.add_comm 1]

theorem readVarint_varint {value : ℕ} (small : value < 2 ^ 64) (iNdEx : ℕ) (rest : List Byte) :
    Cursor.readVarint ⟨iNdEx, varint value ++ rest⟩ =
      .ok (value, ⟨iNdEx + (varint value).length, rest⟩) := by
  -- Ten groups are enough for sixty-four bits.
  have read : readGroups iNdEx 0 0 (varintFrom (9 + 1) value ++ rest) = _ :=
    readGroups_varintFrom (small.trans (by decide)) (by decide) (by omega) rest
  rw [Nat.zero_add, pow_zero, Nat.mul_one] at read
  exact read

theorem readVarint_tag {number wireType : ℕ} (small : number < 16) (type : wireType < 8)
    (iNdEx : ℕ) (rest : List Byte) :
    Cursor.readVarint ⟨iNdEx, tag number wireType :: rest⟩ =
      .ok (8 * number + wireType, ⟨iNdEx + 1, rest⟩) := by
  -- The number is below sixteen, so the tag has seven bits.
  have single : varint (8 * number + wireType) = [tag number wireType] := by
    rw [varint, varintFrom, if_pos (by omega), tag]
  have read : Cursor.readVarint ⟨iNdEx, varint (8 * number + wireType) ++ rest⟩ = _ :=
    readVarint_varint (by omega) iNdEx rest
  rwa [single] at read

theorem readLength_varint {length iNdEx : ℕ} {rest : List Byte} (enough : length ≤ rest.length)
    (bound : iNdEx + (varint length).length + length < 2 ^ 63) :
    Cursor.readLength ⟨iNdEx, varint length ++ rest⟩ =
      .ok (length, ⟨iNdEx + (varint length).length, rest⟩) := by
  -- As a signed number the length is the same, since it is in range.
  have positive : ¬toSigned 64 length < 0 := by
    rw [toSigned, if_pos (by omega)]
    omega
  rw [Cursor.readLength, readVarint_varint (by omega)]
  change (if toSigned 64 length < 0 then _ else _) = _
  rw [if_neg positive, if_neg (by dsimp only; omega), if_neg (by dsimp only; omega)]

end Numbers

section Fields

/-- The number of a field. -/
def Entry.number : Entry → ℕ
  | .varint number _ => number
  | .bytes number _ => number
  | .bools number _ => number
  | .message number _ => number

/-- What stands behind the length of a field that has one. -/
def Entry.content : Entry → List Byte
  | .varint _ _ => []
  | .bytes _ content => content
  | .bools _ flags => flags.map flag
  | .message _ entries => encodeAll entries

/-- A field is a number, or content with its length. -/
theorem Entry.encode_cases {entry : Entry} (valid : entry.Valid) :
    0 < entry.number ∧ entry.number < 16 ∧
      ((∃ number value, entry = .varint number value ∧ value < 2 ^ 64) ∨
        entry.encode = delimited entry.number entry.content ∧ entry.content.length < 2 ^ 63) := by
  -- All but a number are written with their length.
  cases entry with
  | varint number value =>
    obtain ⟨positive, small, range⟩ := valid
    exact ⟨positive, small, .inl ⟨number, value, rfl, range⟩⟩
  | bytes number content =>
    obtain ⟨positive, small, short⟩ := valid
    exact ⟨positive, small, .inr ⟨by rw [Entry.encode]; rfl, short⟩⟩
  | bools number flags =>
    obtain ⟨positive, small, short⟩ := valid
    exact ⟨positive, small, .inr ⟨by rw [Entry.encode]; rfl, by rwa [content, List.length_map]⟩⟩
  | message number entries =>
    obtain ⟨positive, small, short, -⟩ := valid
    exact ⟨positive, small, .inr ⟨by rw [Entry.encode]; rfl, short⟩⟩

theorem skipFrom_varint {number value : ℕ} (small : number < 16) (range : value < 2 ^ 64)
    (fuel : ℕ) {rest : List Byte} (bound : 1 + (varint value).length < 2 ^ 63) :
    Cursor.skipFrom (fuel + 1) 0 ⟨0, tag number 0 :: (varint value ++ rest)⟩ =
      .ok ⟨1 + (varint value).length, rest⟩ := by
  have type : (8 * number + 0) % 8 = 0 := by omega
  rw [Cursor.skipFrom, if_neg (by simp), readVarint_tag small (by decide)]
  simp only [bind, Except.bind, type, readVarint_varint range, Nat.zero_add, if_true]
  rw [if_neg (by omega)]

/-- Content that is not known is skipped with its length. -/
theorem skipFrom_delimited {number : ℕ} {content : List Byte} (small : number < 16)
    (short : content.length < 2 ^ 63) (fuel : ℕ) {rest : List Byte}
    (bound : (delimited number content).length < 2 ^ 63) :
    Cursor.skipFrom (fuel + 1) 0 ⟨0, delimited number content ++ rest⟩ =
      .ok ⟨(delimited number content).length, rest⟩ := by
  have type : (8 * number + 2) % 8 = 2 := by omega
  have positive : ¬toSigned 64 content.length < 0 := by
    rw [toSigned, if_pos (by omega)]
    omega
  have length : (delimited number content).length = 1 + (varint content.length).length +
      content.length := by
    rw [delimited, List.length_cons, List.length_append]
    omega
  rw [length] at bound ⊢
  rw [delimited, List.cons_append, List.append_assoc, Cursor.skipFrom, if_neg (by simp),
    readVarint_tag small (by decide)]
  simp only [bind, Except.bind, type, readVarint_varint (show content.length < 2 ^ 64 by omega),
    positive, Cursor.advance, Nat.zero_add, if_false, if_true, List.drop_left]
  -- No overflow, as the content lies within the bytes that are left.
  rw [if_neg (by omega)]

/-- A field that is not known is skipped from its tag to its end. -/
theorem skip_encode {entry : Entry} (valid : entry.Valid) {iNdEx : ℕ} {rest : List Byte}
    (bound : iNdEx + entry.encode.length < 2 ^ 63) :
    Cursor.skip ⟨iNdEx, entry.encode ++ rest⟩ = .ok ⟨iNdEx + entry.encode.length, rest⟩ := by
  obtain ⟨-, small, shape⟩ := Entry.encode_cases valid
  -- There is fuel for a step, as there is a tag.
  have skipped : Cursor.skipFrom (entry.encode ++ rest).length 0 ⟨0, entry.encode ++ rest⟩ =
      .ok ⟨entry.encode.length, rest⟩ := by
    rcases shape with ⟨number, value, rfl, range⟩ | ⟨shape, short⟩
    · change number < 16 at small
      rw [Entry.encode, List.length_cons] at bound
      rw [Entry.encode, List.cons_append, List.length_cons, List.length_cons]
      rw [skipFrom_varint small range _ (by omega), Nat.add_comm 1]
    · rw [shape] at bound ⊢
      have fuel : (delimited entry.number entry.content ++ rest).length =
          (varint entry.content.length ++ entry.content ++ rest).length + 1 := by
        rw [delimited, List.cons_append, List.length_cons]
      rw [fuel, skipFrom_delimited small short _ (by omega)]
  have within : ¬(entry.encode ++ rest).length < entry.encode.length := by
    rw [List.length_append]
    omega
  rw [Cursor.skip]
  simp only [skipped, bind, Except.bind, within, if_false, Cursor.advance, List.drop_left]
  rw [if_neg (by omega)]

end Fields

section Accept

variable {σ : Type}

/-- What a field does to the message, if it is of a kind that goes with the content. -/
def Kind.accept : Kind σ → Entry → Option (σ → Except Error σ)
  | .varint store, .varint _ value => some fun m => .ok (store value m)
  | .delimited store, .bytes _ content => some (store content)
  | .delimited store, .bools _ flags => some (store (flags.map flag))
  | .delimited store, .message _ entries => some (store (encodeAll entries))
  | .packed store, .varint _ value => some fun m => .ok (store value m)
  | .packed store, .bools _ flags =>
    some fun m => .ok (flags.foldl (fun m value => store (flag value).val m) m)
  | _, _ => none

namespace Message

variable (message : Message σ)

/-- What an entry does to the message; one that is not known does nothing. -/
def accept (m : σ) (entry : Entry) : Except Error σ :=
  match message.field? entry.number with
  | none => .ok m
  | some field => ((field.kind.accept entry).getD .ok) m

/-- An entry of a kind that its field expects, if the field is known. -/
def Expects (entry : Entry) : Prop :=
  ∀ field, message.field? entry.number = some field → (field.kind.accept entry).isSome

end Message

theorem readPacked_flags (store : ℕ → σ → σ) (flags : List Bool) (m : σ) (iNdEx : ℕ)
    (rest : List Byte) :
    readPacked store (iNdEx + flags.length) flags.length m ⟨iNdEx, flags.map flag ++ rest⟩ =
      .ok (flags.foldl (fun m value => store (flag value).val m) m,
        ⟨iNdEx + flags.length, rest⟩) := by
  induction flags generalizing m iNdEx with
  | nil => rfl
  | cons value flags ih =>
    -- A boolean is a number of one byte.
    have single : varint (flag value).val = [flag value] := by cases value <;> rfl
    have read :
        Cursor.readVarint ⟨iNdEx, varint (flag value).val ++ (flags.map flag ++ rest)⟩ = _ :=
      readVarint_varint (by omega) iNdEx _
    rw [single, List.singleton_append, List.length_singleton] at read
    rw [List.length_cons, readPacked, if_neg (by dsimp only; omega), List.map_cons,
      List.cons_append, read]
    have more := ih (store (flag value).val m) (iNdEx + 1)
    rw [Nat.add_assoc, Nat.add_comm 1] at more
    exact more

/-- The type of the encoding of a field. -/
def Entry.wireType : Entry → ℕ
  | .varint _ _ => 0
  | _ => 2

/-- What stands behind the tag of a field. -/
def Entry.body : Entry → List Byte
  | .varint _ value => Wire.varint value
  | entry => Wire.varint entry.content.length ++ entry.content

theorem Entry.encode_eq (entry : Entry) :
    entry.encode = tag entry.number entry.wireType :: entry.body := by
  cases entry <;> rw [Entry.encode] <;> rfl

theorem Kind.accept_delimited {keep : List Byte → σ → Except Error σ} {entry : Entry}
    {store : σ → Except Error σ} (accepts : (Kind.delimited keep).accept entry = some store) :
    store = keep entry.content ∧ entry.wireType = 2 ∧
      entry.body = Wire.varint entry.content.length ++ entry.content := by
  cases entry with
  | varint => cases accepts
  | bytes => exact ⟨(Option.some.inj accepts).symm, rfl, rfl⟩
  | bools => exact ⟨(Option.some.inj accepts).symm, rfl, rfl⟩
  | message => exact ⟨(Option.some.inj accepts).symm, rfl, rfl⟩

theorem read_delimited {store : List Byte → σ → Except Error σ} {content : List Byte}
    {name : String} {number : ℕ} (m : σ) {iNdEx : ℕ} {rest : List Byte}
    (bound : iNdEx + (varint content.length).length + content.length < 2 ^ 63) :
    Field.read ⟨name, number, .delimited store⟩ 2 m
        ⟨iNdEx, varint content.length ++ content ++ rest⟩ =
      (store content m).map fun m =>
        (m, ⟨iNdEx + (varint content.length ++ content).length, rest⟩) := by
  -- The content itself is there to be read.
  have enough : content.length ≤ (content ++ rest).length := by
    rw [List.length_append]
    omega
  rw [List.append_assoc, Field.read]
  simp only [ne_eq, not_true, if_false, readLength_varint enough bound, bind, Except.bind,
    List.take_left, Cursor.advance, List.drop_left, List.length_append, Nat.add_assoc]
  cases store content m <;> rfl

/-- Content of the kind that a field expects is read and stored. -/
theorem Field.read_body {field : Field σ} {entry : Entry} (valid : entry.Valid)
    {store : σ → Except Error σ} (accepts : field.kind.accept entry = some store) (m : σ)
    {iNdEx : ℕ} {rest : List Byte} (bound : iNdEx + entry.body.length < 2 ^ 63) :
    field.read entry.wireType m ⟨iNdEx, entry.body ++ rest⟩ =
      (store m).map fun m => (m, ⟨iNdEx + entry.body.length, rest⟩) := by
  obtain ⟨name, number, kind⟩ := field
  -- A packed field also takes a single number.
  cases kind with
  | varint keep =>
    cases entry with
    | varint _ value =>
      obtain ⟨-, -, range⟩ := valid
      obtain rfl := Option.some.inj accepts
      rw [Field.read]
      simp only [Entry.wireType, Entry.body, ne_eq, not_true, if_false, readVarint_varint range,
        bind, Except.bind, Except.map]
    | bytes => cases accepts
    | bools => cases accepts
    | message => cases accepts
  | delimited keep =>
    obtain ⟨rfl, type, body⟩ := Kind.accept_delimited accepts
    rw [body, List.length_append, ← Nat.add_assoc] at bound
    rw [type, body]
    exact read_delimited m bound
  | packed keep =>
    cases entry with
    | varint _ value =>
      obtain ⟨-, -, range⟩ := valid
      obtain rfl := Option.some.inj accepts
      rw [Field.read]
      simp only [Entry.wireType, Entry.body, if_true, readVarint_varint range,
        bind, Except.bind, Except.map]
    | bytes => cases accepts
    | bools _ flags =>
      obtain rfl := Option.some.inj accepts
      simp only [Entry.body, Entry.content, List.length_append, List.length_map,
        ← Nat.add_assoc] at bound
      have enough : flags.length ≤ (flags.map flag ++ rest).length := by simp
      have packed := readPacked_flags keep flags m (iNdEx + (varint flags.length).length) rest
      rw [Field.read]
      simp only [Entry.wireType, Entry.body, Entry.content, List.append_assoc, List.length_map,
        OfNat.ofNat_ne_zero, if_false, if_true, readLength_varint enough bound, bind, Except.bind,
        packed, Except.map, List.length_append]
      rw [Nat.add_assoc]
    | message => cases accepts

/-- A field is read with its tag, and does what it is accepted for. -/
theorem Message.readField_encode (message : Message σ) {entry : Entry} (valid : entry.Valid)
    (expected : message.Expects entry) (m : σ) {iNdEx : ℕ} {rest : List Byte}
    (bound : iNdEx + entry.encode.length < 2 ^ 63) :
    message.readField m ⟨iNdEx, entry.encode ++ rest⟩ =
      (message.accept m entry).map fun m => (m, ⟨iNdEx + entry.encode.length, rest⟩) := by
  obtain ⟨positive, small, -⟩ := Entry.encode_cases valid
  have type : entry.wireType = 0 ∨ entry.wireType = 2 := by cases entry <;> simp [Entry.wireType]
  have wire : (8 * entry.number + entry.wireType) % 8 = entry.wireType := by omega
  have signed : toSigned 32 ((8 * entry.number + entry.wireType) / 8 % 2 ^ 32) = entry.number := by
    have number : (8 * entry.number + entry.wireType) / 8 % 2 ^ 32 = entry.number := by omega
    rw [number, toSigned, if_pos (by omega)]
  have tagged : Cursor.readVarint ⟨iNdEx, entry.encode ++ rest⟩ =
      .ok (8 * entry.number + entry.wireType, ⟨iNdEx + 1, entry.body ++ rest⟩) := by
    rw [entry.encode_eq, List.cons_append]
    exact readVarint_tag small (by omega) iNdEx _
  rw [Message.readField, tagged]
  simp only [bind, Except.bind, wire, signed]
  rw [if_neg (by omega), if_neg (by omega), Message.accept]
  cases known : message.field? entry.number with
  | none =>
    -- The skipping starts at the tag again.
    simp only [skip_encode valid bound, Except.map]
  | some field =>
    obtain ⟨store, accepts⟩ := Option.isSome_iff_exists.mp (expected field known)
    have length : entry.encode.length = entry.body.length + 1 := by
      rw [entry.encode_eq, List.length_cons]
    simp only [accepts, Option.getD_some]
    rw [Field.read_body valid accepts m (by omega), length, Nat.add_assoc, Nat.add_comm 1]

/-- Fields are read one after the other, each as it is accepted. -/
theorem Message.readFields_encodeAll (message : Message σ) {entries : List Entry}
    (valid : ValidAll entries) (expected : ∀ entry ∈ entries, message.Expects entry) (m : σ)
    {fuel iNdEx : ℕ} (enough : (encodeAll entries).length ≤ fuel)
    (bound : iNdEx + (encodeAll entries).length < 2 ^ 63) :
    message.readFields fuel m ⟨iNdEx, encodeAll entries⟩ = entries.foldlM message.accept m := by
  induction entries generalizing m fuel iNdEx with
  | nil =>
    rw [encodeAll]
    cases fuel <;> rfl
  | cons entry entries ih =>
    rw [encodeAll] at enough bound ⊢
    rw [List.length_append] at enough bound
    have nonempty : entry.encode ++ encodeAll entries ≠ [] := by
      rw [entry.encode_eq]
      exact List.cons_ne_nil _ _
    have used : 0 < entry.encode.length := by
      rw [entry.encode_eq, List.length_cons]
      omega
    -- The field takes at least its tag, so there is fuel for the others.
    obtain ⟨fuel, rfl⟩ : ∃ less, fuel = less + 1 := ⟨fuel - 1, by omega⟩
    have read : message.readField m ⟨iNdEx, entry.encode ++ encodeAll entries⟩ = _ :=
      message.readField_encode valid.1 (expected entry List.mem_cons_self) m (by omega)
    rw [Message.readFields, if_neg nonempty, List.foldlM_cons]
    dsimp only
    rw [read]
    cases message.accept m entry with
    | error err => rfl
    | ok m =>
      exact ih valid.2 (fun other member => expected other (List.mem_cons_of_mem _ member)) m
        (by omega) (by omega)

/-- What is written is read back, field by field. -/
theorem Message.unmarshal_encodeAll (message : Message σ) {entries : List Entry}
    (valid : ValidAll entries) (expected : ∀ entry ∈ entries, message.Expects entry) (m : σ)
    (short : (encodeAll entries).length < 2 ^ 63) :
    message.unmarshal m (encodeAll entries) = entries.foldlM message.accept m :=
  message.readFields_encodeAll valid expected m le_rfl (by omega)

/-- Fields that are not known change nothing, wherever they stand. -/
theorem Message.foldlM_accept_filter (message : Message σ) (entries : List Entry) (m : σ) :
    (entries.filter fun entry => (message.field? entry.number).isSome).foldlM message.accept m =
      entries.foldlM message.accept m := by
  induction entries generalizing m with
  | nil => rfl
  | cons entry entries ih =>
    -- The reader skips what it does not know.
    cases known : message.field? entry.number with
    | none =>
      have ignored : message.accept m entry = .ok m := by rw [Message.accept, known]
      rw [List.filter_cons_of_neg (by simp [known]), ih, List.foldlM_cons, ignored]
      rfl
    | some field =>
      rw [List.filter_cons_of_pos (by simp [known]), List.foldlM_cons, List.foldlM_cons]
      cases message.accept m entry with
      | error err => rfl
      | ok m => exact ih m

end Accept

section Codec

variable {σ : Type}

/-- A type of messages: its fields, its zero value, and what is written of a value. -/
structure Codec (σ : Type) where
  message : Message σ
  zero : σ
  entries : σ → List Entry

namespace Codec

variable (codec : Codec σ)

/-- The size of a message, which is computed before it is written. -/
def size (m : σ) : ℕ := sizeAll (codec.entries m)

/-- Writes a message, unless an index is outside of the buffer. -/
def marshal (m : σ) : Option (List Byte) := Wire.marshal (codec.entries m)

/-- Reads a message into the zero value. -/
def unmarshal (dAtA : List Byte) : Except Error σ := codec.message.unmarshal codec.zero dAtA

end Codec

/-- Fields whose tags are single bytes. -/
def Message.Numbered (message : Message σ) : Prop :=
  ∀ field ∈ message.fields, 0 < field.number ∧ field.number < 16

theorem Message.Numbered.of_known {message : Message σ} (numbered : message.Numbered)
    {name : String} {number : ℕ} {kind : Kind σ}
    (known : message.field? number = some ⟨name, number, kind⟩) : 0 < number ∧ number < 16 :=
  numbered _ (List.mem_of_find?_eq_some known)

/-- Entries of the kinds that are expected, which lead from one value to another. -/
structure Message.Reads (message : Message σ) (entries : List Entry) (m after : σ) : Prop where
  shaped : ShapedAll entries
  expected : ∀ entry ∈ entries, message.Expects entry
  read : entries.foldlM message.accept m = .ok after

namespace Message.Reads

variable {message : Message σ} {m between after : σ}

theorem nil : message.Reads [] m m := ⟨trivial, by simp, rfl⟩

/-- What is read after something else goes on from there. -/
theorem append {first second : List Entry} (reads : message.Reads first m between)
    (then' : message.Reads second between after) : message.Reads (first ++ second) m after where
  shaped := shapedAll_append reads.shaped then'.shaped
  expected entry member := by
    rcases List.mem_append.mp member with inFirst | inSecond
    · exact reads.expected entry inFirst
    · exact then'.expected entry inSecond
  read := by
    rw [List.foldlM_append, reads.read]
    exact then'.read

theorem single {entry : Entry} {field : Field σ} {store : σ → Except Error σ}
    (shaped : entry.Shaped) (known : message.field? entry.number = some field)
    (accepts : field.kind.accept entry = some store) (stored : store m = .ok after) :
    message.Reads [entry] m after where
  shaped := ⟨shaped, trivial⟩
  expected other member := by
    obtain rfl := List.mem_singleton.mp member
    intro field' known'
    obtain rfl := Option.some.inj (known.symm.trans known')
    rw [accepts]
    rfl
  -- The field is found by its number and takes the entry.
  read := by
    rw [List.foldlM_cons, Message.accept, known]
    simp only [accepts, Option.getD_some, stored]
    rfl

/-- A number is stored, also if it is zero and not written. -/
theorem optionalVarint {name : String} {number value : ℕ} {keep : ℕ → σ → σ}
    (numbered : message.Numbered)
    (known : message.field? number = some ⟨name, number, .varint keep⟩) (range : value < 2 ^ 64)
    (stored : keep value m = after) (unchanged : value = 0 → after = m) :
    message.Reads (Wire.optionalVarint number value) m after := by
  unfold Wire.optionalVarint
  -- Nothing is written for zero, which is the value of a new message.
  split_ifs with zero
  · rw [unchanged zero]
    exact nil
  · obtain ⟨positive, small⟩ := numbered.of_known known
    exact single ⟨positive, small, range⟩ known rfl (congrArg Except.ok stored)

theorem optionalBytes {name : String} {number : ℕ} {content : List Byte}
    {store : List Byte → σ → Except Error σ} (numbered : message.Numbered)
    (known : message.field? number = some ⟨name, number, .delimited store⟩)
    (stored : store content m = .ok after) (unchanged : content = [] → after = m) :
    message.Reads (Wire.optionalBytes number content) m after := by
  unfold Wire.optionalBytes
  split_ifs with empty
  · rw [unchanged empty]
    exact nil
  · exact single (numbered.of_known known) known rfl stored

end Message.Reads

/-- Reading what is written of a value into the zero value gives it back. -/
def Codec.Restores (codec : Codec σ) (m : σ) : Prop :=
  codec.message.Reads (codec.entries m) codec.zero m

namespace Codec.Restores

variable {codec : Codec σ} {m : σ} (restores : codec.Restores m)

include restores

/-- A value is written in the size that was computed, and never outside of the buffer. -/
theorem marshal (short : codec.size m < 2 ^ 63) :
    codec.marshal m = some (encodeAll (codec.entries m)) ∧
      (encodeAll (codec.entries m)).length = codec.size m := by
  have valid := validAll_of_size (codec.entries m) restores.shaped short
  exact ⟨marshal_eq valid, length_encodeAll _ valid⟩

theorem unmarshal_own (short : codec.size m < 2 ^ 63) :
    codec.unmarshal (encodeAll (codec.entries m)) = .ok m := by
  -- What is written is in range, as it is short.
  have valid := validAll_of_size (codec.entries m) restores.shaped short
  rw [Codec.unmarshal, Message.unmarshal_encodeAll _ valid restores.expected]
  · exact restores.read
  · rw [length_encodeAll _ valid]
    exact short

/-- A value is read back, with whatever unknown fields between its own. -/
theorem unmarshal {entries : List Entry} (valid : ValidAll entries)
    (own : (entries.filter fun entry => (codec.message.field? entry.number).isSome) =
      codec.entries m)
    (short : (encodeAll entries).length < 2 ^ 63) :
    codec.unmarshal (encodeAll entries) = .ok m := by
  -- Unknown fields are expected in any form.
  have expected : ∀ entry ∈ entries, codec.message.Expects entry := by
    intro entry member field known
    refine restores.expected entry ?_ field known
    rw [← own]
    exact List.mem_filter.mpr ⟨member, by rw [known]; rfl⟩
  rw [Codec.unmarshal, Message.unmarshal_encodeAll _ valid expected _ short,
    ← Message.foldlM_accept_filter, own]
  exact restores.read

end Codec.Restores

end Codec

end Library.Wire
