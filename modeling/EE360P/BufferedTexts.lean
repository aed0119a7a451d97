import Mathlib.Data.List.Basic

/-! What a buffer of fixed size leaves of an encoded text. The charset encodes
character by character; a character that it does not have is encoded as a question mark,
and one whose bytes break off is decoded as the replacement character. -/

namespace EE360P.BufferedTexts

def replacement : Char := '\uFFFD'

/-- A charset that keeps no state between two characters: `recode c` is what `c` comes
back as. -/
structure Charset (decode : List UInt8 → List Char) (getBytes : List Char → List UInt8)
    (recode : Char → Char) : Prop where
  append : ∀ front rest, getBytes (front ++ rest) = getBytes front ++ getBytes rest
  decoded : ∀ text, decode (getBytes text) = text.map recode
  recoded : ∀ text, getBytes (text.map recode) = getBytes text
  lost : ∀ c, recode c = c ∨ recode c = '?'
  broken : ∀ front c count, 0 < count → count < (getBytes [c]).length →
    decode (getBytes front ++ (getBytes [c]).take count) = front.map recode ++ [replacement]

section Buffers
variable (decode : List UInt8 → List Char) (getBytes : List Char → List UInt8) (size : Nat)

/-- `Leaves text left`: the buffer takes all of the text, or it is filled by the
bytes of `left`, or the end of the buffer breaks a character. -/
inductive Leaves : List Char → List Char → Prop where
  | whole (text : List Char) (short : (getBytes text).length ≤ size) : Leaves text text
  | filled (left rest : List Char) (full : (getBytes left).length = size) : Leaves (left ++ rest) left
  | broken (front : List Char) (c : Char) (rest : List Char) (before : (getBytes front).length < size)
      (beyond : size < (getBytes (front ++ [c])).length) :
      Leaves (front ++ c :: rest) (front ++ [replacement])

variable {decode getBytes} {recode : Char → Char} (charset : Charset decode getBytes recode)

include charset in
/-- What has come back once comes back unchanged. -/
theorem carried_again (text : List Char) : (text.map recode).map recode = text.map recode := by
  rw [← charset.decoded, charset.recoded, charset.decoded]

section Carried
variable (text left : List Char) (carried : text.map recode = text)

include charset carried in
theorem leaves_read (leaves : Leaves getBytes size text left) :
    decode ((getBytes text).take size) = left := by
  cases leaves with
  | whole _ short => rw [List.take_of_length_le short, charset.decoded, carried]
  | filled _ rest full =>
      rw [List.map_append] at carried
      rw [charset.append, List.take_left' full, charset.decoded]
      exact (List.append_inj carried (List.length_map recode)).1
  | broken front c rest before beyond =>
      rw [charset.append, List.length_append] at beyond
      rw [List.map_append] at carried
      have kept : front.map recode = front := (List.append_inj carried (List.length_map recode)).1
      have rest_ : front ++ c :: rest = front ++ ([c] ++ rest) := rfl
      have within : size - (getBytes front).length ≤ (getBytes [c]).length := by omega
      rw [rest_, charset.append, charset.append, List.take_append, List.take_of_length_le (by omega),
        List.take_append_of_le_length within, charset.broken front c _ (by omega) (by omega), kept]

-- The buffer takes one character after the other until one does not fit.
theorem leaves_beyond (rest front : List Char) (fits : (getBytes front).length ≤ size)
    (long : size < (getBytes (front ++ rest)).length) :
    ∃ left, Leaves getBytes size (front ++ rest) left := by
  induction rest generalizing front with
  | nil =>
      rw [List.append_nil] at long
      omega
  | cons c rest ih =>
      by_cases full : (getBytes front).length = size
      · exact ⟨front, .filled front (c :: rest) full⟩
      · by_cases next : (getBytes (front ++ [c])).length ≤ size
        · rw [List.append_cons] at long ⊢
          exact ih (front ++ [c]) next long
        · exact ⟨front ++ [replacement], .broken front c rest (by omega) (by omega)⟩

theorem bytes_empty (append : ∀ front rest, getBytes (front ++ rest) = getBytes front ++ getBytes rest) :
    getBytes [] = [] :=
  List.self_eq_append_left.mp (append [] [])

include charset carried in
theorem read_leaves :
    decode ((getBytes text).take size) = left ↔ Leaves getBytes size text left := by
  constructor
  · intro read
    have some_ : ∃ left, Leaves getBytes size text left := by
      by_cases short : (getBytes text).length ≤ size
      · exact ⟨text, .whole text short⟩
      · apply leaves_beyond size text []
        · simp [bytes_empty charset.append]
        · simpa using short
    obtain ⟨other, leaves⟩ := some_
    have same := leaves_read size charset text other carried leaves
    rw [← read, same]
    exact leaves
  · exact leaves_read size charset text left carried

end Carried

end Buffers

section UTF8

def getBytes (text : List Char) : List UInt8 := text.flatMap String.utf8EncodeChar

/-- Reads characters as long as it can; what is left is malformed. -/
def decodeUpTo : Nat → List UInt8 → List Char
  | _, [] => []
  | 0, _ :: _ => [replacement]
  | fuel + 1, byte :: rest =>
      match (byte :: rest).toByteArray.utf8DecodeChar? 0 with
      | some c => c :: decodeUpTo fuel ((byte :: rest).drop c.utf8Size)
      | none => [replacement]

def decode (bytes : List UInt8) : List Char := decodeUpTo bytes.length bytes

theorem decode_character (c : Char) (fuel : Nat) (rest : List UInt8) :
    decodeUpTo (fuel + 1) (String.utf8EncodeChar c ++ rest) = c :: decodeUpTo fuel rest := by
  have size := String.length_utf8EncodeChar c
  have first : (String.utf8EncodeChar c ++ rest).toByteArray.utf8DecodeChar? 0 = some c := by
    rw [List.toByteArray_append]
    exact ByteArray.utf8DecodeChar?_utf8EncodeChar_append
  cases shape : String.utf8EncodeChar c with
  | nil => exact absurd shape String.utf8EncodeChar_ne_nil
  | cons byte more =>
      rw [shape] at first size
      rw [List.cons_append] at first ⊢
      simp only [decodeUpTo, first]
      rw [← List.cons_append, List.drop_left' size]

theorem decode_text (text : List Char) (fuel : Nat) (rest : List UInt8) :
    decodeUpTo (text.length + fuel) (getBytes text ++ rest) = text ++ decodeUpTo fuel rest := by
  induction text with
  | nil => simp [getBytes]
  | cons c text ih =>
      rw [getBytes, List.flatMap_cons, List.append_assoc, List.length_cons, Nat.add_right_comm,
        decode_character, ← getBytes, ih, List.cons_append]

theorem bytes_length (text : List Char) : text.length ≤ (getBytes text).length := by
  induction text with
  | nil => exact Nat.zero_le _
  | cons c text ih =>
      have positive := c.utf8Size_pos
      rw [getBytes, List.flatMap_cons, List.length_append, String.length_utf8EncodeChar, ← getBytes,
        List.length_cons]
      omega

-- More bytes would still give the same character, which needs all of its own.
theorem broken_character (c : Char) (count : Nat) (short : count < (String.utf8EncodeChar c).length) :
    ((String.utf8EncodeChar c).take count).toByteArray.utf8DecodeChar? 0 = none := by
  cases read : ((String.utf8EncodeChar c).take count).toByteArray.utf8DecodeChar? 0 with
  | none => rfl
  | some d =>
      have longer := ByteArray.utf8DecodeChar?_append_eq_some read
        ((String.utf8EncodeChar c).drop count).toByteArray
      have whole := @ByteArray.utf8DecodeChar?_utf8EncodeChar_append [].toByteArray c
      rw [← List.toByteArray_append, List.take_append_drop] at longer
      rw [← List.toByteArray_append, List.append_nil, longer, Option.some.injEq] at whole
      have enough := ByteArray.le_size_of_utf8DecodeChar?_eq_some read
      simp only [List.size_toByteArray, List.length_take, String.length_utf8EncodeChar] at enough short
      rw [whole] at enough
      omega

theorem utf8_charset : Charset decode getBytes id := by
  constructor
  · intro front rest
    exact List.flatMap_append
  · intro text
    have enough := bytes_length text
    have read := decode_text text ((getBytes text).length - text.length) []
    rw [Nat.add_sub_cancel' enough, List.append_nil] at read
    rw [decode, read]
    simp [decodeUpTo]
  · intro text
    rw [List.map_id]
  · exact fun _ => Or.inl rfl
  · intro front c count positive short
    have single : getBytes [c] = String.utf8EncodeChar c := List.flatMap_singleton _ _
    rw [single] at short ⊢
    have none := broken_character c count short
    have enough := bytes_length front
    have taken : ((String.utf8EncodeChar c).take count).length = count := by
      rw [List.length_take]
      omega
    have fuel : (getBytes front ++ (String.utf8EncodeChar c).take count).length =
        front.length + ((getBytes front).length - front.length + (count - 1) + 1) := by
      rw [List.length_append, taken]
      omega
    rw [decode, fuel, decode_text, List.map_id]
    cases shape : (String.utf8EncodeChar c).take count with
    | nil =>
        rw [shape, List.length_nil] at taken
        omega
    | cons byte more =>
        rw [shape] at none
        simp only [decodeUpTo, none]

end UTF8

section Latin1

/-- What ISO-8859-1 makes of a character. -/
def latin1Recode (c : Char) : Char := if c.toNat < 256 then c else '?'

def latin1Bytes (text : List Char) : List UInt8 := text.map fun c => (latin1Recode c).toNat.toUInt8

def latin1Decode (bytes : List UInt8) : List Char := bytes.map fun byte => Char.ofNat byte.toNat

theorem latin1_small (c : Char) : (latin1Recode c).toNat < 256 := by
  unfold latin1Recode
  split
  · assumption
  · decide

theorem latin1_charset : Charset latin1Decode latin1Bytes latin1Recode := by
  have again : ∀ c, latin1Recode (latin1Recode c) = latin1Recode c := fun c => if_pos (latin1_small c)
  constructor
  · intro front rest
    exact List.map_append
  · intro text
    rw [latin1Decode, latin1Bytes, List.map_map]
    refine List.map_congr_left fun c _ => ?_
    have small := latin1_small c
    simp [Nat.mod_eq_of_lt small]
  · intro text
    simp [latin1Bytes, again]
  · intro c
    unfold latin1Recode
    split
    · exact Or.inl rfl
    · exact Or.inr rfl
  · intro front c count positive short
    simp [latin1Bytes] at short
    omega

end Latin1

end EE360P.BufferedTexts
