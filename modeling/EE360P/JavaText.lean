import Mathlib.Data.List.DropRight
import Mathlib.Data.Int.Init
import Mathlib.Algebra.BigOperators.Group.List.Basic

/-! Java strings and `int`s as the programs use them. A string is its list of
characters, an `int` is an integer in a 32-bit window. `String.split` with a
one-character pattern, `Integer.parseInt` and `Integer.toString` follow their
documented behaviour: trailing empty pieces are dropped, a sign may precede the
digits, and every decimal digit of the basic plane counts. -/

namespace EE360P.JavaText

abbrev Text := List Char

/-- How a counter counts: exactly, or as a Java `int` modulo 2^32. -/
inductive Counting where
  | exact
  | int32
  deriving DecidableEq, Repr

def Counting.wrap : Counting → Int → Int
  | .exact, n => n
  | .int32, n => n.bmod (2 ^ 32)

def Counting.holds : Counting → Int → Bool
  | .exact, _ => true
  | .int32, n => decide (-2 ^ 31 ≤ n ∧ n < 2 ^ 31)

@[simp] theorem exact_wrap (n : Int) : Counting.exact.wrap n = n := rfl

theorem wrap_holds (counting : Counting) (n : Int) : counting.holds (counting.wrap n) = true := by
  cases counting with
  | exact => rfl
  | int32 =>
      have low := Int.le_bmod (x := n) (m := 2 ^ 32) (by decide)
      have high := Int.bmod_lt (x := n) (m := 2 ^ 32) (by decide)
      exact decide_eq_true ⟨by simpa [Counting.wrap] using low, by simpa [Counting.wrap] using high⟩

theorem wrap_fits (counting : Counting) (n : Int) (held : counting.holds n = true) :
    counting.wrap n = n := by
  cases counting with
  | exact => rfl
  | int32 =>
      simp only [Counting.holds, decide_eq_true_eq] at held
      exact Int.bmod_eq_of_le (by omega) (by omega)

theorem int32_fits (n : Int) (low : -2 ^ 31 ≤ n) (high : n < 2 ^ 31) :
    Counting.int32.wrap n = n := by
  apply wrap_fits
  exact decide_eq_true ⟨low, high⟩

theorem int32_overflows (n : Int) (beyond : 2 ^ 31 ≤ n) (below : n < 2 ^ 32) :
    Counting.int32.wrap n = n - 2 ^ 32 := by
  rw [Counting.wrap, ← Int.sub_bmod_right]
  exact Int.bmod_eq_of_le (by omega) (by omega)

theorem wrap_add (counting : Counting) (m n : Int) :
    counting.wrap (counting.wrap m + n) = counting.wrap (m + n) := by
  cases counting with
  | exact => rfl
  | int32 => exact Int.bmod_add_bmod

theorem wrap_sub (counting : Counting) (m n : Int) :
    counting.wrap (counting.wrap m - counting.wrap n) = counting.wrap (m - n) := by
  cases counting with
  | exact => rfl
  | int32 => exact (Int.sub_bmod m n _).symm

section Sums

instance int32AddCommGroup : AddCommGroup Int32 where
  add_assoc := Int32.add_assoc
  zero_add := Int32.zero_add
  add_zero := Int32.add_zero
  add_comm := Int32.add_comm
  sub_eq_add_neg := Int32.sub_eq_add_neg
  neg_add_cancel := Int32.add_left_neg
  nsmul := nsmulRec
  zsmul := zsmulRec

end Sums

section Decimal

-- The zeros of the decimal digit blocks of the basic plane (`Character.digit`).
def digitZeros : List Nat :=
  [0x30, 0x660, 0x6F0, 0x7C0, 0x966, 0x9E6, 0xA66, 0xAE6, 0xB66, 0xBE6, 0xC66, 0xCE6, 0xD66,
    0xE50, 0xED0, 0xF20, 0x1040, 0x1090, 0x17E0, 0x1810, 0x1946, 0x19D0, 0x1A80, 0x1A90, 0x1B50,
    0x1BB0, 0x1C40, 0x1C50, 0xA620, 0xA8D0, 0xA900, 0xA9D0, 0xAA50, 0xABF0, 0xFF10]

def digit (c : Char) : Option Nat :=
  (digitZeros.find? fun first => first ≤ c.toNat && c.toNat < first + 10).map (c.toNat - ·)

def accumulate (total : Nat) (c : Char) : Option Nat := (digit c).map (10 * total + ·)

def magnitude : Text → Option Nat
  | [] => none
  | c :: rest => (c :: rest).foldlM accumulate 0

def signedValue : Text → Option Int
  | '-' :: rest => (magnitude rest).map fun n => -(n : Int)
  | '+' :: rest => (magnitude rest).map fun n => (n : Int)
  | text => (magnitude text).map fun n => (n : Int)

/-- `Integer.parseInt`; `none` is the `NumberFormatException`. -/
def parseInt (counting : Counting) (text : Text) : Option Int :=
  (signedValue text).filter counting.holds

/-- `Integer.toString`. -/
def intText : Int → Text
  | .ofNat n => Nat.toDigits 10 n
  | .negSucc n => '-' :: Nat.toDigits 10 (n + 1)

theorem digit_digitChar : ∀ d < 10, digit (Nat.digitChar d) = some d := by decide

theorem digits_fold (n : Nat) : (Nat.toDigits 10 n).foldlM accumulate 0 = some n := by
  induction n using Nat.strongRecOn with
  | ind n ih =>
      by_cases small : n < 10
      · simp [Nat.toDigits_of_lt_base small, accumulate, digit_digitChar n small]
      · have last : n % 10 < 10 := Nat.mod_lt n (by decide)
        have digits : Nat.toDigits 10 n = Nat.toDigits 10 (n / 10) ++ Nat.toDigits 10 (n % 10) := by
          rw [Nat.toDigits_append_toDigits (by decide) (by omega) last, Nat.div_add_mod]
        rw [digits, List.foldlM_append, ih (n / 10) (by omega)]
        simp only [Nat.toDigits_of_lt_base last, Option.bind_eq_bind, Option.bind_some,
          List.foldlM_cons, accumulate, digit_digitChar _ last, Option.map_some, List.foldlM_nil]
        exact congrArg some (Nat.div_add_mod n 10)

theorem digits_nonempty (n : Nat) : ∃ c rest, Nat.toDigits 10 n = c :: rest ∧ c.isDigit = true := by
  cases shape : Nat.toDigits 10 n with
  | nil => simp at shape
  | cons c rest =>
      have member : c ∈ Nat.toDigits 10 n := by rw [shape]; exact List.mem_cons_self
      exact ⟨c, rest, rfl, Nat.isDigit_of_mem_toDigits (by decide) (by decide) member⟩

theorem digits_magnitude (n : Nat) : magnitude (Nat.toDigits 10 n) = some n := by
  obtain ⟨c, rest, shape, _⟩ := digits_nonempty n
  have fold := digits_fold n
  rw [shape] at fold ⊢
  exact fold

theorem digits_signed (n : Nat) : signedValue (Nat.toDigits 10 n) = some (n : Int) := by
  obtain ⟨c, rest, shape, isDigit⟩ := digits_nonempty n
  have value := digits_magnitude n
  rw [shape] at value ⊢
  have notMinus : c ≠ '-' := by rintro rfl; exact absurd isDigit (by decide)
  have notPlus : c ≠ '+' := by rintro rfl; exact absurd isDigit (by decide)
  unfold signedValue
  split
  · rename_i minus
    exact absurd (List.cons.inj minus).1 notMinus
  · rename_i plus
    exact absurd (List.cons.inj plus).1 notPlus
  · simp [value]

theorem intText_signed (n : Int) : signedValue (intText n) = some n := by
  cases n with
  | ofNat n => exact digits_signed n
  | negSucc n =>
      change (magnitude (Nat.toDigits 10 (n + 1))).map (fun m => -(m : Int)) = some (Int.negSucc n)
      rw [digits_magnitude]
      rfl

/-- What `Integer.toString` prints is read back, as long as it is in range. -/
theorem intText_parsed (counting : Counting) (n : Int) (held : counting.holds n = true) :
    parseInt counting (intText n) = some n := by
  simp [parseInt, intText_signed, held]

theorem parseInt_holds (counting : Counting) (text : Text) (n : Int)
    (parsed : parseInt counting text = some n) : counting.holds n = true :=
  (Option.filter_eq_some_iff.mp parsed).2

theorem intText_chars (n : Int) (c : Char) (member : c ∈ intText n) :
    c = '-' ∨ c.isDigit = true := by
  have digits : ∀ m, c ∈ Nat.toDigits 10 m → c.isDigit = true := fun m =>
    Nat.isDigit_of_mem_toDigits (by decide) (by decide)
  cases n with
  | ofNat n => exact Or.inr (digits n member)
  | negSucc n =>
      rcases List.mem_cons.mp member with minus | tail
      · exact Or.inl minus
      · exact Or.inr (digits (n + 1) tail)

theorem colon_not_in_intText (n : Int) : ':' ∉ intText n := by
  intro member
  rcases intText_chars n ':' member with minus | isDigit
  · exact absurd minus (by decide)
  · exact absurd isDigit (by decide)

theorem accumulate_digits (text : Text) (total n : Nat)
    (read : text.foldlM accumulate total = some n) : ∀ c ∈ text, (digit c).isSome = true := by
  induction text generalizing total with
  | nil => simp
  | cons first rest ih =>
      simp only [List.foldlM_cons, Option.bind_eq_bind, Option.bind_eq_some_iff] at read
      obtain ⟨next, step, later⟩ := read
      intro c member
      rcases List.mem_cons.mp member with rfl | inside
      · cases value : digit c with
        | none => simp [accumulate, value] at step
        | some d => rfl
      · exact ih next later c inside

theorem magnitude_digits (text : Text) (n : Nat) (read : magnitude text = some n) :
    text ≠ [] ∧ ∀ c ∈ text, (digit c).isSome = true := by
  cases text with
  | nil => cases read
  | cons first rest => exact ⟨nofun, accumulate_digits (first :: rest) 0 n read⟩

-- A number has a digit in it, and no colon.
theorem signed_chars (text : Text) (n : Int) (read : signedValue text = some n) :
    text ≠ [] ∧ ':' ∉ text := by
  have plain : ∀ digits m, magnitude digits = some m → digits ≠ [] ∧ ':' ∉ digits := by
    intro digits m value
    obtain ⟨shown, all⟩ := magnitude_digits digits m value
    exact ⟨shown, fun colon => absurd (all ':' colon) (by decide)⟩
  have counted : ∀ digits (m : Int) (sign : Int → Int),
      ((magnitude digits >>= fun n => pure (n : Int)).map sign = some m) →
        digits ≠ [] ∧ ':' ∉ digits := by
    intro digits m sign value
    obtain ⟨_, value, _⟩ := Option.map_eq_some_iff.mp value
    obtain ⟨k, value, _⟩ := Option.bind_eq_some_iff.mp value
    exact plain digits k value
  unfold signedValue at read
  split at read
  · exact ⟨nofun, by simpa using (counted _ n _ read).2⟩
  · exact ⟨nofun, by simpa using (counted _ n _ read).2⟩
  · exact counted text n _ read

theorem parseInt_chars (counting : Counting) (text : Text) (n : Int)
    (parsed : parseInt counting text = some n) : text ≠ [] ∧ ':' ∉ text :=
  signed_chars text n (Option.filter_eq_some_iff.mp parsed).1

end Decimal

section Split

/-- The pieces between separators, without the empty ones at the end. -/
def pieces (separator : Char) (text : Text) : List Text :=
  (text.splitOn separator).rdropWhile List.isEmpty

/-- `String.split` on one character: without a match the string stays whole. -/
def split (separator : Char) (text : Text) : List Text :=
  if separator ∈ text then pieces separator text else [text]

-- A nonempty piece stops the trailing drop, so nothing before it is lost.
theorem rdrop_append (front rest : List Text) (kept : rest.rdropWhile List.isEmpty ≠ []) :
    (front ++ rest).rdropWhile List.isEmpty = front ++ rest.rdropWhile List.isEmpty := by
  induction rest using List.reverseRecOn with
  | nil => simp at kept
  | append_singleton rest last ih =>
      rw [← List.append_assoc]
      by_cases blank : last.isEmpty = true
      · rw [List.rdropWhile_concat_pos _ _ _ blank] at kept ⊢
        rw [List.rdropWhile_concat_pos _ _ _ blank]
        exact ih kept
      · rw [List.rdropWhile_concat_neg _ _ _ blank, List.rdropWhile_concat_neg _ _ _ blank,
          List.append_assoc]

theorem pieces_single (separator : Char) (text : Text) (absent : separator ∉ text)
    (nonempty : text ≠ []) : pieces separator text = [text] := by
  have shown : text.isEmpty = false := by simpa using nonempty
  rw [pieces, List.splitOn_eq_singleton absent, List.rdropWhile_singleton]
  simp [shown]

theorem rdrop_cons (piece : Text) (rest : List Text) (shown : piece ≠ []) :
    (piece :: rest).rdropWhile List.isEmpty = piece :: rest.rdropWhile List.isEmpty := by
  induction rest using List.reverseRecOn with
  | nil => simp [List.rdropWhile_singleton, shown]
  | append_singleton rest last ih =>
      rw [← List.cons_append]
      by_cases blank : last.isEmpty = true
      · rw [List.rdropWhile_concat_pos _ _ _ blank, List.rdropWhile_concat_pos _ _ _ blank]
        exact ih
      · rw [List.rdropWhile_concat_neg _ _ _ blank, List.rdropWhile_concat_neg _ _ _ blank]
        rfl

theorem pieces_shown (separator : Char) (piece rest : Text) (absent : separator ∉ piece)
    (shown : piece ≠ []) : pieces separator (piece ++ separator :: rest) =
      piece :: pieces separator rest := by
  rw [pieces, List.splitOn_append_cons_self_of_not_mem absent]
  exact rdrop_cons piece _ shown

/-- A text up to the first separator. -/
def upTo (separator : Char) (text : Text) : Text := text.takeWhile fun c => c != separator

theorem upTo_absent (separator : Char) (text : Text) : separator ∉ upTo separator text := by
  intro member
  have kept := List.mem_takeWhile_imp member
  simp at kept

theorem upTo_split (separator : Char) (text : Text) :
    upTo separator text = text ∨ ∃ rest, text = upTo separator text ++ separator :: rest := by
  induction text with
  | nil => exact Or.inl rfl
  | cons c text ih =>
      by_cases here : c = separator
      · exact Or.inr ⟨text, by simp [upTo, here]⟩
      · have head : upTo separator (c :: text) = c :: upTo separator text := by simp [upTo, here]
        rw [head]
        rcases ih with whole | ⟨rest, cut⟩
        · exact Or.inl (by rw [whole])
        · exact Or.inr ⟨rest, by rw [List.cons_append, ← cut]⟩

theorem pieces_head (separator : Char) (text : Text) (shown : upTo separator text ≠ []) :
    ∃ rest, pieces separator text = upTo separator text :: rest := by
  have absent := upTo_absent separator text
  rcases upTo_split separator text with whole | ⟨rest, cut⟩
  · rw [whole] at absent shown ⊢
    exact ⟨[], pieces_single separator text absent shown⟩
  · refine ⟨pieces separator rest, ?_⟩
    conv_lhs => rw [cut]
    exact pieces_shown separator _ rest absent shown

theorem splitOn_head (separator : Char) (text : Text) :
    ∃ rest, text.splitOn separator = upTo separator text :: rest := by
  have absent := upTo_absent separator text
  rcases upTo_split separator text with whole | ⟨rest, cut⟩
  · rw [whole] at absent ⊢
    exact ⟨[], List.splitOn_eq_singleton absent⟩
  · refine ⟨rest.splitOn separator, ?_⟩
    conv_lhs => rw [cut]
    exact List.splitOn_append_cons_self_of_not_mem absent rest

-- The first piece, if there is one, is what precedes the first separator.
theorem split_first (separator : Char) (text piece : Text)
    (first : (split separator text)[0]? = some piece) : piece = upTo separator text := by
  by_cases present : separator ∈ text
  · obtain ⟨rest, shape⟩ := splitOn_head separator text
    simp only [split, present, ↓reduceIte, pieces] at first
    obtain ⟨dropped, whole⟩ := List.rdropWhile_prefix List.isEmpty (text.splitOn separator)
    rw [shape] at whole first
    cases kept : (upTo separator text :: rest).rdropWhile List.isEmpty with
    | nil => simp [kept] at first
    | cons head tail =>
        rw [kept] at whole first
        simp only [List.getElem?_cons_zero, Option.some.injEq] at first
        exact first ▸ (List.cons.inj whole).1
  · simp only [split, present, ↓reduceIte, List.getElem?_cons_zero, Option.some.injEq] at first
    rcases upTo_split separator text with whole | ⟨rest, cut⟩
    · exact first ▸ whole.symm
    · exact absurd (cut ▸ by simp) present

theorem upTo_whole (mark : Char) (text : Text) (absent : mark ∉ text) : upTo mark text = text := by
  rcases upTo_split mark text with whole | ⟨rest, cut⟩
  · exact whole
  · exact absurd (cut ▸ by simp) absent

theorem upTo_append (mark : Char) (front rest : Text) (absent : mark ∉ front) :
    upTo mark (front ++ rest) = front ++ upTo mark rest :=
  List.takeWhile_append_of_pos fun c inside => by
    rw [bne_iff_ne]
    rintro rfl
    exact absent inside

-- The first piece stays, and what follows it is cut off in its turn.
theorem upTo_pieces (separator mark : Char) (apart : separator ≠ mark) (text : Text)
    (clear : mark ∉ upTo separator text) : upTo mark text = text ∨ ∃ rest,
      text.splitOn separator = upTo separator text :: rest.splitOn separator ∧
      (upTo mark text).splitOn separator =
        upTo separator text :: (upTo mark rest).splitOn separator := by
  have absent := upTo_absent separator text
  rcases upTo_split separator text with whole | ⟨rest, shape⟩
  · rw [whole] at clear
    exact Or.inl (upTo_whole mark text clear)
  · have cut : upTo mark text = upTo separator text ++ separator :: upTo mark rest := by
      conv_lhs => rw [shape, upTo_append mark _ _ clear]
      simp [upTo, apart]
    refine Or.inr ⟨rest, ?_, ?_⟩
    · conv_lhs => rw [shape, List.splitOn_append_cons_self_of_not_mem absent]
    · rw [cut, List.splitOn_append_cons_self_of_not_mem absent]

/-- Cutting a text off at a mark leaves the pieces before the mark as they are. -/
theorem splitOn_upTo (separator mark : Char) (apart : separator ≠ mark) (position : Nat)
    (text : Text) (unmarked : ∀ earlier ≤ position,
      ∀ piece ∈ (text.splitOn separator)[earlier]?, mark ∉ piece) :
    ((upTo mark text).splitOn separator)[position]? = (text.splitOn separator)[position]? := by
  obtain ⟨others, first⟩ := splitOn_head separator text
  have clear : mark ∉ upTo separator text :=
    unmarked 0 (Nat.zero_le _) (upTo separator text) (by simp [first])
  induction position generalizing text others with
  | zero =>
      rcases upTo_pieces separator mark apart text clear with whole | ⟨rest, before, after⟩
      · rw [whole]
      · simp [before, after]
  | succ position ih =>
      rcases upTo_pieces separator mark apart text clear with whole | ⟨rest, before, after⟩
      · rw [whole]
      · rw [before, after, List.getElem?_cons_succ, List.getElem?_cons_succ]
        have later : ∀ earlier ≤ position,
            ∀ piece ∈ (rest.splitOn separator)[earlier]?, mark ∉ piece :=
          fun earlier early piece found =>
            unmarked (earlier + 1) (by omega) piece (by simpa [before] using found)
        obtain ⟨more, next⟩ := splitOn_head separator rest
        exact ih rest later more next (later 0 (Nat.zero_le _) _ (by simp [next]))

theorem split_found (separator : Char) (text piece : Text) (position : Nat)
    (found : (split separator text)[position]? = some piece) :
    (text.splitOn separator)[position]? = some piece := by
  unfold split at found
  split at found
  · obtain ⟨inside, rfl⟩ := List.getElem?_eq_some_iff.mp found
    exact List.prefix_iff_getElem?.mp (List.rdropWhile_prefix _ _) position inside
  · rename_i absent
    rwa [List.splitOn_eq_singleton absent]

/-- A piece that is not empty keeps the pieces before it from being dropped. -/
theorem split_kept (separator : Char) (text piece : Text) (position : Nat) (shown : piece ≠ [])
    (found : (text.splitOn separator)[position]? = some piece) (earlier : Nat)
    (early : earlier ≤ position) :
    (split separator text)[earlier]? = (text.splitOn separator)[earlier]? := by
  by_cases present : separator ∈ text
  · simp only [split, present, ↓reduceIte, pieces]
    obtain ⟨inside, rfl⟩ := List.getElem?_eq_some_iff.mp found
    have parts : text.splitOn separator = (text.splitOn separator).take position ++
        (text.splitOn separator)[position] :: (text.splitOn separator).drop (position + 1) := by
      rw [List.getElem_cons_drop, List.take_append_drop]
    have kept := rdrop_cons (text.splitOn separator)[position]
      ((text.splitOn separator).drop (position + 1)) shown
    have dropped := rdrop_append ((text.splitOn separator).take position) _ (by rw [kept]; nofun)
    rw [← parts, kept] at dropped
    have length : ((text.splitOn separator).take position).length = position := by
      rw [List.length_take]
      omega
    rw [dropped]
    conv_rhs => rw [parts]
    rcases Nat.lt_or_eq_of_le early with before | rfl
    · rw [List.getElem?_append_left (by omega), List.getElem?_append_left (by omega)]
    · rw [List.getElem?_append_right (by omega), List.getElem?_append_right (by omega), length]
      simp
  · simp only [split, present, ↓reduceIte]
    rw [List.splitOn_eq_singleton present]

/-- The tokens of a text that is cut off after them are the tokens of the text. -/
theorem split_upTo (separator mark : Char) (apart : separator ≠ mark) (text last : Text)
    (position : Nat) (shown : last ≠ []) (found : (split separator text)[position]? = some last)
    (unmarked : ∀ earlier ≤ position, ∀ piece ∈ (split separator text)[earlier]?, mark ∉ piece)
    (earlier : Nat) (early : earlier ≤ position) :
    (split separator (upTo mark text))[earlier]? = (split separator text)[earlier]? := by
  have there := split_found separator text last position found
  have kept := split_kept separator text last position shown there
  have same : ∀ n ≤ position, ((upTo mark text).splitOn separator)[n]? =
      (text.splitOn separator)[n]? := fun n small =>
    splitOn_upTo separator mark apart n text fun first before piece member =>
      unmarked first (by omega) piece (by rwa [kept first (by omega)])
  rw [kept earlier early, ← same earlier early]
  exact split_kept separator (upTo mark text) last position shown
    ((same position (Nat.le_refl _)).trans there) earlier early

-- A piece holds characters of the text, and no separator.
theorem splitOn_chars (separator : Char) (text : Text) :
    ∀ piece ∈ text.splitOn separator, ∀ c ∈ piece, c ∈ text ∧ c ≠ separator := by
  induction text with
  | nil =>
      intro piece member c inside
      rw [List.splitOn_nil, List.mem_singleton] at member
      exact absurd (member ▸ inside) List.not_mem_nil
  | cons head text ih =>
      have earlier : ∀ piece ∈ text.splitOn separator, ∀ c ∈ piece,
          c ∈ head :: text ∧ c ≠ separator := by
        intro piece member c inside
        obtain ⟨present, apart⟩ := ih piece member c inside
        exact ⟨List.mem_cons_of_mem head present, apart⟩
      intro piece member c inside
      rw [List.splitOn_cons_eq_if_modifyHead] at member
      split at member
      · rcases List.mem_cons.mp member with rfl | later
        · exact absurd inside List.not_mem_nil
        · exact earlier piece later c inside
      · rename_i other
        cases shape : text.splitOn separator with
        | nil => exact absurd shape (List.splitOn_ne_nil separator text)
        | cons first rest =>
            rw [shape] at earlier member
            rcases List.mem_cons.mp member with rfl | later
            · rcases List.mem_cons.mp inside with rfl | tail
              · exact ⟨List.mem_cons_self, fun same => other (beq_iff_eq.mpr same)⟩
              · exact earlier first List.mem_cons_self c tail
            · exact earlier piece (List.mem_cons_of_mem first later) c inside

theorem split_chars (separator : Char) (text piece : Text) (member : piece ∈ split separator text)
    (c : Char) (inside : c ∈ piece) : c ∈ text := by
  unfold split at member
  split at member
  · exact (splitOn_chars separator text piece
      ((List.rdropWhile_prefix _ _).subset member) c inside).1
  · rw [List.mem_singleton] at member
    exact member ▸ inside

theorem split_absent (separator : Char) (text piece : Text) (position : Nat)
    (found : (split separator text)[position]? = some piece) : separator ∉ piece := by
  have member := List.mem_of_getElem? (split_found separator text piece position found)
  intro inside
  exact (splitOn_chars separator text piece member separator inside).2 rfl

theorem split_pieces (separator : Char) (text : Text) (nonempty : text ≠ []) :
    split separator text = pieces separator text := by
  by_cases present : separator ∈ text
  · simp [split, present]
  · simp [split, present, pieces_single separator text present nonempty]

end Split

section Order

/-- The UTF-16 code units of a character. -/
def codeUnit (c : Char) : List Nat :=
  if c.toNat < 0x10000 then [c.toNat]
  else [0xD800 + (c.toNat - 0x10000) / 0x400, 0xDC00 + (c.toNat - 0x10000) % 0x400]

def codeUnits (text : Text) : List Nat := text.flatMap codeUnit

-- A leading surrogate is no character's only unit.
theorem codeUnit_first (c d : Char) (left right : List Nat)
    (same : codeUnit c ++ left = codeUnit d ++ right) : c = d ∧ left = right := by
  have validC := c.valid
  have validD := d.valid
  have numbers : c.toNat = d.toNat → c = d := fun equal => Char.toNat_inj.mp equal
  simp only [UInt32.isValidChar, Nat.isValidChar] at validC validD
  change (c.toNat < _ ∨ _ < c.toNat ∧ c.toNat < _) at validC
  change (d.toNat < _ ∨ _ < d.toNat ∧ d.toNat < _) at validD
  unfold codeUnit at same
  by_cases plainC : c.toNat < 0x10000 <;> by_cases plainD : d.toNat < 0x10000 <;>
    simp only [plainC, plainD, ↓reduceIte, List.cons_append, List.nil_append, List.cons.injEq] at same
  · exact ⟨numbers same.1, same.2⟩
  · omega
  · omega
  · exact ⟨numbers (by omega), same.2.2⟩

theorem codeUnits_injective : Function.Injective codeUnits := by
  intro left
  induction left with
  | nil =>
      intro right same
      cases right with
      | nil => rfl
      | cons d rest =>
          by_cases plain : d.toNat < 0x10000 <;> simp [codeUnits, codeUnit, plain] at same
  | cons c rest ih =>
      intro right same
      cases right with
      | nil => by_cases plain : c.toNat < 0x10000 <;> simp [codeUnits, codeUnit, plain] at same
      | cons d others =>
          obtain ⟨first, tail⟩ := codeUnit_first c d (codeUnits rest) (codeUnits others) same
          rw [first, ih tail]

end Order

end EE360P.JavaText
