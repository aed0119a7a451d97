import EE360P.ServerCluster

/-! The lines of the protocol on the wire: how `serviceServerTask` takes them
apart again. A client's line starts with a letter of its command, so it is
never taken for a server's line. -/

namespace EE360P.ProtocolLines
open JavaText ReplicatedServer ServerCluster

section Tokens

theorem number_shown (n : Int) : intText n ≠ [] := by
  intro blank
  have read := intText_signed n
  rw [blank] at read
  simp [signedValue, magnitude] at read

theorem fields_pieces (first : Text) (logicalClock : Int) (rest : Text) (absent : ':' ∉ first)
    (shown : first ≠ []) : split ':' (first ++ ':' :: (intText logicalClock ++ ':' :: rest)) =
      first :: intText logicalClock :: pieces ':' rest := by
  rw [split_pieces _ _ (by simp), pieces_shown _ _ _ absent shown,
    pieces_shown _ _ _ (colon_not_in_intText logicalClock) (number_shown logicalClock)]

theorem number_pieces (n : Int) : pieces ':' (intText n) = [intText n] :=
  pieces_single _ _ (colon_not_in_intText n) (number_shown n)

theorem request_tokens (logicalClock serverID : Int) :
    split ':' (Line.request logicalClock serverID).text =
      [requestWord, intText logicalClock, intText serverID] := by
  have fields := fields_pieces requestWord logicalClock (intText serverID) (by decide)
    (by decide)
  rw [number_pieces] at fields
  exact fields

theorem release_tokens (logicalClock serverID : Int) :
    split ':' (Line.release logicalClock serverID).text =
      [releaseWord, intText logicalClock, intText serverID] := by
  have fields := fields_pieces releaseWord logicalClock (intText serverID) (by decide)
    (by decide)
  rw [number_pieces] at fields
  exact fields

theorem update_tokens (logicalClock serverID : Int) (client : ClientInformation) :
    split ':' (Line.update logicalClock serverID client).text =
      updateWord :: intText logicalClock :: intText serverID ::
        pieces ':' client.clientCommand := by
  have fields := fields_pieces updateWord logicalClock
    (intText serverID ++ ':' :: client.clientCommand) (by decide) (by decide)
  rw [pieces_shown _ _ _ (colon_not_in_intText serverID) (number_shown serverID)] at fields
  exact fields

theorem token_parsed (counting : Counting) (tokens : List Text) (position : Nat) (n : Int)
    (held : counting.holds n = true) (token : tokens[position]? = some (intText n)) :
    parsedToken counting tokens position = some n := by
  simp [parsedToken, token, intText_parsed counting n held]

end Tokens

section Commands

-- What a client sends starts with one of these letters.
def initials : List Char := ['p', 'c', 'l', 's', 'P', 'C', 'L', 'S']

theorem lower_cases (c : Char) : c.toLower = c ∨ ∃ n < 26, c = Char.ofNat (65 + n) := by
  unfold Char.toLower
  split
  · rename_i upper
    have range : 65 ≤ c.toNat ∧ c.toNat ≤ 90 := upper
    refine Or.inr ⟨c.toNat - 65, by omega, ?_⟩
    have number : 65 + (c.toNat - 65) = c.toNat := by omega
    rw [number, Char.ofNat_toNat]
  · exact Or.inl rfl

theorem lower_initial (c : Char) (valid : c.toLower ∈ ['p', 'c', 'l', 's']) : c ∈ initials := by
  rcases lower_cases c with same | ⟨n, small, rfl⟩
  · rw [same] at valid
    exact List.mem_append_left ['P', 'C', 'L', 'S'] valid
  · revert valid
    revert n
    decide

theorem valid_initial (argument : Text) (valid : isValidCommand argument = true) :
    ∃ c rest, argument = c :: rest ∧ c ∈ initials := by
  cases argument with
  | nil => exact absurd valid (by decide)
  | cons c rest =>
      refine ⟨c, rest, rfl, lower_initial c ?_⟩
      simp only [isValidCommand, List.map_cons, List.contains_iff_mem, List.mem_cons,
        List.not_mem_nil, or_false] at valid ⊢
      rcases valid with word | word | word | word
      · exact Or.inl (List.cons.inj word).1
      · exact Or.inr (Or.inl (List.cons.inj word).1)
      · exact Or.inr (Or.inr (Or.inl (List.cons.inj word).1))
      · exact Or.inr (Or.inr (Or.inr (List.cons.inj word).1))

theorem accepted_initial (command : Text) (valid : accepted command = true) :
    ∃ c rest, command = c :: rest ∧ c ∈ initials := by
  simp only [accepted, Bool.and_eq_true, Option.any_eq_true] at valid
  obtain ⟨_, argument, first, named⟩ := valid
  obtain ⟨c, rest, shape, initial⟩ := valid_initial argument named
  have start := split_first ' ' command argument first
  rcases upTo_split ' ' command with whole | ⟨more, cut⟩
  · exact ⟨c, rest, by rw [← whole, ← start, shape], initial⟩
  · exact ⟨c, rest ++ ' ' :: more, by rw [cut, ← start, shape]; rfl, initial⟩

/-- `tokens[3]` of an `Update` line: the command up to its first colon. -/
def cut (command : Text) : Text := upTo ':' command

theorem accepted_cut (command : Text) (valid : accepted command = true) :
    ∃ c rest, cut command = c :: rest ∧ c ∈ initials := by
  obtain ⟨c, rest, rfl, initial⟩ := accepted_initial command valid
  have letter : c ≠ ':' := by
    rintro rfl
    exact absurd initial (by decide)
  exact ⟨c, upTo ':' rest, by simp [cut, upTo, letter], initial⟩

theorem accepted_pieces (command : Text) (valid : accepted command = true) :
    ∃ rest, pieces ':' command = cut command :: rest := by
  obtain ⟨c, rest, shape, _⟩ := accepted_cut command valid
  exact pieces_head ':' command (by rw [← cut, shape]; simp)

end Commands

section Dispatch

theorem branch_request (rest : List Text) :
    branch (requestWord :: rest) = some .request := by
  simp only [branch, List.getElem?_cons_zero, Option.map_some, if_true]

theorem branch_release (rest : List Text) :
    branch (releaseWord :: rest) = some .release := by
  have notRequest : releaseWord ≠ requestWord := by decide
  simp only [branch, List.getElem?_cons_zero, Option.map_some, notRequest, if_true, if_false]

theorem branch_update (rest : List Text) :
    branch (updateWord :: rest) = some .update := by
  have notRequest : updateWord ≠ requestWord := by decide
  have notRelease : updateWord ≠ releaseWord := by decide
  simp only [branch, List.getElem?_cons_zero, Option.map_some, notRequest, notRelease, if_true,
    if_false]

theorem branch_client (c : Char) (tail : Text) (rest : List Text) (other : c ≠ 'R' ∧ c ≠ 'U') :
    branch ((c :: tail) :: rest) = some .client := by
  have notRequest : c :: tail ≠ requestWord := fun same => other.1 (List.cons.inj same).1
  have notRelease : c :: tail ≠ releaseWord := fun same => other.1 (List.cons.inj same).1
  have notUpdate : c :: tail ≠ updateWord := fun same => other.2 (List.cons.inj same).1
  simp only [branch, List.getElem?_cons_zero, Option.map_some, notRequest, notRelease, notUpdate,
    if_false]

theorem command_branch (command : Text) (valid : accepted command = true) :
    branch (split ':' command) = some .client := by
  obtain ⟨rest, shape⟩ := accepted_pieces command valid
  obtain ⟨c, tail, start, initial⟩ := accepted_cut command valid
  have shown : command ≠ [] := by
    rintro rfl
    exact absurd valid (by decide)
  have other : c ≠ 'R' ∧ c ≠ 'U' := by
    constructor
    · rintro rfl
      exact absurd initial (by decide)
    · rintro rfl
      exact absurd initial (by decide)
  rw [split_pieces ':' command shown, shape, start]
  exact branch_client c tail rest other

end Dispatch

end EE360P.ProtocolLines
