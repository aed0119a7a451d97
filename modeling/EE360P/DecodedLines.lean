import EE360P.ClusterSteps

/-! What comes out of a line at the other end. The sender joins fields by colons
and the handler splits at every colon, so a field with a colon in it comes out
in pieces; only the command of an `Update` line can have one. -/

namespace EE360P.DecodedLines
open JavaText ReplicatedServer ServerCluster ProtocolLines ClusterSteps

section Decoding
variable (counting : Counting)

/-- The branch that `serviceServerTask` takes, with the values it reads there:
`none` is an exception. A client's line is kept as it is, and nobody reads the
server ID of an `Update` line. -/
inductive Decoded where
  | client (command : Text)
  | request (logicalClock serverID : Option Int)
  | release (logicalClock serverID : Option Int)
  | update (logicalClock : Option Int) (command : Option Text)
  deriving DecidableEq, Repr

def decode (line : Text) : Option Decoded :=
  let tokens := split ':' line
  (branch tokens).map fun taken =>
    match taken with
    | .request => .request (parsedToken counting tokens 1) (parsedToken counting tokens 2)
    | .release => .release (parsedToken counting tokens 1) (parsedToken counting tokens 2)
    | .update => .update (parsedToken counting tokens 1) tokens[3]?
    | .client => .client line

def Decoded.branch : Decoded → Branch
  | .client _ => .client
  | .request _ _ => .request
  | .release _ _ => .release
  | .update _ _ => .update

theorem decode_branch (line : Text) :
    (decode counting line).map Decoded.branch = branch (split ':' line) := by
  unfold decode
  cases taken : branch (split ':' line) with
  | none => simp only [taken, Option.map_none]
  | some way => cases way <;> simp only [taken, Option.map_some, Decoded.branch]

theorem decoded_alike (left right : Text) (same : decode counting left = decode counting right) :
    branch (split ':' left) = branch (split ':' right) := by
  rw [← decode_branch counting left, ← decode_branch counting right, same]

/-- What the sender put into the line. -/
def encoded : Line → Decoded
  | .command text => .client text
  | .request logicalClock serverID => .request (some logicalClock) (some serverID)
  | .release logicalClock serverID => .release (some logicalClock) (some serverID)
  | .update logicalClock _ client => .update (some logicalClock) (some client.clientCommand)

end Decoding

/-! The handler sees no more of a line than this. -/
section Handlers
variable (config : Config) (me : Int) (server : Server)

theorem read_decoded (left right : Text) (socket : Nat)
    (same : decode config.counting left = decode config.counting right) :
    readLine config me server left socket = readLine config me server right socket := by
  have alike := decoded_alike config.counting left right same
  simp only [decode, alike] at same
  simp only [readLine, alike]
  cases taken : branch (split ':' right) with
  | none => rfl
  | some way =>
      cases way with
      | request =>
          simp only [taken, Option.map_some, Option.some.injEq, Decoded.request.injEq] at same
          simp only [same.1]
      | release | update => rfl
      | client =>
          simp only [taken, Option.map_some, Option.some.injEq, Decoded.client.injEq] at same
          simp only [same]

theorem handle_decoded (left right : Line)
    (same : decode config.counting left.text = decode config.counting right.text)
    (noted : left.executedFor me = right.executedFor me) :
    handleLine config me server left = handleLine config me server right := by
  have alike := decoded_alike config.counting left.text right.text same
  simp only [decode, alike] at same
  simp only [handleLine, alike]
  cases taken : branch (split ':' right.text) with
  | none => rfl
  | some way =>
      cases way with
      | request =>
          simp only [taken, Option.map_some, Option.some.injEq, Decoded.request.injEq] at same
          simp only [same.1, same.2]
      | release =>
          simp only [taken, Option.map_some, Option.some.injEq, Decoded.release.injEq] at same
          simp only [same.1, same.2]
      | update =>
          simp only [taken, Option.map_some, Option.some.injEq, Decoded.update.injEq] at same
          simp only [same.1, executeUpdate, same.2, noted]
      | client => rfl

end Handlers

section RoundTrip
variable (counting : Counting)

/-- The text of an `Update` line's command goes in one piece. -/
def Whole : Line → Prop
  | .update _ _ client => ':' ∉ client.clientCommand
  | _ => True

theorem cut_whole (command : Text) : cut command = command ↔ ':' ∉ command := by
  constructor
  · intro same colon
    exact upTo_absent ':' command (by rwa [← cut, same])
  · exact upTo_whole ':' command

theorem update_decoded (logicalClock serverID : Int) (client : ClientInformation)
    (readable : Readable counting (.update logicalClock serverID client)) :
    decode counting (Line.update logicalClock serverID client).text =
      some (.update (some logicalClock) (some (cut client.clientCommand))) := by
  obtain ⟨clock, _, valid⟩ := readable
  obtain ⟨rest, shape⟩ := accepted_pieces client.clientCommand valid
  have read := token_parsed counting (updateWord :: intText logicalClock :: intText serverID ::
    pieces ':' client.clientCommand) 1 logicalClock clock rfl
  simp only [decode, update_tokens, branch_update, read, Option.map_some]
  rw [shape]
  rfl

-- Every field but the command is free of colons and not empty, so only the
-- command can lose something in the split.
theorem decoded_whole (line : Line) (readable : Readable counting line) :
    decode counting line.text = some (encoded line) ↔ Whole line := by
  cases line with
  | command text =>
      constructor
      · exact fun _ => trivial
      · intro _
        simp only [decode, Line.text, command_branch text readable]
        rfl
  | request logicalClock serverID =>
      obtain ⟨clock, sender⟩ := readable
      constructor
      · exact fun _ => trivial
      · intro _
        simp only [decode, request_tokens, branch_request, Option.map_some,
          token_parsed counting [requestWord, intText logicalClock, intText serverID] 1 logicalClock clock rfl,
          token_parsed counting [requestWord, intText logicalClock, intText serverID] 2 serverID sender rfl]
        rfl
  | release logicalClock serverID =>
      obtain ⟨clock, sender⟩ := readable
      constructor
      · exact fun _ => trivial
      · intro _
        simp only [decode, release_tokens, branch_release, Option.map_some,
          token_parsed counting [releaseWord, intText logicalClock, intText serverID] 1 logicalClock clock rfl,
          token_parsed counting [releaseWord, intText logicalClock, intText serverID] 2 serverID sender rfl]
        rfl
  | update logicalClock serverID client =>
      rw [update_decoded counting logicalClock serverID client readable]
      simp only [encoded, Option.some.injEq, Decoded.update.injEq, true_and]
      exact cut_whole client.clientCommand

theorem decoded_whole_purchase :
    decode .int32 (Line.update 3 1 ⟨"purchase ann phone 1".toList, 0, ⟨2, 1⟩⟩).text =
      some (encoded (.update 3 1 ⟨"purchase ann phone 1".toList, 0, ⟨2, 1⟩⟩)) :=
  (decoded_whole .int32 (.update 3 1 ⟨"purchase ann phone 1".toList, 0, ⟨2, 1⟩⟩)
    ⟨by decide, by decide, by decide⟩).mpr (show ':' ∉ _ by decide)

-- The user's name has a colon: the peer executes `purchase a`.
theorem not_decoded_colon :
    ¬ ∀ counting line, Readable counting line → decode counting line.text = some (encoded line) := by
  intro decodes
  have same := decodes .int32 (.update 3 1 ⟨"purchase a:b phone 1".toList, 0, ⟨2, 1⟩⟩)
    ⟨by decide, by decide, by decide⟩
  exact absurd same (by decide)

end RoundTrip

end EE360P.DecodedLines
