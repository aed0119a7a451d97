import EE360P.ServerLoops
import EE360P.BufferedTexts

/-! project3 `Client.sendUDP` and `Client.sendTCP` against the two loops of the
server. Both carry the command and the reply in the default charset. A line of
TCP ends at a line break and has any length; a datagram may have line breaks in
it, and both receivers take its first 1024 bytes. -/

namespace EE360P.TransportAnswers
open JavaText OnlineStore ServerLoops BufferedTexts

section Calls
variable (platform : Platform) (counting : Counting)

/-- What is read from a stream on which the text was printed. -/
def printed (text : Text) : Text := platform.decode (platform.getBytes text)

/-- What is read from a received datagram that was sent with the text in it. -/
def clipped (text : Text) : Text := platform.decode (received (platform.getBytes text))

/-- `sendTCP`; without a reply the call goes on waiting for it. -/
def sendTCP (command : Text) (server : Server) : Server × Option Text :=
  let turned := turn platform counting (.connection (printed platform command)) server
  (turned.1, turned.2.head?.map fun reply => nextLine (printed platform reply))

/-- `sendUDP`; a datagram that the network does not take is an `IOException`. -/
def sendUDP (command : Text) (server : Server) : Server × Option Text :=
  let sendingBuffer := platform.getBytes command
  if sendingBuffer.length ≤ platform.longestDatagram then
    let turned := turn platform counting (.datagram sendingBuffer) server
    (turned.1, turned.2.head?.map (clipped platform))
  else (server, none)

/-- A server with both loops running. -/
def running (store : Store) : Server := ⟨store, fun _ => true⟩

/-- The same store after the call, and the same reply at the client. -/
def Agree (store : Store) (command : Text) : Prop :=
  let udp := sendUDP platform counting command (running store)
  let tcp := sendTCP platform counting command (running store)
  udp.1.store = tcp.1.store ∧ udp.2 = tcp.2

end Calls

section Tokens

/-- How many of the arguments `execute` reads. -/
def argumentsRead (arguments : List Text) : Nat :=
  if arguments[0]? = some "purchase".toList then 4
  else if arguments[0]? = some "cancel".toList ∨ arguments[0]? = some "search".toList then 2
  else 1

/-- The arguments of the command that `execute` reads. -/
def readArguments (command : Text) : List Text :=
  let arguments := split ' ' command
  arguments.take (argumentsRead arguments)

theorem argumentsRead_some (arguments : List Text) : 0 < argumentsRead arguments := by
  unfold argumentsRead
  split
  · decide
  · split <;> decide

section Same
variable (counting : Counting) {one other : Text} (same : readArguments one = readArguments other)
include same

theorem read_first : (split ' ' one)[0]? = (split ' ' other)[0]? := by
  have first := congrArg (fun arguments : List Text => arguments[0]?) same
  simpa only [readArguments, List.getElem?_take_of_lt (argumentsRead_some _)] using first

theorem read_argument (position : Nat) (inside : position < argumentsRead (split ' ' one)) :
    (split ' ' one)[position]? = (split ' ' other)[position]? := by
  have counts : argumentsRead (split ' ' other) = argumentsRead (split ' ' one) := by
    simp only [argumentsRead, read_first same]
  have arguments := congrArg (fun arguments : List Text => arguments[position]?) same
  simpa only [readArguments, counts, List.getElem?_take_of_lt inside] using arguments

/-- Nothing else of the command matters. -/
theorem execute_read (store after : Store) (reply : Text)
    (served : execute3 counting one store = .ok (reply, after)) :
    execute3 counting other store = .ok (reply, after) := by
  have first := read_first same
  have second := read_argument same
  unfold argumentsRead at second
  cases execute_cases counting _ one reply store after served with
  | purchased userName productName quantity line =>
      rw [if_pos line.operation] at second
      exact execute_purchase counting _ other userName productName quantity store
        ⟨first ▸ line.operation, second 1 (by decide) ▸ line.userName,
          second 2 (by decide) ▸ line.productName, second 3 (by decide) ▸ line.quantity⟩
  | cancelled orderID line _ _ cancelled =>
      rw [if_neg (by rw [line.operation]; decide), if_pos (Or.inl line.operation)] at second
      rw [execute3, execute_cancel counting _ other orderID store
        ⟨first ▸ line.operation, second 1 (by decide) ▸ line.orderID⟩, cancelled]
  | searched userName line =>
      rw [if_neg (by rw [line.operation]; decide), if_pos (Or.inr line.operation)] at second
      exact execute_search counting _ other userName store
        ⟨first ▸ line.operation, second 1 (by decide) ▸ line.userName⟩
  | listed operation => exact execute_list counting _ other store (first ▸ operation)
  | unknown operation named apart =>
      exact execute_unknown counting _ other operation store (first ▸ named) apart

end Same

end Tokens

section Lines

/-- The rest begins with a line break, if there is one. -/
theorem line_rest (text : Text) : ∃ rest, text = nextLine text ++ rest ∧
    (∀ c ∈ nextLine text, ServerCluster.lineBreak c = false) ∧
    ∀ c ∈ rest.head?, ServerCluster.lineBreak c = true := by
  induction text with
  | nil => exact ⟨[], rfl, by simp [nextLine], by simp⟩
  | cons c text ih =>
      obtain ⟨rest, split_, plain, break_⟩ := ih
      by_cases broken : ServerCluster.lineBreak c = true
      · refine ⟨c :: text, ?_, ?_, ?_⟩
        · simp [nextLine, List.splitOnP_cons_eq_if_modifyHead, broken]
        · simp [nextLine, List.splitOnP_cons_eq_if_modifyHead, broken]
        · simpa using broken
      · have line : nextLine (c :: text) = c :: nextLine text := by
          rw [nextLine, nextLine, List.splitOnP_cons_eq_if_modifyHead, if_neg broken]
          cases pieces : text.splitOnP ServerCluster.lineBreak with
          | nil => exact absurd pieces (List.splitOnP_ne_nil _ _)
          | cons first others => rfl
        refine ⟨rest, ?_, ?_, break_⟩
        · rw [line, List.cons_append, ← split_]
        · rw [line, List.forall_mem_cons]
          exact ⟨Bool.eq_false_iff.mpr broken, plain⟩

theorem line_single (text : Text) : nextLine text = text ↔ ServerCluster.singleLine text = true := by
  constructor
  · intro whole
    obtain ⟨_, _, plain, _⟩ := line_rest text
    rw [whole] at plain
    simpa [ServerCluster.singleLine] using plain
  · intro single
    have plain : ∀ c ∈ text, ServerCluster.lineBreak c = false := by
      simpa [ServerCluster.singleLine] using single
    rw [nextLine, List.splitOnP_eq_singleton plain]
    rfl

end Lines

section Agreement
variable (platform : Platform) (counting : Counting)

/-- A datagram takes the command, and its first 1024 bytes hold all that `execute` reads. -/
structure Heard (command : Text) : Prop where
  sent : (platform.getBytes command).length ≤ platform.longestDatagram
  read : readArguments (clipped platform command) = readArguments (printed platform command)

/-- The first line of the reply is what the buffer takes: the reply is one line of at most
1024 bytes, or the line ends with the buffer, or it ends in a U+FFFD where the buffer ends. -/
inductive OneBuffer (reply : Text) : Prop where
  | line (single : ServerCluster.singleLine reply = true) (short : (platform.getBytes reply).length ≤ 1024)
  | filled (full : (platform.getBytes (nextLine reply)).length = 1024)
      (sent : (platform.getBytes reply).length ≤ platform.longestDatagram)
  | broken (front : Text) (ending : nextLine reply = front ++ [replacement])
      (before : (platform.getBytes front).length < 1024)
      (beyond : 1024 < (platform.getBytes (front ++ [replacement])).length)
      (sent : (platform.getBytes reply).length ≤ platform.longestDatagram)

theorem leaves_line (roomy : 1024 ≤ platform.longestDatagram) (reply : Text) :
    (platform.getBytes reply).length ≤ platform.longestDatagram ∧
      Leaves platform.getBytes 1024 reply (nextLine reply) ↔ OneBuffer platform reply := by
  obtain ⟨rest, whole, plain, break_⟩ := line_rest reply
  constructor
  · rintro ⟨sent, leaves⟩
    generalize taken : nextLine reply = left at leaves
    cases leaves with
    | whole _ short => exact .line ((line_single reply).mp taken) short
    | filled _ rest full => exact .filled (by rw [taken]; exact full) sent
    | broken front c rest before beyond =>
        rw [taken, List.append_assoc, List.append_cancel_left_eq] at whole
        obtain ⟨rfl, _⟩ := List.cons.inj whole
        exact .broken front taken before beyond sent
  · intro fits
    cases fits with
    | line single short =>
        rw [(line_single reply).mpr single]
        exact ⟨Nat.le_trans short roomy, .whole reply short⟩
    | filled full sent =>
        refine ⟨sent, ?_⟩
        generalize nextLine reply = left at whole full
        subst whole
        exact .filled left rest full
    | broken front ending before beyond sent =>
        refine ⟨sent, ?_⟩
        rw [ending, List.append_assoc] at whole
        rw [ending, whole]
        exact .broken front replacement rest before beyond

variable {recode : Char → Char} (charset : Charset platform.decode platform.getBytes recode)
variable (roomy : 1024 ≤ platform.longestDatagram)

omit counting in
theorem heard_short (roomy : 1024 ≤ platform.longestDatagram) (command : Text)
    (short : (platform.getBytes command).length ≤ 1024) : Heard platform command := by
  refine ⟨Nat.le_trans short roomy, ?_⟩
  rw [clipped, received, List.take_of_length_le short, printed]

variable {store after : Store} {command reply : Text}

section Carried
include charset

omit counting in
theorem printed_bytes (text : Text) :
    platform.getBytes (printed platform text) = platform.getBytes text := by
  rw [printed, charset.decoded, charset.recoded]

omit counting in
/-- A character that the charset does not have is no line break either. -/
theorem printed_single (single : ServerCluster.singleLine command = true) :
    ServerCluster.singleLine (printed platform command) = true := by
  rw [printed, charset.decoded]
  simp only [ServerCluster.singleLine, List.all_map, List.all_eq_true, Function.comp_apply] at single ⊢
  intro c member
  rcases charset.lost c with kept | lost
  · rw [kept]
    exact single c member
  · rw [lost]
    decide

omit counting in
/-- What the buffer of a datagram leaves of a text. -/
theorem clipped_leaves (text left : Text) : clipped platform text = left ↔
    Leaves platform.getBytes 1024 (printed platform text) left := by
  have again : (printed platform text).map recode = printed platform text := by
    rw [printed, charset.decoded]
    exact carried_again charset text
  rw [← read_leaves 1024 charset _ left again, printed_bytes platform charset]
  rfl

theorem tcp_answers (single : ServerCluster.singleLine command = true)
    (served : execute3 counting (printed platform command) store = .ok (reply, after)) :
    sendTCP platform counting command (running store) =
      (running after, some (nextLine (printed platform reply))) := by
  have line := (line_single _).mpr (printed_single platform charset single)
  simp only [sendTCP, turn, running, ↓reduceIte, turnTCP, line, call, served, List.head?_cons,
    Option.map_some]

omit charset in
theorem udp_answers (heard : Heard platform command)
    (served : execute3 counting (printed platform command) store = .ok (reply, after)) :
    (sendUDP platform counting command (running store)).1.store = after ∧
      (sendUDP platform counting command (running store)).2 =
        if (platform.getBytes reply).length ≤ platform.longestDatagram then some (clipped platform reply)
        else none := by
  have asked := execute_read counting heard.read.symm store after reply served
  rw [clipped] at asked
  simp only [sendUDP, heard.sent, ↓reduceIte, turn, running, turnUDP, call, asked]
  split
  · exact ⟨rfl, rfl⟩
  · exact ⟨rfl, rfl⟩

include roomy in
/-- A command that is heard is answered alike exactly when its reply is taken. -/
theorem heard_agree (single : ServerCluster.singleLine command = true)
    (served : execute3 counting (printed platform command) store = .ok (reply, after))
    (heard : Heard platform command) :
    Agree platform counting store command ↔ OneBuffer platform (printed platform reply) := by
  obtain ⟨kept, answer⟩ := udp_answers platform counting heard served
  unfold Agree
  dsimp only
  rw [tcp_answers platform counting charset single served, answer, kept,
    ← leaves_line platform roomy, ← clipped_leaves platform charset, printed_bytes platform charset]
  split
  · rename_i sent
    simp [running, sent]
  · rename_i long
    simp [long]

/-- The client gets an answer by UDP only if a datagram takes the command and what the
buffer leaves of it does not throw. -/
theorem agree_formed (single : ServerCluster.singleLine command = true)
    (served : execute3 counting (printed platform command) store = .ok (reply, after))
    (agree : Agree platform counting store command) :
    (platform.getBytes command).length ≤ platform.longestDatagram ∧
      WellFormed counting (clipped platform command) := by
  have answered := agree.2
  rw [tcp_answers platform counting charset single served] at answered
  by_cases sent : (platform.getBytes command).length ≤ platform.longestDatagram
  · refine ⟨sent, ?_⟩
    by_contra unformed
    obtain ⟨thrown, failed⟩ := call_thrown counting _ (running store) unformed
    rw [clipped, running] at failed
    simp [sendUDP, sent, turn, running, turnUDP, failed] at answered
  · simp [sendUDP, sent] at answered

end Carried

include charset roomy in
/-- For a command of one line that does not throw: one of at most 1024 bytes is heard, and
the two transports agree on one that is heard exactly when the reply is one line of at most
1024 bytes (or its first line is just what the buffer leaves of it). They agree on no other
command unless what the buffer leaves of it is well formed, too. -/
theorem transports_agree (single : ServerCluster.singleLine command = true)
    (served : execute3 counting (printed platform command) store = .ok (reply, after)) :
    ((platform.getBytes command).length ≤ 1024 → Heard platform command) ∧
      (Heard platform command →
        (Agree platform counting store command ↔ OneBuffer platform (printed platform reply))) ∧
      (Agree platform counting store command →
        (platform.getBytes command).length ≤ platform.longestDatagram ∧
          WellFormed counting (clipped platform command)) :=
  ⟨heard_short platform roomy command, heard_agree platform counting charset roomy single served,
    agree_formed platform counting charset single served⟩

end Agreement

section Examples

/-- The payload limit is the one of UDP over IPv4. -/
def utf8 : Platform := ⟨decode, getBytes, 65507⟩

def latin1 : Platform := ⟨latin1Decode, latin1Bytes, 65507⟩

def phones : Store := initial [⟨"phone".toList, 3⟩]

theorem printed_utf8 (text : Text) : printed utf8 text = text :=
  (utf8_charset.decoded text).trans (List.map_id text)

theorem transports_agree_list :
    Agree utf8 .int32 phones "list".toList ∧ Agree latin1 .int32 phones "list".toList := by
  have listed : execute3 .int32 (printed utf8 "list".toList) phones = .ok ("phone 3$".toList, phones) := by
    rw [printed_utf8]
    rfl
  have unicode := transports_agree utf8 .int32 utf8_charset (by decide) (by decide) listed
  have bytes := transports_agree latin1 .int32 latin1_charset (by decide)
    (show ServerCluster.singleLine "list".toList = true by decide)
    (show execute3 .int32 (printed latin1 "list".toList) phones = .ok ("phone 3$".toList, phones) from rfl)
  rw [printed_utf8] at unicode
  exact ⟨(unicode.2.1 (unicode.1 (by decide))).mpr (.line (by decide) (by decide)),
    (bytes.2.1 (bytes.1 (by decide))).mpr (.line (by decide) (by decide))⟩

/-- An inventory whose list takes 1200 bytes. -/
def longInventory : Store := initial (List.replicate 300 ⟨"a".toList, 1⟩)

def longList : Text := list longInventory

-- UDP delivers the first 1024 bytes of the list.
theorem transports_disagree :
    ¬ ∀ (platform : Platform) (recode : Char → Char),
      Charset platform.decode platform.getBytes recode → 1024 ≤ platform.longestDatagram →
      ∀ store command reply after, ServerCluster.singleLine command = true →
        execute3 .int32 (printed platform command) store = .ok (reply, after) →
          Agree platform .int32 store command := by
  intro agree
  have single : ServerCluster.singleLine "list".toList = true := by decide
  have served : execute3 .int32 (printed utf8 "list".toList) longInventory =
      .ok (longList, longInventory) := by
    rw [printed_utf8]
    rfl
  have fits := (heard_agree utf8 .int32 utf8_charset (by decide) single served
    (heard_short utf8 (by decide) _ (by decide))).mp
      (agree utf8 id utf8_charset (by decide) longInventory _ _ _ single served)
  rw [printed_utf8] at fits
  have whole : nextLine longList = longList := (line_single longList).mpr (by decide +kernel)
  have long : 1024 < (getBytes longList).length :=
    Nat.lt_of_lt_of_le (by decide +kernel) (bytes_length longList)
  cases fits with
  | line _ short => exact absurd long (Nat.not_lt.mpr short)
  | filled full _ =>
      rw [whole] at full
      exact absurd long (Nat.not_lt.mpr (Nat.le_of_eq full))
  | broken front ending _ _ _ =>
      rw [whole] at ending
      have last : longList.getLast? = some '$' := by decide +kernel
      rw [ending, List.getLast?_concat] at last
      exact absurd last (by decide)

end Examples

end EE360P.TransportAnswers
