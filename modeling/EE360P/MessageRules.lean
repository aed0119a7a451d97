import EE360P.PointToPoint

/-! Rules for groups of processes that pass messages among themselves. A group leads
from some programs to others when sure steps of its members take it there and leave no
message under way, whatever the processes outside the group are. -/

namespace EE360P.MessageRules
open ConfluentRuns PointToPoint

variable {Tag Message Result : Type} [DecidableEq Tag]

abbrev Programs (Tag Message Result : Type) := Nat → Process Tag Message Result

def Leads (members : List Nat) (before after : Programs Tag Message Result) : Prop :=
  ∀ system : System Tag Message Result, system.channel = quiet →
    (∀ i ∈ members, system.process i = before i) → ∃ length final,
      Ran sure length system final ∧ final.channel = quiet ∧
      (∀ i ∈ members, final.process i = after i) ∧
      ∀ i ∉ members, final.process i = system.process i

section Groups
variable {members others : List Nat} {before middle after : Programs Tag Message Result}

theorem leads_same (same : ∀ i ∈ members, before i = after i) : Leads members before after := by
  intro system idle started
  exact ⟨0, system, .done, idle, fun i member => (started i member).trans (same i member),
    fun i _ => rfl⟩

theorem leads_trans (first : Leads members before middle) (second : Leads members middle after) :
    Leads members before after := by
  intro system idle started
  obtain ⟨early, between, ran, kept, reached, rest⟩ := first system idle started
  obtain ⟨late, final, more, still, ended, beyond⟩ := second between kept reached
  exact ⟨early + late, final, ran_append ran more, still, ended,
    fun i outside => (beyond i outside).trans (rest i outside)⟩

/-- Members that do nothing may be added. -/
theorem leads_wider (inside : ∀ i ∈ members, i ∈ others)
    (same : ∀ i ∈ others, i ∉ members → before i = after i) (leads : Leads members before after) :
    Leads others before after := by
  intro system idle started
  obtain ⟨length, final, ran, kept, reached, rest⟩ :=
    leads system idle fun i member => started i (inside i member)
  refine ⟨length, final, ran, kept, fun i member => ?_, fun i outside => ?_⟩
  · by_cases own : i ∈ members
    · exact reached i own
    · rw [rest i own, started i member, same i member own]
  · exact rest i fun own => outside (inside i own)

theorem leads_members (same : ∀ i, i ∈ members ↔ i ∈ others) (leads : Leads members before after) :
    Leads others before after :=
  leads_wider (fun i => (same i).mp) (fun i member own => absurd ((same i).mpr member) own) leads

theorem leads_congr {start stop : Programs Tag Message Result} (early : ∀ i ∈ members, start i = before i)
    (late : ∀ i ∈ members, after i = stop i) (leads : Leads members before after) :
    Leads members start stop :=
  leads_trans (leads_same early) (leads_trans leads (leads_same late))

/-- Groups without a common member do not disturb each other. -/
theorem leads_both (apart : members.Disjoint others) (first : Leads members before after)
    (second : Leads others before after) : Leads (members ++ others) before after := by
  intro system idle started
  obtain ⟨early, between, ran, kept, reached, rest⟩ :=
    first system idle fun i member => started i (List.mem_append_left others member)
  have waiting : ∀ i ∈ others, between.process i = before i := by
    intro i member
    rw [rest i fun own => apart own member]
    exact started i (List.mem_append_right members member)
  obtain ⟨late, final, more, still, ended, beyond⟩ := second between kept waiting
  refine ⟨early + late, final, ran_append ran more, still, fun i member => ?_, fun i outside => ?_⟩
  · rcases List.mem_append.mp member with own | other
    · rw [beyond i fun there => apart own there]
      exact reached i own
    · exact ended i other
  · rw [List.mem_append, not_or] at outside
    rw [beyond i outside.2, rest i outside.1]

theorem leads_groups (groups : List (List Nat)) (apart : groups.Pairwise List.Disjoint)
    (each : ∀ group ∈ groups, Leads group before after) : Leads groups.flatten before after := by
  induction groups with
  | nil => exact leads_same fun i member => absurd member List.not_mem_nil
  | cons group rest ih =>
      rw [List.pairwise_cons] at apart
      rw [List.flatten_cons]
      refine leads_both ?_ (each group List.mem_cons_self)
        (ih apart.2 fun other among => each other (List.mem_cons_of_mem group among))
      intro i own there
      obtain ⟨other, among, member⟩ := List.mem_flatten.mp there
      exact apart.1 other among own member

end Groups

section Moves
variable (members : List Nat) (link : Nat → Link Tag)

/-- The processes are different, and so are the channels of their next steps. -/
structure Parallel : Prop where
  distinct : members.Nodup
  apart : ∀ i ∈ members, ∀ j ∈ members, link i = link j → i = j

omit [DecidableEq Tag] in
theorem parallel_tail (first : Nat) (parallel : Parallel (first :: members) link) :
    Parallel members link where
  distinct := (List.nodup_cons.mp parallel.distinct).2
  apart i here j there := parallel.apart i (List.mem_cons_of_mem first here) j
    (List.mem_cons_of_mem first there)

/-- What a round of steps has done: one for each member, at the channel of its own. -/
structure Moved (next : Programs Tag Message Result) (content : Nat → Channel Message)
    (before after : System Tag Message Result) : Prop where
  ran : Ran sure members.length before after
  process : ∀ i ∈ members, after.process i = next i
  channel : ∀ i ∈ members, after.channel (link i) = content i
  others : ∀ i ∉ members, after.process i = before.process i
  elsewhere : ∀ place, (∀ i ∈ members, link i ≠ place) → after.channel place = before.channel place

/-- Each member takes one step. -/
theorem each_moves (parallel : Parallel members link) (next : Programs Tag Message Result)
    (content : Nat → Channel Message) (before : System Tag Message Result)
    (linked : ∀ i ∈ members, (before.process i).link i = some (link i))
    (moves : ∀ i ∈ members, (before.process i).move false (before.channel (link i)) =
      some (next i, content i)) : ∃ after, Moved members link next content before after := by
  induction members generalizing before with
  | nil =>
      exact ⟨before, .done, fun i member => absurd member List.not_mem_nil,
        fun i member => absurd member List.not_mem_nil, fun _ _ => rfl, fun _ _ => rfl⟩
  | cons first rest ih =>
      have fresh := (List.nodup_cons.mp parallel.distinct).1
      have foreign : ∀ i ∈ rest, i ≠ first := fun i member same => fresh (same ▸ member)
      have away : ∀ i ∈ rest, link i ≠ link first := fun i member same =>
        foreign i member (parallel.apart i (List.mem_cons_of_mem first member) first
          List.mem_cons_self same)
      have stepped := step_moved false before first (link first) (next first) (content first)
        (linked first List.mem_cons_self) (moves first List.mem_cons_self)
      obtain ⟨after, moved⟩ := ih (parallel_tail rest link first parallel)
        ⟨Function.update before.process first (next first),
          Function.update before.channel (link first) (content first)⟩
        (by
          intro i member
          simpa only [Function.update_of_ne (foreign i member)] using
            linked i (List.mem_cons_of_mem first member))
        (by
          intro i member
          simpa only [Function.update_of_ne (foreign i member), Function.update_of_ne (away i member)]
            using moves i (List.mem_cons_of_mem first member))
      refine ⟨after, .next first stepped moved.ran, fun i member => ?_, fun i member => ?_,
        fun i outside => ?_, fun place free => ?_⟩
      · rcases List.mem_cons.mp member with rfl | later
        · rw [moved.others _ fresh]
          exact Function.update_self ..
        · exact moved.process i later
      · rcases List.mem_cons.mp member with rfl | later
        · rw [moved.elsewhere _ away]
          exact Function.update_self ..
        · exact moved.channel i later
      · rw [List.mem_cons, not_or] at outside
        rw [moved.others i outside.2]
        exact Function.update_of_ne outside.1 _ _
      · rw [moved.elsewhere place fun i member => free i (List.mem_cons_of_mem first member)]
        exact Function.update_of_ne (free first List.mem_cons_self).symm _ _

end Moves

section Operations

def send (dest : Nat) (tag : Tag) (message : Message) (next : Process Tag Message Result) : Process Tag Message Result :=
  .isend dest tag message (.waitSend dest tag false next)

def recv (source : Nat) (tag : Tag) (next : Message → Process Tag Message Result) : Process Tag Message Result :=
  .irecv source tag (.waitRecv source tag next)

def sendrecv (dest : Nat) (tag : Tag) (message : Message) (source : Nat)
    (next : Message → Process Tag Message Result) : Process Tag Message Result :=
  .irecv source tag (.isend dest tag message (.waitSend dest tag false (.waitRecv source tag next)))

/-- What is left after a step that receives nothing. -/
def rest : Process Tag Message Result → Process Tag Message Result
  | .irecv _ _ next => next
  | .isend _ _ _ next => next
  | .waitSend _ _ _ next => next
  | process => process

end Operations

/-! A message passes in four steps: the receive is posted, the send is posted, and both
are waited for. In a round every sender passes one message to a receiver of its own;
a process may be both. -/
section Rounds

/-- Who sends to whom, among the members of a group. -/
structure Paired (members senders receivers : List Nat) (dest source : Nat → Nat) : Prop where
  senders_distinct : senders.Nodup
  receivers_distinct : receivers.Nodup
  senders_inside : ∀ i ∈ senders, i ∈ members
  receivers_inside : ∀ i ∈ receivers, i ∈ members
  outward : ∀ i ∈ senders, dest i ∈ receivers ∧ source (dest i) = i
  inward : ∀ i ∈ receivers, source i ∈ senders ∧ dest (source i) = i

theorem paired_single {members : List Nat} {sender receiver : Nat} (here : sender ∈ members)
    (there : receiver ∈ members) :
    Paired members [sender] [receiver] (fun _ => receiver) fun _ => sender where
  senders_distinct := List.nodup_singleton _
  receivers_distinct := List.nodup_singleton _
  senders_inside _ member := List.mem_singleton.mp member ▸ here
  receivers_inside _ member := List.mem_singleton.mp member ▸ there
  outward _ member := ⟨List.mem_cons_self, (List.mem_singleton.mp member).symm⟩
  inward _ member := ⟨List.mem_cons_self, (List.mem_singleton.mp member).symm⟩

/-- Some of the pairs. -/
theorem paired_filter {members senders receivers : List Nat} {dest source : Nat → Nat}
    (paired : Paired members senders receivers dest source) (kept : Nat → Bool) :
    Paired members (senders.filter fun i => kept (dest i)) (receivers.filter kept) dest source where
  senders_distinct := paired.senders_distinct.filter _
  receivers_distinct := paired.receivers_distinct.filter _
  senders_inside i member := paired.senders_inside i (List.mem_of_mem_filter member)
  receivers_inside i member := paired.receivers_inside i (List.mem_of_mem_filter member)
  outward i member := by
    obtain ⟨sends, wanted⟩ := List.mem_filter.mp member
    obtain ⟨there, back⟩ := paired.outward i sends
    exact ⟨List.mem_filter.mpr ⟨there, wanted⟩, back⟩
  inward i member := by
    obtain ⟨receives, wanted⟩ := List.mem_filter.mp member
    obtain ⟨there, back⟩ := paired.inward i receives
    exact ⟨List.mem_filter.mpr ⟨there, by rwa [back]⟩, back⟩

/-- The programs between the four steps. -/
structure Round (tag : Tag) (members senders receivers : List Nat) (dest source : Nat → Nat)
    (message : Nat → Message) (before posted sent waited after : Programs Tag Message Result) : Prop
    extends Paired members senders receivers dest source where
  posts : ∀ i ∈ receivers, before i = .irecv (source i) tag (posted i)
  sends : ∀ i ∈ senders, posted i = .isend (dest i) tag (message i) (sent i)
  waits : ∀ i ∈ senders, sent i = .waitSend (dest i) tag false (waited i)
  takes : ∀ i ∈ receivers, ∃ next, waited i = .waitRecv (source i) tag next ∧
    after i = next (message (source i))
  not_receivers : ∀ i ∈ members, i ∉ receivers → posted i = before i ∧ after i = waited i
  not_senders : ∀ i ∈ members, i ∉ senders → sent i = posted i ∧ waited i = sent i

theorem round_leads {tag : Tag} {members senders receivers : List Nat} {dest source : Nat → Nat}
    {message : Nat → Message} {before posted sent waited after : Programs Tag Message Result}
    (round : Round tag members senders receivers dest source message before posted sent waited after) :
    Leads members before after := by
  intro system idle started
  have inLinks : Parallel receivers fun i => (source i, i, tag) :=
    ⟨round.receivers_distinct, fun _ _ _ _ same => (Prod.mk.inj (Prod.mk.inj same).2).1⟩
  have outLinks : Parallel senders fun i => (i, dest i, tag) :=
    ⟨round.senders_distinct, fun _ _ _ _ same => (Prod.mk.inj same).1⟩
  have turned : ∀ i ∈ senders, (source (dest i), dest i, tag) = (i, dest i, tag) := fun i member => by
    rw [(round.outward i member).2]
  have returned : ∀ i ∈ receivers, (source i, dest (source i), tag) = (source i, i, tag) := fun i member => by
    rw [(round.inward i member).2]
  -- Every receive is posted.
  obtain ⟨first, posting⟩ := each_moves receivers (fun i => (source i, i, tag)) inLinks posted
    (fun _ => ⟨[], 1⟩) system
    (fun i member => by rw [started i (round.receivers_inside i member), round.posts i member]; rfl)
    (fun i member => by
      rw [started i (round.receivers_inside i member), round.posts i member, idle]; rfl)
  have firstly : ∀ i ∈ members, first.process i = posted i := fun i member => by
    by_cases own : i ∈ receivers
    · exact posting.process i own
    · rw [posting.others i own, started i member, (round.not_receivers i member own).1]
  -- Every send is posted.
  obtain ⟨second, sending⟩ := each_moves senders (fun i => (i, dest i, tag)) outLinks sent
    (fun i => ⟨[message i], 1⟩) first
    (fun i member => by rw [firstly i (round.senders_inside i member), round.sends i member]; rfl)
    (fun i member => by
      have there := posting.channel (dest i) (round.outward i member).1
      rw [turned i member] at there
      rw [firstly i (round.senders_inside i member), round.sends i member, there]; rfl)
  have secondly : ∀ i ∈ members, second.process i = sent i := fun i member => by
    by_cases own : i ∈ senders
    · exact sending.process i own
    · rw [sending.others i own, firstly i member, (round.not_senders i member own).1]
  -- The sends are matched.
  obtain ⟨third, waiting⟩ := each_moves senders (fun i => (i, dest i, tag)) outLinks waited
    (fun i => ⟨[message i], 1⟩) second
    (fun i member => by rw [secondly i (round.senders_inside i member), round.waits i member]; rfl)
    (fun i member => by
      rw [secondly i (round.senders_inside i member), round.waits i member,
        sending.channel i member]; rfl)
  have thirdly : ∀ i ∈ members, third.process i = waited i := fun i member => by
    by_cases own : i ∈ senders
    · exact waiting.process i own
    · rw [waiting.others i own, secondly i member, (round.not_senders i member own).2]
  -- The messages are taken.
  obtain ⟨fourth, taking⟩ := each_moves receivers (fun i => (source i, i, tag)) inLinks after
    (fun _ => ⟨[], 0⟩) third
    (fun i member => by
      obtain ⟨next, shape, _⟩ := round.takes i member
      rw [thirdly i (round.receivers_inside i member), shape]; rfl)
    (fun i member => by
      obtain ⟨next, shape, read⟩ := round.takes i member
      have there := waiting.channel (source i) (round.inward i member).1
      rw [returned i member] at there
      rw [thirdly i (round.receivers_inside i member), shape, there, read]; rfl)
  refine ⟨_, fourth, ran_append posting.ran (ran_append sending.ran
    (ran_append waiting.ran taking.ran)), ?_, fun i member => ?_, fun i outside => ?_⟩
  · funext place
    by_cases used : ∃ i ∈ receivers, (source i, i, tag) = place
    · obtain ⟨i, member, rfl⟩ := used
      exact taking.channel i member
    · have unread : ∀ i ∈ receivers, (source i, i, tag) ≠ place := fun i member same =>
        used ⟨i, member, same⟩
      have unsent : ∀ i ∈ senders, (i, dest i, tag) ≠ place := fun i member same =>
        used ⟨dest i, (round.outward i member).1, (turned i member).trans same⟩
      rw [taking.elsewhere place unread, waiting.elsewhere place unsent,
        sending.elsewhere place unsent, posting.elsewhere place unread, idle]
  · by_cases own : i ∈ receivers
    · exact taking.process i own
    · rw [taking.others i own, thirdly i member, (round.not_receivers i member own).2]
  · have notSender : i ∉ senders := fun own => outside (round.senders_inside i own)
    have notReceiver : i ∉ receivers := fun own => outside (round.receivers_inside i own)
    rw [taking.others i notReceiver, waiting.others i notSender, sending.others i notSender,
      posting.others i notReceiver]

variable {members senders receivers : List Nat} {dest source : Nat → Nat}
variable {before after : Programs Tag Message Result}

/-- One round of blocking operations: some members send, some receive, some do both at
once, and the others wait. -/
theorem messages_lead (tag : Tag) (message : Nat → Message)
    (paired : Paired members senders receivers dest source)
    (sends : ∀ i ∈ senders, i ∉ receivers → before i = send (dest i) tag (message i) (after i))
    (receives : ∀ i ∈ receivers, i ∉ senders → ∃ next, before i = recv (source i) tag next ∧
      after i = next (message (source i)))
    (exchanges : ∀ i ∈ senders, i ∈ receivers → ∃ next,
      before i = sendrecv (dest i) tag (message i) (source i) next ∧ after i = next (message (source i)))
    (others : ∀ i ∈ members, i ∉ senders → i ∉ receivers → after i = before i) :
    Leads members before after := by
  let posted : Programs Tag Message Result := fun i => if i ∈ receivers then rest (before i) else before i
  let sent : Programs Tag Message Result := fun i => if i ∈ senders then rest (posted i) else posted i
  let waited : Programs Tag Message Result := fun i => if i ∈ senders then rest (sent i) else sent i
  have round : Round tag members senders receivers dest source message before posted sent waited after := by
    refine ⟨paired, fun i member => ?_, fun i member => ?_, fun i member => ?_, fun i member => ?_,
      fun i member free => ?_, fun i member free => ?_⟩
    · by_cases both : i ∈ senders
      · obtain ⟨next, shape, _⟩ := exchanges i both member
        simp [posted, member, shape, sendrecv, rest]
      · obtain ⟨next, shape, _⟩ := receives i member both
        simp [posted, member, shape, recv, rest]
    · by_cases both : i ∈ receivers
      · obtain ⟨next, shape, _⟩ := exchanges i member both
        simp [sent, posted, member, both, shape, sendrecv, rest]
      · simp [sent, posted, member, both, sends i member both, send, rest]
    · by_cases both : i ∈ receivers
      · obtain ⟨next, shape, _⟩ := exchanges i member both
        simp [waited, sent, posted, member, both, shape, sendrecv, rest]
      · simp [waited, sent, posted, member, both, sends i member both, send, rest]
    · by_cases both : i ∈ senders
      · obtain ⟨next, shape, read⟩ := exchanges i both member
        exact ⟨next, by simp [waited, sent, posted, member, both, shape, sendrecv, rest], read⟩
      · obtain ⟨next, shape, read⟩ := receives i member both
        exact ⟨next, by simp [waited, sent, posted, member, both, shape, recv, rest], read⟩
    · by_cases other : i ∈ senders
      · have shape := sends i other free
        exact ⟨by simp [posted, free], by simp [waited, sent, posted, other, free, shape, send, rest]⟩
      · exact ⟨by simp [posted, free], by simp [waited, sent, posted, other, free, others i member]⟩
    · exact ⟨by simp [sent, free], by simp [waited, free]⟩
  exact round_leads round

end Rounds

/-! One process passes messages to several others, or takes one from each. It posts all
of them before it waits for the first. -/
section Fans

def isends (dests : List Nat) (tag : Tag) (message : Nat → Message)
    (next : Process Tag Message Result) : Process Tag Message Result :=
  dests.foldr (fun dest later => .isend dest tag (message dest) later) next

def waitSends (dests : List Nat) (tag : Tag) (next : Process Tag Message Result) :
    Process Tag Message Result :=
  dests.foldr (fun dest later => .waitSend dest tag false later) next

def irecvs (sources : List Nat) (tag : Tag) (next : Process Tag Message Result) :
    Process Tag Message Result :=
  sources.foldr (fun source later => .irecv source tag later) next

def waitRecvs (tag : Tag) :
    List Nat → (List Message → Process Tag Message Result) → Process Tag Message Result
  | [], next => next []
  | source :: more, next =>
      .waitRecv source tag fun message => waitRecvs tag more fun messages => next (message :: messages)

/-- What one process has done in a row of steps: one at the channel of each item. -/
structure Chained (me : Nat) (items : List Nat) (link : Nat → Link Tag)
    (next : Process Tag Message Result) (content : Nat → Channel Message)
    (before after : System Tag Message Result) : Prop where
  ran : Ran sure items.length before after
  process : after.process me = next
  others : ∀ i, i ≠ me → after.process i = before.process i
  channel : ∀ item ∈ items, after.channel (link item) = content item
  elsewhere : ∀ place, (∀ item ∈ items, link item ≠ place) → after.channel place = before.channel place

theorem chain_nil (me : Nat) (link : Nat → Link Tag) (next : Process Tag Message Result)
    (content : Nat → Channel Message) (system : System Tag Message Result)
    (shape : system.process me = next) : Chained me [] link next content system system :=
  ⟨.done, shape, fun _ _ => rfl, fun _ member => absurd member List.not_mem_nil, fun _ _ => rfl⟩

theorem chain_cons (me item : Nat) (items : List Nat) (link : Nat → Link Tag)
    (parallel : Parallel (item :: items) link) (middle next : Process Tag Message Result)
    (content : Nat → Channel Message) (before after : System Tag Message Result)
    (linked : (before.process me).link me = some (link item))
    (moved : (before.process me).move false (before.channel (link item)) =
      some (middle, content item))
    (chained : Chained me items link next content
      ⟨Function.update before.process me middle,
        Function.update before.channel (link item) (content item)⟩ after) :
    Chained me (item :: items) link next content before after := by
  have fresh := (List.nodup_cons.mp parallel.distinct).1
  have away : ∀ other ∈ items, link other ≠ link item := fun other member same =>
    fresh (parallel.apart other (List.mem_cons_of_mem item member) item List.mem_cons_self same ▸
      member)
  refine ⟨.next me (step_moved false before me _ _ _ linked moved) chained.ran, chained.process,
    fun i other => ?_, fun each member => ?_, fun place free => ?_⟩
  · rw [chained.others i other]
    exact Function.update_of_ne other _ _
  · rcases List.mem_cons.mp member with rfl | later
    · rw [chained.elsewhere _ away]
      exact Function.update_self ..
    · exact chained.channel each later
  · rw [chained.elsewhere place fun each later => free each (List.mem_cons_of_mem item later)]
    exact Function.update_of_ne (free item List.mem_cons_self).symm _ _

theorem chain_moves (me : Nat) (items : List Nat) (link : Nat → Link Tag)
    (parallel : Parallel items link)
    (act : Nat → Process Tag Message Result → Process Tag Message Result)
    (next : Process Tag Message Result) (content : Nat → Channel Message)
    (before : System Tag Message Result) (shape : before.process me = items.foldr act next)
    (linked : ∀ item later, (act item later).link me = some (link item))
    (moves : ∀ item ∈ items, ∀ later, (act item later).move false (before.channel (link item)) =
      some (later, content item)) :
    ∃ after, Chained me items link next content before after := by
  induction items generalizing before with
  | nil => exact ⟨before, chain_nil me link next content before shape⟩
  | cons item items ih =>
      have fresh := (List.nodup_cons.mp parallel.distinct).1
      have away : ∀ other ∈ items, link other ≠ link item := fun other member same =>
        fresh (parallel.apart other (List.mem_cons_of_mem item member) item List.mem_cons_self
          same ▸ member)
      obtain ⟨after, chained⟩ := ih (parallel_tail items link item parallel)
        ⟨Function.update before.process me (items.foldr act next),
          Function.update before.channel (link item) (content item)⟩
        (Function.update_self ..)
        (by
          intro other member later
          simpa only [Function.update_of_ne (away other member)] using
            moves other (List.mem_cons_of_mem item member) later)
      refine ⟨after, chain_cons me item items link parallel (items.foldr act next) next content
        before after ?_ ?_ chained⟩
      · rw [shape]
        exact linked item _
      · rw [shape]
        exact moves item List.mem_cons_self _

theorem waitRecvs_moves (me : Nat) (tag : Tag) (sources : List Nat) (distinct : sources.Nodup)
    (message : Nat → Message) (next : List Message → Process Tag Message Result)
    (before : System Tag Message Result) (shape : before.process me = waitRecvs tag sources next)
    (arrived : ∀ source ∈ sources, before.channel (source, me, tag) = ⟨[message source], 1⟩) :
    ∃ after, Chained me sources (fun source => (source, me, tag)) (next (sources.map message))
      (fun _ => ⟨[], 0⟩) before after := by
  induction sources generalizing before next with
  | nil => exact ⟨before, chain_nil me _ _ _ before shape⟩
  | cons source more ih =>
      have fresh := List.nodup_cons.mp distinct
      obtain ⟨after, chained⟩ := ih fresh.2 (fun messages => next (message source :: messages))
        ⟨Function.update before.process me
            (waitRecvs tag more fun messages => next (message source :: messages)),
          Function.update before.channel (source, me, tag) ⟨[], 0⟩⟩
        (Function.update_self ..)
        (by
          intro other member
          have away : (other, me, tag) ≠ (source, me, tag) := fun same =>
            fresh.1 ((Prod.mk.inj same).1 ▸ member)
          simpa only [Function.update_of_ne away] using
            arrived other (List.mem_cons_of_mem source member))
      refine ⟨after, chain_cons me source more _ ⟨distinct, fun _ _ _ _ same =>
        (Prod.mk.inj same).1⟩ _ _ _ before after ?_ ?_ chained⟩
      · rw [shape]
        rfl
      · rw [shape, arrived source List.mem_cons_self]
        rfl

theorem links_quiet (others : List Nat) (system : System Tag Message Result)
    (link : Nat → Link Tag)
    (used : ∀ i ∈ others, system.channel (link i) = ⟨[], 0⟩)
    (free : ∀ place, (∀ i ∈ others, link i ≠ place) → system.channel place = quiet place) :
    system.channel = quiet := by
  funext place
  by_cases own : ∃ i ∈ others, link i = place
  · obtain ⟨i, member, rfl⟩ := own
    exact used i member
  · exact free place fun i member same => own ⟨i, member, same⟩

variable (root : Nat) (tag : Tag) (others : List Nat) (distinct : others.Nodup) (outside : root ∉ others)
variable (message : Nat → Message) (before after : Programs Tag Message Result)
include distinct outside

/-- The root has one message for each of the others. -/
theorem scatter_leads (roots : before root = isends others tag message (waitSends others tag (after root)))
    (receives : ∀ i ∈ others, ∃ next, before i = recv root tag next ∧ after i = next (message i)) :
    Leads (root :: others) before after := by
  intro system idle started
  have waiting : ∀ i ∈ others, system.process i = before i := fun i member =>
    started i (List.mem_cons_of_mem root member)
  have links : Parallel others fun i => (root, i, tag) :=
    ⟨distinct, fun _ _ _ _ same => (Prod.mk.inj (Prod.mk.inj same).2).1⟩
  have foreign : ∀ i ∈ others, i ≠ root := fun i member same => outside (same ▸ member)
  obtain ⟨first, posting⟩ := each_moves others (fun i => (root, i, tag)) links
    (fun i => rest (before i)) (fun _ => ⟨[], 1⟩) system
    (fun i member => by
      obtain ⟨next, shape, _⟩ := receives i member
      rw [waiting i member, shape]
      rfl)
    (fun i member => by
      obtain ⟨next, shape, _⟩ := receives i member
      rw [waiting i member, shape, idle]
      rfl)
  obtain ⟨second, sending⟩ := chain_moves root others (fun i => (root, i, tag)) links
    (fun i later => .isend i tag (message i) later) (waitSends others tag (after root))
    (fun i => ⟨[message i], 1⟩) first
    (by
      rw [posting.others root outside, started root List.mem_cons_self, roots]
      rfl)
    (fun _ _ => rfl)
    (fun i member later => by
      rw [posting.channel i member]
      rfl)
  obtain ⟨third, matched⟩ := chain_moves root others (fun i => (root, i, tag)) links
    (fun i later => .waitSend i tag false later) (after root) (fun i => ⟨[message i], 1⟩) second
    sending.process (fun _ _ => rfl)
    (fun i member later => by
      rw [sending.channel i member]
      rfl)
  have thirdly : ∀ i ∈ others, third.process i = rest (before i) := fun i member => by
    rw [matched.others i (foreign i member), sending.others i (foreign i member),
      posting.process i member]
  obtain ⟨fourth, taking⟩ := each_moves others (fun i => (root, i, tag)) links after
    (fun _ => ⟨[], 0⟩) third
    (fun i member => by
      obtain ⟨next, shape, _⟩ := receives i member
      rw [thirdly i member, shape]
      rfl)
    (fun i member => by
      obtain ⟨next, shape, read⟩ := receives i member
      rw [thirdly i member, shape, matched.channel i member, read]
      rfl)
  refine ⟨_, fourth, ran_append posting.ran (ran_append sending.ran
    (ran_append matched.ran taking.ran)), ?_, fun i member => ?_, fun i away => ?_⟩
  · apply links_quiet others fourth (fun i => (root, i, tag)) taking.channel
    intro place free
    rw [taking.elsewhere place free, matched.elsewhere place free, sending.elsewhere place free,
      posting.elsewhere place free, idle]
  · rcases List.mem_cons.mp member with rfl | own
    · rw [taking.others i outside, matched.process]
    · exact taking.process i own
  · rw [List.mem_cons, not_or] at away
    rw [taking.others i away.2, matched.others i away.1, sending.others i away.1,
      posting.others i away.2]

/-- The root takes one message from each of the others, in their order. -/
theorem gather_leads (next : List Message → Process Tag Message Result)
    (roots : before root = irecvs others tag (waitRecvs tag others next))
    (gathered : after root = next (others.map message))
    (sends : ∀ i ∈ others, ∃ synchronous,
      before i = .isend root tag (message i) (.waitSend root tag synchronous (after i))) :
    Leads (root :: others) before after := by
  intro system idle started
  have waiting : ∀ i ∈ others, system.process i = before i := fun i member =>
    started i (List.mem_cons_of_mem root member)
  have links : Parallel others fun i => (i, root, tag) :=
    ⟨distinct, fun _ _ _ _ same => (Prod.mk.inj same).1⟩
  have foreign : ∀ i ∈ others, i ≠ root := fun i member same => outside (same ▸ member)
  obtain ⟨first, posting⟩ := chain_moves root others (fun i => (i, root, tag)) links
    (fun i later => .irecv i tag later) (waitRecvs tag others next) (fun _ => ⟨[], 1⟩) system
    ((started root List.mem_cons_self).trans roots) (fun _ _ => rfl)
    (fun i _ later => by
      rw [idle]
      rfl)
  have firstly : ∀ i ∈ others, first.process i = before i := fun i member => by
    rw [posting.others i (foreign i member), waiting i member]
  obtain ⟨second, sending⟩ := each_moves others (fun i => (i, root, tag)) links
    (fun i => rest (before i)) (fun i => ⟨[message i], 1⟩) first
    (fun i member => by
      obtain ⟨synchronous, shape⟩ := sends i member
      rw [firstly i member, shape]
      rfl)
    (fun i member => by
      obtain ⟨synchronous, shape⟩ := sends i member
      rw [firstly i member, shape, posting.channel i member]
      rfl)
  obtain ⟨third, matched⟩ := each_moves others (fun i => (i, root, tag)) links after
    (fun i => ⟨[message i], 1⟩) second
    (fun i member => by
      obtain ⟨synchronous, shape⟩ := sends i member
      rw [sending.process i member, shape]
      rfl)
    (fun i member => by
      obtain ⟨synchronous, shape⟩ := sends i member
      rw [sending.process i member, shape, sending.channel i member]
      rfl)
  obtain ⟨fourth, taking⟩ := waitRecvs_moves root tag others distinct message next third
    (by rw [matched.others root outside, sending.others root outside, posting.process])
    matched.channel
  refine ⟨_, fourth, ran_append posting.ran (ran_append sending.ran
    (ran_append matched.ran taking.ran)), ?_, fun i member => ?_, fun i away => ?_⟩
  · apply links_quiet others fourth (fun i => (i, root, tag)) taking.channel
    intro place free
    rw [taking.elsewhere place free, matched.elsewhere place free, sending.elsewhere place free,
      posting.elsewhere place free, idle]
  · rcases List.mem_cons.mp member with rfl | own
    · rw [taking.process, gathered]
    · rw [taking.others i (foreign i own), matched.process i own]
  · rw [List.mem_cons, not_or] at away
    rw [taking.others i away.1, matched.others i away.2, sending.others i away.2,
      posting.others i away.1]

end Fans

/-! What a group leads to, every run leads to. -/
section Runs
variable {members : List Nat} {before : Programs Tag Message Result} {result : Nat → Result}

theorem ended_move (early : Bool) (system : System Tag Message Result) (me : Nat)
    (gone : ∃ last, system.process me = .ended last) : step early system me = none := by
  obtain ⟨last, shape⟩ := gone
  rw [step, shape]
  rfl

theorem ended_stays {early : Bool} {length : Nat} {system after : System Tag Message Result}
    (ran : Ran (step early) length system after) (i : Nat) (last : Result)
    (gone : system.process i = .ended last) : after.process i = .ended last := by
  refine ran_invariant (fun state => state.process i = .ended last) ?_ ran gone
  intro state party next kept taken
  obtain ⟨_, _, _, _, _, rfl⟩ := step_cases early state next party taken
  have other : i ≠ party := by
    rintro rfl
    rw [ended_move early state i ⟨last, kept⟩] at taken
    cases taken
  exact (Function.update_of_ne other ..).trans kept

/-- No run is longer than a bound, a member that has ended has its result, and where nobody
is sure of a next step all members have ended and no message is under way. -/
def Settles (members : List Nat) (system : System Tag Message Result) (result : Nat → Result) : Prop :=
  ∃ bound, ∀ played after, Ran may played system after → played ≤ bound ∧
    (∀ i ∈ members, ∀ last, after.process i = .ended last → last = result i) ∧
    ((∀ party, sure after party = none) →
      after.channel = quiet ∧ ∀ i ∈ members, after.process i = .ended (result i))

variable (leads : Leads members before fun i => .ended (result i))
variable (system : System Tag Message Result) (idle : system.channel = quiet)
variable (started : ∀ i ∈ members, system.process i = before i)
variable (others : ∀ i ∉ members, ∃ last, system.process i = .ended last)
include leads idle started others

theorem leads_end : ∃ length final, Ran sure length system final ∧ final.channel = quiet ∧
    (∀ i ∈ members, final.process i = .ended (result i)) ∧ ∀ party, may final party = none := by
  obtain ⟨length, final, ran, kept, reached, rest⟩ := leads system idle started
  refine ⟨length, final, ran, kept, reached, fun party => ended_move true final party ?_⟩
  by_cases member : party ∈ members
  · exact ⟨result party, reached party member⟩
  · rw [rest party member]
    exact others party member

/-- A member that has ended has ended as it does in every run. -/
theorem leads_results {played : Nat} {after : System Tag Message Result}
    (ran : Ran may played system after) (i : Nat) (member : i ∈ members) (last : Result)
    (gone : after.process i = .ended last) : last = result i := by
  obtain ⟨length, final, known, _, reached, dead⟩ := leads_end leads system idle started others
  obtain ⟨left, _, rest⟩ := run_shortens passing_confluent dead ran known
  have kept := ended_stays rest i last gone
  rw [reached i member] at kept
  exact (Process.ended.inj kept).symm

theorem leads_settles : Settles members system result := by
  obtain ⟨bound, final, known, kept, reached, gone⟩ := leads_end leads system idle started others
  refine ⟨bound, fun played after ran => ?_⟩
  obtain ⟨short, stuck⟩ := runs_end passing_confluent gone known ran
  exact ⟨short, leads_results leads system idle started others ran,
    fun none => stuck none ▸ ⟨kept, reached⟩⟩

end Runs

end EE360P.MessageRules
