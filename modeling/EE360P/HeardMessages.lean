import EE360P.MessageRules

/-! What a process can have heard while another process has taken no step. The system is
followed by a shadow in which messages and results carry what their sender knows.
Nobody in the shadow knows of a process before that process takes its first step; a
result that does know of it is then a proof of that step in the system itself. -/

namespace EE360P.HeardMessages
open ConfluentRuns PointToPoint MessageRules

variable {Tag Message Result Known Told : Type}

/-- The same steps, whatever the messages. What is sent was `heard` if all that was
received was, and so was the result. -/
inductive Shadowed (heard : Known → Prop) (told : Told → Prop) :
    Process Tag Message Result → Process Tag Known Told → Prop where
  | irecv (source : Nat) (tag : Tag) {next : Process Tag Message Result}
      {after : Process Tag Known Told} (rest : Shadowed heard told next after) :
      Shadowed heard told (.irecv source tag next) (.irecv source tag after)
  | isend (dest : Nat) (tag : Tag) (sent : Message) (known : Known)
      {next : Process Tag Message Result} {after : Process Tag Known Told} (own : heard known)
      (rest : Shadowed heard told next after) :
      Shadowed heard told (.isend dest tag sent next) (.isend dest tag known after)
  | waitSend (dest : Nat) (tag : Tag) (synchronous : Bool) {next : Process Tag Message Result}
      {after : Process Tag Known Told} (rest : Shadowed heard told next after) :
      Shadowed heard told (.waitSend dest tag synchronous next) (.waitSend dest tag synchronous after)
  | waitRecv (source : Nat) (tag : Tag) {next : Message → Process Tag Message Result}
      {after : Known → Process Tag Known Told}
      (rest : ∀ message known, heard known → Shadowed heard told (next message) (after known)) :
      Shadowed heard told (.waitRecv source tag next) (.waitRecv source tag after)
  | ended (result : Result) (last : Told) (own : told last) :
      Shadowed heard told (.ended result) (.ended last)

structure Echoed (heard : Known → Prop) (channel : Channel Message) (echo : Channel Known) :
    Prop where
  counted : channel.sent.length = echo.sent.length
  posted : channel.posted = echo.posted
  known : ∀ message ∈ echo.sent, heard message

section Operations
variable {heard : Known → Prop} {told : Told → Prop} {tag : Tag}

theorem shadowed_send {dest : Nat} {message : Message} {known : Known}
    {next : Process Tag Message Result} {after : Process Tag Known Told} (own : heard known)
    (rest : Shadowed heard told next after) :
    Shadowed heard told (send dest tag message next) (send dest tag known after) :=
  .isend dest tag message known own (.waitSend dest tag false rest)

theorem shadowed_recv {source : Nat} {next : Message → Process Tag Message Result}
    {after : Known → Process Tag Known Told}
    (rest : ∀ message known, heard known → Shadowed heard told (next message) (after known)) :
    Shadowed heard told (recv source tag next) (recv source tag after) :=
  .irecv source tag (.waitRecv source tag rest)

theorem shadowed_sendrecv {dest source : Nat} {message : Message} {known : Known}
    {next : Message → Process Tag Message Result} {after : Known → Process Tag Known Told}
    (own : heard known)
    (rest : ∀ message known, heard known → Shadowed heard told (next message) (after known)) :
    Shadowed heard told (sendrecv dest tag message source next) (sendrecv dest tag known source after) :=
  .irecv source tag (.isend dest tag message known own (.waitSend dest tag false
    (.waitRecv source tag rest)))

end Operations

section Steps
variable {heard : Known → Prop} {told : Told → Prop}

theorem shadowed_link (me : Nat) {process : Process Tag Message Result}
    {shadow : Process Tag Known Told} (shadowed : Shadowed heard told process shadow) :
    shadow.link me = process.link me := by
  cases shadowed <;> rfl

theorem shadowed_move (early : Bool) {process next : Process Tag Message Result}
    {shadow : Process Tag Known Told} {channel after : Channel Message} {echo : Channel Known}
    (shadowed : Shadowed heard told process shadow) (echoed : Echoed heard channel echo)
    (moved : process.move early channel = some (next, after)) : ∃ follow last,
      shadow.move early echo = some (follow, last) ∧ Shadowed heard told next follow ∧
      Echoed heard after last := by
  cases shadowed with
  | irecv source tag rest =>
      cases moved
      exact ⟨_, _, rfl, rest, echoed.counted, congrArg (· + 1) echoed.posted, echoed.known⟩
  | isend dest tag sent known own rest =>
      cases moved
      refine ⟨_, _, rfl, rest, ?_, echoed.posted, fun message member => ?_⟩
      · simp only [List.length_append, echoed.counted, List.length_singleton]
      · rcases List.mem_append.mp member with old | new
        · exact echoed.known message old
        · exact List.mem_singleton.mp new ▸ own
  | waitSend dest tag synchronous rest =>
      simp only [Process.move, echoed.counted, echoed.posted] at moved ⊢
      split at moved
      · cases moved
        rename_i ready
        exact ⟨_, _, if_pos ready, rest, echoed⟩
      · cases moved
  | waitRecv source tag rest =>
      obtain ⟨_ | ⟨sent, others⟩, _ | posted⟩ := channel <;> cases moved
      obtain ⟨counted, same, known⟩ := echoed
      obtain ⟨_ | ⟨heard, more⟩, _ | waiting⟩ := echo
      · cases counted
      · cases counted
      · cases same
      · exact ⟨_, _, rfl, rest sent heard (known heard List.mem_cons_self), Nat.succ.inj counted,
          Nat.succ.inj same, fun message member => known message (List.mem_cons_of_mem heard member)⟩
  | ended result last own => cases moved

variable [DecidableEq Tag]

/-- The processes but one are followed, and so are all channels. -/
structure Followed (heard : Known → Prop) (told : Told → Prop) (missing : Nat)
    (system : System Tag Message Result) (shadow : System Tag Known Told) : Prop where
  process : ∀ i, i ≠ missing → Shadowed heard told (system.process i) (shadow.process i)
  channel : ∀ link, Echoed heard (system.channel link) (shadow.channel link)

/-- The same system, with one process that takes no step. -/
def without (missing : Nat) (system : System Tag Message Result) (party : Nat) :
    Option (System Tag Message Result) :=
  if party = missing then none else may system party

theorem followed_step {missing party : Nat} {before after : System Tag Message Result}
    {shadow : System Tag Known Told} (followed : Followed heard told missing before shadow)
    (taken : without missing before party = some after) : ∃ next,
      may shadow party = some next ∧ Followed heard told missing after next := by
  unfold without at taken
  split at taken
  · cases taken
  · rename_i other
    obtain ⟨link, next, channel, linked, moved, rfl⟩ := step_cases true before after party taken
    obtain ⟨follow, last, echoes, shadowed, echoed⟩ :=
      shadowed_move true (followed.process party other) (followed.channel link) moved
    rw [← shadowed_link party (followed.process party other)] at linked
    refine ⟨_, step_moved true shadow party link follow last linked echoes, fun i apart => ?_,
      fun place => ?_⟩
    · by_cases own : i = party
      · subst own
        simpa only [Function.update_self] using shadowed
      · simpa only [Function.update_of_ne own] using followed.process i apart
    · by_cases own : place = link
      · subst own
        simpa only [Function.update_self] using echoed
      · simpa only [Function.update_of_ne own] using followed.channel place

theorem followed_run {missing length : Nat} {before after : System Tag Message Result}
    {shadow : System Tag Known Told} (followed : Followed heard told missing before shadow)
    (ran : Ran (without missing) length before after) : ∃ last,
      Ran may length shadow last ∧ Followed heard told missing after last := by
  induction ran generalizing shadow with
  | done => exact ⟨shadow, .done, followed⟩
  | next party taken _ ih =>
      obtain ⟨next, follows, kept⟩ := followed_step followed taken
      obtain ⟨last, ran, reached⟩ := ih kept
      exact ⟨last, .next party follows ran, reached⟩

/-- While one process takes no step, no other member ends. -/
def Waits (members : List Nat) (missing : Nat) (system : System Tag Message Result) : Prop :=
  ∀ length after, Ran (without missing) length system after → ∀ i ∈ members, i ≠ missing →
    ∀ last, after.process i ≠ .ended last

variable {members : List Nat} {result : Nat → Told}

/-- Members whose shadows come to know of a process do not end before that process has
taken a step. -/
theorem heard_first (heard : Known → Prop) (told : Told → Prop) (missing : Nat)
    {shadow : Programs Tag Known Told} (leads : Leads members shadow fun i => .ended (result i))
    (nothing : Told) (unknowing : told nothing) {system : System Tag Message Result}
    (idle : system.channel = quiet)
    (shadowed : ∀ i ∈ members, i ≠ missing → Shadowed heard told (system.process i) (shadow i))
    (others : ∀ i ∉ members, ∃ last, system.process i = .ended last)
    (knows : ∀ i ∈ members, i ≠ missing → ¬told (result i)) : Waits members missing system := by
  intro length after ran i member apart last gone
  let start : System Tag Known Told :=
    ⟨fun i => if i ∈ members then shadow i else .ended nothing, quiet⟩
  have followed : Followed heard told missing system start := by
    refine ⟨fun i apart => ?_, fun link => ?_⟩
    · by_cases own : i ∈ members
      · simpa only [start, if_pos own] using shadowed i own apart
      · obtain ⟨last, ended⟩ := others i own
        simp only [start, if_neg own, ended]
        exact .ended last nothing unknowing
    · rw [idle]
      exact ⟨rfl, rfl, fun _ member => absurd member List.not_mem_nil⟩
  obtain ⟨final, shadowRan, reached⟩ := followed_run followed ran
  have echo := reached.process i apart
  rw [gone] at echo
  generalize shape : final.process i = process at echo
  cases echo with
  | ended _ told own =>
      have known := leads_results leads start rfl (fun i own => if_pos own)
        (fun i own => ⟨nothing, if_neg own⟩) shadowRan i member told shape
      exact knows i member apart (known ▸ own)

end Steps

end EE360P.HeardMessages
