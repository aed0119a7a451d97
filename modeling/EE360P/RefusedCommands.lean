import EE360P.StockBalance

/-! Commands that throw or are answered with a refusal, in project3 and project4.
`cancel` looks before it changes anything; `purchase` files a new buyer before it
looks at the stock, and `search` tells a filed buyer from an unknown one. -/

namespace EE360P.RefusedCommands
open JavaText OnlineStore StockBalance

inductive Project where
  | project3
  | project4
  deriving DecidableEq, Repr

/-- The default of the switch in `execute`. -/
def Project.unknown : Project → Text → Text
  | .project3, operation => "Invalid command: '".toList ++ operation ++ "'.".toList
  | .project4, _ => "ERROR: No such command".toList

section Execution
variable (counting : Counting) (project : Project)

def Project.execute : Text → Store → Except Thrown (Text × Store) :=
  match project with
  | .project3 => execute3 counting
  | .project4 => execute4 counting

theorem project_execute : project.execute counting = executeWith counting project.unknown := by
  cases project with
  | project3 => rfl
  | project4 => rfl

/-- The answers of one command after the other. -/
def replies : Store → List Text → List (Except Thrown Text)
  | _, [] => []
  | store, command :: rest =>
      (project.execute counting command store).map Prod.fst ::
        replies (serve counting project.unknown store command) rest

inductive Refusal (command : Text) : Text → Prop where
  | notSold : Refusal command notSoldReply
  | notEnough : Refusal command notEnoughReply
  | noOrder (orderID : Int) : Refusal command (noOrderReply orderID)
  | unknown (operation : Text) (named : (split ' ' command)[0]? = some operation) :
      Refusal command (project.unknown operation)

/-- The command throws, or what it is answered is a refusal. -/
def Refused (store : Store) (command : Text) : Prop :=
  ∀ reply after, project.execute counting command store = .ok (reply, after) →
    Refusal project command reply

/-- The command is a purchase, with arguments that can be read, by a name that is
not in `clients` yet. -/
def NewBuyer (store : Store) (command : Text) : Prop :=
  ∃ userName productName quantity, PurchaseLine command userName productName quantity ∧
    findUserThroughName store userName = none

end Execution

section Answers
variable (project : Project)

-- Both accepting replies start with a letter that no refusal starts with.
theorem refusal_first (command reply : Text) (refusal : Refusal project command reply) :
    reply.head? ≠ some 'Y' ∧ reply.head? ≠ some 'O' := by
  cases refusal with
  | notSold => decide
  | notEnough => decide
  | noOrder orderID =>
      unfold noOrderReply
      cases number : intText orderID with
      | nil => decide
      | cons c rest =>
          have digits := intText_chars orderID c (number ▸ List.mem_cons_self)
          rw [List.cons_append, List.head?_cons]
          constructor
          · intro letter
            rw [Option.some.inj letter] at digits
            exact absurd digits (by decide)
          · intro letter
            rw [Option.some.inj letter] at digits
            exact absurd digits (by decide)
  | unknown operation named =>
      cases project with
      | project3 => exact ⟨nofun, nofun⟩
      | project4 =>
          have first : (Project.project4.unknown operation).head? = some 'E' := rfl
          rw [first]
          decide

theorem placed_accepts (command : Text) (orderID : Int) (userName productName : Text)
    (quantity : Int32) : ¬ Refusal project command (placedReply orderID userName productName quantity) :=
  fun refusal => (refusal_first project command _ refusal).1 rfl

theorem cancelled_accepts (command : Text) (orderID : Int) :
    ¬ Refusal project command (cancelledReply orderID) :=
  fun refusal => (refusal_first project command _ refusal).2 rfl

end Answers

section Changes
variable (counting : Counting) (project : Project) {store : Store} {command : Text}

theorem serve_ok (reply : Text) (after : Store)
    (served : project.execute counting command store = .ok (reply, after)) :
    serve counting project.unknown store command = after := by
  rw [project_execute] at served
  simp only [serve, served]

/-- A purchase that is refused has filed its buyer, and no more. -/
theorem purchase_refused (userName productName : Text) (quantity : Int32)
    (refusal : Refusal project command (purchase counting store userName productName quantity).1) :
    (purchase counting store userName productName quantity).2 = withCustomer store userName := by
  unfold purchase at refusal ⊢
  by_cases sold : existsInInventory (withCustomer store userName) productName = true
  · by_cases enough : inventoryHasEnoughOf (withCustomer store userName) productName quantity = true
    · simp only [sold, enough, Bool.not_true, Bool.false_eq_true, ↓reduceIte] at refusal
      exact absurd refusal (placed_accepts project command _ userName productName quantity)
    · simp only [sold, enough, Bool.not_true, Bool.not_false, Bool.false_eq_true, ↓reduceIte]
  · simp only [sold, Bool.not_false, ↓reduceIte]

theorem cancel_refused (orderID : Int) (reply : Text) (after : Store)
    (served : cancel store orderID = .ok (reply, after)) (refusal : Refusal project command reply) :
    after = store := by
  unfold cancel at served
  split at served
  · cases served
    rfl
  · split at served
    · cases served
    · cases served
      exact absurd refusal (cancelled_accepts project command orderID)

/-- All that a refused command can do. -/
theorem refused_serves (refused : Refused counting project store command) :
    (serve counting project.unknown store command = store ∧
      ∀ userName productName quantity, ¬ PurchaseLine command userName productName quantity) ∨
    ∃ userName productName quantity, PurchaseLine command userName productName quantity ∧
      serve counting project.unknown store command = withCustomer store userName := by
  rcases result : project.execute counting command store with thrown | ⟨reply, after⟩
  · rw [project_execute] at result
    refine Or.inl ⟨by simp only [serve, result], ?_⟩
    intro userName productName quantity line
    rw [execute_purchase counting project.unknown command userName productName quantity store line]
      at result
    cases result
  · have refusal := refused reply after result
    rw [serve_ok counting project reply after result]
    rw [project_execute] at result
    have bare : ∀ operation, (split ' ' command)[0]? = some operation → operation ≠ "purchase".toList →
        ∀ userName productName quantity, ¬ PurchaseLine command userName productName quantity := by
      intro operation named other userName productName quantity line
      exact other (Option.some.inj (named.symm.trans line.operation))
    cases execute_cases counting project.unknown command reply store after result with
    | purchased userName productName quantity line =>
        exact Or.inr ⟨userName, productName, quantity, line,
          purchase_refused counting project userName productName _ refusal⟩
    | cancelled orderID line reply after served =>
        exact Or.inl ⟨cancel_refused project orderID reply after served refusal,
          bare _ line.operation (by decide)⟩
    | searched userName line => exact Or.inl ⟨rfl, bare _ line.operation (by decide)⟩
    | listed operation => exact Or.inl ⟨rfl, bare _ operation (by decide)⟩
    | unknown operation named other => exact Or.inl ⟨rfl, bare _ named other.1⟩

end Changes

/-! A buyer that was filed can be seen. -/
section Probes
variable (counting : Counting) (project : Project) {store : Store}

/-- A `search` that reads the name even when it is empty. -/
def probe (userName : Text) : Text := "search".toList ++ ' ' :: (userName ++ ' ' :: "x".toList)

theorem probe_line (userName : Text) (whole : ' ' ∉ userName) : SearchLine (probe userName) userName := by
  have tokens : (probe userName).splitOn ' ' = ["search".toList, userName, "x".toList] := by
    have word : ' ' ∉ "search".toList := by decide
    have last : ' ' ∉ "x".toList := by decide
    change ("search".toList ++ ' ' :: (userName ++ ' ' :: "x".toList)).splitOn ' ' = _
    rw [List.splitOn_append_cons_self_of_not_mem word, List.splitOn_append_cons_self_of_not_mem whole,
      List.splitOn_eq_singleton last]
  have third : ((probe userName).splitOn ' ')[2]? = some "x".toList := by rw [tokens]; rfl
  have kept := split_kept ' ' (probe userName) _ 2 (by decide) third
  constructor
  · rw [kept 0 (by decide), tokens]
    rfl
  · rw [kept 1 (by decide), tokens]
    rfl

theorem probe_reply (userName : Text) (whole : ' ' ∉ userName) :
    replies counting project store [probe userName] = [.ok (search store userName)] := by
  have answer := execute_search counting project.unknown (probe userName) userName store
    (probe_line userName whole)
  simp only [replies, project_execute, answer]
  rfl

theorem customer_filed (userName : Text) (fresh : findUserThroughName store userName = none) :
    findUserThroughName (withCustomer store userName) userName = some ⟨userName, []⟩ := by
  simp only [withCustomer, fresh]
  unfold findUserThroughName at fresh ⊢
  rw [List.find?_append, fresh]
  simp

theorem customer_kept (userName : Text) (fresh : findUserThroughName store userName ≠ none) :
    withCustomer store userName = store := by
  unfold withCustomer
  split
  · rename_i absent
    exact absurd absent fresh
  · rfl

theorem longer_apart (userName front last rest : Text)
    (longer : front.length + last.length < rest.length) :
    front ++ userName ++ last ≠ userName ++ rest := by
  intro same
  have sizes := congrArg List.length same
  simp only [List.length_append] at sizes
  omega

theorem buyer_seen (userName : Text) (fresh : findUserThroughName store userName = none) :
    search (withCustomer store userName) userName ≠ search store userName := by
  simp only [search, customer_filed userName fresh, fresh, ↓reduceIte]
  exact longer_apart userName _ _ _ (by decide)

end Probes

section Traces
variable (counting : Counting) (project : Project) {store : Store} {command : Text}

theorem line_buyer (userName productName otherName otherProduct : Text) (quantity amount : Int)
    (line : PurchaseLine command userName productName quantity)
    (other : PurchaseLine command otherName otherProduct amount) : otherName = userName :=
  Option.some.inj (other.userName.symm.trans line.userName)

/-- A refused command leaves the store as it was, and is not seen in what comes
later, exactly if it is no purchase of a new buyer. -/
theorem refused_traceless (refused : Refused counting project store command) :
    (serve counting project.unknown store command = store ↔ ¬ NewBuyer store command) ∧
    ((∀ later, replies counting project (serve counting project.unknown store command) later =
      replies counting project store later) ↔ ¬ NewBuyer store command) := by
  rcases refused_serves counting project refused with
    ⟨same, bare⟩ | ⟨userName, productName, quantity, line, filed⟩
  · have old : ¬ NewBuyer store command := by
      rintro ⟨userName, productName, quantity, line, _⟩
      exact bare userName productName quantity line
    rw [same]
    exact ⟨iff_of_true rfl old, iff_of_true (fun _ => rfl) old⟩
  · rw [filed]
    by_cases fresh : findUserThroughName store userName = none
    · have new : NewBuyer store command := ⟨userName, productName, quantity, line, fresh⟩
      have whole := split_absent ' ' command userName 1 line.userName
      have seen := buyer_seen userName fresh
      have noticed : ¬ ∀ later, replies counting project (withCustomer store userName) later =
          replies counting project store later := by
        intro unseen
        have answers := unseen [probe userName]
        rw [probe_reply counting project userName whole,
          probe_reply counting project userName whole] at answers
        exact seen (Except.ok.inj (List.singleton_inj.mp answers))
      constructor
      · exact iff_of_false (fun same => seen (congrArg (search · userName) same)) (not_not_intro new)
      · exact iff_of_false noticed (not_not_intro new)
    · have old : ¬ NewBuyer store command := by
        rintro ⟨otherName, otherProduct, amount, other, absent⟩
        rw [line_buyer userName productName otherName otherProduct quantity amount line other] at absent
        exact fresh absent
      rw [customer_kept userName fresh]
      exact ⟨iff_of_true rfl old, iff_of_true (fun _ => rfl) old⟩

/-- A store that sells five phones. -/
def phones : List Item := [⟨"phone".toList, 5⟩]

theorem refused_traceless_cancel :
    (serve .int32 Project.project4.unknown (initial phones) "cancel 7".toList = initial phones ↔
      ¬ NewBuyer (initial phones) "cancel 7".toList) ∧
    ((∀ later, replies .int32 .project4
        (serve .int32 Project.project4.unknown (initial phones) "cancel 7".toList) later =
      replies .int32 .project4 (initial phones) later) ↔
        ¬ NewBuyer (initial phones) "cancel 7".toList) := by
  apply refused_traceless .int32 .project4
  intro reply after served
  have answer : Project.project4.execute .int32 "cancel 7".toList (initial phones) =
      .ok (noOrderReply 7, initial phones) := by decide
  have given := served.symm.trans answer
  cases given
  exact .noOrder 7

-- Ann asks for six of five phones, and is an existing customer from then on.
theorem refused_traced : ¬ ∀ (project : Project) (inventory : List Item) (commands : List Text)
    (command : Text), Refused .int32 project (run .int32 project.unknown inventory commands) command →
      serve .int32 project.unknown (run .int32 project.unknown inventory commands) command =
        run .int32 project.unknown inventory commands := by
  intro claim
  have answer : Project.project3.execute .int32 "purchase ann phone 6".toList (initial phones) =
      .ok (notEnoughReply, withCustomer (initial phones) "ann".toList) := by decide
  have same := claim .project3 phones [] "purchase ann phone 6".toList (by
    intro reply after served
    have given := served.symm.trans answer
    cases given
    exact .notEnough)
  have filed := serve_ok .int32 .project3 _ _ answer
  have kept : withCustomer (initial phones) "ann".toList = initial phones := filed.symm.trans same
  exact absurd kept (by decide)

end Traces

end EE360P.RefusedCommands
