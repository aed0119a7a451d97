import EE360P.ServerCluster

/-! project4 `Client.execute` against `Server.execute`. The client looks at the
first token only and ignores its letter case; the switch of the server compares
it with the words as they are and then reads arguments by position. -/

namespace EE360P.CommandGrammar
open JavaText OnlineStore ServerCluster

inductive Operation where
  | purchase
  | cancel
  | list
  | search
  deriving DecidableEq, Repr

section Tokens

def Operation.word : Operation → Text
  | .purchase => "purchase".toList
  | .cancel => "cancel".toList
  | .list => "list".toList
  | .search => "search".toList

def operations : List Operation := [.purchase, .cancel, .list, .search]

/-- The operation that a token names in any letter case. -/
def named (token : Text) : Option Operation :=
  operations.find? fun operation => operation.word == token.map Char.toLower

/-- The case that the switch of `Server.execute` takes; `none` is its default. -/
def dispatch (token : Text) : Option Operation :=
  operations.find? fun operation => operation.word == token

/-- Whether `Client.execute` sends the command to a server. -/
def contacts (command : Text) : Except Thrown Bool := do
  let tokens := split ' ' command
  return isValidCommand (← argument tokens 0)

theorem valid_named (token : Text) :
    isValidCommand token = true ↔ ∃ operation, named token = some operation := by
  have words : ["purchase".toList, "cancel".toList, "list".toList, "search".toList] =
      operations.map Operation.word := rfl
  rw [isValidCommand, words, List.contains_iff_mem, List.mem_map, ← Option.isSome_iff_exists, named,
    List.find?_isSome]
  simp only [beq_iff_eq]

theorem dispatch_some (token : Text) (operation : Operation) :
    dispatch token = some operation ↔ token = operation.word := by
  constructor
  · intro taken
    have same := List.find?_some taken
    exact (beq_iff_eq.mp same).symm
  · rintro rfl
    cases operation <;> decide

theorem named_word (operation : Operation) : named operation.word = some operation := by
  cases operation <;> decide

theorem contacts_valid (command : Text) (contacted : contacts command = .ok true) :
    ∃ token, (split ' ' command)[0]? = some token ∧ isValidCommand token = true := by
  simp only [contacts, bind_ok, argument_ok] at contacted
  obtain ⟨token, first, valid⟩ := contacted
  exact ⟨token, first, Except.ok.inj valid⟩

end Tokens

section Switch
variable (counting : Counting)

/-- What the case of an operation does with the tokens of the command. -/
def perform (tokens : List Text) (store : Store) : Operation → Except Thrown (Text × Store)
  | .purchase => do
      let userName ← argument tokens 1
      let productName ← argument tokens 2
      let quantity ← number .int32 (← argument tokens 3)
      return purchase counting store userName productName (Int32.ofInt quantity)
  | .cancel => do
      let orderID ← number counting (← argument tokens 1)
      cancel store orderID
  | .list => return (list store, store)
  | .search => return (search store (← argument tokens 1), store)

theorem execute_dispatched (command token : Text) (store : Store) (operation : Operation)
    (first : (split ' ' command)[0]? = some token) (taken : dispatch token = some operation) :
    execute4 counting command store = perform counting (split ' ' command) store operation := by
  have word := (dispatch_some token operation).mp taken
  subst word
  simp only [execute4, executeWith, (argument_ok _ _ _).mpr first, bind, Except.bind]
  cases operation <;> rfl

/-- The command's first token is one of the four words, in lower case, and the
arguments that its operation reads are there and are numbers. -/
inductive Supplied (command : Text) : Prop where
  | purchase (userName productName : Text) (quantity : Int)
      (line : PurchaseLine command userName productName quantity)
  | cancel (orderID : Int) (line : CancelLine counting command orderID)
  | list (line : (split ' ' command)[0]? = some "list".toList)
  | search (userName : Text) (line : SearchLine command userName)

/-- The switch takes the operation that the first token names, and the command is
answered as that operation answers. -/
def Understood (command : Text) (store : Store) : Prop :=
  ∃ token answer, (split ' ' command)[0]? = some token ∧ dispatch token = named token ∧
    execute4 counting command store = .ok answer ∧
    ∀ operation, named token = some operation →
      perform counting (split ' ' command) store operation = .ok answer

theorem understood_word (command : Text) (store : Store) (operation : Operation)
    (first : (split ' ' command)[0]? = some operation.word)
    (formed : WellFormed counting command) : Understood counting command store := by
  have taken := (dispatch_some operation.word operation).mpr rfl
  have meant := named_word operation
  obtain ⟨answer, served⟩ := (execute_wellFormed counting _ command store).mpr formed
  refine ⟨operation.word, answer, first, taken.trans meant.symm, served, ?_⟩
  intro other also
  obtain rfl : operation = other := Option.some.inj (meant.symm.trans also)
  exact (execute_dispatched counting command _ store operation first taken).symm.trans served

theorem served_supplied (command reply : Text) (store after : Store) (operation : Operation)
    (first : (split ' ' command)[0]? = some operation.word)
    (served : execute4 counting command store = .ok (reply, after)) : Supplied counting command := by
  cases execute_cases counting _ command reply store after served with
  | purchased userName productName quantity line => exact .purchase userName productName quantity line
  | cancelled orderID line => exact .cancel orderID line
  | searched userName line => exact .search userName line
  | listed line => exact .list line
  | unknown other shown foreign =>
      obtain rfl : other = operation.word := Option.some.inj (shown.symm.trans first)
      obtain ⟨notPurchase, notCancel, notSearch, notList⟩ := foreign
      cases operation with
      | purchase => exact absurd rfl notPurchase
      | cancel => exact absurd rfl notCancel
      | list => exact absurd rfl notList
      | search => exact absurd rfl notSearch

/-- A command that the client sends is understood, in whatever store, exactly when
its word is in lower case and its arguments are supplied. -/
theorem contacted_understood (command : Text) (store : Store)
    (contacted : contacts command = .ok true) :
    Understood counting command store ↔ Supplied counting command := by
  constructor
  · rintro ⟨token, ⟨reply, after⟩, first, same, served, _⟩
    obtain ⟨other, shown, valid⟩ := contacts_valid command contacted
    obtain rfl : token = other := Option.some.inj (first.symm.trans shown)
    obtain ⟨operation, meant⟩ := (valid_named token).mp valid
    obtain rfl := (dispatch_some token operation).mp (same.trans meant)
    exact served_supplied counting command reply store after operation first served
  · intro supplied
    cases supplied with
    | purchase userName productName quantity line =>
        apply understood_word counting command store .purchase line.operation
        exact .purchase userName productName quantity line
    | cancel orderID line =>
        apply understood_word counting command store .cancel line.operation
        exact .cancel orderID line
    | list line =>
        apply understood_word counting command store .list line
        exact .other _ line (by decide)
    | search userName line =>
        apply understood_word counting command store .search line.operation
        exact .search userName line

theorem contacted_understood_list :
    Understood .int32 "list".toList (initial []) ↔ Supplied .int32 "list".toList :=
  contacted_understood .int32 "list".toList (initial []) (by decide)

-- The client sends "LIST", and the switch falls through to its default.
theorem contacted_misunderstood :
    ¬ ∀ command store, contacts command = .ok true → Understood .int32 command store := by
  intro claim
  obtain ⟨token, _, first, same, _⟩ := claim "LIST".toList (initial []) (by decide)
  have shown : (split ' ' "LIST".toList)[0]? = some "LIST".toList := by decide
  obtain rfl : "LIST".toList = token := Option.some.inj (shown.symm.trans first)
  exact absurd same (by decide)

end Switch

end EE360P.CommandGrammar
