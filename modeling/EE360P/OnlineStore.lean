import Mathlib.Data.List.Basic
import EE360P.JavaText
import EE360P.ListEntries

/-! The store of project3 and project4: `Item`, `Order`, `User` and the commands
of `Server`. The two projects differ only in the answer to an unknown command.
A `find*` method returns a reference into a list and the caller mutates the
object there, so a mutation rewrites the first element that the search meets.
Quantities are `int`s; `Order.currentID` counts as the chosen counting says. -/

namespace EE360P.OnlineStore
open JavaText ListEntries

structure Item where
  itemName : Text
  quantity : Int32
  deriving DecidableEq, Repr

structure Order where
  orderID : Int
  productName : Text
  quantity : Int32
  deriving DecidableEq, Repr

structure User where
  name : Text
  orderHistory : List Order
  deriving DecidableEq, Repr

structure Store where
  inventory : List Item
  clients : List User
  currentID : Int
  deriving DecidableEq, Repr

/-- The exceptions that can leave `execute`. -/
inductive Thrown where
  | arrayIndexOutOfBounds
  | numberFormat
  | nullPointer
  deriving DecidableEq, Repr

def initial (inventory : List Item) : Store := ⟨inventory, [], 0⟩

section Lookup

def User.getOrder (user : User) (orderToObtain : Int) : Option Order :=
  user.orderHistory.find? fun order => order.orderID == orderToObtain

def User.addOrder (order : Order) (user : User) : User :=
  { user with orderHistory := user.orderHistory ++ [order] }

def User.removeOrder (orderToRemove : Int) (user : User) : User :=
  { user with orderHistory := user.orderHistory.eraseP fun order => order.orderID == orderToRemove }

def Item.purchaseQuantityOf (amount : Int32) (item : Item) : Item :=
  { item with quantity := item.quantity - amount }

def Item.returnQuantityOf (amount : Int32) (item : Item) : Item :=
  { item with quantity := item.quantity + amount }

def findUserThroughName (store : Store) (userName : Text) : Option User :=
  store.clients.find? fun user => user.name == userName

def findUserThroughID (store : Store) (orderID : Int) : Option User :=
  store.clients.find? fun user => user.orderHistory.any fun order => order.orderID == orderID

def existsInInventory (store : Store) (productName : Text) : Bool :=
  store.inventory.any fun item => item.itemName == productName

def inventoryHasEnoughOf (store : Store) (productName : Text) (desiredQuantity : Int32) : Bool :=
  !store.inventory.any fun item => item.itemName == productName && item.quantity < desiredQuantity

def removeItemFrom (cancelledOrder : Order) (inventory : List Item) : List Item :=
  inventory.map fun item =>
    if item.itemName = cancelledOrder.productName then
      item.returnQuantityOf cancelledOrder.quantity
    else item

end Lookup

section Commands
variable (counting : Counting)

/-- The buyer is filed before the stock is looked at. -/
def withCustomer (store : Store) (userName : Text) : Store :=
  match findUserThroughName store userName with
  | none => { store with clients := store.clients ++ [⟨userName, []⟩] }
  | some _ => store

/-- The accepted branch of `purchase`: `new Order`, `addOrder`, `purchaseQuantityOf`. -/
def placeOrder (store : Store) (userName productName : Text) (quantity : Int32) : Store :=
  let newID := counting.wrap (store.currentID + 1)
  { inventory := updateFirst (fun item => item.itemName == productName)
      (Item.purchaseQuantityOf quantity) store.inventory
    clients := updateFirst (fun user => user.name == userName)
      (User.addOrder ⟨newID, productName, quantity⟩) store.clients
    currentID := newID }

def placedReply (orderID : Int) (userName productName : Text) (quantity : Int32) : Text :=
  "Your order has been placed, ".toList ++ intText orderID ++ " ".toList ++ userName ++
    " ".toList ++ productName ++ " ".toList ++ intText quantity.toInt ++ ".".toList

def notSoldReply : Text := "Not Available - We do not sell this product.".toList

def notEnoughReply : Text := "Not Available - Not enough items.".toList

def purchase (store : Store) (userName productName : Text) (quantity : Int32) : Text × Store :=
  let filed := withCustomer store userName
  if !existsInInventory filed productName then (notSoldReply, filed)
  else if !inventoryHasEnoughOf filed productName quantity then (notEnoughReply, filed)
  else
    let placed := placeOrder counting filed userName productName quantity
    (placedReply placed.currentID userName productName quantity, placed)

/-- The found branch of `cancel`: `removeItemFrom` and `removeOrder`. -/
def withdrawOrder (store : Store) (cancelledOrder : Order) (orderID : Int) : Store :=
  { store with
    inventory := removeItemFrom cancelledOrder store.inventory
    clients := updateFirst (fun user => user.orderHistory.any fun order => order.orderID == orderID)
      (User.removeOrder orderID) store.clients }

def noOrderReply (orderID : Int) : Text := intText orderID ++ " not found, no such order.".toList

def cancelledReply (orderID : Int) : Text :=
  "Order ".toList ++ intText orderID ++ " is cancelled.".toList

def cancel (store : Store) (orderID : Int) : Except Thrown (Text × Store) :=
  match findUserThroughID store orderID with
  | none => .ok (noOrderReply orderID, store)
  | some user =>
      match user.getOrder orderID with
      | none => .error .nullPointer
      | some cancelledOrder =>
          .ok (cancelledReply orderID, withdrawOrder store cancelledOrder orderID)

def orderLine (order : Order) : Text :=
  intText order.orderID ++ ", ".toList ++ order.productName ++ ", ".toList ++
    intText order.quantity.toInt ++ "$".toList

def noCustomerReply (userName : Text) : Text := userName ++ " is not an existing customer.".toList

def noOrdersReply (userName : Text) : Text :=
  "No order found for ".toList ++ userName ++ ".".toList

def search (store : Store) (userName : Text) : Text :=
  match findUserThroughName store userName with
  | none => noCustomerReply userName
  | some user =>
      if user.orderHistory = [] then noOrdersReply userName
      else user.orderHistory.flatMap orderLine

def itemLine (item : Item) : Text :=
  item.itemName ++ " ".toList ++ intText item.quantity.toInt ++ "$".toList

def list (store : Store) : Text := store.inventory.flatMap itemLine

def argument (arguments : List Text) (position : Nat) : Except Thrown Text :=
  match arguments[position]? with
  | none => .error .arrayIndexOutOfBounds
  | some text => .ok text

def number (counting : Counting) (text : Text) : Except Thrown Int :=
  match parseInt counting text with
  | none => .error .numberFormat
  | some value => .ok value

/-- `execute`; the answer to a command it does not know is the project's own. -/
def executeWith (unknown : Text → Text) (command : Text) (store : Store) :
    Except Thrown (Text × Store) := do
  let arguments := split ' ' command
  let operation ← argument arguments 0
  if operation = "purchase".toList then
    let userName ← argument arguments 1
    let productName ← argument arguments 2
    let quantity ← number .int32 (← argument arguments 3)
    return purchase counting store userName productName (Int32.ofInt quantity)
  else if operation = "cancel".toList then
    let orderID ← number counting (← argument arguments 1)
    cancel store orderID
  else if operation = "search".toList then
    return (search store (← argument arguments 1), store)
  else if operation = "list".toList then
    return (list store, store)
  else return (unknown operation, store)

/-- project3 `Server.execute`. -/
def execute3 : Text → Store → Except Thrown (Text × Store) :=
  executeWith counting fun operation =>
    "Invalid command: '".toList ++ operation ++ "'.".toList

/-- project4 `Server.execute`. -/
def execute4 : Text → Store → Except Thrown (Text × Store) :=
  executeWith counting fun _ => "ERROR: No such command".toList

end Commands

/-! What a command that does not throw can be, and what it can do. Later proofs
split on these cases and never open `executeWith` again. -/
section Cases
variable (counting : Counting) (unknown : Text → Text)

/-- The line asks for `purchase` with these three arguments. -/
structure PurchaseLine (command userName productName : Text) (quantity : Int) : Prop where
  operation : (split ' ' command)[0]? = some "purchase".toList
  userName : (split ' ' command)[1]? = some userName
  productName : (split ' ' command)[2]? = some productName
  quantity : ((split ' ' command)[3]?).bind (parseInt .int32) = some quantity

structure CancelLine (command : Text) (orderID : Int) : Prop where
  operation : (split ' ' command)[0]? = some "cancel".toList
  orderID : ((split ' ' command)[1]?).bind (parseInt counting) = some orderID

structure SearchLine (command userName : Text) : Prop where
  operation : (split ' ' command)[0]? = some "search".toList
  userName : (split ' ' command)[1]? = some userName

/-- The arguments that the command's operation reads are there and are numbers. -/
inductive WellFormed (command : Text) : Prop where
  | purchase (userName productName : Text) (quantity : Int)
      (line : PurchaseLine command userName productName quantity)
  | cancel (orderID : Int) (line : CancelLine counting command orderID)
  | search (userName : Text) (line : SearchLine command userName)
  | other (operation : Text) (named : (split ' ' command)[0]? = some operation)
      (bare : operation ≠ "purchase".toList ∧ operation ≠ "cancel".toList ∧
        operation ≠ "search".toList)

inductive Served (command : Text) (store : Store) : Text → Store → Prop where
  | purchased (userName productName : Text) (quantity : Int)
      (line : PurchaseLine command userName productName quantity) :
      Served command store
        (purchase counting store userName productName (Int32.ofInt quantity)).1
        (purchase counting store userName productName (Int32.ofInt quantity)).2
  | cancelled (orderID : Int) (line : CancelLine counting command orderID) (reply : Text)
      (after : Store) (served : cancel store orderID = .ok (reply, after)) :
      Served command store reply after
  | searched (userName : Text) (line : SearchLine command userName) :
      Served command store (search store userName) store
  | listed (operation : (split ' ' command)[0]? = some "list".toList) :
      Served command store (list store) store
  | unknown (operation : Text) (named : (split ' ' command)[0]? = some operation)
      (other : operation ≠ "purchase".toList ∧ operation ≠ "cancel".toList ∧
        operation ≠ "search".toList ∧ operation ≠ "list".toList) :
      Served command store (unknown operation) store

theorem argument_ok (arguments : List Text) (position : Nat) (text : Text) :
    argument arguments position = .ok text ↔ arguments[position]? = some text := by
  unfold argument
  split <;> simp_all

theorem number_ok (text : Text) (value : Int) :
    number counting text = .ok value ↔ parseInt counting text = some value := by
  unfold number
  split <;> simp_all

theorem bind_ok {First Second : Type} (first : Except Thrown First)
    (next : First → Except Thrown Second) (result : Second) :
    (first >>= next) = .ok result ↔ ∃ value, first = .ok value ∧ next value = .ok result := by
  cases first <;> simp [bind, Except.bind]

theorem execute_cases (command reply : Text) (store after : Store)
    (served : executeWith counting unknown command store = .ok (reply, after)) :
    Served counting unknown command store reply after := by
  simp only [executeWith, bind_ok, argument_ok] at served
  obtain ⟨operation, named, served⟩ := served
  by_cases isPurchase : operation = "purchase".toList
  · subst isPurchase
    simp only [↓reduceIte, bind_ok, argument_ok, number_ok] at served
    obtain ⟨userName, first, productName, second, text, third, quantity, parsed, served⟩ := served
    have line : PurchaseLine command userName productName quantity :=
      ⟨named, first, second, by simp [third, parsed]⟩
    have answer := Except.ok.inj served
    obtain ⟨rfl, rfl⟩ := Prod.mk.inj (answer.symm.trans (Prod.mk.eta).symm)
    exact .purchased userName productName quantity line
  by_cases isCancel : operation = "cancel".toList
  · subst isCancel
    simp only [isPurchase, ↓reduceIte, bind_ok, argument_ok, number_ok] at served
    obtain ⟨text, first, orderID, parsed, served⟩ := served
    exact .cancelled orderID ⟨named, by simp [first, parsed]⟩ reply after served
  by_cases isSearch : operation = "search".toList
  · subst isSearch
    simp only [isPurchase, isCancel, ↓reduceIte, bind_ok, argument_ok] at served
    obtain ⟨userName, first, served⟩ := served
    cases served
    exact .searched userName ⟨named, first⟩
  by_cases isList : operation = "list".toList
  · subst isList
    simp only [isPurchase, isCancel, isSearch, ↓reduceIte] at served
    cases served
    exact .listed named
  · simp only [isPurchase, isCancel, isSearch, isList, ↓reduceIte] at served
    cases served
    exact .unknown operation named ⟨isPurchase, isCancel, isSearch, isList⟩

theorem execute_purchase (command userName productName : Text) (quantity : Int) (store : Store)
    (line : PurchaseLine command userName productName quantity) :
    executeWith counting unknown command store =
      .ok (purchase counting store userName productName (Int32.ofInt quantity)) := by
  rcases third : (split ' ' command)[3]? with _ | text
  · exact absurd line.quantity (by simp [third])
  · have parsed : parseInt .int32 text = some quantity := by simpa [third] using line.quantity
    simp [executeWith, (argument_ok _ _ _).mpr line.operation, (argument_ok _ _ _).mpr line.userName,
      (argument_ok _ _ _).mpr line.productName, (argument_ok _ _ _).mpr third,
      (number_ok _ _ _).mpr parsed, bind, Except.bind, pure, Except.pure]

theorem execute_cancel (command : Text) (orderID : Int) (store : Store)
    (line : CancelLine counting command orderID) :
    executeWith counting unknown command store = cancel store orderID := by
  rcases first : (split ' ' command)[1]? with _ | text
  · exact absurd line.orderID (by simp [first])
  · have parsed : parseInt counting text = some orderID := by simpa [first] using line.orderID
    simp [executeWith, (argument_ok _ _ _).mpr line.operation, (argument_ok _ _ _).mpr first,
      (number_ok _ _ _).mpr parsed, bind, Except.bind]

theorem execute_search (command userName : Text) (store : Store) (line : SearchLine command userName) :
    executeWith counting unknown command store = .ok (search store userName, store) := by
  simp [executeWith, (argument_ok _ _ _).mpr line.operation, (argument_ok _ _ _).mpr line.userName,
    bind, Except.bind, pure, Except.pure]

theorem execute_list (command : Text) (store : Store)
    (named : (split ' ' command)[0]? = some "list".toList) :
    executeWith counting unknown command store = .ok (list store, store) := by
  simp [executeWith, (argument_ok _ _ _).mpr named, bind, Except.bind, pure, Except.pure]

theorem execute_unknown (command operation : Text) (store : Store)
    (named : (split ' ' command)[0]? = some operation)
    (other : operation ≠ "purchase".toList ∧ operation ≠ "cancel".toList ∧
      operation ≠ "search".toList ∧ operation ≠ "list".toList) :
    executeWith counting unknown command store = .ok (unknown operation, store) := by
  simp only [executeWith, (argument_ok _ _ _).mpr named, bind, Except.bind, pure, Except.pure,
    other.1, other.2.1, other.2.2.1, other.2.2.2, ↓reduceIte]

-- The user found through an order's ID has that order, so `getOrder` is not null.
theorem cancel_answers (store : Store) (orderID : Int) :
    ∃ answer, cancel store orderID = .ok answer := by
  unfold cancel
  split
  · exact ⟨_, rfl⟩
  · rename_i user found
    unfold findUserThroughID at found
    have owns := List.find?_some found
    split
    · rename_i missing
      obtain ⟨order, member, same⟩ := List.any_eq_true.mp owns
      exact absurd same (by simpa using List.find?_eq_none.mp missing order member)
    · exact ⟨_, rfl⟩

/-- `execute` throws exactly when an argument that the operation reads is missing
or is not a number, whatever is in the store. -/
theorem execute_wellFormed (command : Text) (store : Store) :
    (∃ answer, executeWith counting unknown command store = .ok answer) ↔
      WellFormed counting command := by
  constructor
  · rintro ⟨⟨reply, after⟩, served⟩
    cases execute_cases counting unknown command reply store after served with
    | purchased userName productName quantity line => exact .purchase userName productName quantity line
    | cancelled orderID line => exact .cancel orderID line
    | searched userName line => exact .search userName line
    | listed operation => exact .other _ operation ⟨by decide, by decide, by decide⟩
    | unknown operation named other => exact .other operation named ⟨other.1, other.2.1, other.2.2.1⟩
  · intro formed
    cases formed with
    | purchase userName productName quantity line =>
        exact ⟨_, execute_purchase counting unknown command userName productName quantity store line⟩
    | cancel orderID line =>
        rw [execute_cancel counting unknown command orderID store line]
        exact cancel_answers store orderID
    | search userName line => exact ⟨_, execute_search counting unknown command userName store line⟩
    | other operation named bare =>
        by_cases isList : operation = "list".toList
        · exact ⟨_, execute_list counting unknown command store (isList ▸ named)⟩
        · exact ⟨_, execute_unknown counting unknown command operation store named
            ⟨bare.1, bare.2.1, bare.2.2, isList⟩⟩

omit unknown in
theorem wellFormed_serves (command : Text) (store : Store) :
    (executeWith counting id command store).toBool = true ↔ WellFormed counting command := by
  rw [← execute_wellFormed counting id command store]
  cases served : executeWith counting id command store with
  | ok answer => exact ⟨fun _ => ⟨answer, rfl⟩, fun _ => rfl⟩
  | error thrown => exact ⟨nofun, nofun⟩

omit unknown in
instance (command : Text) : Decidable (WellFormed counting command) :=
  decidable_of_iff _ (wellFormed_serves counting command (initial []))

end Cases

end EE360P.OnlineStore
