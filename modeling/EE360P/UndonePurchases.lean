import EE360P.InventoryFile
import EE360P.StockBalance

/-! `cancel` right after the purchase of the same order. The purchase takes from
the first inventory entry of the name, the return gives to every entry of it;
and `cancel` looks for its order by an ID, which wraps around. -/

namespace EE360P.UndonePurchases
open JavaText ListEntries OnlineStore StockBalance InventoryFile

section Claims
variable (counting : Counting)

/-- The two tests of `purchase`. -/
structure Accepted (store : Store) (productName : Text) (quantity : Int32) : Prop where
  sold : existsInInventory store productName = true
  enough : inventoryHasEnoughOf store productName quantity = true

/-- The orders under a name, none if nobody of that name is filed. -/
def history (store : Store) (userName : Text) : List Order :=
  ((findUserThroughName store userName).map User.orderHistory).getD []

/-- Stock and histories are as before. -/
structure Restored (store after : Store) : Prop where
  inventory : after.inventory = store.inventory
  histories : ∀ userName, history after userName = history store userName

/-- The order that a purchase would file. -/
def nextOrder (store : Store) (productName : Text) (quantity : Int32) : Order :=
  ⟨counting.wrap (store.currentID + 1), productName, quantity⟩

/-- The purchase is about one inventory entry, or about nothing of it; nobody filed
before the buyer has an order with the new ID, and the buyer's own orders from the
first one with that ID on are all the same as the new one. -/
structure Undoable (store : Store) (userName productName : Text) (quantity : Int32) : Prop where
  entry : quantity = 0 ∨ (store.inventory.filter fun item => item.itemName == productName).length = 1
  earlier : ∀ user ∈ store.clients.takeWhile (fun user => user.name != userName),
    ∀ order ∈ user.orderHistory, order.orderID ≠ (nextOrder counting store productName quantity).orderID
  repeated : ∀ order ∈ (history store userName).dropWhile
      (fun order => order.orderID != (nextOrder counting store productName quantity).orderID),
    order = nextOrder counting store productName quantity

end Claims

section Stock

theorem return_none (amount : Int32) (item : Item) : item.returnQuantityOf amount = item ↔ amount = 0 := by
  unfold Item.returnQuantityOf
  constructor
  · intro same
    exact left_eq_add.mp (congrArg Item.quantity same).symm
  · rintro rfl
    rw [Int32.add_zero]

theorem return_purchased (amount : Int32) (item : Item) :
    (item.purchaseQuantityOf amount).returnQuantityOf amount = item := by
  simp [Item.purchaseQuantityOf, Item.returnQuantityOf]

/-- Giving back to every entry of a name changes nothing only without such an entry. -/
theorem returned_rest (order : Order) (inventory : List Item) :
    removeItemFrom order inventory = inventory ↔
      order.quantity = 0 ∨ (inventory.filter fun item => item.itemName == order.productName) = [] := by
  have each : removeItemFrom order inventory = inventory ↔ ∀ item ∈ inventory,
      (if item.itemName = order.productName then item.returnQuantityOf order.quantity else item) = item := by
    conv_lhs => rhs; rw [← List.map_id inventory]
    exact List.map_inj_left
  rw [each]
  constructor
  · intro kept
    by_cases nothing : order.quantity = 0
    · exact Or.inl nothing
    · apply Or.inr
      apply List.filter_eq_nil_iff.mpr
      intro item member named
      have same := kept item member
      rw [if_pos (beq_iff_eq.mp named)] at same
      exact nothing ((return_none _ item).mp same)
  · rintro (nothing | absent) item member
    · split
      · exact (return_none _ item).mpr nothing
      · rfl
    · have other := List.filter_eq_nil_iff.mp absent item member
      exact if_neg fun named => other (beq_iff_eq.mpr named)

/-- The first entry of the name gets back what was taken from it; every other entry
of the name gets as much on top. -/
theorem returned_inventory (order : Order) (inventory : List Item)
    (sold : (inventory.any fun item => item.itemName == order.productName) = true) :
    removeItemFrom order (updateFirst (fun item => item.itemName == order.productName)
        (Item.purchaseQuantityOf order.quantity) inventory) = inventory ↔
      order.quantity = 0 ∨
        (inventory.filter fun item => item.itemName == order.productName).length = 1 := by
  induction inventory with
  | nil => cases sold
  | cons item rest ih =>
      by_cases named : item.itemName = order.productName
      · have first : (item.purchaseQuantityOf order.quantity).itemName = order.productName := named
        have hit : (item.itemName == order.productName) = true := beq_iff_eq.mpr named
        have counted : ((item :: rest).filter fun item => item.itemName == order.productName) =
            item :: rest.filter fun item => item.itemName == order.productName :=
          List.filter_cons_of_pos hit
        rw [updateFirst, if_pos hit, removeItemFrom, List.map_cons, if_pos first, return_purchased,
          ← removeItemFrom, List.cons.injEq, returned_rest, counted, List.length_cons,
          Nat.add_eq_right, List.length_eq_zero_iff]
        exact and_iff_right rfl
      · have missed : ¬ (item.itemName == order.productName) = true := by simpa using named
        rw [List.any_cons, Bool.eq_false_iff.mpr missed, Bool.false_or] at sold
        have counted : ((item :: rest).filter fun item => item.itemName == order.productName) =
            rest.filter fun item => item.itemName == order.productName :=
          List.filter_cons_of_neg missed
        rw [updateFirst, if_neg missed, removeItemFrom, List.map_cons, if_neg named, ← removeItemFrom,
          List.cons.injEq, ih sold, counted]
        exact and_iff_right rfl

end Stock

section Histories
variable {store : Store} {before behind : List User} {buyer : User} {userName : Text}

theorem customer_counter (store : Store) (userName : Text) :
    (withCustomer store userName).currentID = store.currentID := by
  unfold withCustomer
  split
  · rfl
  · rfl

theorem customer_history (store : Store) (userName name : Text) :
    history (withCustomer store userName) name = history store name := by
  unfold withCustomer
  split
  · unfold history findUserThroughName
    rw [List.find?_append]
    cases store.clients.find? fun user => user.name == name with
    | some user => rfl
    | none =>
        by_cases same : userName = name
        · simp [same]
        · simp [same]
  · rfl

/-- The buyer in the list, behind the ones that a search for an order meets first. -/
theorem customer_split (store : Store) (userName : Text) :
    ∃ buyer behind, (withCustomer store userName).clients =
      store.clients.takeWhile (fun user => user.name != userName) ++ buyer :: behind ∧
      buyer.name = userName ∧ buyer.orderHistory = history store userName := by
  cases found : findUserThroughName store userName with
  | none =>
      have others : store.clients.takeWhile (fun user => user.name != userName) = store.clients := by
        apply List.takeWhile_eq_self_iff.mpr
        intro user member
        have other := List.find?_eq_none.mp found user member
        simpa using other
      refine ⟨⟨userName, []⟩, [], ?_, rfl, ?_⟩
      · simp only [withCustomer, found, others]
      · rw [history, found]
        rfl
  | some user =>
      obtain ⟨rest, shape⟩ := find_split _ store.clients user found
      have named := List.find?_some (p := fun user : User => user.name == userName) found
      refine ⟨user, rest, ?_, beq_iff_eq.mp named, ?_⟩
      · simp only [withCustomer, found]
        exact shape
      · rw [history, found]
        rfl

theorem history_split (split_ : store.clients = before ++ buyer :: behind)
    (others : ∀ user ∈ before, (user.name == userName) = false) (named : buyer.name = userName) :
    history store userName = buyer.orderHistory := by
  have found : findUserThroughName store userName = some buyer := by
    rw [findUserThroughName, split_]
    exact find_hit _ before behind buyer others (beq_iff_eq.mpr named)
  rw [history, found]
  rfl

end Histories

section Orders
variable (counting : Counting) {store : Store} {userName productName : Text} {quantity : Int32}

theorem purchase_accepted (accepted : Accepted store productName quantity) :
    (purchase counting store userName productName quantity).2 =
      placeOrder counting (withCustomer store userName) userName productName quantity := by
  have sold : existsInInventory (withCustomer store userName) productName = true := by
    rw [existsInInventory, customer_inventory]
    exact accepted.sold
  have enough : inventoryHasEnoughOf (withCustomer store userName) productName quantity = true := by
    rw [inventoryHasEnoughOf, customer_inventory]
    exact accepted.enough
  simp only [purchase, sold, enough, Bool.not_true, Bool.false_eq_true, ↓reduceIte]

/-- The store after the purchase. -/
theorem placed_order (order : Order) (placed : order = nextOrder counting store productName quantity) :
    placeOrder counting (withCustomer store userName) userName productName quantity =
      { inventory := updateFirst (fun item => item.itemName == order.productName)
          (Item.purchaseQuantityOf order.quantity) store.inventory
        clients := updateFirst (fun user => user.name == userName) (User.addOrder order)
          (withCustomer store userName).clients
        currentID := order.orderID } := by
  subst placed
  simp only [placeOrder, customer_inventory, customer_counter, nextOrder]

end Orders

/-! The store after the purchase, seen by `cancel`: the buyer with the new order, and
the users before and behind. -/
section Cancelled
variable {before behind : List User} {buyer : User} {order : Order} {placed : Store} {userName : Text}
  (shape : placed.clients = before ++ buyer.addOrder order :: behind)
  (others : ∀ user ∈ before, (user.name == userName) = false) (named : buyer.name = userName)

def holds (orderID : Int) (user : User) : Bool :=
  user.orderHistory.any fun order => order.orderID == orderID

theorem cancel_found (store : Store) (orderID : Int) (user : User) (reply : Text) (after : Store)
    (found : findUserThroughID store orderID = some user)
    (cancelled : cancel store orderID = .ok (reply, after)) :
    ∃ order, user.getOrder orderID = some order ∧ after = withdrawOrder store order orderID := by
  simp only [cancel, found] at cancelled
  split at cancelled
  · cases cancelled
  · rename_i order held
    cases cancelled
    exact ⟨order, held, rfl⟩

include shape

/-- If nobody in front of the buyer holds the ID, the buyer's first order with it goes. -/
theorem own_cancelled (free : ∀ user ∈ before, holds order.orderID user = false) (reply : Text)
    (after : Store) (cancelled : cancel placed order.orderID = .ok (reply, after)) :
    ∃ old, (buyer.orderHistory ++ [order]).find? (fun old => old.orderID == order.orderID) = some old ∧
      after.inventory = removeItemFrom old placed.inventory ∧
      after.clients = before ++ (buyer.addOrder order).removeOrder order.orderID :: behind := by
  have holder : holds order.orderID (buyer.addOrder order) = true := by simp [holds, User.addOrder]
  have found : findUserThroughID placed order.orderID = some (buyer.addOrder order) := by
    rw [findUserThroughID, shape]
    exact find_hit (holds order.orderID) before behind _ free holder
  obtain ⟨old, held, rfl⟩ := cancel_found placed order.orderID _ reply after found cancelled
  refine ⟨old, held, rfl, ?_⟩
  rw [withdrawOrder, shape]
  exact updateFirst_split (holds order.orderID) _ before behind _ free holder

include others named

/-- Otherwise an order of a user in front of the buyer goes. -/
theorem earlier_cancelled (held : ∃ user ∈ before, holds order.orderID user = true) (reply : Text)
    (after : Store) (cancelled : cancel placed order.orderID = .ok (reply, after)) :
    history after userName = buyer.orderHistory ++ [order] := by
  obtain ⟨user, first⟩ := Option.isSome_iff_exists.mp (List.find?_isSome.mpr held)
  have holder := List.find?_some first
  obtain ⟨rest, parts⟩ := find_split (holds order.orderID) before user first
  have free : ∀ other ∈ before.takeWhile (fun user => !holds order.orderID user),
      holds order.orderID other = false := by
    intro other member
    have kept := List.mem_takeWhile_imp member
    exact (Bool.not_eq_true' _).mp kept
  generalize before.takeWhile (fun user => !holds order.orderID user) = front at parts free
  subst parts
  rw [List.append_assoc, List.cons_append] at shape
  have found : findUserThroughID placed order.orderID = some user := by
    rw [findUserThroughID, shape]
    exact find_hit (holds order.orderID) front _ user free holder
  obtain ⟨old, _, rfl⟩ := cancel_found placed order.orderID user reply after found cancelled
  have clients : (withdrawOrder placed old order.orderID).clients =
      (front ++ user.removeOrder order.orderID :: rest) ++ buyer.addOrder order :: behind := by
    rw [List.append_assoc, List.cons_append, withdrawOrder, shape]
    exact updateFirst_split (holds order.orderID) _ front _ user free holder
  have missed : ∀ other ∈ front ++ user.removeOrder order.orderID :: rest,
      (other.name == userName) = false := by
    intro other member
    rcases List.mem_append.mp member with inFront | later
    · exact others other (List.mem_append_left _ inFront)
    · rcases List.mem_cons.mp later with rfl | inRest
      · exact others user (List.mem_append_right _ List.mem_cons_self)
      · exact others other (List.mem_append_right _ (List.mem_cons_of_mem user inRest))
  rw [history_split clients missed named]
  rfl

end Cancelled

section Purchases
variable (counting : Counting) {store : Store} {userName productName : Text} {quantity : Int32}

theorem free_user (orderID : Int) (user : User) :
    holds orderID user = false ↔ ∀ order ∈ user.orderHistory, order.orderID ≠ orderID := by
  simp [holds]

theorem others_missed (store : Store) (userName : Text) :
    ∀ user ∈ store.clients.takeWhile (fun user => user.name != userName),
      (user.name == userName) = false := by
  intro user member
  have kept := List.mem_takeWhile_imp member
  exact (Bool.not_eq_true' _).mp kept

/-- Nobody in front of the buyer holds the returned ID: all depends on the order that goes. -/
theorem own_restores (accepted : Accepted store productName quantity) (order old : Order)
    (isNext : order = nextOrder counting store productName quantity) (buyer : User) (behind : List User)
    (clients : (withCustomer store userName).clients =
      store.clients.takeWhile (fun user => user.name != userName) ++ buyer :: behind)
    (named : buyer.name = userName) (owned : buyer.orderHistory = history store userName)
    (free : ∀ user ∈ store.clients.takeWhile (fun user => user.name != userName),
      holds order.orderID user = false)
    (first : (buyer.orderHistory ++ [order]).find? (fun old => old.orderID == order.orderID) = some old)
    (after : Store) (inventory : after.inventory = removeItemFrom old
      (updateFirst (fun item => item.itemName == order.productName)
        (Item.purchaseQuantityOf order.quantity) store.inventory))
    (left : after.clients = store.clients.takeWhile (fun user => user.name != userName) ++
      (buyer.addOrder order).removeOrder order.orderID :: behind) :
    Restored store after ↔ Undoable counting store userName productName quantity := by
  have own : history after userName =
      (buyer.orderHistory ++ [order]).eraseP fun old => old.orderID == order.orderID :=
    history_split left (others_missed store userName) named
  have last : (order.orderID == order.orderID) = true := beq_iff_eq.mpr rfl
  have sold : (store.inventory.any fun item => item.itemName == order.productName) = true := by
    rw [isNext]
    exact accepted.sold
  have stock := returned_inventory order store.inventory sold
  have same : ∀ repeated : ∀ old ∈ buyer.orderHistory.dropWhile (fun old => old.orderID != order.orderID),
      old = order, old = order := by
    intro repeated
    exact Option.some.inj (first.symm.trans (find_last _ buyer.orderHistory order last repeated))
  constructor
  · intro restored
    have erased := restored.histories userName
    rw [own, ← owned] at erased
    have repeated := (erase_last _ buyer.orderHistory order last).mp erased
    have returned := restored.inventory
    rw [inventory, same repeated] at returned
    subst isNext
    constructor
    · exact stock.mp returned
    · intro user member
      exact (free_user _ user).mp (free user member)
    · rw [← owned]
      exact repeated
  · intro undoable
    have repeated := undoable.repeated
    rw [← owned, ← isNext] at repeated
    have erased := (erase_last _ buyer.orderHistory order last).mpr repeated
    constructor
    · rw [inventory, same repeated]
      apply stock.mpr
      rw [isNext]
      exact undoable.entry
    · intro name
      have kept : (buyer.addOrder order).removeOrder order.orderID = buyer := by
        rw [User.removeOrder, User.addOrder, erased]
      rw [kept, ← clients] at left
      rw [← customer_history store userName name]
      unfold history findUserThroughName
      rw [left]

/-- A cancelled ID gives everything back exactly if the purchase is undoable. -/
theorem cancelled_restores (accepted : Accepted store productName quantity) (reply : Text)
    (after : Store) (cancelled : cancel
      (placeOrder counting (withCustomer store userName) userName productName quantity)
      (nextOrder counting store productName quantity).orderID = .ok (reply, after)) :
    Restored store after ↔ Undoable counting store userName productName quantity := by
  obtain ⟨buyer, behind, clients, named, owned⟩ := customer_split store userName
  have others := others_missed store userName
  obtain ⟨order, isNext⟩ : ∃ order, order = nextOrder counting store productName quantity := ⟨_, rfl⟩
  rw [placed_order counting order isNext, ← isNext] at cancelled
  have shape : updateFirst (fun user => user.name == userName) (User.addOrder order)
      (withCustomer store userName).clients =
      store.clients.takeWhile (fun user => user.name != userName) ++ buyer.addOrder order :: behind := by
    rw [clients]
    exact updateFirst_split _ _ _ behind buyer others (beq_iff_eq.mpr named)
  by_cases held : ∃ user ∈ store.clients.takeWhile (fun user => user.name != userName),
      holds order.orderID user = true
  · have added := earlier_cancelled shape others named held reply after cancelled
    apply iff_of_false
    · intro restored
      have same := restored.histories userName
      rw [added, ← owned] at same
      exact List.cons_ne_nil order [] (List.append_right_eq_self.mp same)
    · intro undoable
      obtain ⟨user, member, holding⟩ := held
      have free := (free_user order.orderID user).mpr (isNext ▸ undoable.earlier user member)
      rw [free] at holding
      cases holding
  · have free : ∀ user ∈ store.clients.takeWhile (fun user => user.name != userName),
        holds order.orderID user = false := by
      intro user member
      exact Bool.eq_false_iff.mpr fun holding => held ⟨user, member, holding⟩
    obtain ⟨old, first, inventory, left⟩ := own_cancelled shape free reply after cancelled
    exact own_restores counting accepted order old isNext buyer behind clients named owned free first after
      inventory left

/-- An accepted purchase is undone by cancelling the returned ID exactly when it is
undoable. -/
theorem cancel_restores (accepted : Accepted store productName quantity) :
    (∃ reply after, cancel (purchase counting store userName productName quantity).2
        (purchase counting store userName productName quantity).2.currentID = .ok (reply, after) ∧
      Restored store after) ↔ Undoable counting store userName productName quantity := by
  have returned : (placeOrder counting (withCustomer store userName) userName productName
      quantity).currentID = (nextOrder counting store productName quantity).orderID := by
    rw [placed_order counting _ rfl]
  rw [purchase_accepted counting accepted, returned]
  obtain ⟨⟨reply, after⟩, cancelled⟩ := cancel_answers
    (placeOrder counting (withCustomer store userName) userName productName quantity)
    (nextOrder counting store productName quantity).orderID
  have restores := cancelled_restores counting accepted reply after cancelled
  constructor
  · rintro ⟨otherReply, other, answer, restored⟩
    have same := cancelled.symm.trans answer
    cases same
    exact restores.mp restored
  · intro undoable
    exact ⟨reply, after, cancelled, restores.mpr undoable⟩

theorem cancel_restores_phone : ∃ reply after,
    cancel (purchase .int32 (initial [⟨"phone".toList, 5⟩]) "ann".toList "phone".toList 3).2
      (purchase .int32 (initial [⟨"phone".toList, 5⟩]) "ann".toList "phone".toList 3).2.currentID =
        .ok (reply, after) ∧ Restored (initial [⟨"phone".toList, 5⟩]) after := by
  apply (cancel_restores .int32 ⟨by decide, by decide⟩).mpr
  constructor
  · exact Or.inr (by decide)
  · nofun
  · nofun

-- A file with two lines for one name: the purchase takes three from the first
-- entry, the return gives three to both.
theorem cancel_adds_stock : ¬ ∀ (lines : List Text) (inventory : List Item) (unknown : Text → Text)
    (commands : List Text) (userName productName : Text) (quantity : Int32),
    addItemsToInventoryFrom lines = .ok inventory →
    Accepted (run .int32 unknown inventory commands) productName quantity →
    ∃ reply after, cancel
        (purchase .int32 (run .int32 unknown inventory commands) userName productName quantity).2
        (purchase .int32 (run .int32 unknown inventory commands) userName productName
          quantity).2.currentID = .ok (reply, after) ∧
      Restored (run .int32 unknown inventory commands) after := by
  intro claim
  obtain ⟨reply, after, cancelled, restored⟩ := claim ["a 5".toList, "a 5".toList]
    [⟨"a".toList, 5⟩, ⟨"a".toList, 5⟩] (fun _ => []) [] "u".toList "a".toList 3 (by decide)
    ⟨by decide, by decide⟩
  have answer : cancel (purchase .int32 (run .int32 (fun _ => [])
      [⟨"a".toList, 5⟩, ⟨"a".toList, 5⟩] []) "u".toList "a".toList 3).2 1 =
      .ok (cancelledReply 1, ⟨[⟨"a".toList, 5⟩, ⟨"a".toList, 8⟩], [⟨"u".toList, []⟩], 1⟩) := by decide
  have same := cancelled.symm.trans answer
  cases same
  exact absurd restored.inventory (by decide)

end Purchases

end EE360P.UndonePurchases
