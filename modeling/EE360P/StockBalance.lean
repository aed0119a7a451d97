import Mathlib.Algebra.Order.BigOperators.Group.List
import EE360P.OnlineStore

/-! Stock plus standing orders, over any list of commands. An order is weighed
in some commutative group: in `Int32` the balance holds for every run, in the
integers only for runs that never buy a negative quantity. -/

namespace EE360P.StockBalance
open JavaText ListEntries OnlineStore

variable (counting : Counting) (unknown : Text → Text)

/-- A command that throws has changed nothing yet. -/
def serve (store : Store) (command : Text) : Store :=
  match executeWith counting unknown command store with
  | .ok (_, after) => after
  | .error _ => store

def run (inventory : List Item) (commands : List Text) : Store :=
  commands.foldl (serve counting unknown) (initial inventory)

/-- No command of the run throws. -/
def handled : Store → List Text → Bool
  | _, [] => true
  | store, command :: rest =>
      match executeWith counting unknown command store with
      | .ok (_, after) => handled after rest
      | .error _ => false

section Orders
variable {Amount : Type} [AddCommGroup Amount] (weigh : Int32 → Amount)

def weight (product : Text) (order : Order) : Amount :=
  if order.productName = product then weigh order.quantity else 0

def owed (product : Text) (user : User) : Amount := (user.orderHistory.map (weight weigh product)).sum

/-- All that stands in the users' histories for one product. -/
def ordered (clients : List User) (product : Text) : Amount :=
  (clients.map (owed weigh product)).sum

theorem customer_ordered (store : Store) (userName product : Text) :
    ordered weigh (withCustomer store userName).clients product =
      ordered weigh store.clients product := by
  unfold withCustomer
  split
  · simp [ordered, owed]
  · rfl

theorem customer_found (store : Store) (userName : Text) :
    ∃ user, findUserThroughName (withCustomer store userName) userName = some user := by
  unfold withCustomer
  split
  · rename_i absent
    refine ⟨⟨userName, []⟩, ?_⟩
    simp only [findUserThroughName] at absent ⊢
    simp [List.find?_append, absent]
  · rename_i user found
    exact ⟨user, found⟩

theorem place_ordered (store : Store) (userName productName product : Text) (quantity : Int32)
    (user : User) (found : findUserThroughName store userName = some user) :
    ordered weigh (placeOrder counting store userName productName quantity).clients product =
      ordered weigh store.clients product +
        if productName = product then weigh quantity else 0 := by
  simp only [ordered, placeOrder]
  rw [updateFirst_sum _ _ _ _ user found]
  simp [owed, weight, User.addOrder]

theorem withdraw_ordered (store : Store) (orderID : Int) (product : Text) (user : User)
    (order : Order) (found : findUserThroughID store orderID = some user)
    (held : user.getOrder orderID = some order) :
    ordered weigh (withdrawOrder store order orderID).clients product =
      ordered weigh store.clients product - weight weigh product order := by
  simp only [ordered, withdrawOrder]
  rw [updateFirst_sum _ _ _ _ user found]
  have taken := erase_sum (fun order : Order => order.orderID == orderID) (weight weigh product)
    user.orderHistory order held
  simp only [owed, User.removeOrder, taken]
  abel

end Orders

theorem serve_cases (store : Store) (command : Text) :
    serve counting unknown store command = store ∨
      ∃ reply, Served counting unknown command store reply (serve counting unknown store command) := by
  unfold serve
  rcases result : executeWith counting unknown command store with thrown | ⟨reply, after⟩
  · exact Or.inl rfl
  · exact Or.inr ⟨reply, execute_cases counting unknown command reply store after result⟩

/-- All that one command can do to stock and histories. -/
inductive Moved (command : Text) (store : Store) : Store → Prop where
  | idle : Moved command store store
  | filed (userName : Text) : Moved command store (withCustomer store userName)
  | placed (userName productName : Text) (quantity : Int) (user : User)
      (line : PurchaseLine command userName productName quantity)
      (found : findUserThroughName (withCustomer store userName) userName = some user)
      (sold : existsInInventory store productName = true)
      (enough : inventoryHasEnoughOf store productName (Int32.ofInt quantity) = true) :
      Moved command store
        (placeOrder counting (withCustomer store userName) userName productName (Int32.ofInt quantity))
  | withdrawn (orderID : Int) (user : User) (order : Order)
      (found : findUserThroughID store orderID = some user)
      (held : user.getOrder orderID = some order) :
      Moved command store (withdrawOrder store order orderID)

theorem customer_inventory (store : Store) (userName : Text) :
    (withCustomer store userName).inventory = store.inventory := by
  unfold withCustomer
  split <;> rfl

theorem purchase_moved (command userName productName : Text) (quantity : Int) (store : Store)
    (line : PurchaseLine command userName productName quantity) :
    Moved counting command store
      (purchase counting store userName productName (Int32.ofInt quantity)).2 := by
  obtain ⟨user, found⟩ := customer_found store userName
  have sameSold : existsInInventory (withCustomer store userName) productName =
      existsInInventory store productName := by
    rw [existsInInventory, customer_inventory, existsInInventory]
  have sameEnough : inventoryHasEnoughOf (withCustomer store userName) productName (Int32.ofInt quantity) =
      inventoryHasEnoughOf store productName (Int32.ofInt quantity) := by
    rw [inventoryHasEnoughOf, customer_inventory, inventoryHasEnoughOf]
  by_cases sold : existsInInventory store productName = true
  · by_cases enough : inventoryHasEnoughOf store productName (Int32.ofInt quantity) = true
    · simp only [purchase, sameSold, sameEnough, sold, enough, Bool.not_true, Bool.false_eq_true,
        ↓reduceIte]
      exact .placed userName productName quantity user line found sold enough
    · simp only [purchase, sameSold, sameEnough, sold, enough, Bool.not_true, Bool.not_false,
        Bool.false_eq_true, ↓reduceIte]
      exact .filed userName
  · simp only [purchase, sameSold, sold, Bool.not_false, ↓reduceIte]
    exact .filed userName

theorem serve_moved (store : Store) (command : Text) :
    Moved counting command store (serve counting unknown store command) := by
  rcases serve_cases counting unknown store command with idle | ⟨reply, served⟩
  · rw [idle]
    exact .idle
  · generalize serve counting unknown store command = after at served
    cases served with
    | purchased userName productName quantity line =>
        exact purchase_moved counting command userName productName quantity store line
    | cancelled orderID line reply after served =>
        unfold cancel at served
        split at served
        · cases served
          exact .idle
        · rename_i user found
          split at served
          · cases served
          · rename_i order held
            cases served
            exact .withdrawn orderID user order found held
    | searched userName line => exact .idle
    | listed operation => exact .idle
    | unknown operation named other => exact .idle

section Balance

/-- Item by item, the stock and what stands in the histories make up the first stock. -/
def Balanced (inventory : List Item) (store : Store) : Prop :=
  List.Forall₂ (fun item start => item.itemName = start.itemName ∧
    item.quantity + ordered id store.clients item.itemName = start.quantity) store.inventory inventory

theorem paired_names {paired : Item → Item → Prop} (current inventory : List Item)
    (named : ∀ item start, paired item start → item.itemName = start.itemName)
    (pairs : List.Forall₂ paired current inventory) :
    current.map Item.itemName = inventory.map Item.itemName := by
  induction pairs with
  | nil => rfl
  | cons first _ ih => rw [List.map_cons, List.map_cons, named _ _ first, ih]

theorem placed_inventory (store : Store) (userName productName : Text) (quantity : Int32)
    (distinct : (store.inventory.map Item.itemName).Nodup) :
    (placeOrder counting (withCustomer store userName) userName productName quantity).inventory =
      store.inventory.map fun item =>
        if item.itemName == productName then item.purchaseQuantityOf quantity else item := by
  simp only [placeOrder, customer_inventory]
  exact updateFirst_map Item.itemName productName _ _ distinct

theorem serve_balanced (inventory : List Item) (store : Store) (command : Text)
    (distinct : (inventory.map Item.itemName).Nodup) (balanced : Balanced inventory store) :
    Balanced inventory (serve counting unknown store command) := by
  have moved := serve_moved counting unknown store command
  have names := paired_names store.inventory inventory (fun _ _ same => same.1) balanced
  generalize serve counting unknown store command = after at moved
  cases moved with
  | idle => exact balanced
  | filed userName =>
      simp only [Balanced, customer_inventory, customer_ordered]
      exact balanced
  | placed userName productName quantity user line found sold enough =>
      unfold Balanced
      rw [placed_inventory counting store userName productName _ (names ▸ distinct),
        List.forall₂_map_left_iff]
      refine balanced.imp fun item start same => ?_
      rw [place_ordered counting id _ userName productName _ _ user found, customer_ordered]
      by_cases bought : item.itemName = productName
      · subst bought
        simp only [Item.purchaseQuantityOf, BEq.rfl, ↓reduceIte, id]
        refine ⟨same.1, ?_⟩
        rw [← same.2]
        abel
      · simp only [beq_iff_eq, bought, Ne.symm bought, ↓reduceIte, add_zero]
        exact same
  | withdrawn orderID user order found held =>
      unfold Balanced
      rw [show (withdrawOrder store order orderID).inventory = removeItemFrom order store.inventory
        from rfl, removeItemFrom, List.forall₂_map_left_iff]
      refine balanced.imp fun item start same => ?_
      rw [withdraw_ordered id store orderID _ user order found held]
      by_cases returned : item.itemName = order.productName
      · simp only [Item.returnQuantityOf, weight, returned, ↓reduceIte, id]
        refine ⟨returned ▸ same.1, ?_⟩
        rw [← same.2, returned]
        abel
      · simp only [weight, returned, Ne.symm returned, ↓reduceIte, sub_zero]
        exact same

theorem initial_balanced (inventory : List Item) : Balanced inventory (initial inventory) :=
  List.forall₂_same.mpr fun item _ => ⟨rfl, Int32.add_zero item.quantity⟩

theorem stock_conserved (inventory : List Item) (commands : List Text)
    (distinct : (inventory.map Item.itemName).Nodup) :
    Balanced inventory (run counting unknown inventory commands) := by
  induction commands using List.reverseRecOn with
  | nil => exact initial_balanced inventory
  | append_singleton earlier command ih =>
      rw [run, List.foldl_append]
      exact serve_balanced counting unknown inventory _ command distinct ih

theorem stock_conserved_phone :
    Balanced [⟨"phone".toList, 20⟩] (run .int32 (fun _ => []) [⟨"phone".toList, 20⟩]
      ["purchase ann phone 3".toList, "cancel 1".toList, "purchase bob phone -7".toList]) :=
  stock_conserved .int32 (fun _ => []) _ _ (by decide)

end Balance

/-! Overselling. The stock test compares with the wanted quantity only, so a
negative quantity passes it and adds to the stock. -/
section Bounds

/-- Every item holds between nothing and its first quantity. -/
def WithinBounds (inventory : List Item) (store : Store) : Prop :=
  List.Forall₂ (fun item start => item.itemName = start.itemName ∧ 0 ≤ item.quantity ∧
    item.quantity ≤ start.quantity) store.inventory inventory

/-- The command does not buy a negative quantity of a product on sale. -/
def Buys (inventory : List Item) (command : Text) : Prop :=
  ∀ userName productName quantity, PurchaseLine command userName productName quantity →
    productName ∈ inventory.map Item.itemName → 0 ≤ quantity

/-- Exact counts: nothing standing is negative, and stock and orders add up in the integers. -/
structure Stocked (inventory : List Item) (store : Store) : Prop where
  standing : ∀ user ∈ store.clients, ∀ order ∈ user.orderHistory, 0 ≤ order.quantity.toInt
  counted : List.Forall₂ (fun item start => item.itemName = start.itemName ∧
    0 ≤ item.quantity.toInt ∧
    item.quantity.toInt + ordered Int32.toInt store.clients item.itemName = start.quantity.toInt)
    store.inventory inventory

theorem weight_nonneg (product : Text) (order : Order) (nonneg : 0 ≤ order.quantity.toInt) :
    0 ≤ weight Int32.toInt product order := by
  unfold weight
  split
  · exact nonneg
  · exact Int.le_refl 0

theorem owed_nonneg (product : Text) (user : User)
    (nonneg : ∀ order ∈ user.orderHistory, 0 ≤ order.quantity.toInt) :
    0 ≤ owed Int32.toInt product user := by
  apply List.sum_nonneg
  intro amount member
  obtain ⟨order, present, rfl⟩ := List.mem_map.mp member
  exact weight_nonneg product order (nonneg order present)

theorem ordered_nonneg (product : Text) (clients : List User)
    (nonneg : ∀ user ∈ clients, ∀ order ∈ user.orderHistory, 0 ≤ order.quantity.toInt) :
    0 ≤ ordered Int32.toInt clients product := by
  apply List.sum_nonneg
  intro amount member
  obtain ⟨user, present, rfl⟩ := List.mem_map.mp member
  exact owed_nonneg product user (nonneg user present)

theorem stocked_within (inventory : List Item) (store : Store) (stocked : Stocked inventory store) :
    WithinBounds inventory store := by
  refine stocked.counted.imp fun item start same => ⟨same.1, ?_, ?_⟩
  · rw [Int32.le_iff_toInt_le]
    exact same.2.1
  · have more := ordered_nonneg item.itemName store.clients stocked.standing
    rw [Int32.le_iff_toInt_le]
    omega

theorem add_exact (left right : Int32) (low : 0 ≤ left.toInt + right.toInt)
    (high : left.toInt + right.toInt < 2 ^ 31) : (left + right).toInt = left.toInt + right.toInt := by
  rw [Int32.toInt_add]
  exact Int.bmod_eq_of_le (by omega) (by omega)

theorem sub_exact (left right : Int32) (low : 0 ≤ left.toInt - right.toInt)
    (high : left.toInt - right.toInt < 2 ^ 31) : (left - right).toInt = left.toInt - right.toInt := by
  rw [Int32.toInt_sub]
  exact Int.bmod_eq_of_le (by omega) (by omega)

theorem line_quantity (command userName productName : Text) (quantity : Int)
    (line : PurchaseLine command userName productName quantity) :
    (Int32.ofInt quantity).toInt = quantity := by
  obtain ⟨text, _, parsed⟩ := Option.bind_eq_some_iff.mp line.quantity
  have held := parseInt_holds .int32 text quantity parsed
  have range := of_decide_eq_true held
  exact Int32.toInt_ofInt_of_le range.1 range.2

theorem names_sold (inventory : List Item) (productName : Text) (store : Store)
    (names : store.inventory.map Item.itemName = inventory.map Item.itemName)
    (sold : existsInInventory store productName = true) :
    productName ∈ inventory.map Item.itemName := by
  rw [← names]
  simpa [existsInInventory] using sold

theorem enough_stock (store : Store) (productName : Text) (desired : Int32) (item : Item)
    (enough : inventoryHasEnoughOf store productName desired = true) (present : item ∈ store.inventory)
    (named : item.itemName = productName) : desired.toInt ≤ item.quantity.toInt := by
  simp only [inventoryHasEnoughOf, Bool.not_eq_true', List.any_eq_false] at enough
  have passed := enough item present
  simp only [named, BEq.rfl, Bool.true_and, decide_eq_true_eq, Int32.lt_iff_toInt_lt] at passed
  omega

theorem customer_standing (store : Store) (userName : Text)
    (standing : ∀ user ∈ store.clients, ∀ order ∈ user.orderHistory, 0 ≤ order.quantity.toInt) :
    ∀ user ∈ (withCustomer store userName).clients, ∀ order ∈ user.orderHistory,
      0 ≤ order.quantity.toInt := by
  unfold withCustomer
  split
  · intro user member order held
    rcases List.mem_append.mp member with old | new
    · exact standing user old order held
    · rw [List.mem_singleton.mp new] at held
      simp at held
  · exact standing

theorem place_standing (store : Store) (userName productName : Text) (quantity : Int32)
    (nonneg : 0 ≤ quantity.toInt)
    (standing : ∀ user ∈ store.clients, ∀ order ∈ user.orderHistory, 0 ≤ order.quantity.toInt) :
    ∀ user ∈ (placeOrder counting store userName productName quantity).clients,
      ∀ order ∈ user.orderHistory, 0 ≤ order.quantity.toInt := by
  intro user member order held
  rcases mem_updateFirst _ _ _ user member with old | ⟨before, present, rfl⟩
  · exact standing user old order held
  · rcases List.mem_append.mp held with old | new
    · exact standing before present order old
    · rw [List.mem_singleton.mp new]
      exact nonneg

theorem withdraw_standing (store : Store) (cancelledOrder : Order) (orderID : Int)
    (standing : ∀ user ∈ store.clients, ∀ order ∈ user.orderHistory, 0 ≤ order.quantity.toInt) :
    ∀ user ∈ (withdrawOrder store cancelledOrder orderID).clients,
      ∀ order ∈ user.orderHistory, 0 ≤ order.quantity.toInt := by
  intro user member order held
  rcases mem_updateFirst _ _ _ user member with old | ⟨before, present, rfl⟩
  · exact standing user old order held
  · exact standing before present order (List.mem_of_mem_eraseP held)

-- The withdrawn order is part of what stood, so the returned stock stays in range.
theorem withdrawn_owed (store : Store) (orderID : Int) (product : Text) (user : User) (order : Order)
    (found : findUserThroughID store orderID = some user) (held : user.getOrder orderID = some order)
    (standing : ∀ user ∈ store.clients, ∀ order ∈ user.orderHistory, 0 ≤ order.quantity.toInt) :
    weight Int32.toInt product order ≤ ordered Int32.toInt store.clients product := by
  have rest := ordered_nonneg product _ (withdraw_standing store order orderID standing)
  rw [withdraw_ordered Int32.toInt store orderID product user order found held] at rest
  omega

theorem serve_stocked (inventory : List Item) (store : Store) (command : Text)
    (distinct : (inventory.map Item.itemName).Nodup) (buys : Buys inventory command)
    (stocked : Stocked inventory store) :
    Stocked inventory (serve counting unknown store command) := by
  have moved := serve_moved counting unknown store command
  have names := paired_names store.inventory inventory (fun _ _ same => same.1) stocked.counted
  generalize serve counting unknown store command = after at moved
  cases moved with
  | idle => exact stocked
  | filed userName =>
      refine ⟨customer_standing store userName stocked.standing, ?_⟩
      simp only [customer_inventory, customer_ordered]
      exact stocked.counted
  | placed userName productName quantity user line found sold enough =>
      have exact := line_quantity command userName productName quantity line
      have nonneg : 0 ≤ quantity :=
        buys userName productName quantity line (names_sold inventory productName store names sold)
      refine ⟨place_standing counting _ userName productName _ (by omega)
        (customer_standing store userName stocked.standing), ?_⟩
      rw [placed_inventory counting store userName productName _ (names ▸ distinct),
        List.forall₂_map_left_iff]
      have covered := (List.forall₂_and_left store.inventory inventory).mpr
        ⟨fun item present => enough_stock store productName _ item enough present, stocked.counted⟩
      refine covered.imp fun item start same => ?_
      obtain ⟨plenty, sameName, low, total⟩ := same
      rw [place_ordered counting Int32.toInt _ userName productName _ _ user found, customer_ordered]
      by_cases bought : item.itemName = productName
      · have enoughHere := plenty bought
        have range := item.quantity.toInt_lt
        have less := sub_exact item.quantity (Int32.ofInt quantity) (by omega) (by omega)
        subst bought
        simp only [Item.purchaseQuantityOf, BEq.rfl, ↓reduceIte, less]
        refine ⟨sameName, by omega, by omega⟩
      · simp only [beq_iff_eq, bought, Ne.symm bought, ↓reduceIte, add_zero]
        exact ⟨sameName, low, total⟩
  | withdrawn orderID user order found held =>
      refine ⟨withdraw_standing store order orderID stocked.standing, ?_⟩
      rw [show (withdrawOrder store order orderID).inventory = removeItemFrom order store.inventory
        from rfl, removeItemFrom, List.forall₂_map_left_iff]
      refine stocked.counted.imp fun item start same => ?_
      have part := withdrawn_owed store orderID item.itemName user order found held stocked.standing
      have range := start.quantity.toInt_lt
      by_cases returned : item.itemName = order.productName
      · have nonneg : 0 ≤ order.quantity.toInt :=
          stocked.standing user (List.mem_of_find?_eq_some found) order
            (List.mem_of_find?_eq_some held)
        simp only [weight, returned, ↓reduceIte] at part
        have sum := add_exact item.quantity order.quantity (by omega) (by rw [returned] at same; omega)
        simp only [Item.returnQuantityOf, returned, ↓reduceIte, sum]
        rw [withdraw_ordered Int32.toInt store orderID _ user order found held]
        simp only [weight, ↓reduceIte]
        refine ⟨returned ▸ same.1, by omega, ?_⟩
        rw [← same.2.2, returned]
        omega
      · simp only [returned, ↓reduceIte]
        rw [withdraw_ordered Int32.toInt store orderID _ user order found held]
        simp only [weight, Ne.symm returned, ↓reduceIte, sub_zero]
        exact same

theorem initial_stocked (inventory : List Item)
    (nonneg : ∀ item ∈ inventory, 0 ≤ item.quantity) : Stocked inventory (initial inventory) := by
  refine ⟨by simp [initial], List.forall₂_same.mpr fun item member => ⟨rfl, ?_, ?_⟩⟩
  · exact Int32.le_iff_toInt_le.mp (nonneg item member)
  · simp [ordered, initial]

-- Induction on the commands; `Stocked` carries the exact counts from one to the next.
theorem stock_within_bounds (inventory : List Item) (commands : List Text)
    (distinct : (inventory.map Item.itemName).Nodup) (nonneg : ∀ item ∈ inventory, 0 ≤ item.quantity)
    (buys : ∀ command ∈ commands, Buys inventory command) :
    WithinBounds inventory (run counting unknown inventory commands) := by
  apply stocked_within
  induction commands using List.reverseRecOn with
  | nil => exact initial_stocked inventory nonneg
  | append_singleton earlier command ih =>
      rw [run, List.foldl_append]
      apply serve_stocked counting unknown inventory _ command distinct
      · exact buys command (by simp)
      · exact ih fun other member => buys other (by simp [member])

theorem phone_within_bounds :
    WithinBounds [⟨"phone".toList, 20⟩] (run .int32 (fun _ => []) [⟨"phone".toList, 20⟩]
      ["purchase ann phone 3".toList]) := by
  apply stock_within_bounds .int32 (fun _ => []) _ _ (by decide) (by decide)
  intro command member userName productName quantity line sold
  have parsed := line.quantity
  have three : ((split ' ' "purchase ann phone 3".toList)[3]?).bind (parseInt .int32) = some 3 := by
    decide
  rw [List.mem_singleton.mp member, three] at parsed
  exact Option.some.inj parsed ▸ by decide

-- Buying minus five phones leaves twenty-five where twenty were.
theorem stock_above_first_quantity :
    ¬ ∀ (unknown : Text → Text) (inventory : List Item) (commands : List Text),
      (inventory.map Item.itemName).Nodup → (∀ item ∈ inventory, 0 ≤ item.quantity) →
      handled .int32 unknown (initial inventory) commands = true →
      WithinBounds inventory (run .int32 unknown inventory commands) := by
  intro claim
  have within := claim (fun _ => []) [⟨"phone".toList, 20⟩] ["purchase a phone -5".toList]
    (by decide) (by decide) (by decide)
  have stock : (run .int32 (fun _ => []) [⟨"phone".toList, 20⟩]
      ["purchase a phone -5".toList]).inventory = [⟨"phone".toList, 25⟩] := by decide
  rw [WithinBounds, stock, List.forall₂_cons] at within
  exact absurd within.1.2.2 (by decide)

end Bounds

end EE360P.StockBalance
