import EE360P.InventoryFile
import EE360P.StockBalance

/-! The replies to `list` and `search`, after the client of project3 or project4
has reformatted them. A record ends with '$' on the wire and with a line break at
the client. The product names of the inventory file are all that can go wrong. -/

namespace EE360P.ListedReplies
open JavaText ListEntries OnlineStore StockBalance InventoryFile

section Client

def lineEnd : Text := "\r\n".toList

def reformatServerResponse (serverResponse : Text) : Text :=
  (split '$' serverResponse).flatMap fun item => item ++ lineEnd

/-- A record is what is printed of an item or an order, without its end. -/
def sent (records : List Text) : Text := records.flatMap fun record => record ++ ['$']

def shown (records : List Text) : Text := records.flatMap fun record => record ++ lineEnd

theorem pieces_sent (records : List Text)
    (clean : ∀ record ∈ records, record ≠ [] ∧ '$' ∉ record) : pieces '$' (sent records) = records := by
  induction records with
  | nil => rfl
  | cons record rest ih =>
      obtain ⟨filled, single⟩ := clean record List.mem_cons_self
      have tail := ih fun other member => clean other (List.mem_cons_of_mem record member)
      have text : sent (record :: rest) = record ++ '$' :: sent rest := by simp [sent]
      rw [text, pieces_shown '$' record (sent rest) single filled, tail]

theorem reformat_sent (records : List Text) (some_ : records ≠ [])
    (clean : ∀ record ∈ records, record ≠ [] ∧ '$' ∉ record) :
    reformatServerResponse (sent records) = shown records := by
  have text : sent records ≠ [] := by
    obtain ⟨record, member⟩ := List.exists_mem_of_ne_nil records some_
    intro empty
    have none := List.flatMap_eq_nil_iff.mp empty record member
    exact absurd (List.append_eq_nil_iff.mp none).2 (List.cons_ne_nil '$' [])
  rw [reformatServerResponse, split_pieces '$' _ text, pieces_sent records clean, shown]

-- Whatever came, no end of a record is left.
theorem reformat_clean (serverResponse : Text) : '$' ∉ reformatServerResponse serverResponse := by
  intro member
  obtain ⟨item, present, inside⟩ := List.mem_flatMap.mp member
  rcases List.mem_append.mp inside with inItem | inEnd
  · obtain ⟨position, found⟩ := List.mem_iff_getElem?.mp present
    exact split_absent '$' serverResponse item position found inItem
  · exact absurd inEnd (by decide)

theorem reformat_empty : reformatServerResponse (sent []) ≠ shown [] := by decide

/-- The client shows the records that were sent exactly if there are any, and none
of them has a '$' in it. -/
theorem reformat_shown (records : List Text) (filled : ∀ record ∈ records, record ≠ []) :
    reformatServerResponse (sent records) = shown records ↔
      records ≠ [] ∧ ∀ record ∈ records, '$' ∉ record := by
  constructor
  · intro same
    constructor
    · rintro rfl
      exact reformat_empty same
    · intro record member inside
      apply reformat_clean (sent records)
      rw [same]
      exact List.mem_flatMap.mpr ⟨record, member, List.mem_append_left _ inside⟩
  · rintro ⟨some_, clean⟩
    exact reformat_sent records some_ fun record member => ⟨filled record member, clean record member⟩

end Client

section Records

def itemRecord (item : Item) : Text := item.itemName ++ " ".toList ++ intText item.quantity.toInt

def orderRecord (order : Order) : Text :=
  intText order.orderID ++ ", ".toList ++ order.productName ++ ", ".toList ++
    intText order.quantity.toInt

theorem number_clean (n : Int) : '$' ∉ intText n := by
  intro member
  exact absurd (intText_chars n '$' member) (by decide)

theorem item_clean (item : Item) : '$' ∉ itemRecord item ↔ '$' ∉ item.itemName := by
  have blank : '$' ∉ " ".toList := by decide
  simp only [itemRecord, List.mem_append, number_clean, blank, or_false]

theorem order_clean (order : Order) : '$' ∉ orderRecord order ↔ '$' ∉ order.productName := by
  have comma : '$' ∉ ", ".toList := by decide
  simp only [orderRecord, List.mem_append, number_clean, comma, or_false, false_or]

theorem item_filled (item : Item) : itemRecord item ≠ [] := by simp [itemRecord]

theorem order_filled (order : Order) : orderRecord order ≠ [] := by simp [orderRecord]

theorem list_sent (store : Store) : list store = sent (store.inventory.map itemRecord) := by
  rw [list, sent, List.flatMap_map]
  rfl

theorem search_sent (store : Store) (userName : Text) (user : User)
    (found : findUserThroughName store userName = some user) (orders : user.orderHistory ≠ []) :
    search store userName = sent (user.orderHistory.map orderRecord) := by
  simp only [search, found, orders, ↓reduceIte]
  rw [sent, List.flatMap_map]
  rfl

/-- For any store: `list` gets through. -/
theorem list_shown (store : Store) :
    reformatServerResponse (list store) = shown (store.inventory.map itemRecord) ↔
      store.inventory ≠ [] ∧ ∀ item ∈ store.inventory, '$' ∉ item.itemName := by
  rw [list_sent, reformat_shown _ (by simp [item_filled])]
  simp [item_clean]

/-- For any store: the orders of one user get through. -/
theorem search_shown (store : Store) (userName : Text) (user : User)
    (found : findUserThroughName store userName = some user) (orders : user.orderHistory ≠ []) :
    reformatServerResponse (search store userName) = shown (user.orderHistory.map orderRecord) ↔
      ∀ order ∈ user.orderHistory, '$' ∉ order.productName := by
  rw [search_sent store userName user found orders, reformat_shown _ (by simp [order_filled])]
  simp [order_clean, orders]

end Records

/-! In a run the names of the inventory stay, and every order is for one of them. -/
section Runs
variable (counting : Counting) (unknown : Text → Text)

structure Named (names : List Text) (store : Store) : Prop where
  items : store.inventory.map Item.itemName = names
  orders : ∀ user ∈ store.clients, ∀ order ∈ user.orderHistory, order.productName ∈ names

variable {names : List Text} {store : Store}

theorem customer_named (userName : Text) (named : Named names store) :
    Named names (withCustomer store userName) := by
  unfold withCustomer
  split
  · constructor
    · exact named.items
    · intro user member
      rcases List.mem_append.mp member with old | new
      · exact named.orders user old
      · rw [List.mem_singleton.mp new]
        nofun
  · exact named

theorem place_named (userName productName : Text) (quantity : Int32) (named : Named names store)
    (sold : productName ∈ names) :
    Named names (placeOrder counting store userName productName quantity) := by
  constructor
  · rw [← named.items, placeOrder]
    exact updateFirst_kept _ (Item.purchaseQuantityOf quantity) _ (fun _ => rfl) store.inventory
  · intro user member order filed
    rcases mem_updateFirst _ _ _ user member with old | ⟨before, old, rfl⟩
    · exact named.orders user old order filed
    · rcases List.mem_append.mp filed with earlier | new
      · exact named.orders before old order earlier
      · rw [List.mem_singleton.mp new]
        exact sold

theorem withdraw_named (order : Order) (orderID : Int) (named : Named names store) :
    Named names (withdrawOrder store order orderID) := by
  constructor
  · rw [← named.items, withdrawOrder, removeItemFrom, List.map_map]
    apply List.map_congr_left
    intro item _
    rw [Function.comp_apply]
    split
    · rfl
    · rfl
  · intro user member other filed
    rcases mem_updateFirst _ _ _ user member with old | ⟨before, old, rfl⟩
    · exact named.orders user old other filed
    · exact named.orders before old other (List.mem_of_mem_eraseP filed)

theorem serve_named (command : Text) (named : Named names store) :
    Named names (serve counting unknown store command) := by
  have moved := serve_moved counting unknown store command
  generalize serve counting unknown store command = after at moved
  cases moved with
  | idle => exact named
  | filed userName => exact customer_named userName named
  | placed userName productName quantity user line found sold enough =>
      apply place_named counting userName productName _ (customer_named userName named)
      rw [← named.items]
      simpa [existsInInventory] using sold
  | withdrawn orderID user order found held => exact withdraw_named order orderID named

theorem run_named (inventory : List Item) (commands : List Text) :
    Named (inventory.map Item.itemName) (run counting unknown inventory commands) := by
  induction commands using List.reverseRecOn with
  | nil => exact ⟨rfl, nofun⟩
  | append_singleton earlier command ih =>
      rw [run, List.foldl_append]
      exact serve_named counting unknown command ih

/-- What a client shows of `list`, and of `search` for whoever has orders. -/
structure Legible (store : Store) : Prop where
  list : reformatServerResponse (list store) = shown (store.inventory.map itemRecord)
  search : ∀ userName user, findUserThroughName store userName = some user →
    user.orderHistory ≠ [] →
      reformatServerResponse (search store userName) = shown (user.orderHistory.map orderRecord)

/-- In every store of a run, both replies come through exactly if the inventory has
items and no name in it has a '$'. -/
theorem replies_shown (inventory : List Item) (commands : List Text) :
    Legible (run counting unknown inventory commands) ↔
      inventory ≠ [] ∧ ∀ item ∈ inventory, '$' ∉ item.itemName := by
  have named := run_named counting unknown inventory commands
  have clean : (∀ item ∈ (run counting unknown inventory commands).inventory, '$' ∉ item.itemName) ↔
      ∀ item ∈ inventory, '$' ∉ item.itemName := by
    rw [← List.forall_mem_map (P := fun name => '$' ∉ name), named.items, List.forall_mem_map]
  have some_ : (run counting unknown inventory commands).inventory ≠ [] ↔ inventory ≠ [] := by
    rw [← (List.map_eq_nil_iff (f := Item.itemName)).ne, named.items, List.map_eq_nil_iff.ne]
  rw [← some_, ← clean, ← list_shown]
  constructor
  · intro legible
    exact legible.list
  · intro listed
    constructor
    · exact listed
    · intro userName user found orders
      apply (search_shown _ userName user found orders).mpr
      intro order filed
      have bought := named.orders user (List.mem_of_find?_eq_some found) order filed
      obtain ⟨item, member, same⟩ := List.mem_map.mp bought
      rw [← same]
      exact clean.mp ((list_shown _).mp listed).2 item member

-- An empty file: the client shows one empty line for no item.
theorem empty_list_shown : ¬ ∀ (lines : List Text) (inventory : List Item) (commands : List Text),
    addItemsToInventoryFrom lines = .ok inventory →
      Legible (run .int32 (fun _ => []) inventory commands) := by
  intro legible
  exact absurd (legible [] [] [] rfl).list (by decide)

-- A name with a '$' in it is shown as two lines.
example : reformatServerResponse (list (initial [⟨"a$b".toList, 1⟩])) = "a\r\nb 1\r\n".toList := by
  decide

end Runs

end EE360P.ListedReplies
