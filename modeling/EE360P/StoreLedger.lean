import Mathlib.Data.List.Nodup
import EE360P.OnlineStore
import EE360P.OrderLedger

/-! The store of `Server.execute` keeps the order ledger that an observer writes
down from the commands and the replies alone. Order IDs are exact integers
here; stock plays no part. -/

namespace EE360P.StoreLedger
open JavaText ListEntries OnlineStore OrderLedger

abbrev Book := Ledger Text Text Int32

def toOrder (entry : Entry Text Text Int32) : Order := ⟨entry.number, entry.good, entry.amount⟩

/-- Users are filed under distinct names, and each history is the standing part
of the ledger under that name. -/
structure Represents (store : Store) (ledger : Book) : Prop where
  counted : store.currentID = ledger.entries.length
  named : (store.clients.map User.name).Nodup
  filed : ∀ user ∈ store.clients, user.orderHistory = (account ledger user.name).map toOrder
  owned : ∀ name, account ledger name ≠ [] → name ∈ store.clients.map User.name

theorem initial_represents (inventory : List Item) : Represents (initial inventory) empty := by
  refine ⟨rfl, List.nodup_nil, ?_, ?_⟩
  · simp [initial]
  · intro name nonempty
    exact absurd rfl nonempty

theorem unknown_name (store : Store) (name : Text) (absent : findUserThroughName store name = none) :
    name ∉ store.clients.map User.name := by
  simp only [findUserThroughName, List.find?_eq_none, beq_iff_eq] at absent
  intro member
  obtain ⟨user, present, same⟩ := List.mem_map.mp member
  exact absent user present same

theorem customer_represents (store : Store) (ledger : Book) (name : Text)
    (represents : Represents store ledger) :
    Represents (withCustomer store name) ledger ∧
      name ∈ (withCustomer store name).clients.map User.name := by
  unfold withCustomer
  split
  · rename_i absent
    have fresh := unknown_name store name absent
    have blank : account ledger name = [] := by
      by_contra nonempty
      exact fresh (represents.owned name nonempty)
    refine ⟨⟨represents.counted, ?_, ?_, ?_⟩, by simp⟩
    · rw [List.map_append, List.nodup_append]
      refine ⟨represents.named, by simp, ?_⟩
      rintro old member other new rfl
      have same : old = name := by simpa using new
      exact fresh (same ▸ member)
    · intro user member
      rcases List.mem_append.mp member with old | new
      · exact represents.filed user old
      · rw [List.mem_singleton.mp new, blank]
        rfl
    · intro other nonempty
      have known := represents.owned other nonempty
      simpa using Or.inl (by simpa using known)
  · rename_i user found
    refine ⟨represents, List.mem_map.mpr ⟨user, List.mem_of_find?_eq_some found, ?_⟩⟩
    simpa using List.find?_some found

theorem place_represents (store : Store) (ledger : Book) (userName productName : Text)
    (quantity : Int32) (represents : Represents store ledger)
    (customer : userName ∈ store.clients.map User.name) :
    Represents (placeOrder .exact store userName productName quantity)
      (issue ledger userName productName quantity) := by
  have names := updateFirst_kept (fun user => user.name == userName)
    (User.addOrder ⟨store.currentID + 1, productName, quantity⟩) User.name (fun _ => rfl) store.clients
  refine ⟨?_, ?_, ?_, ?_⟩
  · simp [placeOrder, issue, represents.counted]
  · simpa [placeOrder, names] using represents.named
  · intro user member
    simp only [placeOrder, exact_wrap, updateFirst_map User.name userName _ _ represents.named,
      List.mem_map] at member
    obtain ⟨before, present, rfl⟩ := member
    have history := represents.filed before present
    rw [account_issue]
    by_cases buyer : before.name = userName
    · subst buyer
      simp [User.addOrder, history, toOrder, nextEntry, represents.counted]
    · simp [buyer, Ne.symm buyer, history]
  · intro name nonempty
    have known : name ∈ store.clients.map User.name := by
      by_cases buyer : userName = name
      · exact buyer ▸ customer
      · apply represents.owned name
        simpa [account_issue, buyer] using nonempty
    simpa [placeOrder, names] using known

theorem holder_entry (store : Store) (ledger : Book) (user : User) (orderID : Int)
    (represents : Represents store ledger) (present : user ∈ store.clients) :
    (user.orderHistory.any fun order => order.orderID == orderID) = true ↔
      ∃ entry ∈ account ledger user.name, entry.number = orderID := by
  simp [represents.filed user present, toOrder]

-- An ID that is not filed anywhere is not standing in the ledger.
theorem missing_order (store : Store) (ledger : Book) (orderID : Int)
    (represents : Represents store ledger) :
    findUserThroughID store orderID = none ↔ ¬ Standing ledger orderID := by
  simp only [findUserThroughID, List.find?_eq_none]
  rw [standing_account]
  constructor
  · rintro absent ⟨name, entry, member, number⟩
    have known := represents.owned name (List.ne_nil_of_mem member)
    obtain ⟨user, present, rfl⟩ := List.mem_map.mp known
    exact absent user present ((holder_entry store ledger user orderID represents present).mpr
      ⟨entry, member, number⟩)
  · intro absent user present held
    exact absent ⟨user.name, (holder_entry store ledger user orderID represents present).mp held⟩

theorem found_holds (store : Store) (user : User) (orderID : Int)
    (found : findUserThroughID store orderID = some user) :
    (user.orderHistory.any fun order => order.orderID == orderID) = true := by
  exact List.find?_some (p := fun user : User => user.orderHistory.any _) found

theorem found_order (store : Store) (user : User) (orderID : Int)
    (found : findUserThroughID store orderID = some user) :
    ∃ order, user.getOrder orderID = some order := by
  obtain ⟨order, member, same⟩ := List.any_eq_true.mp (found_holds store user orderID found)
  exact Option.isSome_iff_exists.mp (List.find?_isSome.mpr ⟨order, member, same⟩)

theorem erase_filter (orders : List Order) (orderID : Int)
    (increasing : orders.Pairwise fun earlier later => earlier.orderID < later.orderID) :
    orders.eraseP (fun order => order.orderID == orderID) =
      orders.filter fun order => order.orderID != orderID := by
  induction orders with
  | nil => rfl
  | cons order rest ih =>
      have bounds := List.pairwise_cons.mp increasing
      by_cases hit : order.orderID = orderID
      · have kept : ∀ other ∈ rest, other.orderID ≠ orderID := by
          intro other member same
          have less := bounds.1 other member
          omega
        have whole : (rest.filter fun other => other.orderID != orderID) = rest :=
          List.filter_eq_self.mpr (by simpa using kept)
        simp [hit, whole]
      · simpa [List.eraseP_cons, hit] using ih bounds.2

def User.withoutOrder (orderID : Int) (user : User) : User :=
  { user with orderHistory := user.orderHistory.filter fun order => order.orderID != orderID }

theorem history_increasing (store : Store) (ledger : Book) (user : User)
    (represents : Represents store ledger) (present : user ∈ store.clients) :
    user.orderHistory.Pairwise fun earlier later => earlier.orderID < later.orderID := by
  rw [represents.filed user present, List.pairwise_map]
  exact account_increasing ledger user.name

/-- `removeOrder` takes the order out of the one history that has it. -/
theorem withdraw_clients (store : Store) (ledger : Book) (user : User) (order : Order)
    (orderID : Int) (represents : Represents store ledger)
    (found : findUserThroughID store orderID = some user) :
    (withdrawOrder store order orderID).clients = store.clients.map (User.withoutOrder orderID) := by
  have present : user ∈ store.clients := List.mem_of_find?_eq_some found
  have held := found_holds store user orderID found
  obtain ⟨entry, filed, number⟩ := (holder_entry store ledger user orderID represents present).mp held
  have holder : ∀ other ∈ store.clients,
      (other.orderHistory.any fun order => order.orderID == orderID) = true ↔ other.name = user.name := by
    intro other there
    rw [holder_entry store ledger other orderID represents there]
    constructor
    · rintro ⟨also, member, same⟩
      exact account_unique ledger other.name user.name also entry member filed (same.trans number.symm)
    · intro same
      exact ⟨entry, same ▸ filed, number⟩
  have rewritten : (withdrawOrder store order orderID).clients =
      store.clients.map fun other =>
        if other.name == user.name then other.removeOrder orderID else other := by
    rw [← updateFirst_map User.name user.name _ _ represents.named]
    refine updateFirst_congr _ _ _ _ fun other there => Bool.eq_iff_iff.mpr ?_
    rw [holder other there, beq_iff_eq]
  rw [rewritten]
  apply List.map_congr_left
  intro other there
  by_cases same : other.name = user.name
  · have erased := erase_filter other.orderHistory orderID
      (history_increasing store ledger other represents there)
    simp [same, User.removeOrder, User.withoutOrder, erased]
  · have absent : ∀ kept ∈ other.orderHistory, kept.orderID ≠ orderID := by
      intro kept member equal
      exact same ((holder other there).mp (List.any_eq_true.mpr ⟨kept, member, by simpa using equal⟩))
    have whole : (other.orderHistory.filter fun kept => kept.orderID != orderID) = other.orderHistory :=
      List.filter_eq_self.mpr (by simpa using absent)
    simp [same, User.withoutOrder, whole]

theorem withdraw_represents (store : Store) (ledger : Book) (user : User) (order : Order)
    (orderID : Int) (represents : Represents store ledger)
    (found : findUserThroughID store orderID = some user) :
    Represents (withdrawOrder store order orderID) (withdraw ledger orderID) := by
  have clients := withdraw_clients store ledger user order orderID represents found
  have names : (withdrawOrder store order orderID).clients.map User.name =
      store.clients.map User.name := by
    rw [clients, List.map_map]
    rfl
  refine ⟨?_, names ▸ represents.named, ?_, ?_⟩
  · have length : (withdraw ledger orderID).entries = ledger.entries := by
      unfold withdraw
      split <;> rfl
    simp [withdrawOrder, represents.counted, length]
  · intro other member
    rw [clients] at member
    obtain ⟨before, there, rfl⟩ := List.mem_map.mp member
    have history := represents.filed before there
    change (before.orderHistory.filter fun order => order.orderID != orderID) =
      (account (withdraw ledger orderID) before.name).map toOrder
    rw [account_withdraw, history, List.filter_map]
    congr 1
    apply List.filter_congr
    intro entry _
    by_cases here : entry.number = orderID <;> simp [toOrder, here]
  · intro name nonempty
    rw [names]
    apply represents.owned name
    intro blank
    exact nonempty (by rw [account_withdraw, blank]; rfl)

/-! What an observer of commands and replies writes down. -/
section Transcript

inductive Deed where
  | bought (userName productName : Text) (quantity : Int32)
  | withdrew (orderID : Int)
  | other
  deriving DecidableEq, Repr

def placedPrefix : Text := "Your order has been placed, ".toList

def cancelledPrefix : Text := "Order ".toList

def boughtBy (arguments : List Text) : Option Deed := do
  let userName ← arguments[1]?
  let productName ← arguments[2]?
  let quantity ← arguments[3]?.bind (parseInt .int32)
  return .bought userName productName (Int32.ofInt quantity)

/-- Success is read off the reply, the arguments off the command. -/
def deed (command reply : Text) : Deed :=
  let arguments := split ' ' command
  if arguments[0]? = some "purchase".toList ∧ placedPrefix <+: reply then
    (boughtBy arguments).getD .other
  else if arguments[0]? = some "cancel".toList ∧ cancelledPrefix <+: reply then
    ((arguments[1]?.bind (parseInt .exact)).map Deed.withdrew).getD .other
  else .other

def record (ledger : Book) : Deed → Book
  | .bought userName productName quantity => issue ledger userName productName quantity
  | .withdrew orderID => withdraw ledger orderID
  | .other => ledger

def recordAll (ledger : Book) (transcript : List (Text × Text)) : Book :=
  transcript.foldl (fun ledger line => record ledger (deed line.1 line.2)) ledger

def Deed.isPurchase : Deed → Bool
  | .bought .. => true
  | _ => false

/-- The replies to the successful purchases, in order. -/
def placements (transcript : List (Text × Text)) : List Text :=
  (transcript.filter fun line => (deed line.1 line.2).isPurchase).map Prod.snd

/-- The commands one after the other; a throwing one ends the sequence. -/
def transcribe (counting : Counting) (unknown : Text → Text) :
    Store → List Text → Except Thrown (List (Text × Text) × Store)
  | store, [] => .ok ([], store)
  | store, command :: rest => do
      let (reply, after) ← executeWith counting unknown command store
      let (later, final) ← transcribe counting unknown after rest
      return ((command, reply) :: later, final)

theorem placed_prefixed (orderID : Int) (userName productName : Text) (quantity : Int32) :
    placedPrefix ++ intText orderID ++ " ".toList <+: placedReply orderID userName productName quantity := by
  have whole : placedReply orderID userName productName quantity =
      (placedPrefix ++ intText orderID ++ " ".toList) ++
        (userName ++ (" ".toList ++ (productName ++ (" ".toList ++ (intText quantity.toInt ++ ".".toList))))) := by
    unfold placedReply placedPrefix
    simp only [List.append_assoc]
  rw [whole]
  exact List.prefix_append _ _

theorem cancelled_prefixed (orderID : Int) : cancelledPrefix <+: cancelledReply orderID := by
  have whole : cancelledReply orderID =
      cancelledPrefix ++ (intText orderID ++ " is cancelled.".toList) := by
    unfold cancelledReply cancelledPrefix
    simp only [List.append_assoc]
  rw [whole]
  exact List.prefix_append _ _

-- A printed number starts with a digit or a sign, `cancelledPrefix` with a letter.
theorem no_order_unprefixed (orderID : Int) : ¬ cancelledPrefix <+: noOrderReply orderID := by
  rcases shape : intText orderID with _ | ⟨first, rest⟩
  · have parsed := intText_signed orderID
    rw [shape] at parsed
    exact absurd parsed (by simp [signedValue, magnitude])
  · intro starts
    have same : first = 'O' := by
      rw [noOrderReply, shape, List.cons_append] at starts
      exact (List.cons_prefix_cons.mp starts).1.symm
    have member : 'O' ∈ intText orderID := by simp [shape, same]
    rcases intText_chars orderID 'O' member with minus | isDigit
    · exact absurd minus (by decide)
    · exact absurd isDigit (by decide)

theorem deed_purchase (command reply userName productName : Text) (quantity : Int)
    (line : PurchaseLine command userName productName quantity) :
    deed command reply =
      if placedPrefix <+: reply then .bought userName productName (Int32.ofInt quantity) else .other := by
  have bought : boughtBy (split ' ' command) = some (.bought userName productName (Int32.ofInt quantity)) := by
    simp [boughtBy, line.userName, line.productName, line.quantity]
  by_cases placed : placedPrefix <+: reply <;> simp [deed, line.operation, placed, bought]

theorem deed_cancel (command reply : Text) (orderID : Int) (line : CancelLine .exact command orderID) :
    deed command reply = if cancelledPrefix <+: reply then .withdrew orderID else .other := by
  by_cases withdrawn : cancelledPrefix <+: reply <;>
    simp [deed, line.operation, line.orderID, withdrawn]

theorem deed_other (command reply operation : Text) (named : (split ' ' command)[0]? = some operation)
    (other : operation ≠ "purchase".toList ∧ operation ≠ "cancel".toList) :
    deed command reply = .other := by
  simp only [deed, named, Option.some.injEq, other.1, other.2, false_and, ↓reduceIte]

/-- What the observer writes down after one command, and that the store agrees. -/
structure Recorded (ledger : Book) (done : Deed) (reply : Text) (store : Store) : Prop where
  represents : Represents store (record ledger done)
  numbered : done.isPurchase = true →
    placedPrefix ++ intText (ledger.entries.length + 1) ++ " ".toList <+: reply

theorem unrecorded (ledger : Book) (reply : Text) (store : Store)
    (represents : Represents store ledger) : Recorded ledger .other reply store :=
  ⟨represents, fun purchase => by simp [Deed.isPurchase] at purchase⟩

theorem purchase_recorded (store : Store) (ledger : Book) (command userName productName : Text)
    (quantity : Int) (represents : Represents store ledger)
    (line : PurchaseLine command userName productName quantity) :
    let result := purchase .exact store userName productName (Int32.ofInt quantity)
    Recorded ledger (deed command result.1) result.1 result.2 := by
  have customer := customer_represents store ledger userName represents
  simp only [deed_purchase command _ userName productName quantity line]
  unfold purchase
  by_cases sold : existsInInventory (withCustomer store userName) productName = true
  · by_cases enough :
        inventoryHasEnoughOf (withCustomer store userName) productName (Int32.ofInt quantity) = true
    · have prefixed := placed_prefixed (ledger.entries.length + 1) userName productName
        (Int32.ofInt quantity)
      have starts : placedPrefix <+: placedReply (ledger.entries.length + 1) userName productName
          (Int32.ofInt quantity) := by
        rw [List.append_assoc] at prefixed
        exact (List.prefix_append _ _).trans prefixed
      have number : (placeOrder .exact (withCustomer store userName) userName productName
          (Int32.ofInt quantity)).currentID = ledger.entries.length + 1 := by
        simp [placeOrder, customer.1.counted]
      simp only [sold, enough, Bool.not_true, Bool.false_eq_true, ↓reduceIte, number, starts]
      refine ⟨?_, fun _ => prefixed⟩
      exact place_represents _ ledger userName productName _ customer.1 customer.2
    · have refused : ¬ placedPrefix <+: notEnoughReply := by decide
      simp only [sold, enough, Bool.not_true, Bool.not_false, Bool.false_eq_true, ↓reduceIte, refused]
      exact unrecorded ledger _ _ customer.1
  · have refused : ¬ placedPrefix <+: notSoldReply := by decide
    simp only [sold, Bool.not_false, ↓reduceIte, refused]
    exact unrecorded ledger _ _ customer.1

theorem cancel_standing (store : Store) (ledger : Book) (orderID : Int)
    (represents : Represents store ledger) (standing : Standing ledger orderID) :
    ∃ after, cancel store orderID = .ok (cancelledReply orderID, after) ∧
      after.clients = store.clients.map (User.withoutOrder orderID) ∧
      Represents after (withdraw ledger orderID) := by
  rcases found : findUserThroughID store orderID with _ | user
  · exact absurd standing ((missing_order store ledger orderID represents).mp found)
  · obtain ⟨order, held⟩ := found_order store user orderID found
    refine ⟨withdrawOrder store order orderID, by simp [cancel, found, held], ?_, ?_⟩
    · exact withdraw_clients store ledger user order orderID represents found
    · exact withdraw_represents store ledger user order orderID represents found

theorem cancel_missing (store : Store) (ledger : Book) (orderID : Int)
    (represents : Represents store ledger) (missing : ¬ Standing ledger orderID) :
    cancel store orderID = .ok (noOrderReply orderID, store) := by
  have absent := (missing_order store ledger orderID represents).mpr missing
  simp [cancel, absent]

theorem cancel_recorded (store after : Store) (ledger : Book) (command reply : Text) (orderID : Int)
    (represents : Represents store ledger) (line : CancelLine .exact command orderID)
    (served : cancel store orderID = .ok (reply, after)) :
    Recorded ledger (deed command reply) reply after := by
  rw [deed_cancel command reply orderID line]
  by_cases standing : Standing ledger orderID
  · obtain ⟨left, answer, _, kept⟩ := cancel_standing store ledger orderID represents standing
    obtain ⟨rfl, rfl⟩ := Prod.mk.inj (Except.ok.inj (served.symm.trans answer))
    rw [if_pos (cancelled_prefixed orderID)]
    exact ⟨kept, fun purchase => by simp [Deed.isPurchase] at purchase⟩
  · have answer := cancel_missing store ledger orderID represents standing
    obtain ⟨rfl, rfl⟩ := Prod.mk.inj (Except.ok.inj (served.symm.trans answer))
    rw [if_neg (no_order_unprefixed orderID)]
    exact unrecorded ledger _ _ represents

theorem execute_recorded (unknown : Text → Text) (command reply : Text) (store after : Store)
    (ledger : Book) (represents : Represents store ledger)
    (served : executeWith .exact unknown command store = .ok (reply, after)) :
    Recorded ledger (deed command reply) reply after := by
  cases execute_cases .exact unknown command reply store after served with
  | purchased userName productName quantity line =>
      exact purchase_recorded store ledger command userName productName quantity represents line
  | cancelled orderID line _ _ served =>
      exact cancel_recorded store after ledger command reply orderID represents line served
  | searched userName line =>
      rw [deed_other command _ _ line.operation (by decide)]
      exact unrecorded ledger _ _ represents
  | listed operation =>
      rw [deed_other command _ _ operation (by decide)]
      exact unrecorded ledger _ _ represents
  | unknown operation named other =>
      rw [deed_other command _ operation named ⟨other.1, other.2.1⟩]
      exact unrecorded ledger _ _ represents

theorem execute_total (unknown : Text → Text) (command : Text) (store : Store) (ledger : Book)
    (represents : Represents store ledger) (formed : WellFormed .exact command) :
    ∃ reply after, executeWith .exact unknown command store = .ok (reply, after) := by
  cases formed with
  | purchase userName productName quantity line =>
      exact ⟨_, _, execute_purchase .exact unknown command userName productName quantity store line⟩
  | cancel orderID line =>
      rw [execute_cancel .exact unknown command orderID store line]
      by_cases standing : Standing ledger orderID
      · obtain ⟨after, answer, _⟩ := cancel_standing store ledger orderID represents standing
        exact ⟨_, after, answer⟩
      · exact ⟨_, store, cancel_missing store ledger orderID represents standing⟩
  | search userName line =>
      exact ⟨_, store, execute_search .exact unknown command userName store line⟩
  | other operation named bare =>
      by_cases isList : operation = "list".toList
      · subst isList
        exact ⟨_, store, execute_list .exact unknown command store named⟩
      · exact ⟨_, store, execute_unknown .exact unknown command operation store named
          ⟨bare.1, bare.2.1, bare.2.2, isList⟩⟩

theorem record_length (ledger : Book) (done : Deed) :
    (record ledger done).entries.length =
      ledger.entries.length + if done.isPurchase then 1 else 0 := by
  cases done with
  | bought userName productName quantity => simp [record, issue, Deed.isPurchase]
  | withdrew orderID => by_cases issued : Issued ledger orderID <;>
      simp [record, withdraw, issued, Deed.isPurchase]
  | other => rfl

-- Induction on the commands; the ledger so far fixes the numbers still to come.
theorem transcript_recorded (unknown : Text → Text) (commands : List Text) :
    ∀ (store : Store) (ledger : Book), Represents store ledger →
      (∀ command ∈ commands, WellFormed .exact command) →
      ∃ transcript final, transcribe .exact unknown store commands = .ok (transcript, final) ∧
        Represents final (recordAll ledger transcript) ∧
        ∀ (k : Nat) (reply : Text), (placements transcript)[k]? = some reply →
          placedPrefix ++ intText (ledger.entries.length + k + 1) ++ " ".toList <+: reply := by
  induction commands with
  | nil =>
      intro store ledger represents formed
      exact ⟨[], store, rfl, represents, by simp [placements]⟩
  | cons command rest ih =>
      intro store ledger represents formed
      obtain ⟨reply, after, served⟩ := execute_total unknown command store ledger represents
        (formed command List.mem_cons_self)
      have recorded := execute_recorded unknown command reply store after ledger represents served
      obtain ⟨later, final, ran, kept, numbered⟩ := ih after _ recorded.represents
        fun other member => formed other (List.mem_cons_of_mem command member)
      refine ⟨(command, reply) :: later, final, by simp [transcribe, served, ran, bind, Except.bind,
        pure, Except.pure], kept, ?_⟩
      intro k answer present
      by_cases purchase : (deed command reply).isPurchase = true
      · simp only [placements, List.filter_cons, purchase, ↓reduceIte, List.map_cons] at present
        cases k with
        | zero =>
            obtain rfl := Option.some.inj present
            simpa using recorded.numbered purchase
        | succ k =>
            have number : (ledger.entries.length : Int) + (k + 1 : Nat) + 1 =
                (record ledger (deed command reply)).entries.length + k + 1 := by
              simp only [record_length, purchase, ↓reduceIte]
              omega
            rw [number]
            exact numbered k answer present
      · simp only [placements, List.filter_cons, purchase, Bool.false_eq_true, ↓reduceIte] at present
        simpa [record_length, purchase] using numbered k answer present

theorem history_orders (ledger : Book) (userName : Text) :
    ((account ledger userName).map toOrder).Nodup := by
  have increasing := account_increasing ledger userName
  apply List.Nodup.of_map Order.orderID
  rw [List.map_map, List.nodup_iff_pairwise_ne, List.pairwise_map]
  exact increasing.imp fun less => Int.ne_of_lt less

theorem standing_kept (store : Store) (ledger : Book) (represents : Represents store ledger)
    (entry : Entry Text Text Int32) (member : entry ∈ ledger.entries)
    (standing : entry.number ∉ ledger.withdrawn) :
    ∃ user ∈ store.clients, user.name = entry.party ∧ user.orderHistory.count (toOrder entry) = 1 ∧
      ∀ other ∈ store.clients,
        (∃ order ∈ other.orderHistory, order.orderID = entry.number) → other = user := by
  have filed : entry ∈ account ledger entry.party :=
    (mem_account ledger entry.party entry).mpr ⟨member, rfl, standing⟩
  obtain ⟨user, present, named⟩ :=
    List.mem_map.mp (represents.owned entry.party (List.ne_nil_of_mem filed))
  refine ⟨user, present, named, ?_, ?_⟩
  · rw [represents.filed user present, named]
    exact List.count_eq_one_of_mem (history_orders ledger entry.party)
      (List.mem_map_of_mem filed)
  · rintro other there ⟨order, held, number⟩
    rw [represents.filed other there] at held
    obtain ⟨also, listed, rfl⟩ := List.mem_map.mp held
    have same : other.name = user.name := by
      rw [named]
      exact account_unique ledger _ _ also entry listed filed number
    exact List.inj_on_of_nodup_map represents.named there present same

theorem search_account (store : Store) (ledger : Book) (userName : Text)
    (represents : Represents store ledger) :
    search store userName =
      if account ledger userName = [] then
        if userName ∈ store.clients.map User.name then noOrdersReply userName
        else noCustomerReply userName
      else (account ledger userName).flatMap fun entry => orderLine (toOrder entry) := by
  rcases found : findUserThroughName store userName with _ | user
  · have unknown := unknown_name store userName found
    have blank : account ledger userName = [] := by
      by_contra nonempty
      exact unknown (represents.owned userName nonempty)
    simp only [search, found, blank, unknown, ↓reduceIte]
  · have present : user ∈ store.clients := List.mem_of_find?_eq_some found
    have named : user.name = userName := by simpa using List.find?_some found
    have known : userName ∈ store.clients.map User.name := List.mem_map.mpr ⟨user, present, named⟩
    have history := represents.filed user present
    rw [named] at history
    by_cases blank : account ledger userName = []
    · simp only [search, found, history, blank, known, List.map_nil, ↓reduceIte]
    · simp only [search, found, history, blank, List.map_eq_nil_iff, List.flatMap_map, ↓reduceIte]

/-- What the ledger says about a store, command by command. -/
structure LedgerLaws (unknown : Text → Text) (store : Store) (ledger : Book) : Prop where
  distinct : (store.clients.map User.name).Nodup
  kept : ∀ entry ∈ ledger.entries, entry.number ∉ ledger.withdrawn →
    ∃ user ∈ store.clients, user.name = entry.party ∧ user.orderHistory.count (toOrder entry) = 1 ∧
      ∀ other ∈ store.clients, (∃ order ∈ other.orderHistory, order.orderID = entry.number) → other = user
  increasing : ∀ userName,
    (account ledger userName).Pairwise fun earlier later => earlier.number < later.number
  searched : ∀ command userName, SearchLine command userName →
    executeWith .exact unknown command store =
      .ok (if account ledger userName = [] then
          if userName ∈ store.clients.map User.name then noOrdersReply userName
          else noCustomerReply userName
        else (account ledger userName).flatMap fun entry => orderLine (toOrder entry), store)
  cancelled : ∀ command orderID, CancelLine .exact command orderID → Standing ledger orderID →
    ∃ after, executeWith .exact unknown command store = .ok (cancelledReply orderID, after) ∧
      after.clients = store.clients.map (User.withoutOrder orderID) ∧
      after.currentID = store.currentID
  refused : ∀ command orderID, CancelLine .exact command orderID → ¬ Standing ledger orderID →
    executeWith .exact unknown command store = .ok (noOrderReply orderID, store)

theorem represents_laws (unknown : Text → Text) (store : Store) (ledger : Book)
    (represents : Represents store ledger) : LedgerLaws unknown store ledger where
  distinct := represents.named
  kept := standing_kept store ledger represents
  increasing := account_increasing ledger
  searched := by
    intro command userName line
    rw [execute_search .exact unknown command userName store line,
      search_account store ledger userName represents]
  cancelled := by
    intro command orderID line standing
    obtain ⟨after, answer, clients, kept⟩ :=
      cancel_standing store ledger orderID represents standing
    refine ⟨after, ?_, clients, ?_⟩
    · rw [execute_cancel .exact unknown command orderID store line, answer]
    · have length := record_length ledger (.withdrew orderID)
      rw [represents.counted, kept.counted]
      exact congrArg _ length
  refused := by
    intro command orderID line missing
    rw [execute_cancel .exact unknown command orderID store line]
    exact cancel_missing store ledger orderID represents missing

-- The ledger is read off the transcript, so the laws speak of commands and replies only.
theorem store_refines_ledger (unknown : Text → Text) (inventory : List Item) (commands : List Text)
    (formed : ∀ command ∈ commands, WellFormed .exact command) :
    ∃ transcript store,
      transcribe .exact unknown (initial inventory) commands = .ok (transcript, store) ∧
      (∀ (k : Nat) (reply : Text), (placements transcript)[k]? = some reply →
        placedPrefix ++ intText (k + 1) ++ " ".toList <+: reply) ∧
      LedgerLaws unknown store (recordAll empty transcript) := by
  obtain ⟨transcript, store, ran, represents, numbered⟩ :=
    transcript_recorded unknown commands (initial inventory) empty (initial_represents inventory) formed
  refine ⟨transcript, store, ran, ?_, represents_laws unknown store _ represents⟩
  intro k reply present
  simpa [empty] using numbered k reply present

theorem ledger_of_two_commands :
    ∃ transcript store,
      transcribe .exact (fun _ => []) (initial [⟨"phone".toList, 20⟩])
        ["purchase ann phone 3".toList, "cancel 1".toList] = .ok (transcript, store) ∧
      (∀ (k : Nat) (reply : Text), (placements transcript)[k]? = some reply →
        placedPrefix ++ intText (k + 1) ++ " ".toList <+: reply) ∧
      LedgerLaws (fun _ => []) store (recordAll empty transcript) := by
  apply store_refines_ledger
  intro command member
  rcases List.mem_cons.mp member with rfl | later
  · exact .purchase "ann".toList "phone".toList 3
      ⟨by decide, by decide, by decide, by decide⟩
  · rw [List.mem_singleton.mp later]
    exact .cancel 1 ⟨by decide, by decide⟩

end Transcript

end EE360P.StoreLedger
