import EE360P.SectionExclusion

/-! What `execute` answers reaches the client as it is: one line, and not one
that the readers take for `alive`. Only the item names of the inventory file
can spoil it, since `BufferedReader` ends a line at fewer characters than
`Scanner` does. -/

namespace EE360P.LegibleReplies
open JavaText ListEntries OnlineStore ReplicatedServer ServerCluster ClusterSteps ClusterWiring

section Text

theorem singleLine_iff (text : Text) : singleLine text = true ↔ ∀ c ∈ text, lineBreak c = false := by
  simp [singleLine, List.all_eq_true]

theorem singleLine_append (left right : Text) :
    singleLine (left ++ right) = (singleLine left && singleLine right) := List.all_append

theorem digit_singleLine (c : Char) (isDigit : c.isDigit = true) : lineBreak c = false := by
  have range : 48 ≤ c.toNat ∧ c.toNat ≤ 57 := by
    simpa [Char.isDigit, UInt32.le_iff_toNat_le] using isDigit
  by_contra breaks
  simp only [Bool.not_eq_false, lineBreak, Bool.or_eq_true, decide_eq_true_eq] at breaks
  rcases breaks with (((rfl | rfl) | high) | high) | high
  · exact absurd isDigit (by decide)
  · exact absurd isDigit (by decide)
  · omega
  · omega
  · omega

theorem intText_singleLine (n : Int) : singleLine (intText n) = true := by
  refine (singleLine_iff _).mpr fun c member => ?_
  rcases intText_chars n c member with rfl | isDigit
  · rfl
  · exact digit_singleLine c isDigit

theorem argument_singleLine (command argument : Text) (position : Nat)
    (single : singleLine command = true) (found : (split ' ' command)[position]? = some argument) :
    singleLine argument = true := by
  refine (singleLine_iff _).mpr fun c member => ?_
  exact (singleLine_iff _).mp single c
    (split_chars ' ' command argument (List.mem_of_getElem? found) c member)

theorem upTo_singleLine (separator : Char) (text : Text) (single : singleLine text = true) :
    singleLine (upTo separator text) = true := by
  refine (singleLine_iff _).mpr fun c member => ?_
  exact (singleLine_iff _).mp single c ((List.takeWhile_prefix _).subset member)

end Text

section Replies

/-- A text that a reader of lines gets as it was printed. -/
structure Legible (reply : Text) : Prop where
  single : singleLine reply = true
  shown : reply ≠ "alive".toList

theorem legible_marked (reply : Text) (mark : Char) (single : singleLine reply = true)
    (marked : mark ∈ reply) (foreign : mark ∉ "alive".toList) : Legible reply :=
  ⟨single, fun same => foreign (same ▸ marked)⟩

-- The last part of a reply can carry the mark.
theorem legible_ending (front rear : Text) (mark : Char) (first : singleLine front = true)
    (second : singleLine rear = true) (marked : mark ∈ rear) (foreign : mark ∉ "alive".toList) :
    Legible (front ++ rear) := by
  refine legible_marked _ mark ?_ (List.mem_append_right front marked) foreign
  rw [singleLine_append, first, second]
  rfl

theorem legible_read (reply : Text) (rest : List Text) (legible : Legible reply) :
    nextReply (reply :: rest) = some reply := by
  have whole : reply.splitOnP lineBreak = [reply] :=
    List.splitOnP_eq_singleton ((singleLine_iff reply).mp legible.single)
  rw [nextReply, List.flatMap_cons, whole, List.singleton_append, List.find?_cons_of_pos]
  exact bne_iff_ne.mpr legible.shown

/-- No name that a reply can contain has a line break in it. -/
structure Tidy (store : Store) : Prop where
  items : ∀ item ∈ store.inventory, singleLine item.itemName = true
  orders : ∀ user ∈ store.clients, ∀ order ∈ user.orderHistory,
    singleLine order.productName = true

variable (counting : Counting)

theorem customer_tidy (store : Store) (userName : Text) (tidy : Tidy store) :
    Tidy (withCustomer store userName) := by
  unfold withCustomer
  split
  · refine ⟨tidy.items, fun user member => ?_⟩
    rcases List.mem_append.mp member with old | new
    · exact tidy.orders user old
    · rw [List.mem_singleton.mp new]
      nofun
  · exact tidy

theorem place_tidy (store : Store) (userName productName : Text) (quantity : Int32)
    (tidy : Tidy store) (single : singleLine productName = true) :
    Tidy (placeOrder counting store userName productName quantity) := by
  refine ⟨fun item member => ?_, fun user member order placed => ?_⟩
  · rcases mem_updateFirst _ _ _ item member with old | ⟨before, old, rfl⟩
    · exact tidy.items item old
    · exact tidy.items before old
  · rcases mem_updateFirst _ _ _ user member with old | ⟨before, old, rfl⟩
    · exact tidy.orders user old order placed
    · rcases List.mem_append.mp placed with earlier | new
      · exact tidy.orders before old order earlier
      · rw [List.mem_singleton.mp new]
        exact single

theorem space_single : singleLine " ".toList = true := by decide

theorem placed_legible (orderID : Int) (userName productName : Text) (quantity : Int32)
    (user : singleLine userName = true) (product : singleLine productName = true) :
    Legible (placedReply orderID userName productName quantity) := by
  have front : singleLine "Your order has been placed, ".toList = true := by decide
  unfold placedReply
  refine legible_ending _ _ '.' ?_ (by decide) (by decide) (by decide)
  simp only [singleLine_append, front, space_single, intText_singleLine, user, product,
    Bool.and_true]

theorem purchase_tidy (store : Store) (userName productName : Text) (quantity : Int32)
    (tidy : Tidy store) (user : singleLine userName = true)
    (product : singleLine productName = true) :
    Legible (purchase counting store userName productName quantity).1 ∧
      Tidy (purchase counting store userName productName quantity).2 := by
  have filed := customer_tidy store userName tidy
  have notSold : Legible notSoldReply := ⟨by decide, by decide⟩
  have notEnough : Legible notEnoughReply := ⟨by decide, by decide⟩
  unfold purchase
  dsimp only
  split
  · exact ⟨notSold, filed⟩
  · split
    · exact ⟨notEnough, filed⟩
    · exact ⟨placed_legible _ userName productName quantity user product,
        place_tidy counting _ userName productName quantity filed product⟩

theorem withdraw_tidy (store : Store) (cancelledOrder : Order) (orderID : Int)
    (tidy : Tidy store) : Tidy (withdrawOrder store cancelledOrder orderID) := by
  refine ⟨fun item member => ?_, fun user member order kept => ?_⟩
  · obtain ⟨before, old, rfl⟩ := List.mem_map.mp member
    split
    · exact tidy.items before old
    · exact tidy.items before old
  · rcases mem_updateFirst _ _ _ user member with old | ⟨before, old, rfl⟩
    · exact tidy.orders user old order kept
    · exact tidy.orders before old order (List.mem_of_mem_eraseP kept)

theorem cancel_tidy (store after : Store) (orderID : Int) (reply : Text) (tidy : Tidy store)
    (served : cancel store orderID = .ok (reply, after)) : Legible reply ∧ Tidy after := by
  have front : singleLine "Order ".toList = true := by decide
  unfold cancel at served
  split at served
  · cases served
    exact ⟨legible_ending _ _ '.' (intText_singleLine orderID) (by decide) (by decide) (by decide),
      tidy⟩
  · split at served
    · cases served
    · cases served
      refine ⟨legible_ending _ _ '.' ?_ (by decide) (by decide) (by decide),
        withdraw_tidy store _ orderID tidy⟩
      rw [singleLine_append, front, intText_singleLine]
      rfl

-- A reply made of lines that end in `$`, one for each entry.
theorem lines_legible {Entry : Type} (entries : List Entry) (line : Entry → Text)
    (single : ∀ entry ∈ entries, singleLine (line entry) = true)
    (marked : ∀ entry, '$' ∈ line entry) : Legible (entries.flatMap line) := by
  have blank : Legible [] := ⟨by decide, by decide⟩
  cases entries with
  | nil => exact blank
  | cons entry rest =>
      refine legible_marked _ '$' ((singleLine_iff _).mpr fun c member => ?_) ?_ (by decide)
      · obtain ⟨other, inside, within⟩ := List.mem_flatMap.mp member
        exact (singleLine_iff _).mp (single other inside) c within
      · exact List.mem_flatMap.mpr ⟨entry, List.mem_cons_self, marked entry⟩

theorem dollar_single : singleLine "$".toList = true := by decide

theorem dollar_mark : '$' ∈ "$".toList := by decide

theorem list_legible (store : Store) (tidy : Tidy store) : Legible (list store) := by
  refine lines_legible _ _ (fun item member => ?_)
    (fun item => List.mem_append_right _ dollar_mark)
  simp only [itemLine, singleLine_append, tidy.items item member, space_single, intText_singleLine,
    dollar_single, Bool.and_true]

theorem orders_legible (orders : List Order)
    (products : ∀ order ∈ orders, singleLine order.productName = true) :
    Legible (orders.flatMap orderLine) := by
  have comma : singleLine ", ".toList = true := by decide
  refine lines_legible _ _ (fun order member => ?_) (fun order => ?_)
  · simp only [orderLine, singleLine_append, intText_singleLine, comma, products order member,
      dollar_single, Bool.and_true]
  · exact List.mem_append_right _ dollar_mark

theorem search_legible (store : Store) (userName : Text) (tidy : Tidy store)
    (single : singleLine userName = true) : Legible (OnlineStore.search store userName) := by
  have nothing : singleLine "No order found for ".toList = true := by decide
  unfold OnlineStore.search
  split
  · exact legible_ending _ _ '.' single (by decide) (by decide) (by decide)
  · rename_i user found
    split
    · refine legible_ending _ _ '.' ?_ (by decide) (by decide) (by decide)
      rw [singleLine_append, nothing, single]
      rfl
    · exact orders_legible _ (tidy.orders user (List.mem_of_find?_eq_some found))

/-- `execute` keeps the names tidy, and what it answers can be read. -/
theorem execute_tidy (command reply : Text) (store after : Store)
    (single : singleLine command = true) (tidy : Tidy store)
    (served : execute4 counting command store = .ok (reply, after)) :
    Legible reply ∧ Tidy after := by
  cases execute_cases counting _ command reply store after served with
  | purchased userName productName quantity line =>
      exact purchase_tidy counting store userName productName _ tidy
        (argument_singleLine command userName 1 single line.userName)
        (argument_singleLine command productName 2 single line.productName)
  | cancelled orderID line reply after served => exact cancel_tidy store _ orderID _ tidy served
  | searched userName line =>
      exact ⟨search_legible store userName tidy
        (argument_singleLine command userName 1 single line.userName), tidy⟩
  | listed operation => exact ⟨list_legible store tidy, tidy⟩
  | unknown operation named other =>
      have noCommand : Legible "ERROR: No such command".toList := ⟨by decide, by decide⟩
      exact ⟨noCommand, tidy⟩

end Replies

section Runs
variable (config : Config)

structure Tidied (cluster : Cluster) : Prop where
  stores : ∀ me, Tidy (cluster.server me).store
  replies : ∀ execution ∈ cluster.history, ∀ text, execution.result = .ok text → Legible text

structure TidyOutcome (outcome : Outcome) : Prop where
  store : Tidy outcome.server.store
  replies : ∀ execution ∈ outcome.executed, ∀ text, execution.result = .ok text → Legible text

theorem accepted_single (command : Text) (valid : accepted command = true) :
    singleLine command = true := by
  simp only [accepted, Bool.and_eq_true] at valid
  exact valid.1

variable (before : Cluster)

theorem moved_tidy (number : Nat) (connection : Connection) (flow : Flow)
    (wired : Wired config before) (tidied : Tidied before)
    (found : before.connections[number]? = some connection)
    (moved : Moved config before number connection flow) :
    TidyOutcome (flow.finish config connection.server) := by
  have tidy := tidied.stores connection.server
  cases SectionExclusion.moved_executes config before number connection flow moved with
  | nothing idle same =>
      constructor
      · exact same ▸ tidy
      · simp [idle]
  | thrown client thrown enters ran same =>
      constructor
      · exact same ▸ tidy
      · simp [ran]
  | served client response enters ran next result =>
      have submitted := SectionExclusion.entered_submitted config before number connection flow wired
        found moved client enters
      have single := accepted_single _ (submitted_valid config before wired _ client submitted)
      have kept := execute_tidy config.counting _ response _ _ single tidy result
      constructor
      · exact kept.2
      · simpa [ran] using kept.1
  | refused logicalClock serverID client thrown handling message ran result same =>
      constructor
      · exact same ▸ tidy
      · simp [ran]
  | carried logicalClock serverID client response handling message ran result =>
      have readable := wired_readable config before wired connection (List.mem_of_getElem? found)
      rw [message] at readable
      have single := upTo_singleLine ':' _ (accepted_single _ readable.2.2)
      have kept := execute_tidy config.counting _ response _ _ single tidy result
      constructor
      · exact kept.2
      · simpa [ran] using kept.1

theorem initial_tidied (tidy : ∀ item ∈ config.inventory, singleLine item.itemName = true) :
    Tidied (initial config) :=
  ⟨fun _ => ⟨tidy, nofun⟩, nofun⟩

/-- A step keeps the stores tidy, and every reply it computes can be read. -/
theorem step_tidied (after : Cluster) (action : Action) (wired : Wired config before)
    (tidied : Tidied before) (taken : step config before action = some after) : Tidied after := by
  cases step_stepped config before after action (wired_readable config before wired) taken with
  | handled number connection flow found alive advanced moved =>
      have outcome := moved_tidy config before number connection flow wired tidied found moved
      refine ⟨fun me => ?_, fun execution member => ?_⟩
      · by_cases own : me = connection.server
        · subst own
          simpa [Cluster.after] using outcome.store
        · simpa [Cluster.after, own] using tidied.stores me
      · rcases List.mem_append.mp member with old | new
        · exact tidied.replies execution old
        · exact outcome.replies execution new
  | _ => exact ⟨tidied.stores, tidied.replies⟩

end Runs

end EE360P.LegibleReplies
