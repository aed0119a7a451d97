import EE360P.ProtocolLines
import EE360P.StockBalance

/-! What a peer makes of a command that an `Update` line carried. The peer runs
the text up to its first colon, so all turns on whether the tokens that the
command reads come before that colon. -/

namespace EE360P.CarriedCommands
open JavaText ServerCluster ProtocolLines OnlineStore StockBalance

section Texts

def operation (command : Text) : Option Text := (split ' ' command)[0]?

/-- A `purchase` or a `cancel` whose number can be read; no other command changes
a store. -/
def changes (counting : Counting) (command : Text) : Bool :=
  operation command == some "purchase".toList &&
      (((split ' ' command)[3]?).bind (parseInt .int32)).isSome ||
    operation command == some "cancel".toList &&
      (((split ' ' command)[1]?).bind (parseInt counting)).isSome

/-- No user or product of a purchase has the colon of the protocol in it. -/
def Colonless (command : Text) : Prop :=
  operation command = some "purchase".toList →
    ∀ piece ∈ ((split ' ' command).drop 1).take 2, ':' ∉ piece

instance (command : Text) : Decidable (Colonless command) :=
  inferInstanceAs (Decidable (_ → _))

theorem purchase_changes (counting : Counting) (command userName productName : Text)
    (quantity : Int) (line : PurchaseLine command userName productName quantity) :
    changes counting command = true := by
  rw [changes, operation, line.operation, line.quantity]
  rfl

theorem cancel_changes (counting : Counting) (command : Text) (orderID : Int)
    (line : CancelLine counting command orderID) : changes counting command = true := by
  rw [changes, operation, line.operation, line.orderID]
  rfl

theorem other_idle (counting : Counting) (command : Text)
    (notPurchase : operation command ≠ some "purchase".toList)
    (notCancel : operation command ≠ some "cancel".toList) : changes counting command = false := by
  rw [changes, beq_eq_false_iff_ne.mpr notPurchase, beq_eq_false_iff_ne.mpr notCancel]
  rfl

theorem colonless_arguments (command userName productName : Text) (quantity : Int)
    (line : PurchaseLine command userName productName quantity) (colonless : Colonless command) :
    ':' ∉ userName ∧ ':' ∉ productName := by
  have within := colonless line.operation
  have first := line.userName
  have second := line.productName
  constructor
  · apply within
    apply List.mem_of_getElem? (i := 0)
    simpa using first
  · apply within
    apply List.mem_of_getElem? (i := 1)
    simpa using second

theorem purchase_cut (command userName productName : Text) (quantity : Int)
    (line : PurchaseLine command userName productName quantity) (colonless : Colonless command) :
    PurchaseLine (cut command) userName productName quantity := by
  obtain ⟨clearUser, clearProduct⟩ :=
    colonless_arguments command userName productName quantity line colonless
  obtain ⟨amount, third, parsed⟩ := Option.bind_eq_some_iff.mp line.quantity
  obtain ⟨shown, clearAmount⟩ := parseInt_chars .int32 amount quantity parsed
  have same := split_upTo ' ' ':' (by decide) command amount 3 shown third (by
    intro earlier early piece found
    match earlier, early with
    | 0, _ =>
        rw [line.operation, Option.mem_some] at found
        exact found ▸ by decide
    | 1, _ =>
        rw [line.userName, Option.mem_some] at found
        exact found ▸ clearUser
    | 2, _ =>
        rw [line.productName, Option.mem_some] at found
        exact found ▸ clearProduct
    | 3, _ =>
        rw [third, Option.mem_some] at found
        exact found ▸ clearAmount)
  constructor
  · exact (same 0 (by decide)).trans line.operation
  · exact (same 1 (by decide)).trans line.userName
  · exact (same 2 (by decide)).trans line.productName
  · rw [cut, same 3 (by decide)]
    exact line.quantity

theorem cancel_cut (counting : Counting) (command : Text) (orderID : Int)
    (line : CancelLine counting command orderID) : CancelLine counting (cut command) orderID := by
  obtain ⟨id, first, parsed⟩ := Option.bind_eq_some_iff.mp line.orderID
  obtain ⟨shown, clear⟩ := parseInt_chars counting id orderID parsed
  have same := split_upTo ' ' ':' (by decide) command id 1 shown first (by
    intro earlier early piece found
    match earlier, early with
    | 0, _ =>
        rw [line.operation, Option.mem_some] at found
        exact found ▸ by decide
    | 1, _ =>
        rw [first, Option.mem_some] at found
        exact found ▸ clear)
  constructor
  · exact (same 0 (by decide)).trans line.operation
  · rw [cut, same 1 (by decide)]
    exact line.orderID

theorem valid_colonless (argument : Text) (valid : isValidCommand argument = true) :
    ':' ∉ argument := by
  intro colon
  have lower : ':' ∈ argument.map Char.toLower := List.mem_map.mpr ⟨':', colon, by decide⟩
  simp only [isValidCommand, List.contains_iff_mem, List.mem_cons, List.not_mem_nil,
    or_false] at valid
  rcases valid with word | word | word | word
  · exact absurd (word ▸ lower) (by decide)
  · exact absurd (word ▸ lower) (by decide)
  · exact absurd (word ▸ lower) (by decide)
  · exact absurd (word ▸ lower) (by decide)

/-- What a client may send names its operation before the first colon. -/
theorem operation_cut (command : Text) (valid : accepted command = true) :
    operation (cut command) = operation command := by
  simp only [accepted, Bool.and_eq_true, Option.any_eq_true] at valid
  obtain ⟨_, argument, first, named⟩ := valid
  have clear := valid_colonless argument named
  have shown : argument ≠ [] := by
    rintro rfl
    exact absurd named (by decide)
  apply split_upTo ' ' ':' (by decide) command argument 0 shown first
  · intro earlier early piece found
    rw [Nat.le_zero.mp early, first, Option.mem_some] at found
    exact found ▸ clear
  · exact Nat.le_refl 0

end Texts

section Effects
variable (counting : Counting) (unknown : Text → Text)

theorem serve_idle (store : Store) (command : Text) (idle : changes counting command = false) :
    serve counting unknown store command = store := by
  rcases serve_cases counting unknown store command with same | ⟨reply, served⟩
  · exact same
  · generalize serve counting unknown store command = after at served
    cases served with
    | purchased userName productName quantity line =>
        rw [purchase_changes counting command _ _ _ line] at idle
        cases idle
    | cancelled orderID line reply after served =>
        rw [cancel_changes counting command orderID line] at idle
        cases idle
    | searched userName line => rfl
    | listed operation => rfl
    | unknown operation named other => rfl

/-- Where the peer runs the same command, it does the same to every store. -/
theorem serve_cut (command reply : Text) (store after : Store) (valid : accepted command = true)
    (ran : executeWith counting unknown command store = .ok (reply, after))
    (colonless : changes counting command = true → Colonless command) (other : Store) :
    serve counting unknown other (cut command) = serve counting unknown other command := by
  have quiet : operation command ≠ some "purchase".toList →
      operation command ≠ some "cancel".toList →
        serve counting unknown other (cut command) = serve counting unknown other command := by
    intro notPurchase notCancel
    have same := operation_cut command valid
    rw [serve_idle counting unknown other command (other_idle counting _ notPurchase notCancel)]
    apply serve_idle
    apply other_idle
    · rwa [same]
    · rwa [same]
  cases execute_cases counting unknown command reply store after ran with
  | purchased userName productName quantity line =>
      have carried := purchase_cut command userName productName quantity line
        (colonless (purchase_changes counting command _ _ _ line))
      simp only [serve, execute_purchase counting unknown command _ _ _ other line,
        execute_purchase counting unknown (cut command) _ _ _ other carried]
  | cancelled orderID line reply after served =>
      have carried := cancel_cut counting command orderID line
      simp only [serve, execute_cancel counting unknown command orderID other line,
        execute_cancel counting unknown (cut command) orderID other carried]
  | searched userName line =>
      rw [operation, line.operation] at quiet
      exact quiet (by decide) (by decide)
  | listed named =>
      rw [operation, named] at quiet
      exact quiet (by decide) (by decide)
  | unknown word named bare =>
      rw [operation, named] at quiet
      exact quiet (fun same => bare.1 (Option.some.inj same))
        (fun same => bare.2.1 (Option.some.inj same))

end Effects

end EE360P.CarriedCommands
