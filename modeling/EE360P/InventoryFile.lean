import EE360P.OnlineStore

/-! `parse` of the server: one item for each line of the inventory file. What
`parseInt` or a missing argument throws is not caught, and no server starts. -/

namespace EE360P.InventoryFile
open JavaText OnlineStore

def formItemFrom (arguments : List Text) : Except Thrown Item := do
  let itemName ← argument arguments 0
  let quantity ← number .int32 (← argument arguments 1)
  return ⟨itemName, Int32.ofInt quantity⟩

def addItemsToInventoryFrom (lines : List Text) : Except Thrown (List Item) :=
  lines.mapM fun inputLine => formItemFrom (split ' ' inputLine)

end EE360P.InventoryFile
