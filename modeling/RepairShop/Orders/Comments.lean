import RepairShop.Orders.Problems

/-!
Comments on an order. Comments are only appended through an order's request; editing and
deleting go one comment at a time. A comment remembers the status the order had when it was
written, and edits and deletes are authorized at that status, not the current one. Only the
author may edit a comment; deleting marks it deleted and records the event.
-/

namespace RepairShop.Orders

open Store Json Access

/-- The comments aspect. -/
def commentsAspect : Aspect := ⟨.comment, "comments"⟩

/-- The answer form of a stored comment. -/
def commentValue (id : Int) : Txn Value := do
  match (← Txn.query).row? .comments id with
  | none => pure .null
  | some c =>
    pure (.obj [("id", .int c.id), ("text", ← Txn.read .comments c "text"),
      ("status", ← Txn.read .comments c "status"),
      ("status_by", ← Txn.read .comments c "status_by"),
      ("created_by", ← Txn.read .comments c "created_by")])

/-- Appends comments written at a status; the keys of the rows written. -/
def appendComments (order : Int) (status : Value) (texts : List Value) (actor : Actor) :
    Txn (List Int) := do
  if texts.isEmpty then return []
  let ids ← texts.mapM fun text =>
    Txn.insert .comments [("repair_order_id", .int order), ("text", text),
      ("created_by", actor.adminId), ("status_by", status)]
  Txn.flush
  let _ ← logIfChanged order commentsAspect.location .null (.arr texts) actor.adminId
  return ids

/-- The open comment of the order with this id, the id as the request gave it. -/
def openComment (order : Int) (comment : Value) : Txn Row := do
  let cell ← Txn.param comment
  let orderCell ← Txn.param (.int order)
  match (← Txn.query).comments.find? (fun c =>
      c.is .comments "id" cell && c.is .comments "repair_order_id" orderCell &&
        c.isOpen .comments) with
  | some c => pure c
  | none => throw (notFound "Comment not found or already deleted" (some "comment_id"))

/-- Changes the text of one's own comment; the key of the comment. -/
def editComment (order : Int) (branch comment : Value) (text : Value) (actor : Actor) :
    Txn Int := do
  let c ← openComment order comment
  let author ← Txn.read .comments c "created_by"
  if !author.same actor.adminId then
    throw (forbidden "You can only edit your own comments" (some "comment_id"))
  commentsAspect.authorize actor branch (← Txn.read .comments c "status_by")
  let old ← Txn.read .comments c "text"
  if old.same text then return c.id
  Txn.update .comments c.id [("text", text)]
  Txn.flush
  let _ ← logIfChanged order "comment" (.obj [("id", .int c.id), ("text", old)])
    (.obj [("id", .int c.id), ("text", text)]) actor.adminId
  return c.id

/-- Marks a comment deleted and records the event. -/
def deleteComment (order : Int) (branch comment : Value) (actor : Actor) : Txn Unit := do
  let c ← openComment order comment
  commentsAspect.authorize actor branch (← Txn.read .comments c "status_by")
  Txn.update .comments c.id [("status", .str deletedState)]
  Txn.flush
  logEvent order "comment_deleted" (.obj [("id", .int c.id), ("text", ← Txn.read .comments c "text")])
    actor.adminId

end RepairShop.Orders
