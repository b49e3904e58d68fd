import RepairShop.Access.Capability
import RepairShop.Board.Sort
import RepairShop.Json.Order
import RepairShop.Session.Txn

/-!
Who acts. An `Actor` is a staff account as the services see it: its id, the roles it acts
with and the branches it may touch, each as the value it was given (an id may be missing, and
then the rows the actor writes cannot be stored). Signing in derives both lists from the
database: the open roles the account holds, and the branches it is attached to, each sorted
without repeats. The global permission codes of an account are those of its roles, and every
code when it holds the `Super Admin` role.

An account stores a hash of its password, made and checked by a `PasswordHashing` scheme of
which only its law is assumed: a hash accepts exactly the password it was made from. The
service runs with the plain scheme, which stores the password itself; no answer shows what an
account stores.
-/

namespace RepairShop.Access

open Store Json

/-- A staff account as the services see it. -/
structure Actor where
  adminId : Value
  roleIds : List Value := []
  branchIds : List Value := []

/-- Sorted insertion of an integer, dropping a repeat. -/
def insertInt (x : Int) : List Int → List Int
  | [] => [x]
  | y :: ys => if x < y then x :: y :: ys else if x == y then y :: ys else y :: insertInt x ys

/-- Integers sorted without repeats. -/
def sortedInts (xs : List Int) : List Int :=
  xs.foldl (fun acc x => insertInt x acc) []

/-- Keeps the first occurrence of each value. -/
def firstOccurrences {α : Type} [BEq α] (ids : List α) : List α :=
  ids.foldl (fun acc i => if acc.contains i then acc else acc ++ [i]) []

/-- Values without repeats, as a set keeps them: the first of equal values stays. -/
def distinctValues (vs : List Value) : List Value :=
  vs.foldl (fun acc v => if v.memSame acc then acc else acc ++ [v]) []

/-- The open roles an account holds, sorted: role links of the account whose role is open. -/
def effectiveRoles (db : Db) (admin : Cell) : List Int :=
  let held := db.adminRoles.filter fun ar =>
    ar.is .adminRoles "admin_id" admin &&
      db.roles.any fun r => (r.get "id").sqlEq (ar.get "role_id") && r.isOpen .roles
  sortedInts (held.filterMap fun ar =>
    match ar.get "role_id" with
    | .int n => some n
    | _ => none)

/-- The global permission codes of roles, sorted without repeats; every code when the roles
include the `Super Admin` role. -/
def effectivePerms (db : Db) (roles : List Int) : List String :=
  let links := db.rolePermissions.filter fun rp => rp.isAny .rolePermissions "role_id" (roles.map .int)
  let permIds := links.map (·.get "permission_id")
  let codes := (db.permissions.filter fun p =>
    permIds.any fun pid => (p.get "id").sqlEq (pid.withAffinity .numeric)).map (·.text "code")
  let superHeld := match db.roles.find? (fun r => r.is .roles "name" (.text superAdminRole)) with
    | some r => roles.contains r.id
    | none => false
  let all := if superHeld then codes ++ db.permissions.map (·.text "code") else codes
  (Board.sortTexts all).eraseDups

/-- The branches an account is attached to, sorted without repeats. -/
def attachedBranches (admin : Cell) : Txn (List Value) := do
  let db ← Txn.query
  let links := db.adminBranches.filter fun ab => ab.is .adminBranches "admin_id" admin
  let values ← links.mapM fun ab => Txn.read .adminBranches ab "branch_id"
  Txn.lift (sortValues (distinctValues values))

/-- The actor of a signed-in account. -/
def Actor.ofAdmin (admin : Value) : Txn Actor := do
  let cell ← Txn.param admin
  let db ← Txn.query
  let roles := effectiveRoles db cell
  let branches ← attachedBranches cell
  pure { adminId := admin, roleIds := roles.map .int, branchIds := branches }

/-- The sign-in claims of an account: its roles, permission codes and branches. -/
def claims (admin : Value) : Txn Value := do
  let cell ← Txn.param admin
  let db ← Txn.query
  let roles := effectiveRoles db cell
  let branches ← attachedBranches cell
  pure (.obj [("roles", .arr (roles.map .int)),
    ("perms", .arr ((effectivePerms db roles).map .str)),
    ("branch_ids", .arr branches)])

/-- A password hashing scheme: `hash` makes what an account stores from a password, and `check`
tests a given password against what is stored. -/
class PasswordHashing where
  hash : String → String
  check : String → String → Bool
  /-- A stored hash accepts exactly the password it was made from. -/
  check_hash : ∀ p q, check (hash p) q = true ↔ p = q

/-- The scheme the service runs with: the password stored as it is, checked by equality. -/
instance PasswordHashing.plain : PasswordHashing where
  hash := id
  check := (· == ·)
  check_hash p q := by simp

/-- Refuses an actor outside the branch. -/
def assertBranchAccess (actor : Actor) (branch : Value) : Result Unit :=
  if branch.memSame actor.branchIds then pure ()
  else throw (forbidden "Branch access denied" (some "branch_id") [("branch_id", branch)])

end RepairShop.Access
