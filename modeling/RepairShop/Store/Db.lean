import RepairShop.Store.Table

/-!
The shop database: one table per field, each a list of rows in key order. A write to one
table replaces that field only, so every other table is untouched by construction. Writes
go through the table's layout (`TableId.schema`), which stores values the way the database
does and refuses what it refuses.
-/

namespace RepairShop.Store

open Json

/-- The shop database. -/
structure Db where
  branches : Table := []
  statuses : Table := []
  transitions : Table := []
  grants : Table := []
  permissions : Table := []
  roles : Table := []
  rolePermissions : Table := []
  admins : Table := []
  adminRoles : Table := []
  adminBranches : Table := []
  customers : Table := []
  phoneCategories : Table := []
  problems : Table := []
  mappings : Table := []
  parts : Table := []
  partAssignments : Table := []
  devices : Table := []
  orders : Table := []
  assignments : Table := []
  initialProblems : Table := []
  finalProblems : Table := []
  orderParts : Table := []
  comments : Table := []
  pickups : Table := []
  deliveries : Table := []
  rentals : Table := []
  history : Table := []

namespace Db

/-- The rows of a table. -/
def rows (db : Db) : TableId → Table
  | .branches => db.branches
  | .statuses => db.statuses
  | .transitions => db.transitions
  | .grants => db.grants
  | .permissions => db.permissions
  | .roles => db.roles
  | .rolePermissions => db.rolePermissions
  | .admins => db.admins
  | .adminRoles => db.adminRoles
  | .adminBranches => db.adminBranches
  | .customers => db.customers
  | .phoneCategories => db.phoneCategories
  | .problems => db.problems
  | .mappings => db.mappings
  | .parts => db.parts
  | .partAssignments => db.partAssignments
  | .devices => db.devices
  | .orders => db.orders
  | .assignments => db.assignments
  | .initialProblems => db.initialProblems
  | .finalProblems => db.finalProblems
  | .orderParts => db.orderParts
  | .comments => db.comments
  | .pickups => db.pickups
  | .deliveries => db.deliveries
  | .rentals => db.rentals
  | .history => db.history

/-- The database with the rows of one table replaced. -/
def withRows (db : Db) (t : TableId) (rows : Table) : Db :=
  match t with
  | .branches => { db with branches := rows }
  | .statuses => { db with statuses := rows }
  | .transitions => { db with transitions := rows }
  | .grants => { db with grants := rows }
  | .permissions => { db with permissions := rows }
  | .roles => { db with roles := rows }
  | .rolePermissions => { db with rolePermissions := rows }
  | .admins => { db with admins := rows }
  | .adminRoles => { db with adminRoles := rows }
  | .adminBranches => { db with adminBranches := rows }
  | .customers => { db with customers := rows }
  | .phoneCategories => { db with phoneCategories := rows }
  | .problems => { db with problems := rows }
  | .mappings => { db with mappings := rows }
  | .parts => { db with parts := rows }
  | .partAssignments => { db with partAssignments := rows }
  | .devices => { db with devices := rows }
  | .orders => { db with orders := rows }
  | .assignments => { db with assignments := rows }
  | .initialProblems => { db with initialProblems := rows }
  | .finalProblems => { db with finalProblems := rows }
  | .orderParts => { db with orderParts := rows }
  | .comments => { db with comments := rows }
  | .pickups => { db with pickups := rows }
  | .deliveries => { db with deliveries := rows }
  | .rentals => { db with rentals := rows }
  | .history => { db with history := rows }

/-- The row of a table with this key. -/
def row? (db : Db) (t : TableId) (id : Int) : Option Row :=
  (db.rows t).find? (·.id == id)

/-- The rows of a table that satisfy a test, in key order. -/
def select (db : Db) (t : TableId) (p : Row → Bool) : Table :=
  (db.rows t).filter p

/-- Inserts a row into a table; gives the database and the new row's key. -/
def insert (db : Db) (t : TableId) (given : List (String × Value)) : Except Refusal (Db × Int) :=
  match insertRow t.schema (db.rows t) given with
  | .ok (rows, id) => .ok (db.withRows t rows, id)
  | .error e => .error e

/-- Writes the given columns of the row with this key. -/
def update (db : Db) (t : TableId) (id : Int) (given : List (String × Value)) : Except Refusal Db :=
  (db.withRows t ·) <$> updateRow t.schema (db.rows t) (·.id == id) given

/-- Changes columns of the first row of a table that `target` picks. -/
def updateWhere (db : Db) (t : TableId) (target : Row → Bool) (given : List (String × Value)) :
    Except Refusal Db :=
  (db.withRows t ·) <$> updateRow t.schema (db.rows t) target given

/-- Removes the rows of a table that satisfy a test. -/
def delete (db : Db) (t : TableId) (p : Row → Bool) : Db :=
  db.withRows t ((db.rows t).filter fun r => !p r)

end Db

/-- What the program reads from a column of a row of a table. -/
def TableId.read (t : TableId) (r : Row) (column : String) : Except ReadFault Value :=
  r.read t.schema column

/-- The affinity of a column of a table (`id` is numeric). -/
def TableId.affinityOf (t : TableId) (column : String) : Affinity :=
  match t.schema.column? column with
  | some c => c.kind.affinity
  | none => .numeric

/-- The column equals a parameter, as `column = ?` tests it: the parameter takes the
column's affinity first, and no value equals nothing. -/
def Row.is (t : TableId) (r : Row) (column : String) (param : Cell) : Bool :=
  (r.get column).sqlEq (param.withAffinity (t.affinityOf column))

/-- The column equals one of the parameters (`column IN (...)`). -/
def Row.isAny (t : TableId) (r : Row) (column : String) (params : List Cell) : Bool :=
  params.any (r.is t column)

/-- The row is live: its lifecycle column is `"Open"`. -/
def Row.isOpen (t : TableId) (r : Row) : Bool :=
  r.is t "status" (.text openState)

/-- The flag column holds true, as `column IS 1` tests it. -/
def Row.holds (r : Row) (column : String) : Bool :=
  (r.get column).sqlEq (.int 1)

/-- The stored text of a column, or the text of what is stored there. -/
def Row.text (r : Row) (column : String) : String :=
  match r.get column with
  | .text s => s
  | c => c.toValue.display

end RepairShop.Store
