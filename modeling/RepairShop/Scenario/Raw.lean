import RepairShop.Scenario.World

/-!
Raw column writes: one row of a table changed column by column, bypassing every service (so
no cache is dropped and no trail is written), as one `UPDATE` statement that is committed at
once. The statement sets the given columns in the table's column order, and stamps
`updated_at` in the tables that keep one. Unknown columns are refused before anything runs;
a refused write is reported with the statement and its parameters, as the database layer
reports it.
-/

namespace RepairShop.Scenario

open Store Json

/-- The `UPDATE` statement that sets columns of one row. -/
def updateStatement (s : Schema) (columns : List String) : String :=
  let sets := columns.map (· ++ "=?") ++ (if s.touched then ["updated_at=CURRENT_TIMESTAMP"] else [])
  "UPDATE " ++ s.name ++ " SET " ++ ", ".intercalate sets ++ " WHERE " ++ s.name ++ ".id = ?"

/-- The given columns in the table's column order, `id` first, each with its value. -/
def orderedValues (s : Schema) (values : List (String × Value)) : List (Column × Value) :=
  (({ name := "id", kind := .integer } : Column) :: s.columns).filterMap fun c =>
    (values.lookup c.name).map (c, ·)

/-- The failure a refused raw write is reported as; the key parameter shows as it was given. -/
def rawFailure (s : Schema) (cols : List (Column × Value)) (id : Value) : Refusal → Failure
  | .tooLarge => .fault .tooLargeForStore
  | .unencodable ps => .fault (.unencodable ps)
  | .notFlag kind detail =>
    .fault (.database "StatementError"
      ("(builtins." ++ kind ++ ") " ++ detail ++ "\n[SQL: " ++ updateStatement s (cols.map (·.1.name)) ++
        "]\n[parameters: [\x7b\x7d]]"))
  | .constraint detail =>
    .fault (.database "IntegrityError"
      ("(sqlite3.IntegrityError) " ++ detail ++ "\n" ++ statementText ++ "\n" ++ backgroundLink "gkpj"))
  | .unsupported position kind =>
    .fault (.database "ProgrammingError" (unsupportedText position kind statementText))
where
  /-- The statement and its parameters as the database layer shows them. -/
  statementText : String :=
    let params := cols.map fun (c, v) =>
      match passKind c.kind v with
      | .ok w => shownValue w
      | .error _ => shownValue v
    "[SQL: " ++ updateStatement s (cols.map (·.1.name)) ++ "]\n[parameters: " ++
      tupleText (params ++ [shownValue id]) ++ "]"

/-- The tables that raw writes may touch, by the name scenarios use. -/
def rawTables : List TableId :=
  [.branches, .statuses, .transitions, .grants, .roles, .admins, .customers, .phoneCategories,
   .problems, .mappings, .parts, .partAssignments, .devices, .orders, .comments, .rentals]

/-- Writes columns of the row of a table whose key equals `id` (as the database compares it
with the key column), as one committed statement. Values are checked and handed over in the
table's column order, the key last; only then does the statement run. -/
def setColumns (t : TableId) (id : Value) (values : List (String × Value)) : Txn Unit := do
  let s := t.schema
  let unknown := (values.map (·.1)).filter fun c => !s.hasColumn c
  if !unknown.isEmpty then
    throw (.fault (.database "CompileError" ("Unconsumed column names: " ++ ", ".intercalate unknown)))
  let cols := orderedValues s values
  match passAll cols >>= storeAll 1 with
  | .error r => throw (rawFailure s cols id r)
  | .ok _ => pure ()
  let key ← match bindValue id with
    | .ok c => pure c
    | .error .tooLarge => throw (.fault .tooLargeForStore)
    | .error (.unsupported kind) => throw (rawFailure s cols id (.unsupported (cols.length + 1) kind))
    | .error (.unencodable ps) => throw (.fault (.unencodable ps))
  let st ← get
  match st.db.updateWhere t (fun r => r.is t "id" key) values with
  | .error r => throw (rawFailure s cols id r)
  | .ok db => set { st with db }

end RepairShop.Scenario
