import RepairShop.Store.Schema
import RepairShop.Json.Read
import RepairShop.Json.Write
import RepairShop.Text.Numeral
import RepairShop.Text.Blank

/-!
Rows and the writes a table accepts. A row is its key and its stored values by column; a
table is a list of rows in key order, the order a scan returns them in.

A value written to a column first passes the column's kind (a flag must be `None`, `True`
or `False`, or a number equal to one of them; a document becomes its JSON text), then is
handed to the database (an integer beyond 64 bits and a list or object cannot be), then takes
the column's affinity. The database refuses a required column without a value
(`NOT NULL constraint failed: table.column`) and a second row with the values of a unique
combination (`UNIQUE constraint failed: table.a, table.b`); two rows without a value never
clash. A new row takes the key one above the largest in its table, 1 in an empty table.

An insert leaves out the columns it is given no value for, so they take their default, or no
value; an update writes exactly what it is given.

Reading a column gives what the program sees: flags as the truth of what is stored,
decimals as doubles (a text is read as a numeral, or fails), documents parsed back from their
text (a number stored as a number reads as itself).
-/

namespace RepairShop.Store

open Json

/-- A stored row: its key and its values by column. -/
structure Row where
  id : Int
  cells : List (String × Cell)

instance : Inhabited Row := ⟨⟨0, []⟩⟩

/-- Rows of a table in key order. -/
abbrev Table := List Row

namespace Row

/-- The stored value of a column (`id` included); no value for a column the row lacks. -/
def get (r : Row) (column : String) : Cell :=
  if column == "id" then .int r.id else (r.cells.lookup column).getD .null

/-- The row with one column's stored value replaced. -/
def put (r : Row) (column : String) (c : Cell) : Row :=
  { r with cells := r.cells.map fun e => if e.1 == column then (column, c) else e }

end Row

/-- Why the database refused a write. -/
inductive Refusal where
  /-- A constraint failed; the text names it. -/
  | constraint (detail : String)
  /-- A flag was given something that is not one: the kind of error and its text. -/
  | notFlag (kind detail : String)
  /-- An integer beyond 64 bits was handed over. -/
  | tooLarge
  /-- A list or object was handed over as the parameter at `position` (from 1). -/
  | unsupported (position : Nat) (kind : String)
  /-- A text that UTF-8 cannot encode was handed over: its code points. -/
  | unencodable (points : List Nat)

/-- Text of a value as the program prints it inside an error. -/
def shownValue (v : Value) : String := v.shown

/-- Where the database layer explains an error of a kind. -/
def backgroundLink (code : String) : String :=
  "(Background on this error at: https://sqlalche.me/e/21/" ++ code ++ ")"

/-- A statement's parameters shown as a tuple. -/
def tupleText (items : List String) : String :=
  match items with
  | [one] => "(" ++ one ++ ",)"
  | _ => "(" ++ ", ".intercalate items ++ ")"

/-- The report of a list or object handed over as parameter `position` of a statement;
`statement` is the statement with its parameters, as the database layer shows them. -/
def unsupportedText (position : Nat) (kind statement : String) : String :=
  "(sqlite3.ProgrammingError) Error binding parameter " ++ toString position ++ ": type '" ++
    kind ++ "' is not supported\n" ++ statement ++ "\n" ++ backgroundLink "f405"

/-- A value written to a flag column, as the 0 or 1 it stands for. -/
def flagValue (v : Value) : Except Refusal Value :=
  match v with
  | .null => .ok .null
  | .bool b => .ok (.int (if b then 1 else 0))
  | .int n =>
    if n == 0 || n == 1 then .ok (.int n)
    else .error (.notFlag "ValueError" ("Value " ++ toString n ++ " is not None, True, or False"))
  | .float x =>
    if x == 0.0 then .ok (.int 0) else if x == 1.0 then .ok (.int 1)
    else .error (.notFlag "TypeError" ("Not a boolean value: " ++ shownValue v))
  | .str _ | .unpaired _ => .error (.notFlag "TypeError" ("Not a boolean value: " ++ shownValue v))
  | .arr _ => .error (.notFlag "TypeError" "unhashable type: 'list'")
  | .obj _ => .error (.notFlag "TypeError" "unhashable type: 'dict'")

/-- A value as the column's kind passes it on. -/
def passKind (k : Kind) (v : Value) : Except Refusal Value :=
  match k with
  | .flag => flagValue v
  | .document => .ok (.str v.render)
  | _ => .ok v

/-- A value passed on by its kind, handed over as parameter `position`, as the column
stores it. -/
def storeValue (k : Kind) (position : Nat) (v : Value) : Except Refusal Cell :=
  match bindValue v with
  | .ok c => .ok (c.withAffinity k.affinity)
  | .error .tooLarge => .error .tooLarge
  | .error (.unsupported kind) => .error (.unsupported position kind)
  | .error (.unencodable ps) => .error (.unencodable ps)

/-- Passes every value on by its column's kind, in order; the first failure wins. -/
def passAll : List (Column × Value) → Except Refusal (List (Column × Value))
  | [] => .ok []
  | (c, v) :: rest => do
    let v' ← passKind c.kind v
    return (c, v') :: (← passAll rest)

/-- Hands over passed values as parameters numbered from `position`, in order. -/
def storeAll (position : Nat) : List (Column × Value) → Except Refusal (List (String × Cell))
  | [] => .ok []
  | (c, v) :: rest => do
    let cell ← storeValue c.kind position v
    return (c.name, cell) :: (← storeAll (position + 1) rest)

/-- The first required column, in table order, left without a value. -/
def missingRequired (s : Schema) (cells : List (String × Cell)) : Option String :=
  (s.columns.find? fun c => c.required && ((cells.lookup c.name).getD .null).isNull).map (·.name)

/-- Two rows hold the same values in the columns of a unique combination. -/
def clashes (group : List String) (a b : Row) : Bool :=
  group.all fun c => (a.get c).sqlEq (b.get c)

/-- The unique combination that `r` breaks among `others`, if any. -/
def brokenUnique (s : Schema) (others : Table) (r : Row) : Option (List String) :=
  s.unique.find? fun g => others.any (clashes g r)

/-- The text naming a broken unique combination. -/
def uniqueDetail (s : Schema) (g : List String) : String :=
  "UNIQUE constraint failed: " ++ ", ".intercalate (g.map (s.name ++ "." ++ ·))

/-- The key the next inserted row takes. -/
def nextId (t : Table) : Int :=
  t.foldl (fun m r => max m r.id) 0 + 1

/-- Puts a row into a table in key order. -/
def placeRow (r : Row) : Table → Table
  | [] => [r]
  | x :: xs => if r.id < x.id then r :: x :: xs else x :: placeRow r xs

/-- Checks the constraints on a row about to be stored among `others`. -/
def checkRow (s : Schema) (others : Table) (r : Row) : Except Refusal Unit := do
  if let some c := missingRequired s r.cells then
    throw (.constraint ("NOT NULL constraint failed: " ++ s.name ++ "." ++ c))
  if let some g := brokenUnique s others r then
    throw (.constraint (uniqueDetail s g))

/-- The values an insert hands over: for each column, the value given unless it is `None`
(a document takes `None` as JSON `null`), else the column's default. -/
def insertValues (s : Schema) (given : List (String × Value)) : List (Column × Value) :=
  s.columns.filterMap fun c =>
    let chosen := match given.lookup c.name with
      | some .null => if c.kind == Kind.document then some Value.null else c.default
      | some v => some v
      | none => c.default
    chosen.map (c, ·)

/-- Inserts a row; gives the table and the new row's key. -/
def insertRow (s : Schema) (t : Table) (given : List (String × Value)) :
    Except Refusal (Table × Int) := do
  let passed ← passAll (insertValues s given)
  let stored ← storeAll 1 passed
  let id := nextId t
  let row : Row := ⟨id, s.columns.map fun c => (c.name, (stored.lookup c.name).getD .null)⟩
  checkRow s t row
  return (placeRow row t, id)

/-- The key a row takes from an update of `id`: an integer, or the update is refused. -/
def keyOf (c : Cell) : Except Refusal Int :=
  match c.withAffinity .numeric with
  | .int n => .ok n
  | _ => .error (.constraint "datatype mismatch")

/-- Updates the first row that `target` picks, writing exactly the given columns (unknown
names are ignored); a table without such a row is left as it is. -/
def updateRow (s : Schema) (t : Table) (target : Row → Bool) (given : List (String × Value)) :
    Except Refusal Table := do
  let cols := (({ name := "id", kind := .integer } : Column) :: s.columns).filterMap fun c =>
    (given.lookup c.name).map (c, ·)
  let passed ← passAll cols
  let stored ← storeAll 1 passed
  match t.find? target with
  | none => return t
  | some old =>
    let others := t.filter (·.id != old.id)
    let newId ← match stored.lookup "id" with
      | some c => keyOf c
      | none => pure old.id
    let row : Row := ⟨newId, old.cells.map fun e => (e.1, (stored.lookup e.1).getD e.2)⟩
    if newId != old.id && others.any (·.id == newId) then
      throw (.constraint ("UNIQUE constraint failed: " ++ s.name ++ ".id"))
    checkRow s others row
    return placeRow row others

/-- Python's reading of a text as a double: blanks around, an optional sign, and a decimal
numeral whose digits may be of any script and separated by single underscores, or `inf`,
`infinity` or `nan` in any case. -/
def floatOfText? (s : String) : Option Float :=
  let cs := Text.trimBy Text.isNumeralBlank s.toList
  let (neg, body) := match cs with
    | '-' :: r => (true, r)
    | '+' :: r => (false, r)
    | r => (false, r)
  let word := String.ofList (body.map Char.toLower)
  if word == "inf" || word == "infinity" then some (Number.infinity neg)
  else if word == "nan" then some (0.0 / 0.0)
  else
    let ascii := body.map fun c =>
      match Text.digitValue? c with
      | some d => Char.ofNat ('0'.toNat + d)
      | none => c
    if !underscoresOk ascii then none else
    match readNumeral? (ascii.filter (· != '_')) with
    | some n => some (Number.ofDecimal neg n.mant n.exp)
    | none => none
where
  /-- Every underscore stands between two digits. -/
  underscoresOk (cs : List Char) : Bool :=
    let arr := cs.toArray
    (List.range arr.size).all fun i =>
      arr[i]? != some '_' ||
        ((arr[i - 1]?).any Char.isDigit && i != 0 && (arr[i + 1]?).any Char.isDigit)

/-- Why a stored value could not be read. -/
inductive ReadFault where
  /-- A text in a decimal column that is no numeral. -/
  | notFloat (text : String)

/-- What the program reads from a cell of a column of the given kind. -/
def readCell (k : Kind) (c : Cell) : Except ReadFault Value :=
  match k, c with
  | _, .null => .ok .null
  | .flag, .int n => .ok (.bool (n != 0))
  | .flag, .real x => .ok (.bool (x != 0.0))
  | .flag, .text s => .ok (.bool !s.isEmpty)
  | .decimal, .int n => .ok (.float ((Number.ofInt? n).getD 0.0))
  | .decimal, .real x => .ok (.float x)
  | .decimal, .text s =>
    match floatOfText? s with
    | some x => .ok (.float x)
    | none => .error (.notFloat s)
  | .document, .text s => .ok ((parse? s).getD (.str s))
  | .stamp, _ => .ok .null
  | _, c => .ok c.toValue

/-- What the program reads from a column of a row. -/
def Row.read (s : Schema) (r : Row) (column : String) : Except ReadFault Value :=
  if column == "id" then .ok (.int r.id)
  else
    match s.column? column with
    | some c => readCell c.kind (r.get column)
    | none => .ok .null

end RepairShop.Store
