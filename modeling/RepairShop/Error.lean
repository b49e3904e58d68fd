import RepairShop.Json.Value

/-!
Errors. A `DomainError` is a refusal that the workflow itself states: its kind fixes the HTTP
status (`not_found` 404, `forbidden` 403, `bad_request` 400, `conflict` 409,
`storage_failure` 500); it carries a message, the input it is about (`location`) and extra
machine-readable details. A `Failure` is either such a refusal or one of the faults that
the data can provoke below the workflow (a numeral that is not one, an infinite double made
an integer, a value that cannot be iterated), each named by its cause.
-/

namespace RepairShop

open Json

/-- The kind of a refusal. -/
inductive ErrorKind where
  | notFound
  | forbidden
  | badRequest
  | conflict
  | storageFailure
  deriving DecidableEq, Repr

namespace ErrorKind

/-- HTTP status of a refusal. -/
def status : ErrorKind → Nat
  | .notFound => 404
  | .forbidden => 403
  | .badRequest => 400
  | .conflict => 409
  | .storageFailure => 500

/-- Stable name of the kind. -/
def name : ErrorKind → String
  | .notFound => "not_found"
  | .forbidden => "forbidden"
  | .badRequest => "bad_request"
  | .conflict => "conflict"
  | .storageFailure => "storage_failure"

end ErrorKind

/-- Reason phrase of an HTTP status. -/
def statusTitle : Nat → String
  | 400 => "Bad Request"
  | 401 => "Unauthorized"
  | 403 => "Forbidden"
  | 404 => "Not Found"
  | 405 => "Method Not Allowed"
  | 409 => "Conflict"
  | 415 => "Unsupported Media Type"
  | 422 => "Unprocessable Entity"
  | 500 => "Internal Server Error"
  | _ => "Unknown Error"

/-- A refusal stated by the workflow. -/
structure DomainError where
  kind : ErrorKind
  message : String
  location : Value := .null
  details : List (String × Value) := []

/-- A location named by text, `null` when there is none. -/
def locationValue : Option String → Value
  | some l => .str l
  | none => .null

/-- A fault below the workflow, named by its cause. -/
inductive Fault where
  /-- A ring of parent links was entered at this category. -/
  | cycle (at_ : Value)
  /-- An infinite double was made an integer. -/
  | infiniteToInteger
  /-- An integer beyond the largest double was made a double. -/
  | integerTooLargeForDouble
  /-- A text that is not a numeral was read as an integer. -/
  | notNumeral (text : Value)
  /-- A value that holds no items was iterated. -/
  | notIterable (v : Value)
  /-- A list or object was put into a set. -/
  | unhashable (v : Value)
  /-- Two values of kinds without an order were compared. -/
  | unordered (op : String) (a b : Value)
  /-- The cache server is down, so its raw entries cannot be reached. -/
  | storeOffline
  /-- A lookup that expects at most one row found several. -/
  | manyRows
  /-- A value that must be a number was not one. -/
  | notNumber (v : Value)
  /-- A value of a kind that has no integer reading was made an integer. -/
  | notConvertible (v : Value)
  /-- A NaN double was made an integer. -/
  | nanToInteger
  /-- A request named an operation that does not exist. -/
  | unknownCall (name : String)
  /-- A value was asked for an attribute its kind does not have. -/
  | noAttribute (v : Value) (name : String)
  /-- The first word of a text that has none was asked for. -/
  | noFirstWord
  /-- A numeral of more digits than may be read was made an integer; the message says how
  many. -/
  | oversizedInteger (message : String)
  /-- A value that is not a list, text or object was unpacked into names. -/
  | cannotUnpack (v : Value)
  /-- A value was unpacked into `expected` names but held `got` items. -/
  | unpackCount (expected got : Nat)
  /-- Membership was asked of a value that holds nothing. -/
  | notContainer (v : Value)
  /-- A text was searched for a value that is not a text. -/
  | textProbe (v : Value)
  /-- An integer beyond 64 bits was handed to the database. -/
  | tooLargeForStore
  /-- A text with a lone surrogate was handed to the database, which takes UTF-8: its code
  points. -/
  | unencodable (points : List Nat)
  /-- A stored text was read as a double but is no numeral. -/
  | notFloat (text : String)
  /-- A mapping was asked for a key it does not have. -/
  | missingKey (key : Value)
  /-- A value that is not a list was appended to a list. -/
  | listConcatenation (v : Value)
  /-- A value that has no items by position was indexed. -/
  | notSubscriptable (v : Value)
  /-- A position past the end of a list was read. -/
  | indexOutOfRange
  /-- A number was added to a text. -/
  | concatenation (v : Value)
  /-- A value without named members was asked for one by name. -/
  | notKeyed (v : Value)
  /-- An object of the named kind was asked for a member it does not have. -/
  | noMember (owner name : String)
  /-- A method was called with a number of arguments its parameters do not take: the method,
  the names of its parameters, and how many arguments were given. -/
  | wrongArguments (method : String) (params : List String) (given : Nat)
  /-- A request target carried a query string while query arguments were given too. -/
  | queryTwice
  /-- The database layer refused a statement: the kind of error and its full text. -/
  | database (kind message : String)
  /-- A value that is not a text was decoded as JSON. -/
  | notJsonText (v : Value)
  /-- A key that is not a text was matched against a pattern. -/
  | notPatternText (v : Value)
  /-- A value that is not an object was spread into named column values. -/
  | notMapping (v : Value)
  /-- JSON text nested deeper than the decoder follows, refused at a container of this kind
  (`array` or `object`). -/
  | tooDeep (container : String)

/-- A refusal or a fault. -/
inductive Failure where
  | domain (e : DomainError)
  | fault (f : Fault)

/-- A `bad_request` refusal. -/
def badRequest (message : String) (location : Option String := none)
    (details : List (String × Value) := []) : Failure :=
  .domain { kind := .badRequest, message, location := locationValue location, details }

/-- A `not_found` refusal. -/
def notFound (message : String) (location : Option String := none) : Failure :=
  .domain { kind := .notFound, message, location := locationValue location }

/-- A `forbidden` refusal. -/
def forbidden (message : String) (location : Option String := none)
    (details : List (String × Value) := []) : Failure :=
  .domain { kind := .forbidden, message, location := locationValue location, details }

/-- A `conflict` refusal. -/
def conflict (message : String) (location : Option String := none) : Failure :=
  .domain { kind := .conflict, message, location := locationValue location }

/-- A `storage_failure` refusal. -/
def storageFailure (message : String) : Failure :=
  .domain { kind := .storageFailure, message, location := .str "transaction" }

/-- Computations that may fail. -/
abbrev Result (α : Type) := Except Failure α

end RepairShop
