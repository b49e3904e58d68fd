import RepairShop.Api.Handler
import RepairShop.Scenario.World

/-!
The `http` step: a request to the HTTP surface. Its `auth` names the credentials (an account
id signs in with that account's claims, a boolean as the account 1 or 0 under the identity
`True` or `False`; an object gives the claims directly and must name `admin_id`; text is the
`Authorization` header), its body is JSON or raw text with a content type, and its answer is
the status with the response body, an issued access token shown as `"<token>"`.
-/

namespace RepairShop.Scenario

open Json Api Script

/-- Credentials that sign in as an account, with that account's claims. -/
def signedIn (identity : String) (account : Int) : Txn Credentials := do
  match ← Access.claims (.int account) with
  | .obj fields => pure (.issued identity fields)
  | _ => pure (.issued identity [])

/-- The credentials a step's `auth` describes. -/
def credentialsOf : Value → Txn Credentials
  | .int id => signedIn (toString id) id
  | .bool b => signedIn (Value.bool b).display (if b then 1 else 0)
  | .obj fields => do
    match fields.lookup "admin_id" with
    | some admin =>
      pure (.issued admin.display
        (fields.filter fun (k, _) => k == "roles" || k == "perms" || k == "branch_ids"))
    | none => throw (.fault (.missingKey (.str "admin_id")))
  | .str text => pure (.header text)
  | _ => pure .absent

/-- The body a step sends: JSON, whatever content type the step names, or raw text labelled
with the step's content type, JSON unless it names another. -/
def bodyOf (step : Value) : Body :=
  match step.field "json", step.field "raw" with
  | .null, .str text => .raw text (some ((textOf? (step.field "content_type")).getD "application/json"))
  | .null, _ => .empty
  | v, _ => .json v

/-- The query arguments of a step, with the query string they stand for: an object gives
each member once, a list member once per item, members and items that are `null` left out; a
text is a query string. -/
def queryOf (step : Value) : Option (List (String × String) × String) :=
  match step.field "query" with
  | .obj fields =>
    let args := fields.flatMap fun (k, v) =>
      match v with
      | .null => []
      | .arr items => items.filterMap fun x => if x.isNull then none else some (k, x.display)
      | v => [(k, v.display)]
    some (args, "&".intercalate (args.map fun (k, v) => k ++ "=" ++ v))
  | .str q => some (parseQuery q, q)
  | _ => none

/-- A response body with an issued access token masked. -/
def maskToken : Value → Value
  | .obj fields => .obj (fields.map fun (k, v) => if k == "access_token" then (k, .str "<token>") else (k, v))
  | v => v

/-- Sends a step's request and answers its status and body. The target is split as a URL:
its authority names the host, its fragment is dropped, and its query string may not come with
query arguments; the path left is split once more, as the server receives it. -/
def webStep (step : Value) : Txn Value := do
  let outer := splitUrl (textOr (step.field "path") "/")
  let sent := outer.path ++ (if outer.query.isEmpty then "" else "?" ++ outer.query)
  let given := queryOf step
  if given.isSome && sent.contains '?' then throw (.fault .queryTwice)
  let inner := splitUrl sent
  let (query, rawQuery) := given.getD (parseQuery inner.query, inner.query)
  let credentials ← credentialsOf (step.field "auth")
  let req : HttpRequest :=
    { method := textOr (step.field "method") "GET", path := inner.path,
      credentials, body := bodyOf step, query, rawQuery,
      scheme := if outer.scheme.isEmpty then "http" else outer.scheme,
      host := if outer.netloc.isEmpty then "localhost" else outer.netloc }
  let reply ← respond req
  return .obj [("status", .int reply.status), ("body", maskToken reply.body)]

end RepairShop.Scenario
