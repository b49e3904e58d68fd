import RepairShop.Access.Assign
import RepairShop.Api.Route
import RepairShop.Api.Token
import RepairShop.Board.Listing
import RepairShop.Orders.View
import RepairShop.Status.Flow

/-!
The HTTP surface. A request is matched against the URL map, its credentials are verified
before anything else, its body and query are read the way each route reads them, and the
matching service runs. Refusals of the workflow answer with their status and
`{"error": {status, title, detail, kind, location, ...details}}`; refusals of the HTTP layer
itself (unknown path, wrong method, bad sign-in) with `{"error": {status, title, detail}}`;
refused credentials with `{"msg": ...}`; any fault with a 500 "Unexpected error".
-/

namespace RepairShop.Api

open Json Access Request Orders Store

/-- A request body as sent. -/
inductive Body where
  | empty
  | json (v : Value)
  | raw (text : String) (contentType : Option String)

/-- An HTTP request: the path is as sent, escapes not yet decoded; the query arguments come
with the query string they were read from. -/
structure HttpRequest where
  method : String
  path : String
  credentials : Credentials := .absent
  body : Body := .empty
  query : List (String × String) := []
  rawQuery : String := ""
  scheme : String := "http"
  host : String := "localhost"

/-- An HTTP response: status and JSON body. -/
structure Reply where
  status : Nat
  body : Value

/-- The prefix of access tokens this service issues. -/
def tokenPrefix : String := "issued:"

/-- A refusal of the HTTP layer. -/
def plainError (status : Nat) (detail : String) : Reply :=
  ⟨status, .obj [("error", .obj [("status", .int status), ("title", .str (statusTitle status)),
    ("detail", .str detail)])]⟩

/-- The answer of a workflow refusal. -/
def domainReply (e : DomainError) : Reply :=
  ⟨e.kind.status, .obj [("error", .obj ([("status", .int e.kind.status),
    ("title", .str (statusTitle e.kind.status)), ("detail", .str e.message),
    ("kind", .str e.kind.name), ("location", e.location)] ++ e.details))]⟩

/-- The answer of a failure. -/
def failureReply : Failure → Reply
  | .domain e => domainReply e
  | .fault _ => plainError 500 "Unexpected error"

/-- Default texts of HTTP refusals. -/
def notFoundText : String :=
  "The requested URL was not found on the server. If you entered the URL manually please check your spelling and try again."

/-- The default text of a method refusal. -/
def methodText : String := "The method is not allowed for the requested URL."

/-- The media type of a content type, lower case, without parameters. -/
def mediaType (ct : String) : String :=
  String.ofList (Text.trimBy Text.isAsciiBlank ((ct.splitOn ";").headD "").toList) |>.toLower

/-- The content type declares JSON. -/
def isJsonType (ct : Option String) : Bool :=
  match ct with
  | some t =>
    let m := mediaType t
    m == "application/json" || (m.startsWith "application/" && m.endsWith "+json")
  | none => false

/-- A raw body read as a JSON document from its UTF-8 bytes, whose encoding is detected the
way JSON documents are (a byte-order mark, or the pattern of zero bytes in front). -/
def rawDocument (text : String) : Option Value :=
  match loadBytes text.toUTF8.toList with
  | .ok v => some v
  | .error _ => none

/-- The body as JSON when it declares JSON and parses; nothing otherwise. -/
def Body.silent : Body → Option Value
  | .empty => none
  | .json v => some v
  | .raw text ct => if isJsonType ct then rawDocument text else none

/-- The body as an object; anything else reads as `{}`. -/
def Body.object (b : Body) : Value :=
  match b.silent with
  | some (.obj fields) => .obj fields
  | _ => .obj []

/-- The body, `{}` when missing or empty; a non-empty body that is not an object cannot be
asked for members. -/
def Body.orEmpty (b : Body) : Result Value :=
  match b.silent with
  | some (.obj fields) => pure (.obj fields)
  | some v => if v.truthy then throw (.fault (.noAttribute v "get")) else pure (.obj [])
  | none => pure (.obj [])

/-- The body as strictly read JSON: refused unless it declares JSON and parses. -/
def Body.strict : Body → Except Reply Value
  | .empty => .error (plainError 415 "Did not attempt to load JSON data because the request Content-Type was not 'application/json'.")
  | .json v => .ok v
  | .raw text ct =>
    if !isJsonType ct then
      .error (plainError 415 "Did not attempt to load JSON data because the request Content-Type was not 'application/json'.")
    else match rawDocument text with
      | some v => .ok v
      | none => .error (plainError 400 "The browser (or proxy) sent a request that this server could not understand.")

/-- A query argument as a value (`null` when absent). -/
def queryArg (req : HttpRequest) (key : String) : Value :=
  match req.query.lookup key with
  | some v => .str v
  | none => .null

/-- The stored hash accepts the password given. An account without a stored hash matches none;
a password that is not a text cannot be checked against one. -/
def passwordMatches [Access.PasswordHashing] (stored : Value) (given : Value) : Result Bool :=
  match stored with
  | .str h =>
    if h.isEmpty then pure false
    else match given with
      | .str p => pure (Access.PasswordHashing.check h p)
      | v => throw (.fault (.notConvertible v))
  | _ => pure false

/-- A stored hash of a password accepts exactly that password. -/
theorem passwordMatches_hash [Access.PasswordHashing] (p q : String)
    (hp : (Access.PasswordHashing.hash p).isEmpty = false) :
    passwordMatches (.str (Access.PasswordHashing.hash p)) (.str q) = .ok (decide (p = q)) := by
  have hcheck : Access.PasswordHashing.check (Access.PasswordHashing.hash p) q = decide (p = q) := by
    rw [Bool.eq_iff_iff, Access.PasswordHashing.check_hash, decide_eq_true_iff]
  simp only [passwordMatches, hp, Bool.false_eq_true, if_false, hcheck]
  rfl

/-- Signs in with e-mail and password. -/
def signIn [Access.PasswordHashing] (req : HttpRequest) : Txn Reply := do
  match req.body.strict with
  | .error r => return r
  | .ok v =>
    let data := if v.truthy then v else .obj []
    unless data.isObj do throw (.fault (.noAttribute data "get"))
    let email := data.field "email"
    let password := data.field "password"
    if !email.truthy || !password.truthy then
      return plainError 400 "email & password required"
    let refused := plainError 401 "invalid credentials"
    match email with
    | .arr _ | .obj _ => throw (.fault (.notConvertible email))
    | _ => pure ()
    let address ← Txn.param email
    match (← Txn.query).admins.find? (fun a => a.is .admins "email" address && a.isOpen .admins) with
    | none => return refused
    | some a =>
      if !(← Txn.read .admins a "is_active").truthy then return refused
      if !(← Txn.lift (passwordMatches (← Txn.read .admins a "password_hash") password)) then
        return refused
      let _ ← claims (.int a.id)
      return ⟨200, .obj [("access_token", .str (tokenPrefix ++ toString a.id))]⟩

/-- Runs a route after its credentials are verified. -/
def authenticated (req : HttpRequest) (k : String → List (String × Value) → Txn Reply) :
    Txn Reply := do
  match ← Txn.lift (verify req.credentials) with
  | .error r => pure ⟨r.status, .obj [("msg", .str r.message)]⟩
  | .ok (identity, claims) => k identity claims

/-- Runs a route that needs global permission codes. -/
def permitted (req : HttpRequest) (codes : List String) (k : Txn Reply) : Txn Reply :=
  authenticated req fun _ claims => do
    let held ← Txn.lift (permsOfClaims claims)
    let missing := codes.filter fun c => !(Value.str c).memSame held
    if !missing.isEmpty then
      throw (forbidden "Missing permission" none
        [("required", .arr (codes.map .str)), ("missing", .arr (missing.map .str))])
    k

/-- The account behind verified claims. -/
def whoAmI (identity : String) : Txn Reply := do
  let id ← Txn.lift (wholeOf (.str identity))
  let cell ← Txn.param (.int id)
  match (← Txn.query).admins.find? (fun a => a.is .admins "id" cell) with
  | none => return plainError 404 notFoundText
  | some a =>
    let own ← ["name", "email", "locale"].mapM fun c => do return (c, ← Txn.read .admins a c)
    match ← claims (.int a.id) with
    | .obj fields => return ⟨200, .obj ([("id", .int a.id)] ++ own ++ fields)⟩
    | v => return ⟨200, v⟩

/-- An answer with status 200. -/
def ok (v : Value) : Reply := ⟨200, v⟩

/-- The routes of repair orders. Each route builds the actor from the claims where it needs
it: after reading the body, except for addresses and rentals, whose actor comes before the
address or rental is read. -/
def orderRoute (req : HttpRequest) (ep : Endpoint) (identity : String)
    (claims : List (String × Value)) : Txn Reply := do
  let actor := Txn.lift (actorOfClaims identity claims)
  let body := req.body.object
  let m := req.method
  match ep with
  | .orders =>
    if m == "POST" then
      let branch ← Txn.lift (requireId (body.field "branch_id") "branch_id")
      let order ← Txn.lift (newOrder body)
      return ⟨201, ← createOrder (← actor) branch order⟩
    else
      let branch ← Txn.lift (requireId (queryArg req "branch_id") "branch_id")
      let w ← Txn.lift (Board.Window.ofRaw (queryArg req "page") (queryArg req "limit"))
      let sortBy := (req.query.lookup "sort_by").getD "sort"
      let sortOrder := (req.query.lookup "sort_order").getD "asc"
      let pages ← Board.listBoard (← actor) (.int branch) w (.str sortBy) (.str sortOrder) sortBy
        sortOrder
      return ok (.obj [("data", .obj (pages.map fun (s, v) => (toString s, v))),
        ("pagination", .obj [("page", .int w.page), ("limit", .int w.limit)])])
  | .order id =>
    if m == "GET" then return ok (← orderDetail (← actor) (.int id))
    else if m == "PATCH" then
      let change ← Txn.lift (orderChange body)
      return ok (← orderValue (← updateOrder (← actor) (.int id) change))
    else
      let o ← deleteOrder (← actor) (.int id)
      return ok (.obj [("id", .int o), ("status", .str deletedState)])
  | .move id =>
    let status ← Txn.lift (requireId (body.field "status_id") "status_id")
    let sort ← match body.field "sort" with
      | .null => pure none
      | s => some <$> Txn.lift (requireId s "sort")
    return ok (← orderValue (← moveOrder (← actor) (.int id) status sort))
  | .history id => return ok (.obj [("data", .arr (← orderTrail (← actor) (.int id)))])
  | .staff id =>
    let ids ← Txn.lift (adminIdsField (body.field "admin_ids") "admin_ids")
    let changedNow ← if m == "POST" then assignStaff (← actor) (.int id) ids
      else unassignStaff (← actor) (.int id) ids
    return ok (.obj [("changed", .bool changedNow)])
  | .problems side id =>
    let lines ← Txn.lift (problemsField (body.field "problems") side.aspect.location)
    return ok (.obj [("changed", .bool (← setProblems (← actor) side (.int id) lines))])
  | .comments id =>
    let text ← Txn.lift (commentText (body.field "text"))
    return ⟨201, ← addComment (← actor) (.int id) text⟩
  | .comment id c =>
    if m == "PATCH" then
      let text ← Txn.lift (commentText (body.field "text"))
      return ok (← commentValue (← updateComment (← actor) (.int id) (.int c) text))
    else
      removeComment (← actor) (.int id) (.int c)
      return ok (.obj [("id", .int c), ("deleted", .bool true)])
  | .place kind id =>
    let key := kind.aspect.location
    if !body.has key then throw (badRequest (key ++ " required") (some key))
    let who ← actor
    let place ← Txn.lift (placeField (body.field key) key)
    return ok (.obj [("changed", .bool (← setPlace who kind (.int id) place))])
  | .rental id =>
    let who ← actor
    if m == "DELETE" then return ok (← closeRental who (.int id)).answer
    match ← Txn.lift (rentalField body "rental_phone") with
    | none => return ok .null
    | some r =>
      if m == "POST" then return ⟨201, (← openRental who (.int id) r).answer⟩
      else return ok (← changeOrderRental who (.int id) r).answer
  | _ => return plainError 404 notFoundText

/-- Runs a matched route. -/
def dispatch (req : HttpRequest) (ep : Endpoint) : Txn Reply := do
  match ep with
  | .health => return ok (.obj [("status", .str "ok")])
  | .login => signIn req
  | .me => authenticated req fun identity _ => whoAmI identity
  | .grants => permitted req [managePermissionsCode] do
    let data ← Txn.lift req.body.orEmpty
    let role ← Txn.lift (requireId (data.field "role_id") "role_id")
    let branch ← Txn.lift (requireId (data.field "branch_id") "branch_id")
    let items ← match data.field "status_ids" with
      | .arr items => pure items
      | _ => throw (badRequest "status_ids must be an array" (some "status_ids"))
    let caps ← match data.field "capabilities" with
      | .obj fields => pure fields
      | v =>
        if v.truthy then throw (badRequest "capabilities must be an object" (some "capabilities"))
        else pure []
    let statusIds ← Txn.lift (items.mapM (requireId · "status_ids"))
    let rows ← assign role branch (statusIds.map Int.ofNat) caps
    return ⟨201, .obj [("data", .arr (← rows.mapM grantSummary))]⟩
  | .revokeRole r => permitted req [managePermissionsCode] do
    return ok (.obj [("removed", .int (← revokeRole (.int r)))])
  | .revokeStatus s => permitted req [managePermissionsCode] do
    return ok (.obj [("removed", .int (← revokeStatus (.int s)))])
  | .revokeBranch b => permitted req [managePermissionsCode] do
    return ok (.obj [("removed", .int (← revokeBranch (.int b)))])
  | .moves s => permitted req [manageStatusesCode] do
    if req.method == "GET" then
      return ok (.obj [("data", .arr (← (← Status.listMoves (.int s)).mapM Status.transitionValue))])
    let data ← Txn.lift req.body.orEmpty
    let items ← match data.field "to_status_ids" with
      | .arr items => pure items
      | _ => throw (badRequest "to_status_ids must be an array" (some "to_status_ids"))
    let targets ← (·.map Int.ofNat) <$> Txn.lift (items.mapM (requireId · "to_status_ids"))
    return ok (.obj [("data", .arr (← Status.replaceMoves (.int s) targets))])
  | ep => authenticated req fun identity claims => orderRoute req ep identity claims

/-- The body of an answer that carries no content. -/
def emptyBody : Value := .obj [("text", .str "")]

/-- Answers a request whose method names one of the endpoint's routes. -/
def answer (req : HttpRequest) (ep : Endpoint) : Txn Reply :=
  if !ep.methods.contains req.method then pure (plainError 405 methodText)
  else tryCatch (dispatch req ep) (fun e => pure (failureReply e))

/-- Characters written as entities in HTML text. -/
def htmlEscape (s : String) : String :=
  String.join (s.toList.map fun c =>
    match c with
    | '&' => "&amp;"
    | '<' => "&lt;"
    | '>' => "&gt;"
    | '"' => "&quot;"
    | '\x27' => "&#x27;"
    | c => c.toString)

/-- The answer that sends the client to another path of the same host. -/
def redirectReply (req : HttpRequest) (path : String) : Reply :=
  let target := req.scheme ++ "://" ++ req.host ++ "/" ++
    String.ofList ((quotePath path).toList.dropWhile (· == '/')) ++
    (if req.rawQuery.isEmpty then "" else "?" ++ req.rawQuery)
  let shown := htmlEscape target
  ⟨308, .obj [("text", .str ("<!doctype html>\n<html lang=en>\n<title>Redirecting...</title>\n" ++
    "<h1>Redirecting...</h1>\n<p>You should be redirected automatically to the target URL: " ++
    "<a href=\"" ++ shown ++ "\">" ++ shown ++ "</a>. If not, click the link.\n"))]⟩

/-- Where a path leads: an endpoint, another path (the same with pairs of slashes merged, when
only that one has a route taking the method), or nowhere; a route that exists but does not
take the method is told apart. -/
inductive Destination where
  | endpoint (ep : Endpoint)
  | moved (path : String)
  | wrongMethod
  | nowhere

/-- Where a decoded path leads for a method. -/
def destination (path method : String) : Destination :=
  let path := matchedPath path
  match Endpoint.ofPath? path with
  | some ep => .endpoint ep
  | none =>
    let merged := String.ofList (mergePairs path.toList)
    if merged == path then .nowhere
    else match Endpoint.ofPath? merged with
      | some ep => if ep.takes method then .moved merged else .wrongMethod
      | none => .nowhere

/-- Answers an HTTP request; every failure becomes its answer. `OPTIONS` answers any path
that exists with no content, and `HEAD` is answered as `GET` with the content dropped. -/
def respond (req : HttpRequest) : Txn Reply := do
  let method := req.method.toUpper
  let noContent := fun (r : Reply) => if method == "HEAD" then ⟨r.status, emptyBody⟩ else r
  match destination (decodePath req.path) method with
  | .nowhere => pure (noContent (plainError 404 notFoundText))
  | .wrongMethod => pure (noContent (plainError 405 methodText))
  | .moved path => pure (noContent (redirectReply req path))
  | .endpoint ep =>
    if method == "OPTIONS" then pure ⟨200, emptyBody⟩
    else if method == "HEAD" then
      let reply ← answer { req with method := "GET" } ep
      pure ⟨reply.status, emptyBody⟩
    else answer { req with method } ep

end RepairShop.Api
