import RepairShop.Access.Grants
import RepairShop.Json.Scan
import RepairShop.Text.Base64

/-!
Bearer credentials. The service issues access tokens that carry the identity of the account
(its id as text) and its sign-in claims. A request presents a token in the header
`Authorization: Bearer <token>`, possibly among other comma-separated fields.

Refusals, in the order they are checked: a missing or blank header, or one without exactly
one `Bearer` field, is unauthorized (401); a field with no word at all is a fault; a `Bearer`
field that is not exactly two words is unprocessable (422). A presented token that this
service did not issue is then unprocessable with the first reason its reading gives: fewer
than three dot-separated segments; a segment that is not base64 (header, then payload, then
signature); a header or payload that is not a JSON object (with the JSON reader's message);
a header that declares an unencoded payload; a key id that is not text; a missing or
disallowed algorithm; and last a signature that does not verify.

The actor of a request is read from the claims: its id from the identity, its roles and
branches as integers (a claim is walked as a list, a text or an object's keys), and its
permission codes must form a set.
-/

namespace RepairShop.Api

open Json Access Request

/-- What a request presents to prove who it is. -/
inductive Credentials where
  /-- No `Authorization` header. -/
  | absent
  /-- A token this service issued, with its identity and claims. -/
  | issued (identity : String) (claims : List (String × Value))
  /-- An `Authorization` header given as text. -/
  | header (text : String)

/-- A refusal of credentials: HTTP status and message. -/
structure TokenRefusal where
  status : Nat
  message : String

/-- The words of a header field, split at blanks. -/
def words (s : String) : List String :=
  (s.split Text.isBlank).toList.map (·.toString) |>.filter (!·.isEmpty)

/-- The fields of a header, split at each comma; blanks right after a comma are dropped.
`acc` holds the current field, last character first. -/
def headerFields : List Char → List Char → Bool → List String
  | [], acc, _ => [String.ofList acc.reverse]
  | c :: rest, acc, afterComma =>
    if afterComma && Text.isBlank c then headerFields rest acc true
    else if c == ',' then String.ofList acc.reverse :: headerFields rest [] true
    else headerFields rest (c :: acc) false

/-- The three segments of a compact token: before the first dot, between the first and the
last dot, after the last dot. -/
def tokenSegments (bytes : List UInt8) : Option (List UInt8 × List UInt8 × List UInt8) :=
  let dot : UInt8 := 46
  match bytes.idxOf? dot, (bytes.reverse.idxOf? dot) with
  | some first, some fromEnd =>
    let last := bytes.length - 1 - fromEnd
    if first < last then
      some (bytes.take first, (bytes.take last).drop (first + 1), bytes.drop (last + 1))
    else none
  | _, _ => none

/-- The algorithm tokens must be signed with. -/
def tokenAlgorithm : String := "HS256"

/-- The algorithm a token header declares, checked: missing, disallowed, or allowed. -/
def algorithmRefusal (header : Value) : Option String :=
  match header.get? "alg" with
  | none => some "Algorithm not specified"
  | some alg =>
    if !alg.truthy || !alg.same (.str tokenAlgorithm) then
      some "The specified alg value is not allowed"
    else none

/-- Why a presented token that this service did not issue is refused. -/
def tokenRefusal (token : String) : String :=
  match tokenSegments token.toUTF8.toList with
  | none => "Not enough segments"
  | some (headerPart, payloadPart, signaturePart) =>
    match Text.segmentDecode headerPart with
    | none => "Invalid header padding"
    | some headerBytes =>
      match loadBytes headerBytes with
      | .error e => "Invalid header string: " ++ e
      | .ok (.obj fields) =>
        let header := Value.obj fields
        match Text.segmentDecode payloadPart, Text.segmentDecode signaturePart with
        | none, _ => "Invalid payload padding"
        | _, none => "Invalid crypto padding"
        | some payloadBytes, some _ =>
          if header.get? "b64" matches some (.bool false) then
            "It is required that you pass in a value for the \"detached_payload\" argument to decode a message having the b64 header set to false."
          else match loadBytes payloadBytes with
            | .error e => "Invalid payload string: " ++ e
            | .ok (.obj _) =>
              match header.get? "kid" with
              | some (.str _) | none =>
                (algorithmRefusal header).getD "Signature verification failed"
              | some _ => "Key ID header parameter must be a string"
            | .ok _ => "Invalid payload string: must be a json object"
      | .ok _ => "Invalid header string: must be a json object"

/-- The identity and claims of credentials, or why they are refused. -/
def verify : Credentials → Result (Except TokenRefusal (String × List (String × Value)))
  | .absent => pure (.error ⟨401, "Missing Authorization Header"⟩)
  | .issued identity claims => pure (.ok (identity, claims))
  | .header text =>
    let stripped := Text.trimBy Text.isBlank text.toList
    let trimmed := ((stripped.dropWhile (· == ',')).reverse.dropWhile (· == ',')).reverse
    if trimmed.isEmpty then pure (.error ⟨401, "Missing Authorization Header"⟩)
    else
      let fields := headerFields trimmed [] false
      if fields.any (fun f => (words f).isEmpty) then throw (.fault .noFirstWord)
      else match fields.filter (fun f => (words f).head? == some "Bearer") with
        | [field] =>
          match words field with
          | [_, token] => pure (.error ⟨422, tokenRefusal token⟩)
          | _ => pure (.error ⟨422,
            "Bad Authorization header. Expected 'Authorization: Bearer <JWT>'"⟩)
        | _ => pure (.error ⟨401,
          "Missing 'Bearer' type in 'Authorization' header. Expected 'Authorization: Bearer <JWT>'"⟩)

/-- The members of a claim the way a loop walks it: the items of a list, the characters of a
text, the keys of an object; anything else cannot be walked. -/
def claimItems (v : Value) : Result (List Value) :=
  match v with
  | .arr items => pure items
  | .str s => pure (s.toList.map fun c => .str (String.singleton c))
  | .unpaired ps => pure (ps.map fun n => Value.ofPoints [n])
  | .obj fields => pure (fields.map fun f => .str f.1)
  | _ => throw (.fault (.notIterable v))

/-- A claim, or an empty list when the claims do not have it. -/
def claimOf (claims : List (String × Value)) (key : String) : Value :=
  (claims.lookup key).getD (.arr [])

/-- The permission codes of verified claims, as a set. -/
def permsOfClaims (claims : List (String × Value)) : Result (List Value) :=
  setOf (claimOf claims "perms")

/-- The actor of verified claims. -/
def actorOfClaims (identity : String) (claims : List (String × Value)) : Result Actor := do
  let admin ← wholeOf (.str identity)
  let roleIds ← (← claimItems (claimOf claims "roles")).mapM wholeOf
  let branchIds ← (← claimItems (claimOf claims "branch_ids")).mapM wholeOf
  let _ ← permsOfClaims claims
  pure { adminId := .int admin, roleIds := roleIds.map .int, branchIds := branchIds.map .int }

end RepairShop.Api
