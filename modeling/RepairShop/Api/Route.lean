import RepairShop.Orders.Places
import RepairShop.Text.Numeral
import RepairShop.Text.Codec

/-!
The URL map of the HTTP surface. Escapes `%XX` in a path are bytes of UTF-8 text; the
decoded path is split at `/` into segments, and an `<int>` segment is a run of decimal
digits (any script) read as a whole number. A path that matches no rule is not found; one
that matches a rule that does not take the request's method is a method not allowed.
-/

namespace RepairShop.Api

open Orders

/-- What a path addresses. -/
inductive Endpoint where
  | health
  | login
  | me
  | orders
  | order (id : Nat)
  | move (id : Nat)
  | history (id : Nat)
  | staff (id : Nat)
  | problems (side : ProblemSide) (id : Nat)
  | comments (id : Nat)
  | comment (id comment : Nat)
  | place (kind : PlaceKind) (id : Nat)
  | rental (id : Nat)
  | grants
  | revokeRole (role : Nat)
  | revokeStatus (status : Nat)
  | revokeBranch (branch : Nat)
  | moves (status : Nat)

/-- The whole number a segment of decimal digits stands for. -/
def numberSegment? (s : String) : Option Nat :=
  if s.isEmpty then none
  else s.toList.foldlM (fun acc c => (Text.digitValue? c).map (acc * 10 + ·)) 0

/-- The endpoint of a path's segments (after the leading `/`). -/
def endpoint? (segments : List String) : Option Endpoint :=
  match segments with
  | ["healthz"] => some .health
  | ["iam", "auth", "login"] => some .login
  | ["iam", "auth", "me"] => some .me
  | ["repair-orders"] => some .orders
  | ["repair-orders", n] => (numberSegment? n).map .order
  | ["repair-orders", n, "move"] => (numberSegment? n).map .move
  | ["repair-orders", n, "history"] => (numberSegment? n).map .history
  | ["repair-orders", n, "admins"] => (numberSegment? n).map .staff
  | ["repair-orders", n, "initial-problems"] => (numberSegment? n).map (.problems .initial)
  | ["repair-orders", n, "final-problems"] => (numberSegment? n).map (.problems .final)
  | ["repair-orders", n, "comments"] => (numberSegment? n).map .comments
  | ["repair-orders", n, "comments", c] => do
    let id ← numberSegment? n
    let comment ← numberSegment? c
    pure (.comment id comment)
  | ["repair-orders", n, "pickup"] => (numberSegment? n).map (.place .pickup)
  | ["repair-orders", n, "delivery"] => (numberSegment? n).map (.place .delivery)
  | ["repair-orders", n, "rental-phone"] => (numberSegment? n).map .rental
  | ["repair-order-status-permissions"] => some .grants
  | ["repair-order-status-permissions", "roles", n] => (numberSegment? n).map .revokeRole
  | ["repair-order-status-permissions", "statuses", n] => (numberSegment? n).map .revokeStatus
  | ["repair-order-status-permissions", "branches", n] => (numberSegment? n).map .revokeBranch
  | ["repair-order-status-transitions", n] => (numberSegment? n).map .moves
  | _ => none

/-- The methods an endpoint takes. -/
def Endpoint.methods : Endpoint → List String
  | .health | .me | .history _ => ["GET"]
  | .login | .comments _ | .grants => ["POST"]
  | .orders => ["POST", "GET"]
  | .order _ => ["GET", "PATCH", "DELETE"]
  | .move _ => ["PATCH"]
  | .staff _ => ["POST", "DELETE"]
  | .problems _ _ | .place _ _ => ["PUT"]
  | .comment _ _ => ["PATCH", "DELETE"]
  | .rental _ => ["POST", "PATCH", "DELETE"]
  | .revokeRole _ | .revokeStatus _ | .revokeBranch _ => ["DELETE"]
  | .moves _ => ["GET", "PUT"]

/-- The value of a hexadecimal digit. -/
def hexDigit? (c : Char) : Option Nat :=
  if '0' ≤ c && c ≤ '9' then some (c.toNat - '0'.toNat)
  else if 'a' ≤ c && c ≤ 'f' then some (c.toNat - 'a'.toNat + 10)
  else if 'A' ≤ c && c ≤ 'F' then some (c.toNat - 'A'.toNat + 10)
  else none

/-- The bytes a percent-encoded text stands for: an escape `%XX` its byte, any other
character its UTF-8 bytes (a `%` without two hexadecimal digits after it stays itself). -/
def percentBytes : List Char → List UInt8
  | '%' :: a :: b :: rest =>
    match hexDigit? a, hexDigit? b with
    | some x, some y => UInt8.ofNat (x * 16 + y) :: percentBytes rest
    | _, _ => '%'.toString.toUTF8.toList ++ percentBytes (a :: b :: rest)
  | c :: rest => c.toString.toUTF8.toList ++ percentBytes rest
  | [] => []

/-- Decodes the escapes of a text as UTF-8, a malformed sequence written as `patch` gives it. -/
def unquote (patch : List UInt8 → List Char) (text : List Char) : String :=
  String.ofList (Text.utf8Patched patch (percentBytes text))

/-- A path with its escapes decoded (a malformed sequence reads as a replacement character,
which no route has). -/
def decodePath (path : String) : String :=
  unquote Text.replaceBad path.toList

/-- The segments of a decoded path. -/
def segments (path : String) : Option (List String) :=
  match path.splitOn "/" with
  | "" :: rest => some rest
  | _ => none

/-- The path a decoded path is matched as: its leading slashes collapsed into one (an empty
path stays empty). -/
def matchedPath (path : String) : String :=
  if path.isEmpty then "" else "/" ++ String.ofList (path.toList.dropWhile (· == '/'))

/-- Each pair of consecutive slashes, scanning left to right, made one slash; a run of three
leaves two. -/
def mergePairs : List Char → List Char
  | '/' :: '/' :: rest => '/' :: mergePairs rest
  | c :: rest => c :: mergePairs rest
  | [] => []

/-- The endpoint of a matched path. -/
def Endpoint.ofPath? (path : String) : Option Endpoint :=
  segments path >>= endpoint?

/-- The endpoint takes the method: one of its own, `HEAD` where it takes `GET`, and `OPTIONS`
everywhere. -/
def Endpoint.takes (ep : Endpoint) (method : String) : Bool :=
  ep.methods.contains method || method == "OPTIONS" || (method == "HEAD" && ep.methods.contains "GET")

/-- Characters a path keeps unescaped in a redirect target. -/
def pathKeeps (c : Char) : Bool :=
  (c.toNat < 128 && c.isAlphanum) || "_.-~!$&\x27()*+,/:;=@".toList.contains c

/-- Upper-case hexadecimal digit. -/
def hexUpper (n : Nat) : Char :=
  if n < 10 then Char.ofNat ('0'.toNat + n) else Char.ofNat ('A'.toNat + n - 10)

/-- A path with every other character written as escapes of its UTF-8 bytes. -/
def quotePath (path : String) : String :=
  String.join (path.toList.map fun c =>
    if pathKeeps c then c.toString
    else String.join (c.toString.toUTF8.toList.map fun b =>
      String.ofList ['%', hexUpper (b.toNat / 16), hexUpper (b.toNat % 16)]))

/-- The parts of a URL. -/
structure UrlParts where
  scheme : String := ""
  netloc : String := ""
  path : String := ""
  query : String := ""
  fragment : String := ""

/-- A character that may stand in a scheme. -/
def isSchemeChar (c : Char) : Bool :=
  (c.toNat < 128 && c.isAlphanum) || c == '+' || c == '-' || c == '.'

/-- Splits a text at the first occurrence of a character. -/
def splitAtFirst (c : Char) (cs : List Char) : Option (List Char × List Char) :=
  match cs.idxOf? c with
  | some i => some (cs.take i, cs.drop (i + 1))
  | none => none

/-- Splits a URL into its parts. Control characters and spaces in front are dropped, tabs and
line breaks anywhere removed. A scheme is a letter and scheme characters up to the first colon;
an authority follows `//`, up to the next `/`, `?` or `#`; then the fragment follows the first
`#` and the query the first `?` before it. -/
def splitUrl (url : String) : UrlParts :=
  let cs := (url.toList.dropWhile (·.toNat ≤ 32)).filter fun c => c != '\t' && c != '\r' && c != '\n'
  let (scheme, cs) := match splitAtFirst ':' cs with
    | some (pre, post) =>
      match pre with
      | first :: _ =>
        if first.toNat < 128 && first.isAlpha && pre.all isSchemeChar then
          (String.ofList (pre.map Char.toLower), post)
        else ("", cs)
      | [] => ("", cs)
    | none => ("", cs)
  let (netloc, cs) := match cs with
    | '/' :: '/' :: rest =>
      let inHost := rest.takeWhile fun c => c != '/' && c != '?' && c != '#'
      (String.ofList inHost, rest.drop inHost.length)
    | _ => ("", cs)
  let (cs, fragment) := match splitAtFirst '#' cs with
    | some (pre, post) => (pre, String.ofList post)
    | none => (cs, "")
  let (path, query) := match splitAtFirst '?' cs with
    | some (pre, post) => (String.ofList pre, String.ofList post)
    | none => (String.ofList cs, "")
  { scheme, netloc, path, query, fragment }

/-- The arguments of a query string: pairs separated by `&`, name and value separated by the
first `=` (a pair without one has an empty value), `+` read as a space and escapes decoded
(a malformed sequence keeps the escapes of its bytes); empty pairs are skipped. -/
def parseQuery (query : String) : List (String × String) :=
  let decode := fun (t : String) =>
    unquote Text.quoteBad (t.toList.map fun c => if c == '+' then ' ' else c)
  (query.splitOn "&").filterMap fun pair =>
    if pair.isEmpty then none
    else match pair.splitOn "=" with
      | [name] => some (decode name, "")
      | name :: rest => some (decode name, decode ("=".intercalate rest))
      | [] => none

/-- A request target split into its path and its query arguments; a fragment is dropped. -/
def splitTarget (target : String) : String × List (String × String) :=
  let noFragment := (target.splitOn "#").headD ""
  match noFragment.splitOn "?" with
  | [path] => (path, [])
  | path :: rest => (path, parseQuery ("?".intercalate rest))
  | [] => (noFragment, [])

end RepairShop.Api
