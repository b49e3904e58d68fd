/-!
Glob patterns over keys. `*` matches any run of characters (line breaks included), `?` one
character, `[...]` one character of a class; a `[` without a closing `]` is an ordinary
character. Every other character matches itself. Patterns and keys are taken as code points,
so that a key holding a lone surrogate can be matched too. Reading a pattern consumes at least
one code point per item, so it runs on fuel equal to the length of the pattern; matching
recurses on the pattern and the text together.

A class body (`classOf`) is cut at its dashes into chunks: a dash right after the opening
`[` (or after `[!`) and a dash that ends the body stand for themselves, every other dash joins
the last character before it and the first after it into a range. A range whose ends are out
of order is taken out together with its ends, which glues the rest of the two chunks together:
`[c-b!]` leaves `!`, and `[z-a!x]` leaves `!x`. Only then is a leading `!` read as negation,
so `[c-b!]` matches any character, `[z-a!x]` any but `x`, a body left empty matches nothing,
and a body that is just `!` matches any character.
-/

namespace RepairShop.Text

/-- One item of a pattern. -/
inductive GlobItem where
  | star
  | any
  | cls (negated : Bool) (ranges : List (Nat × Nat))
  | lit (c : Nat)

/-- `*`, any run of characters. -/
def starMark : Nat := 42

/-- `?`, any one character. -/
def anyMark : Nat := 63

/-- `[`, which opens a class. -/
def openMark : Nat := 91

/-- `]`, which closes a class. -/
def closeMark : Nat := 93

/-- `!`, which negates a class. -/
def negateMark : Nat := 33

/-- `-`, which joins the ends of a range. -/
def rangeMark : Nat := 45

/-- The chunks of a class body: the pieces between the dashes that make ranges. The search
for such a dash starts at `from`; after one, the next search starts two characters further. -/
def classChunks (body : List Nat) : Nat → Nat → Nat → List (List Nat)
  | 0, start, _ => [body.drop start]
  | fuel + 1, start, from_ =>
    match ((body.drop from_).findIdx? (· == rangeMark)) with
    | some d =>
      let k := from_ + d
      (body.drop start).take (k - start) :: classChunks body fuel (k + 1) (k + 3)
    | none => [body.drop start]

/-- Closes the chunks: an empty last chunk means the body ended in a dash, which stays. -/
def closeChunks (chunks : List (List Nat)) : List (List Nat) :=
  match chunks.reverse with
  | [] :: prev :: earlier => ((prev ++ [rangeMark]) :: earlier).reverse
  | _ => chunks

/-- Takes out, from the last pair of neighbouring chunks to the first, each range whose ends
are out of order, gluing the rest of the two chunks together. -/
def dropEmptyRanges : List (List Nat) → List (List Nat)
  | [] => []
  | c :: rest =>
    match dropEmptyRanges rest with
    | d :: more =>
      match c.getLast?, d.head? with
      | some a, some b => if b < a then (c.dropLast ++ d.drop 1) :: more else c :: d :: more
      | _, _ => c :: d :: more
    | [] => [c]

/-- The ranges that chunks joined by range dashes make: the last character of a chunk and
the first of the next bound a range, every other character stands for itself. `pending` is the
last character of the chunk before, waiting for the other end of its range. -/
def chunkRanges (pending : Option Nat) : List (List Nat) → List (Nat × Nat)
  | [] => (pending.map fun a => (a, a)).toList
  | c :: rest =>
    let (start, inner) := match pending, c with
      | some a, b :: cs => ([(a, b)], cs)
      | some a, [] => ([(a, a)], [])
      | none, cs => ([], cs)
    if rest.isEmpty then start ++ inner.map fun x => (x, x)
    else start ++ inner.dropLast.map (fun x => (x, x)) ++ chunkRanges inner.getLast? rest

/-- The item a class body stands for (see the module comment). -/
def classOf (body : List Nat) : GlobItem :=
  let chunks :=
    if body.contains rangeMark then
      dropEmptyRanges (closeChunks
        (classChunks body body.length 0 (if body.head? == some negateMark then 2 else 1)))
    else [body]
  match chunks with
  | [[n]] => if n == negateMark then .any else .cls false [(n, n)]
  | (n :: first) :: rest =>
    if n == negateMark then .cls true (chunkRanges none (first :: rest))
    else .cls false (chunkRanges none chunks)
  | _ => .cls false (chunkRanges none chunks)

/-- The body of a class up to its closing `]` (a `]` right at the start, or right after a
leading `!`, belongs to the body), and the rest of the pattern. -/
def splitClass (cs : List Nat) : Option (List Nat × List Nat) :=
  let (bang, cs) := match cs with
    | n :: r => if n == negateMark then ([n], r) else ([], n :: r)
    | [] => ([], [])
  let (lead, rest) := match cs with
    | n :: r => if n == closeMark then (bang ++ [n], r) else (bang, n :: r)
    | [] => (bang, [])
  match rest.span (· != closeMark) with
  | (body, _ :: after) => some (lead ++ body, after)
  | _ => none

/-- Items of a pattern; runs of `*` collapse into one. -/
def globItems : Nat → List Nat → List GlobItem
  | 0, _ => []
  | _, [] => []
  | fuel + 1, c :: rest =>
    if c == starMark then
      match globItems fuel rest with
      | .star :: items => .star :: items
      | items => .star :: items
    else if c == anyMark then .any :: globItems fuel rest
    else if c == openMark then
      match splitClass rest with
      | some (body, after) => classOf body :: globItems fuel after
      | none => .lit c :: globItems fuel rest
    else .lit c :: globItems fuel rest

/-- The code point matches one item. -/
def GlobItem.admits (item : GlobItem) (c : Nat) : Bool :=
  match item with
  | .star => true
  | .any => true
  | .cls negated ranges => ranges.any (fun (lo, hi) => lo ≤ c && c ≤ hi) != negated
  | .lit d => c == d

/-- The whole text matches the items. -/
def globMatch : List GlobItem → List Nat → Bool
  | [], cs => cs.isEmpty
  | .star :: items, [] => globMatch items []
  | .star :: items, c :: cs => globMatch items (c :: cs) || globMatch (.star :: items) cs
  | _ :: _, [] => false
  | item :: items, c :: cs => item.admits c && globMatch items cs
termination_by items cs => items.length + cs.length

/-- The text matches the glob pattern, both as code points. -/
def globMatches (pattern text : List Nat) : Bool :=
  globMatch (globItems (pattern.length + 1) pattern) text

end RepairShop.Text
