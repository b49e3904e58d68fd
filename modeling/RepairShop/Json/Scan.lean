import RepairShop.Json.Read
import RepairShop.Text.Codec
import RepairShop.Text.Numeral

/-!
Reading JSON with diagnostics. This reader accepts the same documents as `parse?` and, when
a document is refused, says why and where, in the words of the service's JSON decoder:
`Expecting value`, `Expecting ',' delimiter`, `Expecting ':' delimiter`,
`Expecting property name enclosed in double quotes` (also after a trailing comma),
`Unterminated string starting at`, `Invalid control character at`, `Invalid \escape`,
`Invalid \uXXXX escape` and `Extra data`, each followed by the line, the column and the
index of the offending code point. An integer of more than 4300 digits is
refused without a position, and so is a document nested more than `nestingLimit` containers
deep (naming the container). The text is a list of code points, so that surrogates decoded
from bytes keep their place in the count, and a string that holds a lone surrogate reads as
an `unpaired` text.
-/

namespace RepairShop.Json

/-- A JSON text as code points. -/
abbrev Points := Array Nat

/-- Why a text is not JSON, and at which code point when that is known; `nested` names the
container (`array` or `object`) that went past the deepest nesting the decoder follows. -/
structure ScanFailure where
  message : String
  pos : Option Nat := none
  nested : Option String := none

/-- The deepest nesting of arrays and objects the decoder follows; a container one level
deeper is refused. -/
def nestingLimit : Nat := 980

/-- Results of the diagnosing reader. -/
abbrev Scanned := Except ScanFailure

/-- A JSON blank: space, tab, line feed, carriage return. -/
def isBlankPoint (c : Nat) : Bool := c == 32 || c == 9 || c == 10 || c == 13

/-- The first position at or after `i` that is not a blank. -/
def skipPoints (s : Points) (i : Nat) : Nat :=
  if h : i < s.size then
    if isBlankPoint s[i] then skipPoints s (i + 1) else i
  else i
termination_by s.size - i

/-- The code point at `i` equals `c`. -/
def pointIs (s : Points) (i : Nat) (c : Char) : Bool := s[i]? == some c.toNat

/-- The code points from `i` spell `word`. -/
def spells (s : Points) (i : Nat) (word : String) : Bool :=
  (word.toList.zipIdx).all fun (c, k) => pointIs s (i + k) c

/-- The value of a hexadecimal digit code point. -/
def hexPoint? (c : Nat) : Option Nat :=
  if c < 128 then hexValue? (Char.ofNat c) else none

/-- The value of the four hexadecimal digits from `i`. -/
def hex4At? (s : Points) (i : Nat) : Option Nat := do
  let a ← hexPoint? (← s[i]?)
  let b ← hexPoint? (← s[i + 1]?)
  let c ← hexPoint? (← s[i + 2]?)
  let d ← hexPoint? (← s[i + 3]?)
  pure (((a * 16 + b) * 16 + c) * 16 + d)

/-- The code point of a simple escape letter. -/
def escapePoint? (c : Nat) : Option Nat :=
  if c < 128 then (simpleEscape? (Char.ofNat c)).map Char.toNat else none

/-- Reads a string body from `i`; `start` is the position of its opening quote and `acc`
holds the code points read, last first. -/
def scanStr (s : Points) (start : Nat) (i : Nat) (acc : List Nat) : Scanned (List Nat × Nat) :=
  if h : i < s.size then
    let c := s[i]
    if c == 34 then .ok (acc.reverse, i + 1)
    else if c == 92 then
      let j := i + 1
      if hj : j < s.size then
        let e := s[j]
        if e != 117 then
          match escapePoint? e with
          | some v => scanStr s start (j + 1) (v :: acc)
          | none => .error ⟨"Invalid \\escape", some i, none⟩
        else if s.size ≤ j + 5 then .error ⟨"Invalid \\uXXXX escape", some j, none⟩
        else match hex4At? s (j + 1) with
          | none => .error ⟨"Invalid \\uXXXX escape", some j, none⟩
          | some u =>
            let stop := j + 5
            if 0xD800 ≤ u && u < 0xDC00 && stop + 6 < s.size && pointIs s stop '\\' &&
                pointIs s (stop + 1) 'u' then
              match hex4At? s (stop + 2) with
              | none => .error ⟨"Invalid \\uXXXX escape", some (stop + 1), none⟩
              | some u2 =>
                if 0xDC00 ≤ u2 && u2 < 0xE000 then
                  scanStr s start (stop + 6) ((0x10000 + (u - 0xD800) * 1024 + (u2 - 0xDC00)) :: acc)
                else scanStr s start stop (u :: acc)
            else scanStr s start stop (u :: acc)
      else .error ⟨"Unterminated string starting at", some start, none⟩
    else if c ≤ 0x1F then .error ⟨"Invalid control character at", some i, none⟩
    else scanStr s start (i + 1) (c :: acc)
  else .error ⟨"Unterminated string starting at", some start, none⟩
termination_by s.size - i

/-- The end of a run of ASCII digits from `i`. -/
def digitsEnd (s : Points) (i : Nat) : Nat :=
  if h : i < s.size then
    if 48 ≤ s[i] && s[i] ≤ 57 then digitsEnd s (i + 1) else i
  else i
termination_by s.size - i

/-- Reads a number from `i`: an optional minus, an integer part without leading zeros, an
optional fraction and an optional exponent (given up when it has no digits). -/
def scanNumber (s : Points) (i : Nat) : Scanned (Value × Nat) :=
  let afterSign := if pointIs s i '-' then i + 1 else i
  if s.size ≤ afterSign then .error ⟨"Expecting value", some i, none⟩
  else
    let intEnd :=
      if pointIs s afterSign '0' then some (afterSign + 1)
      else match s[afterSign]? with
        | some c => if 49 ≤ c && c ≤ 57 then some (digitsEnd s (afterSign + 1)) else none
        | none => none
    match intEnd with
    | none => .error ⟨"Expecting value", some i, none⟩
    | some k =>
      let digitAt := fun (p : Nat) => match s[p]? with
        | some c => 48 ≤ c && c ≤ 57
        | none => false
      let (fracEnd, hasFrac) :=
        if k + 1 < s.size && pointIs s k '.' && digitAt (k + 1) then (digitsEnd s (k + 2), true)
        else (k, false)
      let (stop, isFloat) :=
        if fracEnd + 1 < s.size && (pointIs s fracEnd 'e' || pointIs s fracEnd 'E') then
          let afterE := fracEnd + 1
          let afterSign := if afterE + 1 < s.size && (pointIs s afterE '-' || pointIs s afterE '+')
            then afterE + 1 else afterE
          let expEnd := digitsEnd s afterSign
          if 0 < expEnd && digitAt (expEnd - 1) then (expEnd, true) else (fracEnd, hasFrac)
        else (fracEnd, hasFrac)
      let text := pointsString ((s.extract i stop).toList)
      if isFloat then
        match parse? text with
        | some v => .ok (v, stop)
        | none => .error ⟨"Expecting value", some i, none⟩
      else
        let digits := k - afterSign
        if Text.maxDigits < digits then .error ⟨Text.tooManyDigitsText digits, none, none⟩
        else match parse? text with
          | some v => .ok (v, stop)
          | none => .error ⟨"Expecting value", some i, none⟩

/-- Sets a member: a repeated key keeps its first position and takes the new value. -/
def putMember (fields : List (String × Value)) (k : String) (v : Value) :
    List (String × Value) :=
  if fields.any (·.1 == k) then fields.map (fun p => if p.1 == k then (k, v) else p)
  else fields ++ [(k, v)]

mutual

/-- Reads one value at `i` (blanks already skipped) inside `depth` containers; fuel bounds the
steps. -/
def scanValue : Nat → Nat → Points → Nat → Scanned (Value × Nat)
  | 0, _, _, i => .error ⟨"Expecting value", some i, none⟩
  | fuel + 1, depth, s, i =>
    match s[i]? with
    | none => .error ⟨"Expecting value", some i, none⟩
    | some c =>
      if c == 34 then (fun (ps, j) => (Value.ofPoints ps, j)) <$> scanStr s i (i + 1) []
      else if c == 123 then
        if nestingLimit ≤ depth then .error ⟨"", none, some "object"⟩ else
        let j := skipPoints s (i + 1)
        if pointIs s j '}' then .ok (.obj [], j + 1) else scanMembers fuel (depth + 1) s j []
      else if c == 91 then
        if nestingLimit ≤ depth then .error ⟨"", none, some "array"⟩ else
        let j := skipPoints s (i + 1)
        if pointIs s j ']' then .ok (.arr [], j + 1) else scanItems fuel (depth + 1) s j []
      else if c == 110 && i + 3 < s.size && spells s (i + 1) "ull" then .ok (.null, i + 4)
      else if c == 116 && i + 3 < s.size && spells s (i + 1) "rue" then .ok (.bool true, i + 4)
      else if c == 102 && i + 4 < s.size && spells s (i + 1) "alse" then .ok (.bool false, i + 5)
      else if c == 78 && i + 2 < s.size && spells s (i + 1) "aN" then
        .ok ((parse? "NaN").getD .null, i + 3)
      else if c == 73 && i + 7 < s.size && spells s (i + 1) "nfinity" then
        .ok ((parse? "Infinity").getD .null, i + 8)
      else if c == 45 && i + 8 < s.size && spells s (i + 1) "Infinity" then
        .ok ((parse? "-Infinity").getD .null, i + 9)
      else scanNumber s i

/-- Reads the members of an object from `i`, after `{` or after a comma. -/
def scanMembers : Nat → Nat → Points → Nat → List (String × Value) → Scanned (Value × Nat)
  | 0, _, _, i, _ => .error ⟨"Expecting value", some i, none⟩
  | fuel + 1, depth, s, i, acc =>
    if !pointIs s i '"' then .error ⟨"Expecting property name enclosed in double quotes", some i, none⟩
    else match scanStr s i (i + 1) [] with
      | .error e => .error e
      | .ok (key, j) =>
        let j := skipPoints s j
        if !pointIs s j ':' then .error ⟨"Expecting ':' delimiter", some j, none⟩
        else match scanValue fuel depth s (skipPoints s (j + 1)) with
          | .error e => .error e
          | .ok (v, k) =>
            let k := skipPoints s k
            let acc := putMember acc (pointsString key) v
            if pointIs s k '}' then .ok (.obj acc, k + 1)
            else if !pointIs s k ',' then .error ⟨"Expecting ',' delimiter", some k, none⟩
            else scanMembers fuel depth s (skipPoints s (k + 1)) acc

/-- Reads the items of an array from `i`, after `[` or after a comma. -/
def scanItems : Nat → Nat → Points → Nat → List Value → Scanned (Value × Nat)
  | 0, _, _, i, _ => .error ⟨"Expecting value", some i, none⟩
  | fuel + 1, depth, s, i, acc =>
    match scanValue fuel depth s i with
    | .error e => .error e
    | .ok (v, k) =>
      let k := skipPoints s k
      if pointIs s k ']' then .ok (.arr (acc ++ [v]), k + 1)
      else if !pointIs s k ',' then .error ⟨"Expecting ',' delimiter", some k, none⟩
      else scanItems fuel depth s (skipPoints s (k + 1)) (acc ++ [v])

end

/-- Reads a whole document: one value with blanks around it. -/
def scanDocument (s : Points) : Scanned Value := do
  let (v, j) ← scanValue (4 * s.size + 4) 0 s (skipPoints s 0)
  let j := skipPoints s j
  if j == s.size then pure v else throw ⟨"Extra data", some j, none⟩

/-- The text of a failure: the message, then line, column and index of its position. -/
def ScanFailure.text (s : Points) (f : ScanFailure) : String :=
  match f.pos with
  | none => f.message
  | some p =>
    let before := (s.extract 0 p).toList
    let line := (before.filter (· == 10)).length + 1
    let column := match (before.zipIdx.filter (·.1 == 10)).getLast? with
      | some (_, q) => p - q
      | none => p + 1
    f.message ++ ": line " ++ toString line ++ " column " ++ toString column ++ " (char " ++
      toString p ++ ")"

/-- Reads a JSON document given as bytes; a refusal is the decoder's message. -/
def loadBytes (bytes : List UInt8) : Except String Value :=
  match Text.decodeDocument bytes with
  | .error msg => .error msg
  | .ok points =>
    let s := points.toArray
    match scanDocument s with
    | .ok v => .ok v
    | .error f => .error (f.text s)

/-- Reads a JSON document given as the code points of a text. A byte-order mark in front is
refused at position 0, as text is expected to have been decoded already. -/
def loadPoints (ps : List Nat) : Scanned Value :=
  let s := ps.toArray
  if s[0]? == some 0xFEFF then .error ⟨"Unexpected UTF-8 BOM (decode using utf-8-sig)", some 0, none⟩
  else scanDocument s

/-- Reads a JSON document given as text (`loadPoints`). -/
def loadText (text : String) : Scanned Value :=
  loadPoints (text.toList.map Char.toNat)

end RepairShop.Json
