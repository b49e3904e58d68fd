import RepairShop.Json.Value
import RepairShop.Number.Shortest
import RepairShop.Text.Printable

/-!
Writing JSON text. Members are separated by `", "` and keys by `": "`; text is written in
ASCII, every other character as `\uXXXX` (a surrogate pair above U+FFFF, and a lone surrogate
as its own escape); doubles in their shortest form (`Style.json`), the
special values as `NaN`, `Infinity` and `-Infinity`. `Value.display` is the plain text of a
value inside a message: a text as itself, a double as its shortest form, `True`, `False` and
`None` for the literals, and lists and objects in brackets with quoted texts (`quoteShown`);
a lone surrogate, which plain text cannot hold, shows there as U+FFFD, and quoted as its escape.
-/

namespace RepairShop.Json

/-- Doubles in JSON text. -/
def Style.json : Number.Style := ⟨-4, 16, 2, "NaN", "Infinity"⟩

/-- Four lowercase hexadecimal digits. -/
def hex4 (n : Nat) : String :=
  let ds := Nat.toDigits 16 n
  String.ofList (List.replicate (4 - ds.length) '0' ++ ds)

/-- A code point as JSON string content. -/
def escapePoint (n : Nat) : String :=
  if n == 34 then "\\\""
  else if n == 92 then "\\\\"
  else if n == 10 then "\\n"
  else if n == 13 then "\\r"
  else if n == 9 then "\\t"
  else if n == 8 then "\\b"
  else if n == 12 then "\\f"
  else if n < 0x20 || (0x7F ≤ n && n < 0x10000) then "\\u" ++ hex4 n
  else if 0x10000 ≤ n then
    let v := n - 0x10000
    "\\u" ++ hex4 (0xD800 + v / 0x400) ++ "\\u" ++ hex4 (0xDC00 + v % 0x400)
  else (Char.ofNat n).toString

/-- Code points as a JSON string. -/
def quotePoints (ps : List Nat) : String :=
  "\"" ++ String.join (ps.map escapePoint) ++ "\""

/-- A text as a JSON string. -/
def quote (s : String) : String := quotePoints (s.toList.map Char.toNat)

mutual
/-- The JSON text of a value. -/
def Value.render : Value → String
  | .null => "null"
  | .bool b => if b then "true" else "false"
  | .int n => toString n
  | .float x => Style.json.render x
  | .str s => quote s
  | .unpaired ps => quotePoints ps
  | .arr items => "[" ++ renderItems items ++ "]"
  | .obj fields => "\x7b" ++ renderFields fields ++ "\x7d"
/-- Items separated by `", "`. -/
def renderItems : List Value → String
  | [] => ""
  | [v] => v.render
  | v :: rest => v.render ++ ", " ++ renderItems rest
/-- Members separated by `", "`. -/
def renderFields : List (String × Value) → String
  | [] => ""
  | [(k, v)] => quote k ++ ": " ++ v.render
  | (k, v) :: rest => quote k ++ ": " ++ v.render ++ ", " ++ renderFields rest
end

/-- `n` in lowercase hexadecimal, padded with zeros to `width` digits. -/
def hexPadded (width n : Nat) : String :=
  let ds := Nat.toDigits 16 n
  String.ofList (List.replicate (width - ds.length) '0' ++ ds)

/-- A code point inside a text quoted with `q`: the quote and the backslash escaped, tab,
line feed and carriage return by name, other code points that are not printable characters
by their code in two, four or eight hexadecimal digits. -/
def shownPoint (q : Char) (n : Nat) : String :=
  let c := Char.ofNat n
  if isSurrogate n then "\\u" ++ hexPadded 4 n
  else if c == q || c == '\\' then "\\" ++ c.toString
  else if c == '\t' then "\\t"
  else if c == '\n' then "\\n"
  else if c == '\r' then "\\r"
  else if n < 0x20 || n == 0x7F then "\\x" ++ hexPadded 2 n
  else if n < 0x7F || Text.isPrintable c then c.toString
  else if n ≤ 0xFF then "\\x" ++ hexPadded 2 n
  else if n ≤ 0xFFFF then "\\u" ++ hexPadded 4 n
  else "\\U" ++ hexPadded 8 n

/-- Code points in quotes, as a text is shown inside a list or a message: single quotes, or
double quotes when the text holds a single quote and no double quote. -/
def quoteShownPoints (ps : List Nat) : String :=
  let q := if ps.contains 39 && !ps.contains 34 then '"' else '\''
  q.toString ++ String.join (ps.map (shownPoint q)) ++ q.toString

/-- A text in quotes, as it is shown inside a list or a message. -/
def quoteShown (s : String) : String := quoteShownPoints (s.toList.map Char.toNat)

/-- How a value is shown inside a list or object, given its plain text: texts quoted. -/
def shownAs (v : Value) (plain : String) : String :=
  match v with
  | .str s => quoteShown s
  | .unpaired ps => quoteShownPoints ps
  | _ => plain

mutual
/-- The plain text of a value. -/
def Value.display : Value → String
  | .null => "None"
  | .bool b => if b then "True" else "False"
  | .int n => toString n
  | .float x => Number.Style.plain.render x
  | .str s => s
  | .unpaired ps => pointsString ps
  | .arr items => "[" ++ showItems items ++ "]"
  | .obj fields => "\x7b" ++ showFields fields ++ "\x7d"
/-- Shown items separated by `", "`. -/
def showItems : List Value → String
  | [] => ""
  | [v] => shownAs v v.display
  | v :: rest => shownAs v v.display ++ ", " ++ showItems rest
/-- Shown members separated by `", "`. -/
def showFields : List (String × Value) → String
  | [] => ""
  | [(k, v)] => quoteShown k ++ ": " ++ shownAs v v.display
  | (k, v) :: rest => quoteShown k ++ ": " ++ shownAs v v.display ++ ", " ++ showFields rest
end

/-- A value shown inside a list or object: texts quoted. -/
def Value.shown (v : Value) : String := shownAs v v.display

/-- The plain text of a value as a text value: a text as it is, a lone surrogate kept, any
other value as its `display`. -/
def Value.asText (v : Value) : Value :=
  match v with
  | .str _ | .unpaired _ => v
  | _ => .str v.display

/-- The plain texts of two values joined. -/
def Value.joinText (a b : Value) : Value :=
  match a.asText, b.asText with
  | .str x, .str y => .str (x ++ y)
  | x, y => Value.ofPoints ((x.points?.getD []) ++ (y.points?.getD []))

end RepairShop.Json
