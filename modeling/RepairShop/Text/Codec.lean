/-!
Bytes to text. A JSON document given as bytes is read in the encoding its first bytes show:
UTF-32 or UTF-16 after their byte-order marks, UTF-8 after its signature, UTF-16 or UTF-32
by the pattern of zero bytes among the first four, and UTF-8 otherwise. Decoding keeps
surrogate code points (encoded as such in UTF-8, or unpaired in UTF-16 and UTF-32) as they
are, so text is a list of code points rather than a `String`. A failure is reported the way
the service words it: the codec, the byte or the range of bytes, and why. Text from a URL is
read more leniently: each malformed UTF-8 sequence is patched (as a replacement character,
or as the escapes of its bytes) and reading goes on after it.
-/

namespace RepairShop.Text

/-- Two lowercase hexadecimal digits of a byte. -/
def hexByte (b : Nat) : String :=
  let digit := fun (d : Nat) => if d < 10 then Char.ofNat (48 + d) else Char.ofNat (87 + d)
  String.ofList [digit (b / 16 % 16), digit (b % 16)]

/-- The message of a decoding failure over bytes `start` to `stop` (exclusive). -/
def decodeFailure (codec : String) (bytes : List UInt8) (start stop : Nat) (reason : String) :
    String :=
  if stop == start + 1 then
    "'" ++ codec ++ "' codec can't decode byte 0x" ++ hexByte (bytes.getD start 0).toNat ++
      " in position " ++ toString start ++ ": " ++ reason
  else
    "'" ++ codec ++ "' codec can't decode bytes in position " ++ toString start ++ "-" ++
      toString (stop - 1) ++ ": " ++ reason

/-- The message of a failure to encode code points as UTF-8, which has no form for a
surrogate: the first run of surrogates, by its place among the code points. -/
def utf8EncodeFailure (ps : List Nat) : String :=
  let surrogate := fun (n : Nat) => 0xD800 ≤ n && n ≤ 0xDFFF
  let start := ps.findIdx surrogate
  let run := ((ps.drop start).takeWhile surrogate).length
  if run ≤ 1 then
    let n := ps.getD start 0
    "'utf-8' codec can't encode character '\\u" ++ hexByte (n / 256) ++ hexByte (n % 256) ++
      "' in position " ++ toString start ++ ": surrogates not allowed"
  else
    "'utf-8' codec can't encode characters in position " ++ toString start ++ "-" ++
      toString (start + run - 1) ++ ": surrogates not allowed"

/-- A continuation byte of UTF-8. -/
def isContinuation (b : UInt8) : Bool := 0x80 ≤ b.toNat && b.toNat < 0xC0

/-- The low six bits of a continuation byte. -/
def low6 (b : UInt8) : Nat := b.toNat % 64

/-- Decodes UTF-8 from byte position `pos`; `all` is the whole input for messages. -/
def utf8Run (all : List UInt8) : List UInt8 → Nat → List Nat → Except String (List Nat)
  | [], _, out => .ok out.reverse
  | b :: rest, pos, out =>
    let c := b.toNat
    let fail := fun (len : Nat) (reason : String) =>
      Except.error (decodeFailure "utf-8" all pos (pos + len) reason)
    let shortBy := fun (len : Nat) => fail len "unexpected end of data"
    let badAt := fun (len : Nat) => fail len "invalid continuation byte"
    if c < 0x80 then utf8Run all rest (pos + 1) (c :: out)
    else if c < 0xC2 then fail 1 "invalid start byte"
    else if c < 0xE0 then
      match rest with
      | [] => shortBy 1
      | b2 :: rest2 =>
        if isContinuation b2 then utf8Run all rest2 (pos + 2) (((c % 32) * 64 + low6 b2) :: out)
        else badAt 1
    else if c < 0xF0 then
      let secondBad := fun (b2 : UInt8) =>
        !isContinuation b2 || (if b2.toNat < 0xA0 then c == 0xE0 else c == 0xED)
      match rest with
      | [] => shortBy 1
      | [b2] => if secondBad b2 then badAt 1 else shortBy 2
      | b2 :: b3 :: rest3 =>
        let point := (c % 16) * 4096 + low6 b2 * 64 + low6 b3
        if !isContinuation b2 || (c == 0xE0 && b2.toNat < 0xA0) then badAt 1
        else if c == 0xED && 0xA0 ≤ b2.toNat then
          if isContinuation b3 then utf8Run all rest3 (pos + 3) (point :: out) else badAt 1
        else if !isContinuation b3 then badAt 2
        else utf8Run all rest3 (pos + 3) (point :: out)
    else if c < 0xF5 then
      let secondBad := fun (b2 : UInt8) =>
        !isContinuation b2 || (if b2.toNat < 0x90 then c == 0xF0 else c == 0xF4)
      match rest with
      | [] => shortBy 1
      | [b2] => if secondBad b2 then badAt 1 else shortBy 2
      | [b2, b3] =>
        if secondBad b2 then badAt 1 else if !isContinuation b3 then badAt 2 else shortBy 3
      | b2 :: b3 :: b4 :: rest4 =>
        if secondBad b2 then badAt 1
        else if !isContinuation b3 then badAt 2
        else if !isContinuation b4 then badAt 3
        else utf8Run all rest4 (pos + 4)
          (((c % 8) * 262144 + low6 b2 * 4096 + low6 b3 * 64 + low6 b4) :: out)
    else fail 1 "invalid start byte"

/-- UTF-8 text of bytes. -/
def decodeUtf8 (bytes : List UInt8) : Except String (List Nat) := utf8Run bytes bytes 0 []

/-- One step of strict UTF-8 decoding at a lead byte `c` followed by `rest`: the code point
and the number of bytes it took, or the number of bytes that form the malformed sequence
there. A malformed sequence is the lead byte alone when it cannot start one or its second
byte is wrong, the bytes up to the first wrong one after that, and every remaining byte when
the input ends inside a sequence. Surrogate code points are malformed. -/
def utf8Step (c : Nat) (rest : List UInt8) : Except Nat (Nat × Nat) :=
  if c < 0x80 then .ok (c, 1)
  else if c < 0xC2 then .error 1
  else if c < 0xE0 then
    match rest with
    | b2 :: _ => if isContinuation b2 then .ok ((c % 32) * 64 + low6 b2, 2) else .error 1
    | [] => .error 1
  else if c < 0xF0 then
    let secondOk := fun (b2 : UInt8) =>
      isContinuation b2 && (if b2.toNat < 0xA0 then c != 0xE0 else c != 0xED)
    match rest with
    | [] => .error 1
    | [b2] => .error (if secondOk b2 then 2 else 1)
    | b2 :: b3 :: _ =>
      if !secondOk b2 then .error 1
      else if !isContinuation b3 then .error 2
      else .ok ((c % 16) * 4096 + low6 b2 * 64 + low6 b3, 3)
  else if c < 0xF5 then
    let secondOk := fun (b2 : UInt8) =>
      isContinuation b2 && (if b2.toNat < 0x90 then c != 0xF0 else c != 0xF4)
    match rest with
    | [] => .error 1
    | [b2] => .error (if secondOk b2 then 2 else 1)
    | [b2, b3] => .error (if !secondOk b2 then 1 else if !isContinuation b3 then 2 else 3)
    | b2 :: b3 :: b4 :: _ =>
      if !secondOk b2 then .error 1
      else if !isContinuation b3 then .error 2
      else if !isContinuation b4 then .error 3
      else .ok ((c % 8) * 262144 + low6 b2 * 4096 + low6 b3 * 64 + low6 b4, 4)
  else .error 1

/-- Decodes UTF-8 from `bytes` on `fuel` steps, writing each malformed sequence as `patch`
gives it. -/
def utf8PatchedRun (patch : List UInt8 → List Char) : Nat → List UInt8 → List Char
  | 0, _ => []
  | _, [] => []
  | fuel + 1, b :: rest =>
    match utf8Step b.toNat rest with
    | .ok (p, n) => Char.ofNat p :: utf8PatchedRun patch fuel ((b :: rest).drop n)
    | .error n => patch ((b :: rest).take n) ++ utf8PatchedRun patch fuel ((b :: rest).drop (max n 1))

/-- UTF-8 text of bytes with each malformed sequence written as `patch` gives it. Every step
takes at least one byte, so as many steps as bytes read the whole input. -/
def utf8Patched (patch : List UInt8 → List Char) (bytes : List UInt8) : List Char :=
  utf8PatchedRun patch bytes.length bytes

/-- A malformed sequence as one replacement character. -/
def replaceBad (_ : List UInt8) : List Char := ['\uFFFD']

/-- A malformed sequence as the percent escapes of its bytes, in upper case. -/
def quoteBad (bytes : List UInt8) : List Char :=
  bytes.flatMap fun b => '%' :: (hexByte b.toNat).toUpper.toList

/-- Joins UTF-16 code units: a high surrogate followed by a low one makes one code point;
any other surrogate stands alone. -/
def joinUnits : List Nat → List Nat
  | hi :: lo :: rest =>
    if 0xD800 ≤ hi && hi < 0xDC00 && 0xDC00 ≤ lo && lo < 0xE000 then
      (0x10000 + (hi - 0xD800) * 1024 + (lo - 0xDC00)) :: joinUnits rest
    else hi :: joinUnits (lo :: rest)
  | units => units

/-- The code units of UTF-16 bytes from `pos`, or the position of a lone last byte. -/
def utf16Units (bigEndian : Bool) : List UInt8 → Nat → Except Nat (List Nat)
  | [], _ => .ok []
  | [_], pos => .error pos
  | a :: b :: rest, pos =>
    let unit := if bigEndian then a.toNat * 256 + b.toNat else b.toNat * 256 + a.toNat
    (unit :: ·) <$> utf16Units bigEndian rest (pos + 2)

/-- UTF-16 text of bytes after `skip` bytes of byte-order mark. -/
def decodeUtf16 (bigEndian : Bool) (bytes : List UInt8) (skip : Nat) : Except String (List Nat) :=
  match utf16Units bigEndian (bytes.drop skip) skip with
  | .ok units => .ok (joinUnits units)
  | .error pos =>
    .error (decodeFailure (if bigEndian then "utf-16-be" else "utf-16-le") bytes pos
      bytes.length "truncated data")

/-- The code points of UTF-32 bytes from `pos`. -/
def utf32Run (bigEndian : Bool) (all : List UInt8) : List UInt8 → Nat → Except String (List Nat)
  | a :: b :: c :: d :: rest, pos =>
    let point := if bigEndian then ((a.toNat * 256 + b.toNat) * 256 + c.toNat) * 256 + d.toNat
      else ((d.toNat * 256 + c.toNat) * 256 + b.toNat) * 256 + a.toNat
    if 0x110000 ≤ point then
      .error (decodeFailure (if bigEndian then "utf-32-be" else "utf-32-le") all pos (pos + 4)
        "code point not in range(0x110000)")
    else (point :: ·) <$> utf32Run bigEndian all rest (pos + 4)
  | [], _ => .ok []
  | _, pos =>
    .error (decodeFailure (if bigEndian then "utf-32-be" else "utf-32-le") all pos all.length
      "truncated data")

/-- The text of a JSON document given as bytes, in the encoding its first bytes show. -/
def decodeDocument (bytes : List UInt8) : Except String (List Nat) :=
  let n := bytes.map UInt8.toNat
  match n with
  | 0 :: 0 :: 0xFE :: 0xFF :: _ => utf32Run true bytes (bytes.drop 4) 4
  | 0xFF :: 0xFE :: 0 :: 0 :: _ => utf32Run false bytes (bytes.drop 4) 4
  | 0xFE :: 0xFF :: _ => decodeUtf16 true bytes 2
  | 0xFF :: 0xFE :: _ => decodeUtf16 false bytes 2
  | 0xEF :: 0xBB :: 0xBF :: _ => decodeUtf8 (bytes.drop 3)
  | b0 :: b1 :: b2 :: b3 :: _ =>
    if b0 == 0 then
      if b1 != 0 then decodeUtf16 true bytes 0 else utf32Run true bytes bytes 0
    else if b1 == 0 then
      if b2 != 0 || b3 != 0 then decodeUtf16 false bytes 0 else utf32Run false bytes bytes 0
    else decodeUtf8 bytes
  | [b0, b1] =>
    if b0 == 0 then decodeUtf16 true bytes 0
    else if b1 == 0 then decodeUtf16 false bytes 0
    else decodeUtf8 bytes
  | _ => decodeUtf8 bytes

end RepairShop.Text
