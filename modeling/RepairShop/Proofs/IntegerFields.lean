import Mathlib
import RepairShop.Request.Field

/- Integer fields against the grammar of integer numerals.

   An integer field reads a value as an integer: an integer as itself, a double only when it
   is exactly an integer, a text only when it is an integer numeral; then the integer must
   reach the field's minimum. Every other value, a boolean among them, is refused as not an
   integer. This file states what "an integer numeral" is, independently of the reader:

   1. each character is a glyph (`glyph`): a blank of the numeral class `isNumeralBlank` (the
      six ASCII blanks and every non-ASCII blank, but not the separators `\x1c` to `\x1f`),
      a sign, an underscore, a decimal digit of any script with its value, or other;
   2. a numeral (`Numeral`) is blanks, an optional sign, a digit and the digits after it, each
      after at most one underscore (`DigitsAfter`, the `(["_"] digit)*` of the grammar), at
      most `maxDigits` digits in all, and blanks; it denotes its digits in base ten, negated
      after a minus.

   The reader first passes the text to ASCII and then scans it. `scanRun_digitsAfter` and
   `digitsAfter_of_scanRun` say what the scan of a run reads, `asciiNumeral_glyphs` that the
   pass keeps every glyph up to the first character outside the grammar, and
   `readNumeral_eq_ok_iff` that a text reads as `n` exactly when it is a numeral of `n`. With
   `Number.integral_truncate_iff` for doubles this gives what an integer field reads:
   outside infinite doubles, a field is `n` exactly when the value denotes `n` and `n` reaches
   the minimum, is refused by the minimum when the value denotes an integer below it, and is
   refused as not an integer when the value denotes none. -/

namespace RepairShop.Text

/-! ## Glyphs -/

/-- What a character is to an integer numeral. -/
inductive Glyph where
  | blank
  | plus
  | minus
  | under
  | digit (d : Nat)
  | other
  deriving DecidableEq

/-- The glyph of a character: a numeral blank, a sign, an underscore, a decimal digit of any
script with its value, or anything else. -/
def glyph (c : Char) : Glyph :=
  if isNumeralBlank c then .blank
  else if c = '+' then .plus
  else if c = '-' then .minus
  else if c = '_' then .under
  else match digitValue? c with
    | some d => .digit d
    | none => .other

theorem isDigit_iff (c : Char) : c.isDigit = true ↔ 48 ≤ c.toNat ∧ c.toNat ≤ 57 := by
  simp only [Char.isDigit, Bool.and_eq_true, decide_eq_true_eq, UInt32.le_iff_toNat_le]
  rfl

theorem digitValue?_block {c : Char} {d : Nat} (h : digitValue? c = some d) :
    ∃ b ∈ digitBlocks, b ≤ c.toNat ∧ c.toNat < b + 10 ∧ d = c.toNat - b := by
  unfold digitValue? at h
  split at h
  · next b hb =>
    obtain ⟨hmem, hp⟩ := List.mem_of_find?_eq_some hb, List.find?_some hb
    simp only [Bool.and_eq_true, decide_eq_true_eq] at hp
    cases h
    exact ⟨b, hmem, hp.1, hp.2, rfl⟩
  · cases h

theorem digitValue?_lt_ten {c : Char} {d : Nat} (h : digitValue? c = some d) : d < 10 := by
  obtain ⟨b, -, hb, hc, rfl⟩ := digitValue?_block h
  omega

/-- Below 128 the only decimal digits are the ASCII ones. -/
theorem digitValue?_ascii_iff {c : Char} (hc : c.toNat < 128) {d : Nat} :
    digitValue? c = some d ↔ c.isDigit = true ∧ d = c.toNat - 48 := by
  constructor
  · intro h
    obtain ⟨b, hb, hlo, hhi, rfl⟩ := digitValue?_block h
    have hb48 : b = 48 ∨ 0x660 ≤ b :=
      (by decide : ∀ b ∈ digitBlocks, b = 48 ∨ 0x660 ≤ b) b hb
    rcases hb48 with rfl | hbig
    · exact ⟨(isDigit_iff c).2 ⟨hlo, by omega⟩, rfl⟩
    · omega
  · rintro ⟨hdig, rfl⟩
    exact digitValue?_ascii c hdig

theorem isNumeralBlank_of_ascii {c : Char} (hc : c.toNat < 128) :
    isNumeralBlank c = isAsciiBlank c := by
  have hw : c.toNat ∉ wideBlanks := fun h =>
    absurd ((by decide : ∀ w ∈ wideBlanks, 128 ≤ w) _ h) (by omega)
  simp [isNumeralBlank, hw]

theorem glyph_of_isAsciiBlank {c : Char} (h : isAsciiBlank c = true) : glyph c = .blank := by
  simp [glyph, isNumeralBlank, h]

theorem glyph_of_isDigit {c : Char} (h : c.isDigit = true) : glyph c = .digit (c.toNat - 48) := by
  have hr := (isDigit_iff c).1 h
  have hlt : c.toNat < 128 := by omega
  have hb : isNumeralBlank c = false := by
    rw [isNumeralBlank_of_ascii hlt]; simp [isAsciiBlank]; omega
  have hp : c ≠ '+' := by rintro rfl; simp at hr
  have hm : c ≠ '-' := by rintro rfl; simp at hr
  have hu : c ≠ '_' := by rintro rfl; simp at hr
  simp [glyph, hb, hp, hm, hu, digitValue?_ascii c h]

theorem glyph_sign : glyph '+' = .plus ∧ glyph '-' = .minus ∧ glyph '_' = .under := by decide

theorem eq_of_glyph_plus {c : Char} (h : glyph c = .plus) : c = '+' := by
  unfold glyph at h
  split_ifs at h with _ hplus
  · exact hplus
  · split at h <;> cases h

theorem eq_of_glyph_minus {c : Char} (h : glyph c = .minus) : c = '-' := by
  unfold glyph at h
  split_ifs at h with _ _ hminus
  · exact hminus
  · split at h <;> cases h

theorem eq_of_glyph_under {c : Char} (h : glyph c = .under) : c = '_' := by
  unfold glyph at h
  split_ifs at h with _ _ _ hunder
  · exact hunder
  · split at h <;> cases h

theorem isAsciiBlank_of_glyph {c : Char} (hc : c.toNat < 128) (h : glyph c = .blank) :
    isAsciiBlank c = true := by
  unfold glyph at h
  split_ifs at h with hb
  · rwa [isNumeralBlank_of_ascii hc] at hb
  · split at h <;> cases h

theorem isDigit_of_glyph {c : Char} (hc : c.toNat < 128) {d : Nat} (h : glyph c = .digit d) :
    c.isDigit = true ∧ d = c.toNat - 48 := by
  unfold glyph at h
  split_ifs at h
  split at h
  · next d' hd => cases h; exact (digitValue?_ascii_iff hc).1 hd
  · cases h

theorem isAsciiBlank_stops {c : Char} (h : isAsciiBlank c = true) :
    c.isDigit = false ∧ c ≠ '_' := by
  simp only [isAsciiBlank, Bool.or_eq_true, beq_iff_eq, Bool.and_eq_true, decide_eq_true_eq] at h
  refine ⟨?_, ?_⟩
  · cases hd : c.isDigit
    · rfl
    · have := (isDigit_iff c).1 hd; omega
  · rintro rfl; simp at h

/-- Outside ASCII a character that is not blank is read by its digit value alone. -/
theorem glyph_wide {c : Char} (hc : ¬c.toNat < 128) (hb : isBlank c = false) :
    glyph c = match digitValue? c with
      | some d => .digit d
      | none => .other := by
  have hnb : isNumeralBlank c = false := by
    simp only [isBlank, isNumeralBlank, Bool.or_eq_false_iff] at hb ⊢
    exact ⟨hb.1.1, hb.2⟩
  have hp : c ≠ '+' := by rintro rfl; simp at hc
  have hm : c ≠ '-' := by rintro rfl; simp at hc
  have hu : c ≠ '_' := by rintro rfl; simp at hc
  simp [glyph, hnb, hp, hm, hu]

theorem glyph_wide_blank {c : Char} (hc : ¬c.toNat < 128) (hb : isBlank c = true) :
    glyph c = .blank := by
  have hw : wideBlanks.contains c.toNat = true := by
    revert hb
    simp only [isBlank, isAsciiBlank]
    cases wideBlanks.contains c.toNat
    · simp; omega
    · simp
  have hmem : c.toNat ∈ wideBlanks := by simpa using hw
  simp [glyph, isNumeralBlank, hmem]

/-! ## The grammar -/

/-- The digits after the first digit of a run, each after at most one underscore: the
`(["_"] digit)*` of the grammar, with the values of the digits. -/
inductive DigitsAfter : List Glyph → List Nat → Prop
  | nil : DigitsAfter [] []
  | digit {gs ds} (d : Nat) : DigitsAfter gs ds → DigitsAfter (.digit d :: gs) (d :: ds)
  | under {gs ds} (d : Nat) : DigitsAfter gs ds → DigitsAfter (.under :: .digit d :: gs) (d :: ds)

/-- The value of decimal digits, most significant first, written after the digits of `acc`. -/
def decimalFrom (acc : Nat) (ds : List Nat) : Nat := ds.foldl (fun a d => a * 10 + d) acc

theorem decimalFrom_cons (acc d : Nat) (ds : List Nat) :
    decimalFrom acc (d :: ds) = decimalFrom (acc * 10 + d) ds := rfl

/-- An integer numeral and the integer it denotes: blanks, an optional sign, a digit and the
digits after it (at most `maxDigits` digits in all), and blanks. -/
inductive Numeral : List Glyph → Int → Prop
  | intro {lead sign trail gs : List Glyph} {d : Nat} {ds : List Nat} :
      (∀ g ∈ lead, g = .blank) → (sign = [] ∨ sign = [.plus] ∨ sign = [.minus]) →
      DigitsAfter gs ds → (d :: ds).length ≤ maxDigits → (∀ g ∈ trail, g = .blank) →
      Numeral (lead ++ sign ++ (.digit d :: gs) ++ trail)
        (if sign = [.minus] then -(decimalFrom 0 (d :: ds) : Int) else decimalFrom 0 (d :: ds))

theorem DigitsAfter.other_not_mem {gs : List Glyph} {ds : List Nat} (h : DigitsAfter gs ds) :
    Glyph.other ∉ gs := by
  induction h with
  | nil => simp
  | digit d _ ih => simpa using ih
  | under d _ ih => simpa using ih

/-- No glyph of a numeral stands for a character outside its grammar. -/
theorem Numeral.other_not_mem {gs : List Glyph} {n : Int} (h : Numeral gs n) :
    Glyph.other ∉ gs := by
  obtain @⟨lead, sign, trail, gs, d, ds, hlead, hsign, hrun, -, htrail⟩ := h
  have hs : Glyph.other ∉ sign := by rcases hsign with rfl | rfl | rfl <;> simp
  intro hmem
  simp only [List.mem_append, List.mem_cons] at hmem
  rcases hmem with ((h | h) | h | h) | h
  · cases hlead _ h
  · exact hs h
  · cases h
  · exact hrun.other_not_mem h
  · cases htrail _ h

/-! ## Scanning a run of digits -/

/-- What follows a run of digits: nothing, or a character that is neither a digit nor an
underscore. -/
def Stops (rest : List Char) : Prop := ∀ c ∈ rest.head?, c.isDigit = false ∧ c ≠ '_'

/-- The scanner reads digits, each after at most one underscore, up to what stops them. -/
theorem scanRun_digitsAfter {gs : List Glyph} {ds : List Nat} (h : DigitsAfter gs ds) :
    ∀ {pre rest : List Char} {acc count : Nat} {prev : Char}, pre.map glyph = gs →
      (∀ c ∈ pre, c.toNat < 128) → Stops rest → prev ≠ '_' →
      scanRun (pre ++ rest) acc count prev =
        some (decimalFrom acc ds, count + ds.length, rest) := by
  induction h with
  | nil =>
    intro pre rest acc count prev hpre _ hstop hprev
    rw [List.map_eq_nil_iff.1 hpre, List.nil_append]
    cases rest with
    | nil => simp [scanRun, hprev, decimalFrom]
    | cons r rs =>
      obtain ⟨hr, hu⟩ := hstop r rfl
      simp [scanRun, hr, hu, hprev, decimalFrom]
  | digit d _ ih =>
    intro pre rest acc count prev hpre hascii hstop _
    obtain ⟨c, pre', rfl, hc, rfl⟩ := List.map_eq_cons_iff.1 hpre
    obtain ⟨hdig, rfl⟩ := isDigit_of_glyph (hascii c (List.mem_cons_self ..)) hc
    have hu : c ≠ '_' := by rintro rfl; simp at hdig
    rw [List.cons_append, scanRun, if_pos hdig,
      ih rfl (fun c' h' => hascii c' (List.mem_cons_of_mem _ h')) hstop hu]
    simp [decimalFrom_cons, Nat.add_assoc, Nat.add_comm 1]
  | under d _ ih =>
    intro pre rest acc count prev hpre hascii hstop hprev
    obtain ⟨u, pre', rfl, hu, hpre'⟩ := List.map_eq_cons_iff.1 hpre
    obtain ⟨c, pre'', rfl, hc, rfl⟩ := List.map_eq_cons_iff.1 hpre'
    cases eq_of_glyph_under hu
    obtain ⟨hdig, rfl⟩ := isDigit_of_glyph (hascii c (by simp)) hc
    have hcu : c ≠ '_' := by rintro rfl; simp at hdig
    rw [List.cons_append, List.cons_append, scanRun, if_neg (by decide), if_pos (by decide),
      if_neg (by simpa using hprev), scanRun, if_pos hdig,
      ih rfl (fun c' h' => hascii c' (by simp [h'])) hstop hcu]
    simp [decimalFrom_cons, Nat.add_assoc, Nat.add_comm 1]

/-- What a successful scan read: digits each after at most one underscore, and after an
underscore a digit first, up to what stops them. -/
theorem digitsAfter_of_scanRun : ∀ (cs : List Char) {acc count : Nat} {prev : Char}
    {m k : Nat} {rest : List Char}, scanRun cs acc count prev = some (m, k, rest) →
    ∃ pre ds, cs = pre ++ rest ∧ Stops rest ∧ m = decimalFrom acc ds ∧
      k = count + ds.length ∧
      DigitsAfter ((if prev = '_' then [Glyph.under] else []) ++ pre.map glyph) ds
  | [], acc, count, prev, m, k, rest, h => by
    by_cases hp : prev = '_'
    · subst hp; simp [scanRun] at h
    · simp only [scanRun, beq_iff_eq, hp, if_false, Option.some.injEq, Prod.mk.injEq] at h
      obtain ⟨rfl, rfl, rfl⟩ := h
      exact ⟨[], [], rfl, by simp [Stops], rfl, rfl, by simp [hp, DigitsAfter.nil]⟩
  | c :: cs, acc, count, prev, m, k, rest, h => by
    rw [scanRun] at h
    by_cases hdig : c.isDigit
    · rw [if_pos hdig] at h
      have hcu : c ≠ '_' := by rintro rfl; simp at hdig
      obtain ⟨pre, ds, rfl, hstop, rfl, rfl, hrun⟩ := digitsAfter_of_scanRun cs h
      rw [if_neg hcu, List.nil_append] at hrun
      refine ⟨c :: pre, (c.toNat - 48) :: ds, rfl, hstop, rfl, by simp; omega, ?_⟩
      rw [List.map_cons, glyph_of_isDigit hdig]
      split
      · exact .under _ hrun
      · exact .digit _ hrun
    · rw [if_neg hdig] at h
      by_cases hu : c = '_'
      · subst hu
        by_cases hp : prev = '_'
        · simp [hp] at h
        · rw [if_pos (by decide), if_neg (by simpa using hp)] at h
          obtain ⟨pre, ds, rfl, hstop, rfl, rfl, hrun⟩ := digitsAfter_of_scanRun cs h
          refine ⟨'_' :: pre, ds, rfl, hstop, rfl, rfl, ?_⟩
          simpa [hp, glyph_sign] using hrun
      · by_cases hp : prev = '_'
        · simp [hp, hu] at h
        · simp only [beq_iff_eq, hu, hp, if_false, Option.some.injEq, Prod.mk.injEq] at h
          obtain ⟨rfl, rfl, rfl⟩ := h
          exact ⟨[], [], rfl, by simp [Stops, hdig, hu], rfl, rfl,
            by simp [hp, DigitsAfter.nil]⟩

/-- A run that starts with a digit scans to its value and its digit count. -/
theorem scanRun_run {c : Char} (hc : c.isDigit = true) {pre rest : List Char} {ds : List Nat}
    (hrun : DigitsAfter (pre.map glyph) ds) (hascii : ∀ c ∈ pre, c.toNat < 128)
    (hstop : Stops rest) :
    scanRun (c :: pre ++ rest) 0 0 ' ' =
      some (decimalFrom 0 ((c.toNat - 48) :: ds), ds.length + 1, rest) := by
  have hcu : c ≠ '_' := by rintro rfl; simp at hc
  rw [List.cons_append, scanRun, if_pos hc, scanRun_digitsAfter hrun rfl hascii hstop hcu]
  simp [decimalFrom_cons, Nat.add_comm]

/-- What a successful scan from the start read: a digit, the digits after it, and what stops
them. -/
theorem run_of_scanRun {body rest : List Char} {m k : Nat} (hascii : ∀ c ∈ body, c.toNat < 128)
    (hhead : body.head? ≠ some '_') (h : scanRun body 0 0 ' ' = some (m, k, rest))
    (hk : k ≠ 0) :
    ∃ c pre ds, body = c :: pre ++ rest ∧ c.isDigit = true ∧
      DigitsAfter (pre.map glyph) ds ∧ m = decimalFrom 0 ((c.toNat - 48) :: ds) ∧
      k = ds.length + 1 ∧ Stops rest := by
  obtain ⟨pre, ds, rfl, hstop, rfl, rfl, hrun⟩ := digitsAfter_of_scanRun body h
  rw [if_neg (by decide), List.nil_append] at hrun
  generalize hgs : pre.map glyph = gs at hrun
  cases hrun with
  | nil => simp at hk
  | @digit gs ds d hrun =>
    obtain ⟨c, pre', rfl, hc, rfl⟩ := List.map_eq_cons_iff.1 hgs
    obtain ⟨hdig, rfl⟩ := isDigit_of_glyph (hascii c (by simp)) hc
    exact ⟨c, pre', ds, rfl, hdig, hrun, rfl, by simp, hstop⟩
  | under d hrun =>
    obtain ⟨u, pre', rfl, hu, -⟩ := List.map_eq_cons_iff.1 hgs
    cases eq_of_glyph_under hu
    simp at hhead

/-! ## The reader -/

theorem splitSign_cases (t : List Char) : ∃ sign, t = sign ++ (splitSign t).2 ∧
    (sign = [] ∧ (splitSign t).1 = false ∨ sign = ['+'] ∧ (splitSign t).1 = false ∨
      sign = ['-'] ∧ (splitSign t).1 = true) := by
  unfold splitSign
  split
  · exact ⟨['-'], rfl, by simp⟩
  · exact ⟨['+'], rfl, by simp⟩
  · exact ⟨[], rfl, by simp⟩

theorem splitSign_digit {sign : List Char} {c : Char} (rest : List Char) (hc : c.isDigit = true)
    (hsign : sign = [] ∨ sign = ['+'] ∨ sign = ['-']) :
    splitSign (sign ++ c :: rest) = (decide (sign = ['-']), c :: rest) := by
  have hp : c ≠ '+' := by rintro rfl; simp at hc
  have hm : c ≠ '-' := by rintro rfl; simp at hc
  rcases hsign with rfl | rfl | rfl
  · unfold splitSign; split <;> simp_all
  · rfl
  · rfl

/-- The sign glyphs of a sign. -/
theorem map_glyph_sign {sign : List Char} (h : sign = [] ∨ sign = ['+'] ∨ sign = ['-']) :
    (sign.map glyph = [] ∨ sign.map glyph = [.plus] ∨ sign.map glyph = [.minus]) ∧
      (sign.map glyph = [.minus] ↔ sign = ['-']) := by
  rcases h with rfl | rfl | rfl <;> decide

/-- ASCII text cut into blanks, a sign, a run and blanks is a numeral. -/
theorem numeral_of_parts {lead sign pre rest : List Char} {c : Char} {ds : List Nat}
    (hlead : ∀ x ∈ lead, isAsciiBlank x = true)
    (hsign : sign = [] ∨ sign = ['+'] ∨ sign = ['-'])
    (hc : c.isDigit = true) (hrun : DigitsAfter (pre.map glyph) ds)
    (hlen : ds.length + 1 ≤ maxDigits) (hrest : ∀ x ∈ rest, isAsciiBlank x = true) :
    Numeral ((lead ++ sign ++ c :: pre ++ rest).map glyph)
      (if sign = ['-'] then -(decimalFrom 0 ((c.toNat - 48) :: ds) : Int)
        else decimalFrom 0 ((c.toNat - 48) :: ds)) := by
  obtain ⟨hsign', hminus⟩ := map_glyph_sign hsign
  have h := Numeral.intro (d := c.toNat - 48)
    (fun g hg => by
      obtain ⟨x, hx, rfl⟩ := List.mem_map.1 hg
      exact glyph_of_isAsciiBlank (hlead x hx))
    hsign' hrun (by simpa using hlen)
    (fun g hg => by
      obtain ⟨x, hx, rfl⟩ := List.mem_map.1 hg
      exact glyph_of_isAsciiBlank (hrest x hx))
  simp only [hminus] at h
  simpa [glyph_of_isDigit hc] using h

/-- An ASCII numeral, cut into its parts. -/
theorem parts_of_numeral {a : List Char} {n : Int} (hascii : ∀ c ∈ a, c.toNat < 128)
    (h : Numeral (a.map glyph) n) :
    ∃ lead sign c pre rest ds, a = lead ++ sign ++ c :: pre ++ rest ∧
      (∀ x ∈ lead, isAsciiBlank x = true) ∧ (sign = [] ∨ sign = ['+'] ∨ sign = ['-']) ∧
      c.isDigit = true ∧ DigitsAfter (pre.map glyph) ds ∧ ds.length + 1 ≤ maxDigits ∧
      (∀ x ∈ rest, isAsciiBlank x = true) ∧
      n = if sign = ['-'] then -(decimalFrom 0 ((c.toNat - 48) :: ds) : Int)
        else decimalFrom 0 ((c.toNat - 48) :: ds) := by
  generalize hg : a.map glyph = gs at h
  obtain @⟨lead, sign, trail, gs, d, ds, hlead, hsign, hrun, hlen, htrail⟩ := h
  obtain ⟨a1, ta, rfl, h1, rfl⟩ := List.map_eq_append_iff.1 hg
  obtain ⟨a2, ra, rfl, h2, h3⟩ := List.map_eq_append_iff.1 h1
  obtain ⟨la, sa, rfl, rfl, rfl⟩ := List.map_eq_append_iff.1 h2
  obtain ⟨c, pre, rfl, hc, rfl⟩ := List.map_eq_cons_iff.1 h3
  have hin : ∀ {x} (l : List Char), x ∈ l → l ⊆ la ++ sa ++ c :: pre ++ ta →
      x.toNat < 128 :=
    fun l hx hl => hascii _ (hl hx)
  obtain ⟨hdig, rfl⟩ := isDigit_of_glyph (hin [c] (by simp) (by simp)) hc
  -- the sign glyphs come from the sign characters
  have hsa : sa = [] ∨ sa = ['+'] ∨ sa = ['-'] := by
    rcases hsign with h | h | h
    · exact .inl (List.map_eq_nil_iff.1 h)
    · obtain ⟨x, xs, rfl, hx, hxs⟩ := List.map_eq_cons_iff.1 h
      rw [List.map_eq_nil_iff.1 hxs, eq_of_glyph_plus hx]
      exact .inr (.inl rfl)
    · obtain ⟨x, xs, rfl, hx, hxs⟩ := List.map_eq_cons_iff.1 h
      rw [List.map_eq_nil_iff.1 hxs, eq_of_glyph_minus hx]
      exact .inr (.inr rfl)
  refine ⟨la, sa, c, pre, ta, ds, by simp, ?_, hsa, hdig, hrun, by simpa using hlen, ?_, ?_⟩
  · intro x hx
    exact isAsciiBlank_of_glyph (hin la hx (by intro y; simp_all))
      (hlead _ (List.mem_map_of_mem hx))
  · intro x hx
    exact isAsciiBlank_of_glyph (hin ta hx (by intro y; simp_all))
      (htrail _ (List.mem_map_of_mem hx))
  · simp only [(map_glyph_sign hsa).2]

/-- The pass to ASCII leaves ASCII characters only: the blanks become spaces and the wide
digits their ASCII forms. -/
theorem asciiNumeral_ascii : ∀ (cs : List Char), ∀ c ∈ asciiNumeral cs, c.toNat < 128
  | [] => by simp [asciiNumeral]
  | c :: rest => by
    have ih := asciiNumeral_ascii rest
    rw [asciiNumeral]
    split_ifs with hc hb
    · exact List.forall_mem_cons.2 ⟨hc, ih⟩
    · exact List.forall_mem_cons.2 ⟨by decide, ih⟩
    · split
      · next d hd =>
        have := digitValue?_lt_ten hd
        refine List.forall_mem_cons.2 ⟨?_, ih⟩
        rw [Char.toNat_ofNat]
        split <;> omega
      · simp

/-- The reader after its pass to ASCII: a text reads as `n` exactly when the glyphs of what
the pass gives are a numeral of `n`. -/
theorem readNumeral_eq_ok_iff_ascii (s : String) (n : Int) :
    readNumeral s = .ok n ↔ Numeral ((asciiNumeral s.toList).map glyph) n := by
  have hascii := asciiNumeral_ascii s.toList
  unfold readNumeral
  generalize asciiNumeral s.toList = a at hascii ⊢
  constructor
  · intro h
    obtain ⟨sign, hbody, hneg⟩ := splitSign_cases (a.dropWhile isAsciiBlank)
    generalize splitSign (a.dropWhile isAsciiBlank) = p at h hbody hneg
    obtain ⟨neg, body⟩ := p
    have ha : a = a.takeWhile isAsciiBlank ++ sign ++ body := by
      rw [List.append_assoc, ← hbody, List.takeWhile_append_dropWhile]
    simp only at h hbody hneg
    split at h
    · cases h
    · next hhead =>
      split at h
      · cases h
      · next m k rest hscan =>
        by_cases hmax : maxDigits < k
        · simp [hmax] at h
        by_cases hbad : (k == 0 || !rest.all isAsciiBlank) = true
        · simp [hmax, hbad] at h
        rw [if_neg hmax, if_neg hbad] at h
        simp only [Bool.or_eq_true, beq_iff_eq, Bool.not_eq_eq_eq_not, Bool.not_true,
          not_or, Bool.not_eq_false] at hbad
        have hbody_ascii : ∀ c ∈ body, c.toNat < 128 :=
          fun c hc => hascii c (by rw [ha]; simp [hc])
        obtain ⟨c, pre, ds, rfl, hdig, hrun, rfl, rfl, -⟩ :=
          run_of_scanRun hbody_ascii (by simpa using hhead) hscan hbad.1
        have hsign : sign = [] ∨ sign = ['+'] ∨ sign = ['-'] := by
          rcases hneg with ⟨h1, -⟩ | ⟨h1, -⟩ | ⟨h1, -⟩ <;> simp [h1]
        have hnum := numeral_of_parts (fun x (hx : x ∈ a.takeWhile isAsciiBlank) =>
          List.mem_takeWhile_imp hx) hsign hdig hrun
          (by omega) (List.all_eq_true.1 hbad.2)
        rw [List.append_assoc, ← ha] at hnum
        cases h
        convert hnum using 2
        rcases hneg with ⟨rfl, rfl⟩ | ⟨rfl, rfl⟩ | ⟨rfl, rfl⟩ <;> simp
  · intro h
    obtain ⟨lead, sign, c, pre, rest, ds, rfl, hlead, hsign, hdig, hrun, hlen, hrest, rfl⟩ :=
      parts_of_numeral hascii h
    have hc : c ≠ '_' := by rintro rfl; simp at hdig
    have hstop : Stops rest := fun x hx =>
      isAsciiBlank_stops (hrest x (List.mem_of_mem_head? hx))
    have hpre : ∀ x ∈ pre, x.toNat < 128 := fun x hx => hascii x (by simp [hx])
    have hcb : isAsciiBlank c = false := by
      have := (isDigit_iff c).1 hdig; simp [isAsciiBlank]; omega
    have hd : (sign ++ c :: (pre ++ rest)).dropWhile isAsciiBlank = sign ++ c :: (pre ++ rest) := by
      rcases hsign with rfl | rfl | rfl <;> simp [List.dropWhile_cons, hcb] <;> decide
    rw [show lead ++ sign ++ c :: pre ++ rest = lead ++ (sign ++ c :: (pre ++ rest)) by simp,
      List.dropWhile_append_of_pos hlead, hd, splitSign_digit _ hdig hsign]
    simp only
    rw [if_neg (by simpa using hc), ← List.cons_append, scanRun_run hdig hrun hpre hstop]
    simp [List.all_eq_true.2 hrest]
    omega

/-- The pass to ASCII keeps the glyph of every character up to the first one outside the
grammar, which it turns into `?` and where it stops. -/
theorem asciiNumeral_glyphs : ∀ cs : List Char,
    (asciiNumeral cs).map glyph = cs.map glyph ∨
      ∃ p q, cs.map glyph = p ++ .other :: q ∧ (asciiNumeral cs).map glyph = p ++ [.other]
  | [] => .inl rfl
  | c :: rest => by
    have step : ∀ c', glyph c' = glyph c →
        ((c' :: asciiNumeral rest).map glyph = (c :: rest).map glyph ∨
          ∃ p q, (c :: rest).map glyph = p ++ .other :: q ∧
            (c' :: asciiNumeral rest).map glyph = p ++ [.other]) := by
      intro c' hg
      rcases asciiNumeral_glyphs rest with h | ⟨p, q, h1, h2⟩
      · exact .inl (by simp [h, hg])
      · exact .inr ⟨glyph c :: p, q, by simp [h1], by simp [h2, hg]⟩
    rw [asciiNumeral]
    split_ifs with hc hb
    · exact step c rfl
    · exact step ' ' (by rw [glyph_wide_blank hc hb]; decide)
    · have hg := glyph_wide hc (by simpa using hb)
      split
      · next d hd =>
        apply step
        rw [hg, hd]
        have h10 := digitValue?_lt_ten hd
        have hval : (Char.ofNat (48 + d)).toNat = 48 + d := by
          rw [Char.toNat_ofNat, if_pos (by simp [Nat.isValidChar]; omega)]
        have hdig : (Char.ofNat (48 + d)).isDigit = true := by
          rw [isDigit_iff, hval]; omega
        rw [glyph_of_isDigit hdig, hval, Nat.add_sub_cancel_left]
      · next hd =>
        rw [hd] at hg
        exact .inr ⟨[], rest.map glyph, by simp [hg], by decide⟩

/-- **Integer numerals.** A text reads as `n` exactly when its glyphs are a numeral of `n`. -/
theorem readNumeral_eq_ok_iff (s : String) (n : Int) :
    readNumeral s = .ok n ↔ Numeral (s.toList.map glyph) n := by
  rw [readNumeral_eq_ok_iff_ascii]
  rcases asciiNumeral_glyphs s.toList with h | ⟨p, q, h1, h2⟩
  · rw [h]
  · rw [h2]
    constructor
    · intro hn
      exact absurd (by simp) hn.other_not_mem
    · intro hn
      exact absurd (by rw [h1]; simp) hn.other_not_mem

theorem readInt?_eq_some_iff (s : String) (n : Int) :
    readInt? s = some n ↔ Numeral (s.toList.map glyph) n := by
  rw [← readNumeral_eq_ok_iff, readInt?]
  cases readNumeral s <;> simp [Except.toOption]

end RepairShop.Text

namespace RepairShop.Number

/-! ## Doubles that are integers -/

theorem natAbs_div_exact {a n : Int} {P : Nat} (hP : 0 < P) :
    (a.natAbs % P = 0 ∧
      (if a < 0 then -((a.natAbs / P : Nat) : Int) else ((a.natAbs / P : Nat) : Int)) = n) ↔
      a = n * P := by
  constructor
  · rintro ⟨hmod, rfl⟩
    have hq : a.natAbs = a.natAbs / P * P := (Nat.div_mul_cancel (Nat.dvd_of_mod_eq_zero hmod)).symm
    split
    · have : (a.natAbs : Int) = -a := Int.ofNat_natAbs_of_nonpos (by omega)
      rw [hq, Nat.cast_mul] at this
      linarith
    · have : (a.natAbs : Int) = a := Int.natAbs_of_nonneg (by omega)
      rw [hq, Nat.cast_mul] at this
      linarith
  · rintro rfl
    have hP' : (0 : Int) < P := by exact_mod_cast hP
    refine ⟨by simp [Int.natAbs_mul, Nat.mul_mod_left], ?_⟩
    rw [Int.natAbs_mul, Int.natAbs_natCast, Nat.mul_div_cancel _ hP]
    split
    · next h =>
      have : n < 0 := by
        by_contra hn
        exact absurd h (not_lt.2 (mul_nonneg (not_lt.1 hn) hP'.le))
      omega
    · next h =>
      have : 0 ≤ n := by
        by_contra hn
        exact h (mul_neg_of_neg_of_pos (not_le.1 hn) hP')
      omega

/-- The double `x` is exactly the integer `n`: it is finite and its value `num / 2 ^ pow` is
`n`. -/
def IsInteger (x : Float) (n : Int) : Prop :=
  ∃ d, (shape x).dyadic? = some d ∧ d.num = n * 2 ^ d.pow

/-- A double has no fractional part and cuts to `n` exactly when it is the integer `n`. -/
theorem integral_truncate_iff (x : Float) (n : Int) :
    (isIntegral x = true ∧ truncate? x = some n) ↔ IsInteger x n := by
  unfold isIntegral truncate? IsInteger
  cases (shape x).dyadic? with
  | none => simp
  | some d =>
    have hP : 0 < Nat.pow 2 d.pow := Nat.pow_pos (by decide)
    have hcast : ((Nat.pow 2 d.pow : Nat) : Int) = 2 ^ d.pow := by
      rw [Nat.pow_eq, Nat.cast_pow]; rfl
    simp only [beq_iff_eq, Option.some.injEq, exists_eq_left']
    rw [← hcast]
    exact natAbs_div_exact hP

end RepairShop.Number

namespace RepairShop.Request

open Json

/-! ## Integer fields -/

/-- The integer a value stands for in an integer field: an integer, a double that is exactly
that integer, or a text that is a numeral of it. A boolean, `null`, a list or an object
stands for none. -/
def Denotes : Value → Int → Prop
  | .int k, n => k = n
  | .float x, n => Number.IsInteger x n
  | .str s, n => Text.Numeral (s.toList.map Text.glyph) n
  | _, _ => False

/-- The reading of an integer field never fails short of an infinite double, and it reads
exactly the integer the value stands for, if any. -/
theorem intOf?_denotes (v : Value)
    (hv : ∀ x neg, v = .float x → Number.shape x ≠ .infinite neg) :
    ∃ r, intOf? v = .ok r ∧ ∀ n, r = some n ↔ Denotes v n := by
  cases v with
  | int k => exact ⟨some k, rfl, fun n => by simp [Denotes]⟩
  | float x =>
    simp only [intOf?]
    split
    · next neg h => exact absurd h (hv x neg rfl)
    · next h =>
      refine ⟨none, rfl, fun n => ?_⟩
      simp [Denotes, Number.IsInteger, h, Number.Shape.dyadic?]
    · refine ⟨_, rfl, fun n => ?_⟩
      rw [Denotes, ← Number.integral_truncate_iff]
      cases Number.isIntegral x <;> simp
  | str s => exact ⟨Text.readInt? s, rfl, fun n => by simp [Denotes, Text.readInt?_eq_some_iff]⟩
  | null => exact ⟨none, rfl, fun n => by simp [Denotes]⟩
  | bool b => exact ⟨none, rfl, fun n => by simp [Denotes]⟩
  | unpaired ps => exact ⟨none, rfl, fun n => by simp [Denotes]⟩
  | arr items => exact ⟨none, rfl, fun n => by simp [Denotes]⟩
  | obj fields => exact ⟨none, rfl, fun n => by simp [Denotes]⟩

theorem intField_of_none {v : Value} (hr : intOf? v = .ok none) (loc : String) (m : Int) :
    intField v loc m = .error (badRequest s!"{loc} must be an integer" (some loc)) := by
  simp only [intField, hr, bind, Except.bind]
  rfl

theorem intField_of_some {v : Value} {n : Int} (hr : intOf? v = .ok (some n)) (loc : String)
    (m : Int) :
    intField v loc m =
      if n < m then .error (badRequest s!"{loc} must be >= {m}" (some loc)) else .ok n := by
  simp only [intField, hr, bind, Except.bind]
  rfl

theorem intField_ok_iff {v : Value}
    (hv : ∀ x neg, v = .float x → Number.shape x ≠ .infinite neg) (loc : String) (m n : Int) :
    intField v loc m = .ok n ↔ Denotes v n ∧ m ≤ n := by
  obtain ⟨r, hr, hden⟩ := intOf?_denotes v hv
  rw [← hden]
  cases r with
  | none => simp [intField_of_none hr]
  | some k =>
    rw [intField_of_some hr]
    by_cases hk : k < m
    · simp only [hk, if_true, reduceCtorEq, false_iff, not_and, Option.some.injEq]
      omega
    · simp only [hk, if_false, Except.ok.injEq, Option.some.injEq]
      omega

/-- **Integer fields.** For every value other than an infinite double, every location and
every minimum `m`: the field reads `n` exactly when the value stands for `n` and `n ≥ m`;
a value that stands for an integer below `m` is refused as below the minimum, and one that
stands for none (`null`, a boolean, `NaN`, a text that is not a numeral) as not an integer,
both at the field's location. A whole-number field reads the same way. -/
theorem intField_reads_denoted (v : Value)
    (hv : ∀ x neg, v = .float x → Number.shape x ≠ .infinite neg) (loc : String) (m : Int) :
    (∀ n, intField v loc m = .ok n ↔ Denotes v n ∧ m ≤ n) ∧
    (∀ n, Denotes v n → n < m →
      intField v loc m = .error (badRequest s!"{loc} must be >= {m}" (some loc))) ∧
    ((∀ n, ¬Denotes v n) →
      intField v loc m = .error (badRequest s!"{loc} must be an integer" (some loc))) ∧
    (∀ b k : Nat, natField v loc b = .ok k ↔ Denotes v k ∧ b ≤ k) := by
  obtain ⟨r, hr, hden⟩ := intOf?_denotes v hv
  refine ⟨intField_ok_iff hv loc m, ?_, ?_, ?_⟩
  · intro n hn hlt
    rw [(hden n).2 hn] at hr
    rw [intField_of_some hr, if_pos hlt]
  · intro hnone
    cases r with
    | none => exact intField_of_none hr loc m
    | some k => exact absurd ((hden k).1 rfl) (hnone k)
  · intro b k
    rw [natField]
    constructor
    · intro h
      cases hf : intField v loc b with
      | error e => rw [hf] at h; cases h
      | ok n =>
        rw [hf] at h
        obtain ⟨hn, hbn⟩ := (intField_ok_iff hv loc b n).1 hf
        cases h
        have : (n.toNat : Int) = n := Int.toNat_of_nonneg (by omega)
        rw [this]
        exact ⟨hn, by omega⟩
    · rintro ⟨hk, hbk⟩
      rw [(intField_ok_iff hv loc b k).2 ⟨hk, by exact_mod_cast hbk⟩]
      rfl

/-- A numeral in wide digits, with a sign, an underscore and wide blanks, is a valid id. -/
theorem wide_numeral_id :
    Denotes (.str " +١٢_3　") 123 ∧ intField (.str " +١٢_3　") "id" 1 = .ok 123 :=
  have h : Denotes (.str " +١٢_3　") 123 :=
    (Text.readNumeral_eq_ok_iff " +١٢_3　" 123).1 (by cbv)
  ⟨h, ((intField_reads_denoted (.str " +١٢_3　") (by simp) "id" 1).1 123).2
    ⟨h, by decide⟩⟩

/-- The information separators are blanks to `Text.trim` but not to a numeral: a text
that trims to `5` is still not an integer. -/
theorem separator_not_numeral_blank :
    Text.trim "\x1c5" = "5" ∧
      intField (.str "\x1c5") "id" 1 = .error (badRequest "id must be an integer" (some "id")) :=
  ⟨by cbv, intField_of_none (by cbv) "id" 1⟩

end RepairShop.Request
