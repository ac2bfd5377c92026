import TreeAtlas.Json.Fault
import TreeAtlas.Json.Value

/-!
# Scalars of a data text

The readers of words, numbers and strings. Each takes what is left of the text and returns what it
read with what is left after it, which is shorter; the parsers above end because of that.

A number without point or exponent is whole if it fits; any other is read from as many digits as
fit a 64 bit significand and scaled once by a power of ten, so it is not always the nearest one.
-/

namespace TreeAtlas.Json

/-- What is left after something was read from `s`. -/
abbrev Rest (s : List Char) := { r : List Char // r.length < s.length }

abbrev Scan (α : Type) (s : List Char) := Except Fault (α × Rest s)

def isSpace (c : Char) : Bool :=
  c == ' ' || c == '\n' || c == '\t' || c == '\r'

def skipSpace (s : List Char) : List Char :=
  s.dropWhile isSpace

theorem length_skipSpace_le (s : List Char) : (skipSpace s).length ≤ s.length :=
  (List.dropWhile_sublist _).length_le

theorem lt_of_skipSpace_eq {s r : List Char} {c : Char} (h : skipSpace s = c :: r) :
    r.length < s.length := by
  have := length_skipSpace_le s
  rw [h] at this
  exact this

/-- The rest after one more character in front. -/
def Rest.cons {s : List Char} (c : Char) (r : Rest s) : Rest (c :: s) :=
  ⟨r.1, Nat.lt_succ_of_lt r.2⟩

/-- The rest, seen from a text that was longer or had space in front. -/
def Rest.widen {s t : List Char} (h : s.length ≤ t.length) (r : Rest s) : Rest t :=
  ⟨r.1, Nat.lt_of_lt_of_le r.2 h⟩

/-- All but the first character. -/
def Rest.tail (c : Char) (r : List Char) : Rest (c :: r) :=
  ⟨r, Nat.lt_succ_self _⟩

/-- The rest of what is left of a longer text. -/
def Rest.after {s t : List Char} (h : s.length < t.length) (r : Rest s) : Rest t :=
  ⟨r.1, Nat.lt_trans r.2 h⟩

/-- The rest of a part of a text. -/
def Rest.within {s t : List Char} {c : Char} (h : s.length < t.length) (r : Rest (c :: s)) :
    Rest t :=
  ⟨r.1, Nat.lt_of_lt_of_le r.2 h⟩

/-- The rest after something more was read. -/
def Rest.next {s : List Char} (r : Rest s) (r' : Rest r.1) : Rest s :=
  r'.after r.2

/-- What is left of `s`, or all of it. -/
abbrev Left (s : List Char) := { r : List Char // r.length ≤ s.length }

namespace Left

def all (s : List Char) : Left s :=
  ⟨s, Nat.le_refl _⟩

def cons {s : List Char} (c : Char) (r : Left s) : Left (c :: s) :=
  ⟨r.1, Nat.le_succ_of_le r.2⟩

/-- What is left, seen from a longer text. -/
def after {s t : List Char} (h : s.length < t.length) (r : Left s) : Rest t :=
  ⟨r.1, Nat.lt_of_le_of_lt r.2 h⟩

/-- What is left after something more was read. -/
def next {s : List Char} (r : Left s) (r' : Left r.1) : Left s :=
  ⟨r'.1, Nat.le_trans r'.2 r.2⟩

end Left

def Rest.left {s : List Char} (r : Rest s) : Left s :=
  ⟨r.1, Nat.le_of_lt r.2⟩

/-- The first character behind space, and what is left behind it. -/
def first? (s : List Char) : Option (Char × Rest s) :=
  match h : skipSpace s with
  | [] => none
  | c :: r => some (c, ⟨r, lt_of_skipSpace_eq h⟩)

/-- The remaining letters of a word. -/
def word : List Char → (s : List Char) → Except Fault (Left s)
  | [], s => .ok (.all s)
  | _ :: _, [] => .error (.behind .endInValue [])
  | e :: es, c :: cs =>
    if c = e then do
      let r ← word es cs
      return r.cons c
    else .error (.within .expectedWord (c :: cs) 1)

def hexValue? (c : Char) : Option Nat :=
  if c.isDigit then some (c.toNat - 48)
  else if 'a' ≤ c ∧ c ≤ 'f' then some (c.toNat - 87)
  else if 'A' ≤ c ∧ c ≤ 'F' then some (c.toNat - 55)
  else none

/-- The four hexadecimal digits of an escape. They are read as bytes, so a fault may lie inside a
character. -/
def fourDigits (s : List Char) : Scan Nat s :=
  match s with
  | a :: b :: c :: d :: r =>
    match hexValue? a, hexValue? b, hexValue? c, hexValue? d with
    | some a, some b, some c, some d =>
      .ok (((a * 16 + b) * 16 + c) * 16 + d, (((Rest.tail _ r).cons _).cons _).cons _)
    | _, _, _, _ => .error (.within .invalidEscape s 4)
  | short =>
    if byteCount short < 4 then .error (.behind .endInString [])
    else .error (.within .invalidEscape short 4)

def isLeading (n : Nat) : Bool :=
  0xD800 ≤ n && n ≤ 0xDBFF

def isTrailing (n : Nat) : Bool :=
  0xDC00 ≤ n && n ≤ 0xDFFF

/-- The character of a pair of surrogates. -/
def pairedChar (leading trailing : Nat) : Char :=
  Char.ofNat (0x10000 + (leading - 0xD800) * 0x400 + (trailing - 0xDC00))

/-- The second half of an escape whose first half was a leading surrogate. -/
def trailingEscape (leading : Nat) (s : List Char) : Scan Char s :=
  match s with
  | '\\' :: 'u' :: r => do
    let (n, r) ← fourDigits r
    if isTrailing n then return (pairedChar leading n, (r.cons 'u').cons '\\')
    else .error (.behind .loneSurrogate r.1)
  | [] | ['\\'] => .error (.behind .endInString [])
  | '\\' :: r => .error (.within .unfinishedSurrogate r 1)
  | s => .error (.within .unfinishedSurrogate s 1)

def unicodeEscape (s : List Char) : Scan Char s := do
  let (n, r) ← fourDigits s
  if isTrailing n then .error (.behind .loneSurrogate r.1)
  else if isLeading n then
    let (c, r') ← trailingEscape n r.1
    return (c, r.next r')
  else return (Char.ofNat n, r)

/-- What follows a backslash. -/
def escapeSequence (s : List Char) : Scan Char s :=
  match s with
  | [] => .error (.behind .endInString [])
  | c :: r =>
    let rest := Rest.tail c r
    match c with
    | '"' => .ok ('"', rest)
    | '\\' => .ok ('\\', rest)
    | '/' => .ok ('/', rest)
    | 'b' => .ok ('\x08', rest)
    | 'f' => .ok ('\x0c', rest)
    | 'n' => .ok ('\n', rest)
    | 'r' => .ok ('\r', rest)
    | 't' => .ok ('\t', rest)
    | 'u' => do
      let (d, r') ← unicodeEscape r
      return (d, r'.cons _)
    | c => .error (.within .invalidEscape (c :: r) 1)

/-- A string after its opening quote, as the characters read so far, last one first, and more. -/
def stringFrom (read : List Char) (s : List Char) : Scan (List Char) s :=
  match s with
  | [] => .error (.behind .endInString [])
  | '"' :: r => .ok (read.reverse, .tail _ r)
  | '\\' :: r => do
    let (c, r') ← escapeSequence r
    have := r'.2
    let (cs, r'') ← stringFrom (c :: read) r'.1
    return (cs, (r'.next r'').cons '\\')
  | c :: r =>
    if c.toNat < 0x20 then .error (.behind .controlCharacter r)
    else do
      let (cs, r') ← stringFrom (c :: read) r
      return (cs, r'.cons c)
termination_by s.length
decreasing_by
  · simp only [List.length_cons]; omega
  · simp

def string (s : List Char) : Scan String s := do
  let (cs, r) ← stringFrom [] s
  return (String.ofList cs, r)

/-! ### Numbers -/

/-- A significand, the power of ten it is scaled by, and whether it takes no more digits. -/
structure Significand where
  value : Nat := 0
  exponent : Int := 0
  full : Bool := false

namespace Significand

/-- A digit before the point; one that does not fit is a factor of ten. -/
def pushWhole (s : Significand) (c : Char) : Significand :=
  let value := s.value * 10 + Decimal.digitValue c
  if s.full ∨ UInt64.size ≤ value then { s with exponent := s.exponent + 1, full := true }
  else { s with value }

/-- A digit after the point; from one that does not fit on, all are dropped. -/
def pushPart (s : Significand) (c : Char) : Significand :=
  let value := s.value * 10 + Decimal.digitValue c
  if s.full ∨ UInt64.size ≤ value then { s with full := true }
  else { s with value, exponent := s.exponent - 1 }

end Significand

def powerOfTen (n : Nat) : Float :=
  Float.ofBits (UInt64.ofNat (Decimal.Format.double.nearest (Decimal.pow10 n) 1))

/-- Divides by a power of ten in steps that have a floating point number. -/
def divideByPower (x : Float) (n : Nat) : Float :=
  if n ≤ 308 then x / powerOfTen n
  else if x == 0.0 then x
  else divideByPower (x / powerOfTen 308) (n - 308)
termination_by n
decreasing_by omega

/-- The scaled significand, if it stays finite. -/
def Significand.scaled? (negative : Bool) (s : Significand) : Option Number :=
  let x := (UInt64.ofNat s.value).toFloat
  let magnitude? :=
    if s.exponent < 0 then some (divideByPower x s.exponent.natAbs)
    else if s.exponent ≤ 308 then some (x * powerOfTen s.exponent.toNat)
    else if x == 0.0 then some x
    else none
  magnitude?.bind fun y => Number.ofFloat? (if negative then -y else y)

/-- Digits of an exponent, or the text after the first digit at which it leaves 32 bits. -/
def exponentDigits : Nat → List Char → Except (List Char) (Nat × List Char)
  | n, c :: cs =>
    if c.isDigit then
      let n := n * 10 + Decimal.digitValue c
      if 0x80000000 ≤ n then .error cs else exponentDigits n cs
    else .ok (n, c :: cs)
  | n, [] => .ok (n, [])

/-- The number of a significand whose digits end before `rest`. -/
def finishNumber (negative : Bool) (s : Significand) (rest : List Char) :
    Except Fault (Number × List Char) :=
  match s.scaled? negative with
  | some n => .ok (n, rest)
  | none => .error (.behind .numberOutOfRange rest)

/-- An exponent part after its mark. One that leaves 32 bits makes zero, or is out of range if it
is positive and the significand is not zero. -/
def exponentPart (negative : Bool) (s : Significand) (rest : List Char) :
    Except Fault (Number × List Char) :=
  let (down, digits) := Decimal.takeSign rest
  match digits with
  | [] => .error (.behind .endInValue [])
  | c :: cs =>
    if ¬ c.isDigit then .error (.within .invalidNumber (c :: cs) 1)
    else match exponentDigits 0 (c :: cs) with
      | .ok (n, rest) =>
        finishNumber negative
          { s with exponent := s.exponent + (if down then -(n : Int) else n) } rest
      | .error rest =>
        if s.value ≠ 0 ∧ ¬ down then .error (.behind .numberOutOfRange rest)
        else finishNumber negative { value := 0 } (rest.dropWhile Char.isDigit)

def exponentOrEnd (negative : Bool) (s : Significand) (rest : List Char) :
    Except Fault (Number × List Char) :=
  match rest with
  | 'e' :: r => exponentPart negative s r
  | 'E' :: r => exponentPart negative s r
  | r => finishNumber negative s r

/-- What may follow the digits before the point. -/
def fractionPart (negative : Bool) (s : Significand) (rest : List Char) :
    Except Fault (Number × List Char) :=
  match rest with
  | '.' :: r =>
    let digits := r.takeWhile Char.isDigit
    let rest := r.dropWhile Char.isDigit
    if digits.isEmpty then
      .error (.next (if rest.isEmpty then .endInValue else .invalidNumber) rest)
    else
      exponentOrEnd negative (digits.foldl Significand.pushPart { s with full := false }) rest
  | 'e' :: r => exponentPart negative s r
  | 'E' :: r => exponentPart negative s r
  | rest =>
    if s.full then finishNumber negative s rest
    else
      let whole : Int := if negative then -(s.value : Int) else s.value
      match if negative ∧ s.value = 0 then none else Number.ofInt? whole with
      | some n => .ok (n, rest)
      | none => finishNumber negative s rest

def numberFrom (negative : Bool) (s : List Char) : Except Fault (Number × List Char) :=
  match s with
  | [] => .error (.behind .endInValue [])
  | c :: r =>
    if ¬ c.isDigit then .error (.within .invalidNumber (c :: r) 1)
    else if c = '0' then
      match r with
      | d :: _ =>
        if d.isDigit then .error (.next .invalidNumber r) else fractionPart negative {} r
      | [] => fractionPart negative {} []
    else
      fractionPart negative (((c :: r).takeWhile Char.isDigit).foldl Significand.pushWhole {})
        ((c :: r).dropWhile Char.isDigit)

theorem length_of_finishNumber {negative : Bool} {s : Significand} {rest r : List Char}
    {n : Number} (h : finishNumber negative s rest = .ok (n, r)) : r.length = rest.length := by
  unfold finishNumber at h
  split at h
  · cases h; rfl
  · cases h

theorem length_of_exponentDigits {k n : Nat} {s r : List Char}
    (h : exponentDigits k s = .ok (n, r)) : r.length ≤ s.length := by
  fun_induction exponentDigits k s with
  | case1 => cases h
  | case2 k c cs hc n' hn ih => exact Nat.le_succ_of_le (ih h)
  | case3 => cases h; exact Nat.le_refl _
  | case4 => cases h; exact Nat.le_refl _

theorem length_of_exponentDigits_error {k : Nat} {s r : List Char}
    (h : exponentDigits k s = .error r) : r.length ≤ s.length := by
  fun_induction exponentDigits k s with
  | case1 => cases h; simp
  | case2 k c cs hc n' hn ih => exact Nat.le_succ_of_le (ih h)
  | case3 => cases h
  | case4 => cases h

theorem length_takeSign_le (s : List Char) : (Decimal.takeSign s).2.length ≤ s.length := by
  unfold Decimal.takeSign
  split <;> simp

theorem length_dropWhile_le (p : Char → Bool) (s : List Char) :
    (s.dropWhile p).length ≤ s.length :=
  (List.dropWhile_sublist p).length_le

theorem length_of_exponentPart {negative : Bool} {s : Significand} {rest r : List Char}
    {n : Number} (h : exponentPart negative s rest = .ok (n, r)) : r.length ≤ rest.length := by
  refine Nat.le_trans ?_ (length_takeSign_le rest)
  unfold exponentPart at h
  simp only [] at h
  split at h
  · cases h
  · rename_i hd
    rw [hd]
    split at h
    · cases h
    · split at h
      · rename_i he
        rw [length_of_finishNumber h]
        exact length_of_exponentDigits he
      · rename_i he
        split at h
        · cases h
        · rw [length_of_finishNumber h]
          exact Nat.le_trans (length_dropWhile_le _ _) (length_of_exponentDigits_error he)

theorem length_of_exponentOrEnd {negative : Bool} {s : Significand} {rest r : List Char}
    {n : Number} (h : exponentOrEnd negative s rest = .ok (n, r)) : r.length ≤ rest.length := by
  unfold exponentOrEnd at h
  split at h
  · exact Nat.le_succ_of_le (length_of_exponentPart h)
  · exact Nat.le_succ_of_le (length_of_exponentPart h)
  · exact Nat.le_of_eq (length_of_finishNumber h)

theorem length_of_fractionPart {negative : Bool} {s : Significand} {rest r : List Char}
    {n : Number} (h : fractionPart negative s rest = .ok (n, r)) : r.length ≤ rest.length := by
  unfold fractionPart at h
  simp only [] at h
  split at h
  · split at h
    · cases h
    · exact Nat.le_trans (length_of_exponentOrEnd h) (Nat.le_succ_of_le (length_dropWhile_le _ _))
  · exact Nat.le_succ_of_le (length_of_exponentPart h)
  · exact Nat.le_succ_of_le (length_of_exponentPart h)
  · split at h
    · exact Nat.le_of_eq (length_of_finishNumber h)
    · split at h
      · cases h; exact Nat.le_refl _
      · exact Nat.le_of_eq (length_of_finishNumber h)

theorem length_of_numberFrom {negative : Bool} {s r : List Char} {n : Number}
    (h : numberFrom negative s = .ok (n, r)) : r.length < s.length := by
  unfold numberFrom at h
  split at h
  · cases h
  · split at h
    · cases h
    · rename_i c t hd
      split at h
      · split at h
        · split at h
          · cases h
          · have := length_of_fractionPart h
            simp only [List.length_cons] at *
            omega
        · have := length_of_fractionPart h
          simp only [List.length_cons] at *
          omega
      · have h := length_of_fractionPart h
        rw [List.dropWhile_cons_of_pos (by simpa using hd)] at h
        have := length_dropWhile_le Char.isDigit t
        simp only [List.length_cons]
        omega

/-- A number after its sign. -/
def number (negative : Bool) (s : List Char) : Scan Number s :=
  match h : numberFrom negative s with
  | .ok (n, r) => .ok (n, ⟨r, length_of_numberFrom h⟩)
  | .error fault => .error fault

end TreeAtlas.Json
