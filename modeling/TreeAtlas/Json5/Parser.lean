import TreeAtlas.Json5.Letters
import TreeAtlas.Json5.Node

/-!
# Reading the relaxed notation

Comments, trailing commas, single quotes, unquoted keys, signs, hexadecimal numbers, points at
either end of a number and line ends escaped inside strings. A text is either read as a whole or
not at all; nobody is told why.
-/

namespace TreeAtlas.Json5

open Json (Rest)

/-- What was read from `s` and what is left, unless `s` does not start with it. -/
abbrev Parse (α : Type) (s : List Char) := Option (α × Rest s)

def isLineEnd (c : Char) : Bool :=
  c == '\n' || c == '\r' || c.toNat == 0x2028 || c.toNat == 0x2029

def isSpace (c : Char) : Bool :=
  let n := c.toNat
  n == 0x09 || n == 0x0B || n == 0x0C || n == 0x20 || n == 0xA0 || n == 0xFEFF || n == 0x1680
    || (0x2000 ≤ n && n ≤ 0x200A) || n == 0x202F || n == 0x205F || n == 0x3000 || isLineEnd c

/-- The text after the end of a block comment. -/
def endOfComment? : List Char → Option (List Char)
  | '*' :: '/' :: r => some r
  | _ :: r => endOfComment? r
  | [] => none

theorem length_of_endOfComment? {s r : List Char} (h : endOfComment? s = some r) :
    r.length < s.length := by
  fun_induction endOfComment? s with
  | case1 => cases h; simp only [List.length_cons]; omega
  | case2 _ _ _ ih => exact Nat.lt_succ_of_lt (ih h)
  | case3 => cases h

/-- Drops spaces and comments. A comment that does not end is none. -/
def skip (s : List Char) : List Char :=
  match s with
  | [] => []
  | '/' :: '/' :: r => skip (r.dropWhile fun c => !isLineEnd c)
  | '/' :: '*' :: r =>
    match h : endOfComment? r with
    | some r' =>
      have := length_of_endOfComment? h
      skip r'
    | none => s
  | c :: r => if isSpace c then skip r else s
termination_by s.length
decreasing_by
  · have := Json.length_dropWhile_le (fun c => !isLineEnd c) r
    simp only [List.length_cons]
    omega
  · simp only [List.length_cons]
    omega
  · simp

theorem length_skip_le (s : List Char) : (skip s).length ≤ s.length := by
  fun_induction skip s with
  | case1 => exact Nat.le_refl _
  | case2 r ih =>
    have := Json.length_dropWhile_le (fun c => !isLineEnd c) r
    simp only [List.length_cons]
    omega
  | case3 r r' h hr ih =>
    simp only [List.length_cons]
    omega
  | case4 => exact Nat.le_refl _
  | case5 c r _ _ _ ih => exact Nat.le_succ_of_le ih
  | case6 => exact Nat.le_refl _

theorem lt_of_skip_eq {s r : List Char} {c : Char} (h : skip s = c :: r) :
    r.length < s.length := by
  have := length_skip_le s
  rw [h] at this
  exact this

/-! ### Strings and keys -/

def unitEscape? (s : List Char) : Parse Piece s :=
  match s with
  | a :: b :: c :: d :: r =>
    if [a, b, c, d].all fun x => (Json.hexValue? x).isSome then
      some (.unit [a, b, c, d], (((Rest.tail _ r).cons _).cons _).cons _)
    else none
  | _ => none

def escapedValue : Char → Char
  | 'b' => '\x08'
  | 'f' => '\x0c'
  | 'n' => '\n'
  | 'r' => '\r'
  | 't' => '\t'
  | 'v' => '\x0b'
  | c => c

/-- What follows a backslash in a string. A line end is dropped and leaves no piece. -/
def escape? (s : List Char) : Parse (Option Piece) s :=
  match s with
  | [] => none
  | '\r' :: '\n' :: r => some (none, (Rest.tail _ r).cons _)
  | 'x' :: a :: b :: r =>
    if (Json.hexValue? a).isSome && (Json.hexValue? b).isSome then
      some (some (.code [a, b]), ((Rest.tail _ r).cons _).cons _)
    else none
  | 'u' :: r => do
    let (piece, r') ← unitEscape? r
    return (some piece, r'.cons 'u')
  | c :: r =>
    if isLineEnd c then some (none, .tail c r)
    else if c = '0' then some (some (.escaped '0' '\x00'), .tail c r)
    else if c.isDigit ∨ c = 'x' then none
    else some (some (.escaped c (escapedValue c)), .tail c r)

/-- The rest of a string that ends with `quote`. -/
def string? (quote : Char) (s : List Char) : Parse (List Piece) s :=
  match s with
  | [] => none
  | c :: r =>
    if c = quote then some ([], .tail c r)
    else if c = '\\' then do
      let (piece, r') ← escape? r
      have := r'.2
      let (pieces, r'') ← string? quote r'.1
      return (piece.toList ++ pieces, (r'.next r'').cons c)
    else if isLineEnd c then none
    else do
      let (pieces, r') ← string? quote r
      return (.literal c :: pieces, r'.cons c)
termination_by s.length
decreasing_by
  · simp only [List.length_cons]; omega
  · simp

/-- The characters of an unquoted key, as many as there are. -/
def keyParts (accept : Char → Bool) (s : List Char) :
    List Piece × { r : List Char // r.length ≤ s.length } :=
  match s with
  | [] => ([], ⟨[], Nat.le_refl _⟩)
  | c :: r =>
    if accept c then
      let (pieces, r') := keyParts continuesKey r
      (.literal c :: pieces, ⟨r'.1, Nat.le_succ_of_le r'.2⟩)
    else if c = '\\' then
      match r with
      | 'u' :: t =>
        match unitEscape? t with
        | some (piece, r') =>
          have := r'.2
          let (pieces, r'') := keyParts continuesKey r'.1
          (piece :: pieces,
            ⟨r''.1, by have := r''.2; simp only [List.length_cons]; omega⟩)
        | none => ([], ⟨_, Nat.le_refl _⟩)
      | _ => ([], ⟨_, Nat.le_refl _⟩)
    else ([], ⟨_, Nat.le_refl _⟩)
termination_by s.length
decreasing_by
  · simp
  · simp only [List.length_cons]; omega

def key? (s : List Char) : Parse (List Piece) s :=
  match s with
  | '"' :: r => do
    let (pieces, r') ← string? '"' r
    return (pieces, r'.cons _)
  | '\x27' :: r => do
    let (pieces, r') ← string? '\x27' r
    return (pieces, r'.cons _)
  | s =>
    let (pieces, r) := keyParts startsKey s
    if h : r.1.length < s.length then some (pieces, ⟨r.1, h⟩) else none

/-! ### Numbers -/

/-- Splits after the longest front of digits. -/
def spanDigits (s : List Char) : List Char × List Char :=
  s.span Char.isDigit

/-- An exponent, if there is a whole one. -/
def takeExponent (s : List Char) : List Char × List Char :=
  match s with
  | c :: r =>
    if c = 'e' ∨ c = 'E' then
      let (sign, t) := match r with
        | '+' :: t => (['+'], t)
        | '-' :: t => (['-'], t)
        | t => ([], t)
      let (digits, rest) := spanDigits t
      if digits.isEmpty then ([], s) else (c :: sign ++ digits, rest)
    else ([], s)
  | [] => ([], [])

/-- Whole digits of a decimal number: a zero alone, or digits that start with another one. -/
def takeWhole (s : List Char) : List Char × List Char :=
  match s with
  | '0' :: r => (['0'], r)
  | s => spanDigits s

def takeDecimal (s : List Char) : List Char × List Char :=
  let (whole, rest) := takeWhole s
  match rest with
  | '.' :: r =>
    let (part, t) := spanDigits r
    if whole.isEmpty && part.isEmpty then ([], s)
    else
      let (e, t) := takeExponent t
      (whole ++ '.' :: part ++ e, t)
  | r =>
    if whole.isEmpty then ([], s)
    else
      let (e, t) := takeExponent r
      (whole ++ e, t)

def takeHex (s : List Char) : List Char × List Char :=
  match s with
  | '0' :: c :: r =>
    if c = 'x' ∨ c = 'X' then
      let (digits, rest) := r.span fun d => (Json.hexValue? d).isSome
      if digits.isEmpty then ([], s) else ('0' :: c :: digits, rest)
    else ([], s)
  | s => ([], s)

/-- The word at the front, if it is there. -/
def takeWord (word : String) (s : List Char) : List Char × List Char :=
  if word.toList.isPrefixOf s then (word.toList, s.drop word.toList.length) else ([], s)

/-- The first of the forms of a number that is there. -/
def takeUnsigned (s : List Char) : List Char × List Char :=
  let forms := [takeHex s, takeDecimal s, takeWord "Infinity" s, takeWord "NaN" s]
  (forms.find? fun form => !form.1.isEmpty).getD ([], s)

/-- The source of a number and what is left. -/
def takeNumber (s : List Char) : List Char × List Char :=
  match s with
  | '+' :: r =>
    let (source, rest) := takeUnsigned r
    if source.isEmpty then ([], s) else ('+' :: source, rest)
  | '-' :: r =>
    let (source, rest) := takeUnsigned r
    if source.isEmpty then ([], s) else ('-' :: source, rest)
  | s => takeUnsigned s

def number? (s : List Char) : Parse Node s :=
  let (source, rest) := takeNumber s
  if h : rest.length < s.length then some (.number source, ⟨rest, h⟩) else none

/-! ### Values -/

/-- A word that stands for a value. -/
def word? (word : String) (node : Node) (s : List Char) : Parse Node s :=
  let (_, rest) := takeWord word s
  if h : rest.length < s.length then some (node, ⟨rest, h⟩) else none

mutual

def value? (s : List Char) : Parse Node s :=
  match s with
  | [] => none
  | c :: r =>
    match c with
    | '[' => do
      let (items, r') ← items? true r
      return (.array items, r'.cons _)
    | '\x7b' => do
      let (members, r') ← members? true r
      return (.object members, r'.cons _)
    | '"' => do
      let (pieces, r') ← string? '"' r
      return (.string pieces, r'.cons _)
    | '\x27' => do
      let (pieces, r') ← string? '\x27' r
      return (.string pieces, r'.cons _)
    | 'n' => word? "null" .null _
    | 't' => word? "true" (.boolean true) _
    | 'f' => word? "false" (.boolean false) _
    | _ => number? _
termination_by 2 * s.length

/-- The items up to the closing bracket. After the first, each has a comma in front; one comma
more may stand before the bracket. -/
def items? (first : Bool) (s : List Char) : Parse (List Node) s :=
  match h : skip s with
  | ']' :: r => some ([], ⟨r, lt_of_skip_eq h⟩)
  | c :: r =>
    have hr := lt_of_skip_eq h
    if first then do
      let (v, t) ← value? (c :: r)
      have := t.2
      have : (c :: r).length ≤ s.length := hr
      let (vs, t') ← items? false t.1
      return (v :: vs, t'.widen (by omega))
    else if c = ',' then
      match h' : skip r with
      | ']' :: r' => some ([], ⟨r', by have := lt_of_skip_eq h'; omega⟩)
      | d :: r' => do
        have hr' : (d :: r').length ≤ r.length := lt_of_skip_eq h'
        let (v, t) ← value? (d :: r')
        have := t.2
        let (vs, t') ← items? false t.1
        return (v :: vs, t'.widen (by omega))
      | [] => none
    else none
  | [] => none
termination_by 2 * s.length + 1
decreasing_by all_goals simp only [List.length_cons] at *; omega

def members? (first : Bool) (s : List Char) : Parse (List (List Piece × Node)) s :=
  match h : skip s with
  | '\x7d' :: r => some ([], ⟨r, lt_of_skip_eq h⟩)
  | c :: r =>
    have hr := lt_of_skip_eq h
    if first then do
      let (member, t) ← member? (c :: r)
      have := t.2
      have : (c :: r).length ≤ s.length := hr
      let (members, t') ← members? false t.1
      return (member :: members, t'.widen (by omega))
    else if c = ',' then
      match h' : skip r with
      | '\x7d' :: r' => some ([], ⟨r', by have := lt_of_skip_eq h'; omega⟩)
      | d :: r' => do
        have hr' : (d :: r').length ≤ r.length := lt_of_skip_eq h'
        let (member, t) ← member? (d :: r')
        have := t.2
        let (members, t') ← members? false t.1
        return (member :: members, t'.widen (by omega))
      | [] => none
    else none
  | [] => none
termination_by 2 * s.length + 1
decreasing_by all_goals simp only [List.length_cons] at *; omega

/-- A key, a colon and a value. -/
def member? (s : List Char) : Parse (List Piece × Node) s := do
  let (key, r) ← key? s
  have := r.2
  match h : skip r.1 with
  | ':' :: r' =>
    have := lt_of_skip_eq h
    have := length_skip_le r'
    let (v, t) ← value? (skip r')
    return ((key, v), t.widen (by omega))
  | _ => none
termination_by 2 * s.length

end

/-- Reads a whole text. -/
def parse? (source : String) : Option Node := do
  let (v, r) ← value? (skip source.toList)
  if (skip r.1).isEmpty then some v else none

end TreeAtlas.Json5
