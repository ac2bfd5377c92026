import TreeAtlas.Json.Parser

/-!
# Passing over data values

A value nobody asked for is checked for its outline only: nesting is not bounded, escapes need not
pair up, and numbers may have any size.
-/

namespace TreeAtlas.Json

def skipEscape (s : List Char) : Except Fault (Rest s) :=
  match s with
  | [] => .error (.behind .endInString [])
  | 'u' :: r => do
    let (_, r') ← fourDigits r
    return r'.cons 'u'
  | c :: r =>
    if c ∈ ['"', '\\', '/', 'b', 'f', 'n', 'r', 't'] then .ok (.tail c r)
    else .error (.within .invalidEscape (c :: r) 1)

/-- The rest of a string after its opening quote. -/
def skipString (s : List Char) : Except Fault (Rest s) :=
  match s with
  | [] => .error (.behind .endInString [])
  | '"' :: r => .ok (.tail _ r)
  | '\\' :: r => do
    let r' ← skipEscape r
    have := r'.2
    let r'' ← skipString r'.1
    return (r'.next r'').cons '\\'
  | c :: r =>
    if c.toNat < 0x20 then .error (.behind .controlCharacter (c :: r))
    else do
      let r' ← skipString r
      return r'.cons c
termination_by s.length
decreasing_by
  · simp only [List.length_cons]; omega
  · simp

def dropDigits (s : List Char) : Left s :=
  ⟨s.dropWhile Char.isDigit, length_dropWhile_le _ _⟩

/-- The first digit of a group. -/
def skipDigit (s : List Char) : Except Fault (Rest s) :=
  match s with
  | [] => .error (.behind .invalidNumber [])
  | c :: r => if c.isDigit then .ok (.tail c r) else .error (.within .invalidNumber (c :: r) 1)

/-- An exponent after its mark. -/
def skipExponent (s : List Char) : Except Fault (Left s) := do
  let r ← skipDigit (Decimal.takeSign s).2
  have := r.2
  have := length_takeSign_le s
  let r' := dropDigits r.1
  have := r'.2
  return ⟨r'.1, by omega⟩

/-- What may follow the digits of a number. -/
def skipExponentOrEnd (s : List Char) : Except Fault (Left s) :=
  match s with
  | 'e' :: r | 'E' :: r => do
    let r' ← skipExponent r
    return r'.cons _
  | s => .ok (.all s)

def skipFraction (s : List Char) : Except Fault (Left s) :=
  match s with
  | '.' :: r => do
    let r' := dropDigits r
    if r'.1.length = r.length then .error (.next .invalidNumber r'.1)
    else
      let r'' ← skipExponentOrEnd r'.1
      return (r'.next r'').cons '.'
  | s => skipExponentOrEnd s

/-- A number after its sign. -/
def skipNumber (s : List Char) : Except Fault (Rest s) := do
  let r ← skipDigit s
  let digits : Left r.1 := if s.head? = some '0' then .all r.1 else dropDigits r.1
  if s.head? = some '0' ∧ r.1.head?.any Char.isDigit then .error (.next .invalidNumber r.1)
  else
    let r' ← skipFraction digits.1
    return (digits.next r').after r.2

/-- The start of the next item: `none` at the end of the list. -/
def skipToItem (first : Bool) (s : List Char) :
    Except Fault (Option (Left s)) :=
  match h : skipSpace s with
  | [] => .error (.next .endInList [])
  | ']' :: _ => .ok none
  | c :: r =>
    have hr : r.length < s.length := lt_of_skipSpace_eq h
    if first then .ok (some ⟨c :: r, hr⟩)
    else if c = ',' then .ok (some (Left.after hr (.all r)).left)
    else .error (.next .expectedListEnd (c :: r))

/-- The text after the opening quote of the next key: `none` at the end of the object. -/
def skipToKey (first : Bool) (s : List Char) : Except Fault (Option (Rest s)) :=
  match h : skipSpace s with
  | [] => .error (.next .endInObject [])
  | '\x7d' :: _ => .ok none
  | c :: r =>
    have hr : r.length < s.length := lt_of_skipSpace_eq h
    if first then
      if c = '"' then .ok (some ⟨r, hr⟩) else .error (.next .keyNotString (c :: r))
    else if c = ',' then
      match h' : skipSpace r with
      | [] => .error (.next .endInObject [])
      | d :: r' =>
        have hr' : r'.length < r.length := lt_of_skipSpace_eq h'
        if d = '"' then .ok (some (Rest.after hr ⟨r', hr'⟩))
        else .error (.next .keyNotString (d :: r'))
    else .error (.next .expectedObjectEnd (c :: r))

mutual

def skipValue (s : List Char) : Except Fault (Rest s) :=
  match first? s with
  | none => .error (.next .endInValue [])
  | some (c, ⟨r, hr⟩) =>
    match c with
    | 'n' => do
      let r' ← word "ull".toList r
      return r'.after hr
    | 't' => do
      let r' ← word "rue".toList r
      return r'.after hr
    | 'f' => do
      let r' ← word "alse".toList r
      return r'.after hr
    | '"' => do
      let r' ← skipString r
      return r'.after hr
    | '-' => do
      let r' ← skipNumber r
      return r'.after hr
    | '[' => do
      let r' ← skipItems true r
      return r'.after hr
    | '\x7b' => do
      let r' ← skipFields true r
      return r'.after hr
    | c =>
      if c.isDigit then do
        let r' ← skipNumber (c :: r)
        return r'.within hr
      else .error (.next .expectedValue (c :: r))
termination_by 2 * s.length

def skipItems (first : Bool) (s : List Char) : Except Fault (Rest s) := do
  match ← skipToItem first s with
  | none => closing s
  | some ⟨s', hs⟩ =>
    let ⟨r, hr⟩ ← skipValue s'
    let r' ← skipItems false r
    return r'.widen (by omega)
termination_by 2 * s.length + 1

def skipFields (first : Bool) (s : List Char) : Except Fault (Rest s) := do
  match ← skipToKey first s with
  | none => closing s
  | some ⟨s₁, h₁⟩ =>
    let ⟨s₂, h₂⟩ ← skipString s₁
    let ⟨s₃, h₃⟩ ← colon s₂
    let ⟨s₄, h₄⟩ ← skipValue s₃
    let r ← skipFields false s₄
    return r.widen (by omega)
termination_by 2 * s.length + 1

end

end TreeAtlas.Json
