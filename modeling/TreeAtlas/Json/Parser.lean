import TreeAtlas.Json.Scanner

/-!
# Reading data values

A recursive reader on what is left of the text. Each production returns a shorter rest, and the
recursion ends by the length of what is left. `room` bounds how deep arrays and objects may nest;
without it nothing does.
-/

namespace TreeAtlas.Json

/-- Levels of nesting still allowed, if there is a bound. -/
abbrev Room := Option Nat

/-- The room inside one more array or object, if one may be opened. -/
def Room.enter? : Room → Option Room
  | none => some none
  | some n => if n ≤ 1 then none else some (some (n - 1))

/-- Opens the array or object whose bracket is the first character of `s`. -/
def Room.enter (room : Room) (s : List Char) : Except Fault Room :=
  match room.enter? with
  | some room => .ok room
  | none => .error (.next .nestedTooDeep s)

/-- A word whose first letter was read. -/
def wordThen {α : Type} (letters : String) (value : α) (s : List Char) :
    Except Fault (α × Left s) := do
  let r ← word letters.toList s
  return (value, r)

/-- The start of the next item of a list: `none` at its end. -/
def nextItem (first : Bool) (s : List Char) :
    Except Fault (Option (Left s)) :=
  match h : skipSpace s with
  | [] => .error (.next .endInList [])
  | ']' :: _ => .ok none
  | c :: r =>
    have hr : r.length < s.length := lt_of_skipSpace_eq h
    if first then .ok (some ⟨c :: r, hr⟩)
    else if c = ',' then
      match h' : skipSpace r with
      | [] => .error (.next .endInValue [])
      | ']' :: r' => .error (.next .trailingComma (']' :: r'))
      | d :: r' =>
        have hr' : r'.length < r.length := lt_of_skipSpace_eq h'
        .ok (some (Left.after hr ⟨d :: r', hr'⟩).left)
    else .error (.next .expectedListEnd (c :: r))

/-- The text after the opening quote of the next key of an object: `none` at its end. -/
def nextKey (first : Bool) (s : List Char) : Except Fault (Option (Rest s)) :=
  match h : skipSpace s with
  | [] => .error (.next .endInObject [])
  | '\x7d' :: _ => .ok none
  | c :: r =>
    have hr : r.length < s.length := lt_of_skipSpace_eq h
    if first then
      if c = '"' then .ok (some ⟨r, hr⟩) else .error (.next .keyNotString (c :: r))
    else if c = ',' then
      match h' : skipSpace r with
      | [] => .error (.next .endInValue [])
      | d :: r' =>
        have hr' : r'.length < r.length := lt_of_skipSpace_eq h'
        if d = '"' then .ok (some (Rest.after hr ⟨r', hr'⟩))
        else if d = '\x7d' then .error (.next .trailingComma (d :: r'))
        else .error (.next .keyNotString (d :: r'))
    else .error (.next .expectedObjectEnd (c :: r))

/-- The colon after a key. -/
def colon (s : List Char) : Except Fault (Rest s) :=
  match h : skipSpace s with
  | [] => .error (.next .endInObject [])
  | c :: r =>
    if c = ':' then .ok ⟨r, lt_of_skipSpace_eq h⟩
    else .error (.next .expectedColon (c :: r))

/-- The closing bracket that `nextItem` or `nextKey` has seen. -/
def closing (s : List Char) : Except Fault (Rest s) :=
  match h : skipSpace s with
  | [] => .error (.next .endInList [])
  | _ :: r => .ok ⟨r, lt_of_skipSpace_eq h⟩

mutual

def valueFrom (room : Room) (s : List Char) : Scan Json s :=
  match first? s with
  | none => .error (.next .endInValue [])
  | some (c, ⟨r, hr⟩) =>
    match c with
    | 'n' => do
      let (v, r') ← wordThen "ull" .null r
      return (v, r'.after hr)
    | 't' => do
      let (v, r') ← wordThen "rue" (.bool true) r
      return (v, r'.after hr)
    | 'f' => do
      let (v, r') ← wordThen "alse" (.bool false) r
      return (v, r'.after hr)
    | '"' => do
      let (t, r') ← string r
      return (.str t, r'.after hr)
    | '-' => do
      let (n, r') ← number true r
      return (.num n, r'.after hr)
    | '[' => do
      let inner ← room.enter (c :: r)
      let (items, r') ← itemsFrom inner true r
      return (.arr items, r'.after hr)
    | '\x7b' => do
      let inner ← room.enter (c :: r)
      let (fields, r') ← fieldsFrom inner true [] r
      return (.obj fields, r'.after hr)
    | c =>
      if c.isDigit then do
        let (n, r') ← number false (c :: r)
        return (.num n, r'.within hr)
      else .error (.next .expectedValue (c :: r))
termination_by 2 * s.length

def itemsFrom (room : Room) (first : Bool) (s : List Char) : Scan (List Json) s := do
  match ← nextItem first s with
  | none =>
    let r ← closing s
    return ([], r)
  | some ⟨s', hs⟩ =>
    let (v, ⟨r, hr⟩) ← valueFrom room s'
    let (vs, r') ← itemsFrom room false r
    return (v :: vs, r'.widen (by omega))
termination_by 2 * s.length + 1

/-- The fields of an object, added to those read before. -/
def fieldsFrom (room : Room) (first : Bool) (read : Fields) (s : List Char) : Scan Fields s := do
  match ← nextKey first s with
  | none =>
    let r ← closing s
    return (read, r)
  | some ⟨s₁, h₁⟩ =>
    let (key, ⟨s₂, h₂⟩) ← string s₁
    let ⟨s₃, h₃⟩ ← colon s₂
    let (v, ⟨s₄, h₄⟩) ← valueFrom room s₃
    let (fields, r) ← fieldsFrom room false (read.insert key v) s₄
    return (fields, r.widen (by omega))
termination_by 2 * s.length + 1

end

/-- The end of the text. -/
def finish (s : List Char) : Except Fault Unit :=
  match skipSpace s with
  | [] => .ok ()
  | rest => .error (.next .trailingCharacters rest)

def document (room : Room) (s : List Char) : Except Fault Json := do
  let (v, r) ← valueFrom room s
  finish r.1
  return v

/-- Reads a whole text. -/
def parse (room : Room) (text : String) : Except SyntaxError Json :=
  (document room text.toList).mapError fun fault => fault.located text.toList

/-- The room of the readers that bound nesting on their own. -/
def strictRoom : Room := some 128

end TreeAtlas.Json
