import TreeAtlas.Json.Skipping
import TreeAtlas.Panel.ViewMode
import TreeAtlas.Record.OfTree

/-!
# Records in data texts

A record is read while its text is scanned, so a value of the wrong kind is found before a fault of
the text behind it, and a key met twice before its value. A value that is refused is still read
first, as far as its kind can be told: a fault in it comes before the refusal.
-/

namespace TreeAtlas.Record

open Json (Rest Room Fault skipSpace)

inductive TextFault where
  | malformed (fault : Fault)
  | mismatch (m : Mismatch)

/-- Reads what is left of a text. -/
abbrev TextReader (α : Type) := Room → (s : List Char) → Except TextFault (α × Rest s)

def scanned {α : Type} (x : Except Fault α) : Except TextFault α :=
  x.mapError .malformed

def matched {α : Type} (x : Except Mismatch α) : Except TextFault α :=
  x.mapError .mismatch

/-- What stands at the first character of `s`, read up to its end where it is a scalar. -/
def foundText (s : List Char) : Except Fault Found :=
  match s with
  | 'n' :: r => (Json.word "ull".toList r).map fun _ => .null
  | 't' :: r => (Json.word "rue".toList r).map fun _ => .boolean true
  | 'f' :: r => (Json.word "alse".toList r).map fun _ => .boolean false
  | '-' :: r => (Json.number true r).map fun x => foundNumber x.1
  | '"' :: r => (Json.string r).map fun x => .string x.1
  | '[' :: _ => .ok .sequence
  | '\x7b' :: _ => .ok .map
  | c :: r =>
    if c.isDigit then (Json.number false (c :: r)).map fun x => foundNumber x.1
    else .error (.next .expectedValue (c :: r))
  | [] => .error (.next .endInValue [])

/-- Refuses what stands at the first character of `s`. -/
def refuseText {α : Type} (expected : String) (s : List Char) : Except TextFault α :=
  match foundText s with
  | .ok found => .error (.mismatch (.invalidType found expected))
  | .error fault => .error (.malformed fault)

/-- Reads a value by its first character, which `read` gets with what follows it. -/
def readFirst {α : Type} (s : List Char)
    (read : (c : Char) → (r : List Char) → r.length < s.length → Except TextFault (α × Rest s)) :
    Except TextFault (α × Rest s) :=
  match h : skipSpace s with
  | [] => .error (.malformed (.next .endInValue []))
  | c :: r => read c r (Json.lt_of_skipSpace_eq h)

def textOfText : TextReader String := fun _ s =>
  readFirst s fun c r hr =>
    if c = '"' then do
      let (t, r') ← scanned (Json.string r)
      return (t, r'.after hr)
    else refuseText "a string" (c :: r)

def flagOfText : TextReader Bool := fun _ s =>
  readFirst s fun c r hr =>
    match c with
    | 't' => do
      let r' ← scanned (Json.word "rue".toList r)
      return (true, r'.after hr)
    | 'f' => do
      let r' ← scanned (Json.word "alse".toList r)
      return (false, r'.after hr)
    | c => refuseText "a boolean" (c :: r)

def numberOfText {α : Type} (expected : String) (accept : Json.Number → Except Mismatch α) :
    TextReader α := fun _ s =>
  readFirst s fun c r hr =>
    if c = '-' then do
      let (n, r') ← scanned (Json.number true r)
      return (← matched (accept n), r'.after hr)
    else if c.isDigit then do
      let (n, r') ← scanned (Json.number false (c :: r))
      return (← matched (accept n), r'.within hr)
    else refuseText expected (c :: r)

def optionalOfText {α : Type} (read : TextReader α) : TextReader (Option α) := fun room s =>
  match h : skipSpace s with
  | 'n' :: r => do
    let r' ← scanned (Json.word "ull".toList r)
    return (none, r'.after (Json.lt_of_skipSpace_eq h))
  | _ => do
    let (v, r) ← read room s
    return (some v, r)

/-- The end of an array whose items have been read. -/
def endOfItems (s : List Char) : Except Fault (Rest s) :=
  match h : skipSpace s with
  | [] => .error (.next .endInList [])
  | ']' :: r => .ok ⟨r, Json.lt_of_skipSpace_eq h⟩
  | ',' :: r =>
    match skipSpace r with
    | ']' :: r' => .error (.next .trailingComma (']' :: r'))
    | r' => .error (.next .trailingCharacters r')
  | r => .error (.next .trailingCharacters r)

/-- The fields of a record in order, from the items of an array. -/
def positionalOfText {ρ σ : Type} (room : Room) (expected : String) :
    Fields TextReader ρ σ → Nat → (s : List Char) →
      Except TextFault (ρ × { r : List Char // r.length ≤ s.length })
  | .nil, _, s => .ok ((), ⟨s, Nat.le_refl _⟩)
  | .cons _ _ absent read rest, index, s => do
    match ← scanned (Json.nextItem (index == 0) s) with
    | none =>
      let v ← matched (absent.positional index expected)
      let (row, r) ← positionalOfText room expected rest (index + 1) s
      return ((v, row), r)
    | some ⟨s', hs⟩ =>
      let (v, r) ← read room s'
      have := r.2
      let (row, r') ← positionalOfText room expected rest (index + 1) r.1
      have := r'.2
      return ((v, row), ⟨r'.1, by omega⟩)

/-- The fields of a record by name, from the members of an object. -/
def namedOfText {ρ σ : Type} (room : Room) (fields : Fields TextReader ρ σ) (first : Bool)
    (slots : σ) (s : List Char) : Except TextFault (σ × Rest s) := do
  match ← scanned (Json.nextKey first s) with
  | none =>
    let r ← scanned (Json.closing s)
    return (slots, r)
  | some s' =>
    have := s'.2
    let (key, r) ← scanned (Json.string s'.1)
    have := r.2
    match fields.place key slots with
    | .unknown =>
      let r ← scanned (Json.colon r.1)
      have := r.2
      let r ← scanned (Json.skipValue r.1)
      have := r.2
      let (slots, r') ← namedOfText room fields false slots r.1
      return (slots, r'.widen (by omega))
    | .taken name => .error (.mismatch (.duplicateField name))
    | .free read put =>
      let r ← scanned (Json.colon r.1)
      have := r.2
      let (v, r) ← read room r.1
      have := r.2
      let (slots, r') ← namedOfText room fields false (put v) r.1
      return (slots, r'.widen (by omega))
termination_by s.length

def recordOfText {α ρ σ : Type} (name : String) (fields : Fields TextReader ρ σ)
    (build : ρ → α) : TextReader α := fun room s =>
  readFirst s fun c r hr =>
    match c with
    | '[' => do
      let inner ← scanned (room.enter (c :: r))
      let (row, r') ←
        positionalOfText inner (elementsExpected name fields.count) fields 0 r
      have := r'.2
      let r'' ← scanned (endOfItems r'.1)
      return (build row, r''.widen (by omega))
    | '\x7b' => do
      let inner ← scanned (room.enter (c :: r))
      let (slots, r') ← namedOfText inner fields true fields.vacant r
      return (build (← matched (fields.complete slots)), r'.after hr)
    | c => refuseText ("struct " ++ name) (c :: r)

def ofText : DataFormat TextReader where
  text := textOfText
  flag := flagOfText
  single := numberOfText "f32" fun n => .ok n.toSingle
  size := numberOfText "usize" (boundedNat UInt64.size "usize")
  word := numberOfText "u32" (boundedNat UInt32.size "u32")
  any := fun room s => scanned (Json.valueFrom room s)
  optional := optionalOfText
  record := recordOfText

/-! ### View modes -/

def modeOfName (s : String) : Except Mismatch ViewMode :=
  match ViewMode.ofToken? s with
  | some mode => .ok mode
  | none => .error (.unknownVariant s (ViewMode.all.map ViewMode.token))

/-- A view mode by its name, which may stand as the only key of an object with the value `null`. -/
def viewModeOfText : TextReader ViewMode := fun room s =>
  readFirst s fun c r hr =>
    match c with
    | '"' => do
      let (name, r') ← scanned (Json.string r)
      return (← matched (modeOfName name), r'.after hr)
    | '\x7b' => do
      let _ ← scanned (room.enter (c :: r))
      let (name, r) ← match h : skipSpace r with
        | [] => .error (.malformed (.next .endInObject []))
        | '"' :: r' => do
          let (name, r'') ← scanned (Json.string r')
          .ok (name, r''.after (Json.lt_of_skipSpace_eq h))
        | '\x7d' :: r' => .error (.malformed (.next .expectedValue ('\x7d' :: r')))
        | rest => .error (.malformed (.next .keyNotString rest))
      have := r.2
      let mode ← matched (modeOfName name)
      let r ← scanned (Json.colon r.1)
      have := r.2
      let r ← match h : skipSpace r.1 with
        | [] => .error (.malformed (.next .endInValue []))
        | 'n' :: r' => do
          let r'' ← scanned (Json.word "ull".toList r')
          have := Json.lt_of_skipSpace_eq h
          have := r''.2
          .ok (⟨r''.1, by omega⟩ : Rest r.1)
        | rest => refuseText "unit" rest
      have := r.2
      match h : skipSpace r.1 with
      | [] => .error (.malformed (.behind .endInObject []))
      | '\x7d' :: r' =>
        have := Json.lt_of_skipSpace_eq h
        return (mode, ⟨r', by omega⟩)
      | rest => .error (.malformed (.behind .expectedValue rest))
    | c => .error (.malformed (.next .expectedValue (c :: r)))

/-! ### Whole texts -/

inductive TextError where
  | invalid (e : Json.SyntaxError)
  | mismatch (m : Mismatch)

def TextError.message : TextError → String
  | .invalid e => e.message
  | .mismatch m => m.message .data

def readText {α : Type} (read : TextReader α) (text : String) : Except TextError α :=
  let outcome : Except TextFault α := do
    let (v, r) ← read Json.strictRoom text.toList
    scanned (Json.finish r.1)
    return v
  outcome.mapError fun
    | .malformed fault => .invalid (fault.located text.toList)
    | .mismatch m => .mismatch m

end TreeAtlas.Record
