import TreeAtlas.Json.Scanner
import TreeAtlas.Markup.Fault
import TreeAtlas.Text.Blank

/-!
# Reading markup

Whether a text is one element with whatever belongs around and into it. Tags have to match, names
have to be names, an attribute may stand once in its tag, references have to be known, and every
qualifier of a name has to be declared at the element or around it. Every reader takes what is left
of the text and returns what is left after it, so the one that goes through the content ends.
-/

namespace TreeAtlas.Markup.Reader

open Json (Rest Left skipSpace isSpace)

def fail {α : Type} (complaint : Complaint) (unread : List Char) : Except Fault α :=
  .error ⟨complaint, unread⟩

/-- Whether a character can stand in markup at all. -/
def isCharacter (c : Char) : Bool :=
  c == '\t' || c == '\n' || c == '\r'
    || 0x20 ≤ c.toNat && c.toNat != 0xFFFE && c.toNat != 0xFFFF

/-! ### Names -/

def startsName (c : Char) : Bool :=
  c.isAlpha || c == ':' || c == '_' || Text.inRanges #[(0xC0, 0xD6), (0xD8, 0xF6), (0xF8, 0x2FF),
    (0x370, 0x37D), (0x37F, 0x1FFF), (0x200C, 0x200D), (0x2070, 0x218F), (0x2C00, 0x2FEF),
    (0x3001, 0xD7FF), (0xF900, 0xFDCF), (0xFDF0, 0xFFFD), (0x10000, 0xEFFFF)] c.toNat

def continuesName (c : Char) : Bool :=
  startsName c || c.isDigit || c == '-' || c == '.'
    || Text.inRanges #[(0xB7, 0xB7), (0x300, 0x36F), (0x203F, 0x2040)] c.toNat

/-- A name, perhaps with a qualifier in front of it. -/
structure Name where
  qualifier : String
  base : String
  deriving DecidableEq, Repr

def Name.text (n : Name) : String :=
  if n.qualifier = "" then n.base else n.qualifier ++ ":" ++ n.base

def Name.ofChars? (cs : List Char) : Option Name :=
  let startsWell (part : List Char) := part.head?.all startsName
  match Text.splitAt ':' cs with
  | [base] => if base ≠ [] ∧ startsWell base then some ⟨"", .ofList base⟩ else none
  | [qualifier, base] =>
    if startsWell qualifier ∧ base ≠ [] ∧ startsWell base then
      some ⟨.ofList qualifier, .ofList base⟩
    else none
  | _ => none

theorem length_dropWhile_lt {p : Char → Bool} {s : List Char} (h : s.takeWhile p ≠ []) :
    (s.dropWhile p).length < s.length := by
  have hs := congrArg List.length (s.takeWhile_append_dropWhile (p := p))
  have := List.length_pos_iff.2 h
  simp only [List.length_append] at hs
  omega

def readName (s : List Char) : Except Fault (Name × Rest s) :=
  if h : s.takeWhile continuesName = [] then fail .invalidName s
  else match Name.ofChars? (s.takeWhile continuesName) with
    | some name => .ok (name, ⟨s.dropWhile continuesName, length_dropWhile_lt h⟩)
    | none => fail .invalidName s

/-! ### Characters and references -/

/-- Reads characters as long as `p` holds. -/
def readWhile (p : Char → Bool) (s : List Char) : Except Fault (List Char × Left s) :=
  let goesOn (c : Char) := isCharacter c && p c
  let left : Left s := ⟨s.dropWhile goesOn, (List.dropWhile_sublist _).length_le⟩
  match left.1.head? with
  | some c => if isCharacter c then .ok (s.takeWhile goesOn, left) else fail (.noCharacter c) left.1
  | none => .ok (s.takeWhile goesOn, left)

/-- What is left at the first place where `ending` stands. -/
def dropTo (ending : List Char) : (s : List Char) → Left s
  | [] => .all []
  | c :: cs =>
    if isCharacter c && !ending.isPrefixOf (c :: cs) then (dropTo ending cs).cons c
    else .all (c :: cs)

/-- Reads characters up to an ending, and the ending. -/
def readTo (ending : String) (s : List Char) : Except Fault (List Char × Left s) :=
  let left := dropTo ending.toList s
  match left.1 with
  | c :: _ =>
    if isCharacter c then
      .ok (s.take (s.length - left.1.length),
        ⟨left.1.drop ending.length, Nat.le_trans (List.drop_sublist _ _).length_le left.2⟩)
    else fail (.noCharacter c) left.1
  | [] => fail (.expectedText ending) []

def readMark (mark : Char) (s : List Char) : Except Fault (Rest s) :=
  match s with
  | [] => fail .endOfText []
  | c :: r => if c = mark then .ok (.tail c r) else fail (.expected mark c) (c :: r)

/-- The character of a number in a reference. Numbers of 32 bits that are no character stand for the
replacement character. -/
def characterOfNumber? (base : Nat) (digits : List Char) : Option Char :=
  let n := digits.foldl (fun n c => base * n + (Json.hexValue? c).getD 0) 0
  if digits.isEmpty ∨ UInt32.size ≤ n then none
  else
    let c := if n.isValidChar then Char.ofNat n else '\uFFFD'
    if isCharacter c then some c else none

def entity? : String → Option Char
  | "quot" => some '"'
  | "amp" => some '&'
  | "apos" => some '\x27'
  | "lt" => some '<'
  | "gt" => some '>'
  | _ => none

/-- What stands for a character, and the mark that ends it. -/
def ended (value : Except Complaint Char) (s : List Char) : Except Complaint (Char × Left s) :=
  match s with
  | ';' :: r => value.map fun c => (c, (Rest.tail _ r).left)
  | _ => .error .malformedReference

/-- Digits of a reference by number. -/
def numbered (base : Nat) (isDigit : Char → Bool) (s : List Char) :
    Except Complaint (Char × Left s) :=
  match characterOfNumber? base (s.takeWhile isDigit) with
  | some c => do
    let (c, r) ← ended (.ok c) (s.dropWhile isDigit)
    return (c, ⟨r.1, Nat.le_trans r.2 (List.dropWhile_sublist _).length_le⟩)
  | none => .error .malformedReference

/-- A reference by name. -/
def named (s : List Char) : Except Complaint (Char × Left s) := do
  let name := String.ofList (s.takeWhile continuesName)
  let value := match entity? name with
    | some c => .ok c
    | none => .error (.unknownReference name)
  let (c, r) ← ended value (s.dropWhile continuesName)
  return (c, ⟨r.1, Nat.le_trans r.2 (List.dropWhile_sublist _).length_le⟩)

/-- A reference without the mark that starts it. -/
def reference (s : List Char) : Except Complaint (Char × Left s) :=
  match s with
  | '#' :: 'x' :: r => do
    let (c, r') ← numbered 16 (fun c => (Json.hexValue? c).isSome) r
    return (c, (r'.cons _).cons _)
  | '#' :: r => do
    let (c, r') ← numbered 10 Char.isDigit r
    return (c, r'.cons _)
  | s => if s.head?.any startsName then named s else .error .malformedReference

/-- The value that characters stand for behind what was read of it, or the first bad reference and
what is left at it. -/
def resolve (value s : List Char) : Except (Complaint × List Char) (List Char) :=
  match s with
  | [] => .ok value.reverse
  | '&' :: r =>
    match reference r with
    | .ok (c, ⟨r', _⟩) => resolve (c :: value) r'
    | .error complaint => .error (complaint, '&' :: r)
  | '\r' :: '\n' :: r => resolve (' ' :: value) r
  | c :: r => resolve ((if isSpace c then ' ' else c) :: value) r
termination_by s.length
decreasing_by all_goals (simp only [List.length_cons]; omega)

/-- The value of characters in front of `left`. -/
def valueOf (cs left : List Char) : Except Fault (List Char) :=
  (resolve [] cs).mapError fun (complaint, r) => ⟨complaint, r ++ left⟩

/-! ### Tags -/

/-- A qualifier and the address that it stands for; without a qualifier, that of plain names. -/
structure Declaration where
  qualifier : String
  address : List Char

/-- What is read of a tag: its declarations, and its attributes with what is left at each. -/
structure TagContent where
  own : List Declaration := []
  attributes : List (Name × List Char) := []

/-- Adds an attribute that starts where `start` is left. -/
def TagContent.add (t : TagContent) (name : Name) (value start : List Char) :
    Except Fault TagContent :=
  if name.qualifier = "xmlns" then
    if t.own.any (·.qualifier = name.base) then fail (.repeatedQualifier name.base) start
    else .ok { t with own := t.own ++ [⟨name.base, value⟩] }
  else if name.base = "xmlns" then .ok { t with own := t.own ++ [⟨"", value⟩] }
  else .ok { t with attributes := t.attributes ++ [(name, start)] }

def readAttribute (s : List Char) : Except Fault (Name × List Char × Rest s) := do
  let (name, ⟨r₁, h₁⟩) ← readName s
  let ⟨r₂, h₂⟩ ← readMark '=' (skipSpace r₁)
  match h : skipSpace r₂ with
  | [] => fail .endOfText []
  | quote :: r₃ =>
    if quote = '"' ∨ quote = '\x27' then do
      let (cs, ⟨r₄, h₄⟩) ← readWhile (fun c => c ≠ quote && c ≠ '<') r₃
      let ⟨r₅, h₅⟩ ← readMark quote r₄
      let value ← valueOf cs r₄
      have := Json.length_skipSpace_le r₁
      have := Json.lt_of_skipSpace_eq h
      return (name, value, ⟨r₅, by omega⟩)
    else fail (.expectedKind "a quote" quote) (quote :: r₃)

/-- Reads the attributes of a tag and its end, and whether it opens an element. -/
def readTag (t : TagContent) (s : List Char) : Except Fault (TagContent × Bool × Rest s) :=
  match h : skipSpace s with
  | [] => fail (if s.isEmpty then .openRoot else .endOfText) []
  | '>' :: r => .ok (t, true, ⟨r, Json.lt_of_skipSpace_eq h⟩)
  | '/' :: r => do
    let r' ← readMark '>' r
    return (t, false, r'.after (Json.lt_of_skipSpace_eq h))
  | c :: r =>
    if s.head?.any isSpace then do
      let (name, value, ⟨r', h'⟩) ← readAttribute (c :: r)
      let t ← t.add name value (c :: r)
      have := Json.length_skipSpace_le s
      have : r'.length < s.length := by rw [h] at this; omega
      let (t, opens, r'') ← readTag t r'
      return (t, opens, r''.after this)
    else fail (.expectedKind "a whitespace" c) (c :: r)
termination_by s.length

/-- An element whose content is being read. -/
structure OpenElement where
  name : Name
  /-- Declarations at the element and around it, the nearest first. -/
  scope : List Declaration

def address? (scope : List Declaration) (qualifier : String) : Option (List Char) :=
  (scope.find? (·.qualifier = qualifier)).map Declaration.address

/-- Checks that no attribute stands twice; names are told apart by what qualifiers stand for. -/
def checkAttributes (scope : List Declaration) (seen : List (List Char × String)) :
    List (Name × List Char) → Except Fault Unit
  | [] => .ok ()
  | (name, start) :: rest => do
    let address ←
      if name.qualifier = "" then pure []
      else if name.qualifier = "xml" then pure "xml".toList
      else match address? scope name.qualifier with
        | some address => pure address
        | none => fail (.unknownQualifier name.qualifier) start
    if seen.contains (address, name.base) then fail (.repeatedAttribute name.base) start
    else checkAttributes scope ((address, name.base) :: seen) rest

/-- Reads an element's first tag behind its mark, and whether the element has content. -/
def readElement (outer : List Declaration) (s : List Char) :
    Except Fault (OpenElement × Bool × Rest s) := do
  let (name, ⟨r, h⟩) ← readName s
  if name.qualifier = "xmlns" then fail .reservedQualifier s
  let (t, opens, r') ← readTag {} r
  let scope := t.own ++ outer
  checkAttributes scope [] t.attributes
  if name.qualifier ≠ "" ∧ (address? scope name.qualifier).isNone then
    fail (.unknownQualifier name.qualifier) s
  return (⟨name, scope⟩, opens, r'.after h)

/-! ### Content -/

/-- Whether `part` stands somewhere in a text. -/
def occurs (part : List Char) : List Char → Bool
  | [] => part.isEmpty
  | c :: cs => part.isPrefixOf (c :: cs) || occurs part cs

/-- A comment behind its first mark; `start` is left at that mark. -/
def readComment (start s : List Char) : Except Fault (Left s) := do
  let (cs, r) ← readTo "-->" s
  if occurs ['-', '-'] cs ∨ cs.getLast? = some '-' then fail .dashesInComment start
  return r

/-- An instruction behind its first mark. -/
def readInstruction (start s : List Char) : Except Fault (Left s) := do
  if "xml ".toList.isPrefixOf s then fail .lateDeclaration start
  if !s.head?.any startsName then fail .invalidName s
  let (_, r) ← readTo "?>" (skipSpace (s.dropWhile continuesName))
  have h₁ := Json.length_skipSpace_le (s.dropWhile continuesName)
  have h₂ := (s.dropWhile_sublist continuesName).length_le
  return ⟨r.1, Nat.le_trans r.2 (Nat.le_trans h₁ h₂)⟩

/-- Character data from `c` up to the next tag. -/
def readData (c : Char) (s : List Char) : Except Fault (Left s) := do
  if !isCharacter c then fail (.noCharacter c) (c :: s)
  let (cs, r) ← readWhile (· ≠ '<') s
  if occurs "]]>".toList (c :: cs) then fail .sectionEndInText r.1
  let _ ← valueOf (c :: cs) r.1
  return r

/-- The end of an element behind its mark; `start` is left at that mark. -/
def readClose (name : Name) (start s : List Char) : Except Fault (Rest s) := do
  let (closed, ⟨r, h⟩) ← readName s
  let r' ← readMark '>' (skipSpace r)
  if closed ≠ name then fail (.unexpectedClose name.text closed.text) start
  have := Json.length_skipSpace_le r
  have := r'.2
  return ⟨r'.1, by omega⟩

/-- Reads one item of the content of the innermost open element. It comes with the elements that
are open behind it. -/
def readItem (inner : OpenElement) (outer : List OpenElement) (s : List Char) :
    Except Fault (List OpenElement × Rest s) :=
  match s with
  | [] => fail .openRoot []
  | '<' :: '/' :: r => do
    let ⟨r', h⟩ ← readClose inner.name s r
    return (outer, ⟨r', by simp only [List.length_cons]; omega⟩)
  | '<' :: '!' :: '-' :: '-' :: r => do
    let ⟨r', h⟩ ← readComment s r
    return (inner :: outer, ⟨r', by simp only [List.length_cons]; omega⟩)
  | '<' :: '!' :: r =>
    if "[CDATA[".toList.isPrefixOf r then do
      let (_, ⟨r', h⟩) ← readTo "]]>" (r.drop 7)
      return (inner :: outer,
        ⟨r', by simp only [List.length_drop] at h; simp only [List.length_cons]; omega⟩)
    else fail .unknownToken s
  | '<' :: '?' :: r => do
    let ⟨r', h⟩ ← readInstruction s r
    return (inner :: outer, ⟨r', by simp only [List.length_cons]; omega⟩)
  | ['<'] => fail .unknownToken s
  | '<' :: r => do
    let (child, opens, ⟨r', h⟩) ← readElement inner.scope r
    return (if opens then child :: inner :: outer else inner :: outer,
      ⟨r', by simp only [List.length_cons]; omega⟩)
  | c :: r => do
    let ⟨r', h⟩ ← readData c r
    return (inner :: outer, ⟨r', by simp only [List.length_cons]; omega⟩)

/-- Reads on until no element is open. -/
def readContent (opened : List OpenElement) (s : List Char) : Except Fault (List Char) :=
  match opened with
  | [] => .ok s
  | inner :: outer =>
    match readItem inner outer s with
    | .ok (opened, ⟨r, _⟩) => readContent opened r
    | .error fault => .error fault
termination_by s.length

/-- Reads what can stand around the outermost element. -/
def readAround (s : List Char) : Except Fault (List Char) :=
  match h : skipSpace s with
  | '<' :: '!' :: '-' :: '-' :: r =>
    have := Json.lt_of_skipSpace_eq h
    match readComment (skipSpace s) r with
    | .ok ⟨r', _⟩ => readAround r'
    | .error fault => .error fault
  | '<' :: '?' :: r =>
    have := Json.lt_of_skipSpace_eq h
    match readInstruction (skipSpace s) r with
    | .ok ⟨r', _⟩ => readAround r'
    | .error fault => .error fault
  | r => .ok r
termination_by s.length
decreasing_by all_goals (simp only [List.length_cons] at this; omega)

/-- Reads a whole text: one element, and nothing but comments and instructions around it. -/
def readWhole (s : List Char) : Except Fault Unit := do
  match ← readAround s with
  | [] => fail .noRoot []
  | '<' :: r =>
    let (root, opens, r') ← readElement [] r
    let r ← readContent (if opens then [root] else []) r'.1
    match ← readAround r with
    | [] => return
    | r => fail .unknownToken r
  | r => fail .unknownToken r

/-- Why a text is no markup. -/
def complaint? (text : String) : Option String :=
  match readWhole text.toList with
  | .ok () => none
  | .error fault => some (fault.message text.toList)

end TreeAtlas.Markup.Reader
