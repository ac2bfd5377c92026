import TreeAtlas.Markup.Element
import TreeAtlas.Proofs.Markup.Escape

/-!
# Reading written markup

A text is read character by character into pieces: characters of data, and tags with their names and
attributes (`Piece.scan`).  The reader refuses a tag without name, an attribute whose value is not
in quotes, and a value in which a tag would start.  Markup is balanced if its text can be read and
every opening tag is closed, the one opened last first (`Piece.nested`).

The text of a tree reads as the tree (`Markup.pieces`) if the tree is clean: its names are names, no
value has a quote or could start a tag, and no data could (`Markup.Clean`).  The proof follows the
reader through names, values and attributes, and then through the tree with any text behind it
(`Markup.scan_chars`).
-/

namespace TreeAtlas.Markup

/-- What is read of written markup. -/
inductive Piece where
  | char (c : Char)
  | opening (name : List Char) (attributes : List (List Char × List Char))
  | single (name : List Char) (attributes : List (List Char × List Char))
  | closing (name : List Char)
  deriving DecidableEq

namespace Piece

/-! ### The reader -/

/-- Whether a character can stand in a name. -/
def isName (c : Char) : Bool :=
  c ∉ ['<', '>', '/', '=', '"', ' ']

/-- Where the reader stands, and what it has read of a tag. -/
inductive Place where
  | content
  | tag
  | closing (name : List Char)
  | name (name : List Char)
  | between (name : List Char) (attributes : List (List Char × List Char))
  | attribute (name : List Char) (attributes : List (List Char × List Char)) (key : List Char)
  | equals (name : List Char) (attributes : List (List Char × List Char)) (key : List Char)
  | value (name : List Char) (attributes : List (List Char × List Char)) (key value : List Char)
  | slash (name : List Char) (attributes : List (List Char × List Char))

/-- The step behind the name of a tag or one of its values. -/
def stepBetween (name : List Char) (attributes : List (List Char × List Char)) (c : Char) :
    Option (Place × Option Piece) :=
  if c = ' ' then some (.attribute name attributes [], none)
  else if c = '/' then some (.slash name attributes, none)
  else if c = '>' then some (.content, some (.opening name attributes))
  else none

/-- The place behind a character, and the piece that it ends. -/
def step : Place → Char → Option (Place × Option Piece)
  | .content, c => if c = '<' then some (.tag, none) else some (.content, some (.char c))
  | .tag, c =>
    if c = '/' then some (.closing [], none)
    else if isName c then some (.name [c], none)
    else none
  | .closing name, c =>
    if isName c then some (.closing (name ++ [c]), none)
    else if c = '>' ∧ name ≠ [] then some (.content, some (.closing name))
    else none
  | .name name, c =>
    if isName c then some (.name (name ++ [c]), none) else stepBetween name [] c
  | .between name attributes, c => stepBetween name attributes c
  | .attribute name attributes key, c =>
    if isName c then some (.attribute name attributes (key ++ [c]), none)
    else if c = '=' ∧ key ≠ [] then some (.equals name attributes key, none)
    else none
  | .equals name attributes key, c =>
    if c = '"' then some (.value name attributes key [], none) else none
  | .value name attributes key value, c =>
    if c = '"' then some (.between name (attributes ++ [(key, value)]), none)
    else if c = '<' then none
    else some (.value name attributes key (value ++ [c]), none)
  | .slash name attributes, c =>
    if c = '>' then some (.content, some (.single name attributes)) else none

/-- The pieces of a text, if it can be read and does not end within a tag. -/
def scan : Place → List Char → Option (List Piece)
  | .content, [] => some []
  | _, [] => none
  | p, c :: cs => (step p c).bind fun (p, piece) => (scan p cs).map (piece.toList ++ ·)

def ofText (s : String) : Option (List Piece) :=
  scan .content s.toList

/-- Whether every element is closed, with `stack` the names of those that are open. -/
def nested : List (List Char) → List Piece → Bool
  | stack, [] => stack.isEmpty
  | stack, .char _ :: ps => nested stack ps
  | stack, .single _ _ :: ps => nested stack ps
  | stack, .opening name _ :: ps => nested (name :: stack) ps
  | stack, .closing name :: ps => stack.head? == some name && nested stack.tail ps

/-! ### What stands in the pieces -/

/-- Whether an element of the name starts here. -/
def starts (name : String) : Piece → Bool
  | .opening n _ | .single n _ => n == name.toList
  | .char _ | .closing _ => false

def attributes : Piece → List (List Char × List Char)
  | .opening _ attributes | .single _ attributes => attributes
  | .char _ | .closing _ => []

/-- The values of an attribute, in the order of the tags. -/
def values (key : String) (ps : List Piece) : List (List Char) :=
  ps.flatMap fun p => (p.attributes.filter (·.1 == key.toList)).map (·.2)

/-- The pieces up to the end of the element around them, behind `depth` elements in it. -/
def inside : Nat → List Piece → List Piece
  | _, [] => []
  | depth, .char c :: ps => .char c :: inside depth ps
  | depth, .single name attributes :: ps => .single name attributes :: inside depth ps
  | depth, .opening name attributes :: ps => .opening name attributes :: inside (depth + 1) ps
  | 0, .closing _ :: _ => []
  | depth + 1, .closing name :: ps => .closing name :: inside depth ps

/-- The contents of the elements of a name, in the order of their opening tags. -/
def contents (name : String) : List Piece → List (List Piece)
  | [] => []
  | .opening n _ :: ps =>
    if n = name.toList then inside 0 ps :: contents name ps else contents name ps
  | _ :: ps => contents name ps

/-- The character of a piece of data. -/
def char? : Piece → Option Char
  | .char c => some c
  | _ => none

/-! ### Steps of the reader -/

variable {name key value cs : List Char} {attributes : List (List Char × List Char)}

theorem scan_cons {p q : Place} {c : Char} {piece : Option Piece}
    (h : step p c = some (q, piece)) (cs : List Char) :
    scan p (c :: cs) = (scan q cs).map (piece.toList ++ ·) := by
  rw [scan, h]
  rfl

theorem scan_cons_none {p q : Place} {c : Char} (h : step p c = some (q, none)) (cs : List Char) :
    scan p (c :: cs) = scan q cs := by
  rw [scan_cons h]
  exact Option.map_id' ..

/-- The reader takes up characters one by one where each of them leads to the next place. -/
theorem scan_run {place : List Char → Place} {p : Char → Bool}
    (hstep : ∀ taken c, p c = true → step (place taken) c = some (place (taken ++ [c]), none))
    {run : List Char} (hrun : ∀ c ∈ run, p c = true) (taken rest : List Char) :
    scan (place taken) (run ++ rest) = scan (place (taken ++ run)) rest := by
  induction run generalizing taken with
  | nil => rw [List.nil_append, List.append_nil]
  | cons c run ih =>
    rw [List.forall_mem_cons] at hrun
    rw [List.cons_append, scan_cons_none (hstep taken c hrun.1), ih hrun.2, List.append_assoc,
      List.singleton_append]

theorem scan_data {run : List Char} (h : '<' ∉ run) (rest : List Char) :
    scan .content (run ++ rest) = (scan .content rest).map (run.map .char ++ ·) := by
  induction run with
  | nil => exact (Option.map_id' ..).symm
  | cons c run ih =>
    rw [List.mem_cons, not_or] at h
    have hc : step .content c = some (.content, some (.char c)) := if_neg (Ne.symm h.1)
    rw [List.cons_append, scan_cons hc, ih h.2, Option.map_map]
    rfl

end Piece

open Piece

/-! ### Trees as characters and as pieces -/

/-- The names and values of attributes as they are written. -/
def attributePieces (attributes : List Attribute) : List (List Char × List Char) :=
  attributes.map fun a => (a.1.toList, a.2.toList)

def attributeChars (attributes : List Attribute) : List Char :=
  attributes.flatMap fun a => ' ' :: a.1.toList ++ '=' :: '"' :: a.2.toList ++ ['"']

mutual

/-- The characters of the text of a tree. -/
def chars : Markup → List Char
  | .data written => written.toList
  | .single name attributes => '<' :: name.toList ++ attributeChars attributes ++ ['/', '>']
  | .element name attributes content =>
    '<' :: name.toList ++ attributeChars attributes
      ++ '>' :: (charsOfAll content ++ '<' :: '/' :: name.toList ++ ['>'])

def charsOfAll : List Markup → List Char
  | [] => []
  | m :: ms => m.chars ++ charsOfAll ms

end

mutual

/-- What the text of a tree should read as. -/
def pieces : Markup → List Piece
  | .data written => written.toList.map .char
  | .single name attributes => [.single name.toList (attributePieces attributes)]
  | .element name attributes content =>
    .opening name.toList (attributePieces attributes)
      :: (piecesOfAll content ++ [.closing name.toList])

def piecesOfAll : List Markup → List Piece
  | [] => []
  | m :: ms => m.pieces ++ piecesOfAll ms

end

theorem toList_writeAttributes (out : String) (attributes : List Attribute) :
    (writeAttributes out attributes).toList = out.toList ++ attributeChars attributes := by
  induction attributes generalizing out with
  | nil => rw [attributeChars, List.flatMap_nil, List.append_nil]; rfl
  | cons a attributes ih =>
    rw [writeAttributes, List.foldl_cons, ← writeAttributes, ih]
    simp [attributeChars]

mutual

theorem toList_writeOnto (out : String) :
    (m : Markup) → (writeOnto out m).toList = out.toList ++ m.chars
  | .data written => by rw [writeOnto, chars, String.toList_append]
  | .single name attributes => by
    simp [writeOnto, chars, toList_writeAttributes]
  | .element name attributes content => by
    simp [writeOnto, chars, toList_writeAllOnto _ content, toList_writeAttributes]

theorem toList_writeAllOnto (out : String) :
    (ms : List Markup) → (writeAllOnto out ms).toList = out.toList ++ charsOfAll ms
  | [] => by rw [writeAllOnto, charsOfAll, List.append_nil]
  | m :: ms => by
    rw [writeAllOnto, charsOfAll, toList_writeAllOnto _ ms, toList_writeOnto out m,
      List.append_assoc]

end

theorem toList_write (m : Markup) : m.write.toList = m.chars :=
  toList_writeOnto "" m

/-! ### Clean trees -/

/-- A name of a tag or an attribute. -/
def IsName (name : String) : Prop :=
  name.toList ≠ [] ∧ ∀ c ∈ name.toList, isName c = true

-- The quantifiers are decided over the list, and not over all characters.
instance (name : String) : Decidable (IsName name) :=
  @instDecidableAnd _ _ _ (List.decidableBAll _ name.toList)

/-- A text that can be put between quotes, and between tags too. -/
def Plain (s : String) : Prop :=
  ∀ c ∈ s.toList, c ≠ '<' ∧ c ≠ '"'

instance (s : String) : Decidable (Plain s) :=
  List.decidableBAll _ s.toList

@[simp] theorem plain_append {s t : String} : Plain (s ++ t) ↔ Plain s ∧ Plain t := by
  simp only [Plain, String.toList_append, List.forall_mem_append]

theorem plain_escape (s : String) : Plain (escape s) := by
  intro c hc
  rw [escape, String.toList_ofList] at hc
  have := special_escapeChars s.toList c hc
  simp only [specials, List.mem_cons, not_or] at this
  exact ⟨this.1, this.2.2.1⟩

/-- Attributes with names and plain values. -/
def CleanAttributes (attributes : List Attribute) : Prop :=
  ∀ a ∈ attributes, IsName a.1 ∧ Plain a.2

@[simp] theorem cleanAttributes_nil : CleanAttributes [] := by
  simp [CleanAttributes]

@[simp] theorem cleanAttributes_cons {a : Attribute} {attributes : List Attribute} :
    CleanAttributes (a :: attributes) ↔ (IsName a.1 ∧ Plain a.2) ∧ CleanAttributes attributes :=
  List.forall_mem_cons

mutual

def Clean : Markup → Prop
  | .data written => '<' ∉ written.toList
  | .single name attributes => IsName name ∧ CleanAttributes attributes
  | .element name attributes content =>
    IsName name ∧ CleanAttributes attributes ∧ CleanAll content

def CleanAll : List Markup → Prop
  | [] => True
  | m :: ms => m.Clean ∧ CleanAll ms

end

theorem cleanAll_map_iff {α : Type} {f : α → Markup} {xs : List α} :
    CleanAll (xs.map f) ↔ ∀ x ∈ xs, (f x).Clean := by
  induction xs with
  | nil => simp [CleanAll]
  | cons x xs ih => rw [List.map_cons, CleanAll, ih, List.forall_mem_cons]

theorem clean_data_of_plain {s : String} (h : Plain s) : (Markup.data s).Clean := by
  intro hmem
  exact (h '<' hmem).1 rfl

theorem clean_text (s : String) : (Markup.text s).Clean :=
  clean_data_of_plain (plain_escape s)

/-! ### Reading a clean tree -/

section Reading

variable {name : List Char} {rest : List Char}

theorem scan_name {text : String} (h : IsName text) (rest : List Char) :
    scan .tag (text.toList ++ rest) = scan (.name text.toList) rest := by
  obtain ⟨hne, hall⟩ := h
  obtain ⟨c, cs, hcs⟩ := List.exists_cons_of_ne_nil hne
  rw [hcs, List.forall_mem_cons] at hall
  have hslash : c ≠ '/' := by
    rintro rfl
    exact absurd hall.1 (by decide)
  have hc : step .tag c = some (.name [c], none) := by
    simp only [step, if_neg hslash, if_pos hall.1]
  have hrun : ∀ taken c, isName c = true →
      step (.name taken) c = some (.name (taken ++ [c]), none) := fun _ _ h => if_pos h
  rw [hcs, List.cons_append, scan_cons_none hc, scan_run hrun hall.2, List.singleton_append]

theorem scan_attribute {a : Attribute} (ha : IsName a.1 ∧ Plain a.2)
    (attributes : List (List Char × List Char)) (rest : List Char) :
    scan (.attribute name attributes []) (a.1.toList ++ '=' :: '"' :: a.2.toList ++ '"' :: rest)
      = scan (.between name (attributes ++ [(a.1.toList, a.2.toList)])) rest := by
  obtain ⟨⟨hne, hname⟩, hvalue⟩ := ha
  have hkey : ∀ taken c, isName c = true → step (.attribute name attributes taken) c
      = some (.attribute name attributes (taken ++ [c]), none) := fun _ _ h => if_pos h
  have hequals : step (.attribute name attributes a.1.toList) '='
      = some (.equals name attributes a.1.toList, none) := by
    simp only [step, show isName '=' = false from rfl, Bool.false_eq_true, if_false, true_and,
      if_pos hne]
  have hquote : step (.equals name attributes a.1.toList) '"'
      = some (.value name attributes a.1.toList [], none) := rfl
  have hrun : ∀ taken c, (c != '<' && c != '"') = true →
      step (.value name attributes a.1.toList taken) c
        = some (.value name attributes a.1.toList (taken ++ [c]), none) := by
    intro taken c h
    simp only [Bool.and_eq_true, bne_iff_ne] at h
    simp only [step, if_neg h.1, if_neg h.2]
  have hend : step (.value name attributes a.1.toList a.2.toList) '"'
      = some (.between name (attributes ++ [(a.1.toList, a.2.toList)]), none) := rfl
  rw [List.append_assoc, scan_run hkey hname, List.nil_append, List.cons_append,
    scan_cons_none hequals, List.cons_append, scan_cons_none hquote,
    scan_run hrun (by simpa [Plain] using hvalue), List.nil_append, scan_cons_none hend]

theorem scan_attributes {as : List Attribute} (h : CleanAttributes as)
    (attributes : List (List Char × List Char)) (rest : List Char) :
    scan (.between name attributes) (attributeChars as ++ rest)
      = scan (.between name (attributes ++ attributePieces as)) rest := by
  induction as generalizing attributes with
  | nil => rw [attributeChars, attributePieces, List.map_nil, List.append_nil]; rfl
  | cons a as ih =>
    rw [cleanAttributes_cons] at h
    have hspace : step (.between name attributes) ' '
        = some (.attribute name attributes [], none) := rfl
    have hchars : attributeChars (a :: as) ++ rest = ' '
        :: (a.1.toList ++ '=' :: '"' :: a.2.toList ++ '"' :: (attributeChars as ++ rest)) := by
      simp [attributeChars]
    rw [hchars, scan_cons_none hspace, scan_attribute h.1, ih h.2, List.append_assoc]
    rfl

/-- Behind a name that has ended, the reader stands before the attributes. -/
theorem scan_between {c : Char} (hc : isName c = false) (rest : List Char) :
    scan (.name name) (c :: rest) = scan (.between name []) (c :: rest) := by
  rw [scan, scan]
  simp only [step, hc, Bool.false_eq_true, if_false]

/-- The reader goes through a tag up to its end. -/
theorem scan_tag {text : String} {as : List Attribute} (hname : IsName text)
    (h : CleanAttributes as) {c : Char} (hc : c ∈ ['/', '>']) (rest : List Char) :
    scan .content ('<' :: text.toList ++ attributeChars as ++ c :: rest)
      = scan (.between text.toList (attributePieces as)) (c :: rest) := by
  have hopen : step .content '<' = some (.tag, none) := rfl
  have hbetween : scan (.name text.toList) (attributeChars as ++ c :: rest)
      = scan (.between text.toList []) (attributeChars as ++ c :: rest) := by
    cases as with
    | nil =>
      rw [attributeChars, List.flatMap_nil, List.nil_append]
      refine scan_between ?_ rest
      rw [List.mem_cons, List.mem_singleton] at hc
      rcases hc with rfl | rfl <;> rfl
    | cons a as =>
      rw [attributeChars, List.flatMap_cons]
      exact scan_between rfl _
  rw [List.append_assoc, List.cons_append, scan_cons_none hopen, scan_name hname, hbetween,
    scan_attributes h, List.nil_append]

theorem scan_closing {text : String} (h : IsName text) (rest : List Char) :
    scan .content ('<' :: '/' :: text.toList ++ '>' :: rest)
      = (scan .content rest).map (.closing text.toList :: ·) := by
  have hopen : step .content '<' = some (.tag, none) := rfl
  have hslash : step .tag '/' = some (.closing [], none) := rfl
  have hrun : ∀ taken c, isName c = true →
      step (.closing taken) c = some (.closing (taken ++ [c]), none) := fun _ _ h => if_pos h
  have hend : step (.closing text.toList) '>' = some (.content, some (.closing text.toList)) := by
    simp only [step, show isName '>' = false from rfl, Bool.false_eq_true, if_false, true_and,
      if_pos h.1]
  rw [List.cons_append, List.cons_append, scan_cons_none hopen, scan_cons_none hslash,
    scan_run hrun h.2, List.nil_append, scan_cons hend]
  rfl

mutual

/-- The text of a clean tree reads as the tree, whatever follows it. -/
theorem scan_chars :
    (m : Markup) → m.Clean → ∀ rest, scan .content (m.chars ++ rest)
      = (scan .content rest).map (m.pieces ++ ·)
  | .data written, h, rest => scan_data h rest
  | .single name attributes, ⟨hname, hattributes⟩, rest => by
    have hslash : step (.between name.toList (attributePieces attributes)) '/'
        = some (.slash name.toList (attributePieces attributes), none) := rfl
    have hend : step (.slash name.toList (attributePieces attributes)) '>'
        = some (.content, some (.single name.toList (attributePieces attributes))) := rfl
    have hchars : (Markup.single name attributes).chars ++ rest
        = '<' :: name.toList ++ attributeChars attributes ++ '/' :: '>' :: rest := by
      simp [chars]
    rw [hchars, scan_tag hname hattributes (by simp), scan_cons_none hslash, scan_cons hend]
    rfl
  | .element name attributes content, ⟨hname, hattributes, hcontent⟩, rest => by
    have hend : step (.between name.toList (attributePieces attributes)) '>'
        = some (.content, some (.opening name.toList (attributePieces attributes))) := rfl
    have hchars : (Markup.element name attributes content).chars ++ rest
        = '<' :: name.toList ++ attributeChars attributes
          ++ '>' :: (charsOfAll content ++ ('<' :: '/' :: name.toList ++ '>' :: rest)) := by
      simp [chars]
    rw [hchars, scan_tag hname hattributes (by simp), scan_cons hend,
      scan_charsOfAll content hcontent, scan_closing hname, Option.map_map, Option.map_map]
    simp [pieces, Function.comp_def]

theorem scan_charsOfAll :
    (ms : List Markup) → CleanAll ms → ∀ rest, scan .content (charsOfAll ms ++ rest)
      = (scan .content rest).map (piecesOfAll ms ++ ·)
  | [], _, rest => by
    rw [charsOfAll, List.nil_append]
    exact (Option.map_id' ..).symm
  | m :: ms, ⟨hm, hms⟩, rest => by
    rw [charsOfAll, List.append_assoc, scan_chars m hm, scan_charsOfAll ms hms, Option.map_map]
    simp [piecesOfAll, Function.comp_def]

end

end Reading

theorem ofText_write {m : Markup} (h : m.Clean) : ofText m.write = some m.pieces := by
  have hscan := scan_chars m h []
  rw [List.append_nil] at hscan
  rw [ofText, toList_write, hscan]
  simp [scan]

end TreeAtlas.Markup
