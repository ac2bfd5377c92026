import TreeAtlas.Proofs.Markup.Pieces

/-!
# Elements of written trees

The pieces of a tree close every element that they open, so a tree in front of other pieces changes
nothing for them: not which elements are open (`nested_pieces`) and not where the element around
them ends (`inside_pieces`).  So the text of a clean tree is balanced (`balanced_write`), and the
contents of the elements of a name stand among the pieces as they stand in the tree
(`contents_pieces`).  Text in an element reads back as it was before it was escaped (`text?_text`).
-/

namespace TreeAtlas.Markup

open Piece

/-- A text can be read, and every element in it is closed. -/
def Balanced (s : String) : Prop :=
  ∃ ps, ofText s = some ps ∧ nested [] ps = true

/-! ### Elements of trees -/

mutual

/-- The contents of the elements that are wanted, in the order of their opening tags. -/
def contents (wanted : String → List Attribute → Bool) : Markup → List (List Markup)
  | .data _ => []
  | .single _ _ => []
  | .element name attributes content =>
    (if wanted name attributes then [content] else []) ++ contentsOfAll wanted content

def contentsOfAll (wanted : String → List Attribute → Bool) : List Markup → List (List Markup)
  | [] => []
  | m :: ms => m.contents wanted ++ contentsOfAll wanted ms

end

theorem contentsOfAll_eq (wanted : String → List Attribute → Bool) (ms : List Markup) :
    contentsOfAll wanted ms = ms.flatMap (contents wanted) := by
  induction ms with
  | nil => rfl
  | cons m ms ih => rw [contentsOfAll, ih, List.flatMap_cons]

mutual

/-- The attributes and the contents of the elements that are wanted. -/
def elements (wanted : String → List Attribute → Bool) :
    Markup → List (List Attribute × List Markup)
  | .data _ => []
  | .single _ _ => []
  | .element name attributes content =>
    (if wanted name attributes then [(attributes, content)] else [])
      ++ elementsOfAll wanted content

def elementsOfAll (wanted : String → List Attribute → Bool) :
    List Markup → List (List Attribute × List Markup)
  | [] => []
  | m :: ms => m.elements wanted ++ elementsOfAll wanted ms

end

theorem elementsOfAll_eq (wanted : String → List Attribute → Bool) (ms : List Markup) :
    elementsOfAll wanted ms = ms.flatMap (elements wanted) := by
  induction ms with
  | nil => rfl
  | cons m ms ih => rw [elementsOfAll, ih, List.flatMap_cons]

/-- Elements of a name. -/
def named (name : String) : String → List Attribute → Bool :=
  fun n _ => n == name

/-! ### Trees in front of pieces -/

theorem nested_data (stack : List (List Char)) (cs : List Char) (ps : List Piece) :
    nested stack (cs.map .char ++ ps) = nested stack ps := by
  induction cs with
  | nil => rfl
  | cons c cs ih => exact ih

mutual

theorem nested_pieces (stack : List (List Char)) (ps : List Piece) :
    (m : Markup) → nested stack (m.pieces ++ ps) = nested stack ps
  | .data written => nested_data stack written.toList ps
  | .single _ _ => rfl
  | .element name attributes content => by
    rw [pieces, List.cons_append, List.append_assoc, nested, nested_piecesOfAll _ _ content]
    simp [nested]

theorem nested_piecesOfAll (stack : List (List Char)) (ps : List Piece) :
    (ms : List Markup) → nested stack (piecesOfAll ms ++ ps) = nested stack ps
  | [] => rfl
  | m :: ms => by
    rw [piecesOfAll, List.append_assoc, nested_pieces stack _ m, nested_piecesOfAll stack ps ms]

end

theorem inside_data (depth : Nat) (cs : List Char) (ps : List Piece) :
    inside depth (cs.map .char ++ ps) = cs.map .char ++ inside depth ps := by
  induction cs with
  | nil => rfl
  | cons c cs ih => exact congrArg (_ :: ·) ih

mutual

theorem inside_pieces (depth : Nat) (ps : List Piece) :
    (m : Markup) → inside depth (m.pieces ++ ps) = m.pieces ++ inside depth ps
  | .data written => inside_data depth written.toList ps
  | .single _ _ => rfl
  | .element name attributes content => by
    simp only [pieces, List.cons_append, List.append_assoc, List.nil_append, inside,
      inside_piecesOfAll _ _ content]

theorem inside_piecesOfAll (depth : Nat) (ps : List Piece) :
    (ms : List Markup) → inside depth (piecesOfAll ms ++ ps) = piecesOfAll ms ++ inside depth ps
  | [] => rfl
  | m :: ms => by
    rw [piecesOfAll, List.append_assoc, List.append_assoc, inside_pieces depth _ m,
      inside_piecesOfAll depth ps ms]

end

theorem contents_data (name : String) (cs : List Char) (ps : List Piece) :
    Piece.contents name (cs.map .char ++ ps) = Piece.contents name ps := by
  induction cs with
  | nil => rfl
  | cons c cs ih => exact ih

mutual

theorem contents_pieces (name : String) (ps : List Piece) :
    (m : Markup) → Piece.contents name (m.pieces ++ ps)
      = (m.contents (named name)).map piecesOfAll ++ Piece.contents name ps
  | .data written => contents_data name written.toList ps
  | .single _ _ => rfl
  | .element n attributes content => by
    have hinside : inside 0 (piecesOfAll content ++ .closing n.toList :: ps)
        = piecesOfAll content := by
      rw [inside_piecesOfAll, inside, List.append_nil]
    have hclosing : Piece.contents name (.closing n.toList :: ps) = Piece.contents name ps := rfl
    rw [pieces, List.cons_append, List.append_assoc, List.singleton_append, Piece.contents,
      hinside, contents_piecesOfAll name _ content, hclosing, contents]
    by_cases hn : n = name
    · simp [named, hn]
    · simp [named, hn, String.toList_inj]

theorem contents_piecesOfAll (name : String) (ps : List Piece) :
    (ms : List Markup) → Piece.contents name (piecesOfAll ms ++ ps)
      = (contentsOfAll (named name) ms).map piecesOfAll ++ Piece.contents name ps
  | [] => rfl
  | m :: ms => by
    rw [piecesOfAll, List.append_assoc, contents_pieces name _ m,
      contents_piecesOfAll name ps ms, contentsOfAll, List.map_append, List.append_assoc]

end

/-! ### Texts of trees -/

theorem nested_nil_pieces (m : Markup) : nested [] m.pieces = true := by
  rw [← List.append_nil m.pieces, nested_pieces]
  rfl

theorem balanced_write {m : Markup} (h : m.Clean) : Balanced m.write :=
  ⟨m.pieces, ofText_write h, nested_nil_pieces m⟩

/-- A tag within a value is no value, and elements that overlap are not balanced. -/
example : ofText "<a b=\"<c/>\"/>" = none
    ∧ (ofText "<a><b></a></b>").map (nested []) = some false := by
  decide +kernel

theorem contents_pieces_self (name : String) (m : Markup) :
    Piece.contents name m.pieces = (m.contents (named name)).map piecesOfAll := by
  have h := contents_pieces name [] m
  rwa [List.append_nil, Piece.contents, List.append_nil] at h

/-! ### Elements in texts -/

section Texts

variable {wanted : String → List Attribute → Bool} {content : List Markup}

mutual

theorem exists_chars_of_mem_contents :
    (m : Markup) → content ∈ m.contents wanted → ∃ name attributes before after,
      wanted name attributes = true
        ∧ m.chars = before ++ (Markup.element name attributes content).chars ++ after
  | .data _, h => nomatch h
  | .single _ _, h => nomatch h
  | .element name attributes inner, h => by
    rw [contents, List.mem_append] at h
    rcases h with h | h
    · split at h
      · rename_i hwanted
        rw [List.mem_singleton] at h
        exact ⟨name, attributes, [], [], hwanted, by rw [h, List.nil_append, List.append_nil]⟩
      · cases h
    · obtain ⟨n, as, before, after, hn, hchars⟩ := exists_chars_of_mem_contentsOfAll inner h
      refine ⟨n, as, '<' :: name.toList ++ attributeChars attributes ++ '>' :: before,
        after ++ '<' :: '/' :: name.toList ++ ['>'], hn, ?_⟩
      rw [chars, hchars]
      simp only [List.append_assoc, List.cons_append]

theorem exists_chars_of_mem_contentsOfAll :
    (ms : List Markup) → content ∈ contentsOfAll wanted ms → ∃ name attributes before after,
      wanted name attributes = true
        ∧ charsOfAll ms = before ++ (Markup.element name attributes content).chars ++ after
  | [], h => nomatch h
  | m :: ms, h => by
    rw [contentsOfAll, List.mem_append] at h
    rcases h with h | h
    · obtain ⟨n, as, before, after, hn, hchars⟩ := exists_chars_of_mem_contents m h
      refine ⟨n, as, before, after ++ charsOfAll ms, hn, ?_⟩
      rw [charsOfAll, hchars, List.append_assoc]
    · obtain ⟨n, as, before, after, hn, hchars⟩ := exists_chars_of_mem_contentsOfAll ms h
      refine ⟨n, as, m.chars ++ before, after, hn, ?_⟩
      rw [charsOfAll, hchars, List.append_assoc, List.append_assoc, List.append_assoc]

end

/-- An element of a tree is written in the text of the tree. -/
theorem exists_write_of_mem_contents {m : Markup} (h : content ∈ m.contents wanted) :
    ∃ name attributes before after, wanted name attributes = true
      ∧ m.write = before ++ (Markup.element name attributes content).write ++ after := by
  obtain ⟨name, attributes, before, after, hwanted, hchars⟩ := exists_chars_of_mem_contents m h
  refine ⟨name, attributes, .ofList before, .ofList after, hwanted, ?_⟩
  rw [← String.toList_inj, String.toList_append, String.toList_append, toList_write, toList_write,
    String.toList_ofList, String.toList_ofList, hchars]

end Texts

theorem write_element_singleton (name : String) (attributes : List Attribute) (m : Markup) :
    (Markup.element name attributes [m]).write
      = writeAttributes ("<" ++ name) attributes ++ ">" ++ m.write ++ "</" ++ name ++ ">" := by
  rw [← String.toList_inj, toList_write]
  simp [chars, charsOfAll, toList_writeAttributes, toList_write]

/-! ### What elements show -/

/-- What a written value or written data shows. -/
def unescaped (cs : List Char) : String :=
  String.ofList (unescapeChars cs)

/-- What an element shows that contains nothing but data. -/
def Piece.text? (ps : List Piece) : Option String :=
  (ps.mapM char?).map unescaped

theorem unescaped_escape (s : String) : unescaped (escape s).toList = s := by
  rw [unescaped, escape, String.toList_ofList, unescapeChars_escapeChars, String.ofList_toList]

theorem mapM_char? (cs : List Char) : (cs.map Piece.char).mapM char? = some cs := by
  induction cs with
  | nil => rfl
  | cons c cs ih => simp [ih, char?]

/-- Data that has no ampersand is shown as it is, and text behind it as it was. -/
theorem text?_data_text {s : String} (h : '&' ∉ s.toList) (t : String) :
    Piece.text? (piecesOfAll [.data s, .text t]) = some (s ++ t) := by
  have hpieces : piecesOfAll [.data s, .text t]
      = (s.toList ++ escapeChars t.toList).map Piece.char := by
    simp [piecesOfAll, pieces, text, escape]
  rw [hpieces, Piece.text?, mapM_char?, Option.map_some, unescaped, unescapeChars_append h,
    unescapeChars_escapeChars, ← String.toList_append, String.ofList_toList]

theorem text?_text (t : String) : Piece.text? (piecesOfAll [.text t]) = some t := by
  have h : piecesOfAll [.text t] = piecesOfAll [.data "", .text t] := by
    simp [piecesOfAll, pieces]
  rw [h, text?_data_text (by simp), String.empty_append]

/-! ### Elements and values of many trees -/

@[simp] theorem countP_starts_data (name : String) (cs : List Char) :
    (cs.map Piece.char).countP (starts name) = 0 := by
  simp [List.countP_eq_zero, starts]

@[simp] theorem values_nil (key : String) : values key [] = [] := rfl

@[simp] theorem values_cons (key : String) (p : Piece) (ps : List Piece) :
    values key (p :: ps)
      = (p.attributes.filter (·.1 == key.toList)).map (·.2) ++ values key ps :=
  List.flatMap_cons ..

@[simp] theorem values_append (key : String) (ps qs : List Piece) :
    values key (ps ++ qs) = values key ps ++ values key qs :=
  List.flatMap_append ..

@[simp] theorem values_data (key : String) (cs : List Char) :
    values key (cs.map Piece.char) = [] := by
  simp [values, Piece.attributes]

section Many

variable {α : Type} {f : α → Markup} {xs : List α}

theorem countP_piecesOfAll_map {p : Piece → Bool} {k : Nat}
    (h : ∀ x, (f x).pieces.countP p = k) : (piecesOfAll (xs.map f)).countP p = xs.length * k := by
  induction xs with
  | nil => simp [piecesOfAll]
  | cons x xs ih =>
    rw [List.map_cons, piecesOfAll, List.countP_append, ih, h, List.length_cons, Nat.succ_mul,
      Nat.add_comm]

theorem values_piecesOfAll_map {key : String} {g : α → List (List Char)}
    (h : ∀ x, values key (f x).pieces = g x) :
    values key (piecesOfAll (xs.map f)) = xs.flatMap g := by
  induction xs with
  | nil => rfl
  | cons x xs ih => rw [List.map_cons, piecesOfAll, values_append, ih, h, List.flatMap_cons]

theorem contentsOfAll_map {wanted : String → List Attribute → Bool} {g : α → List (List Markup)}
    (h : ∀ x, (f x).contents wanted = g x) :
    contentsOfAll wanted (xs.map f) = xs.flatMap g := by
  rw [contentsOfAll_eq, List.flatMap_map]
  exact congrArg (List.flatMap · xs) (funext h)

end Many

end TreeAtlas.Markup
