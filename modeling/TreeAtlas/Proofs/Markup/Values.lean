import TreeAtlas.Proofs.Markup.Elements

/-!
# Values in written markup

Whatever a text is, what is read of it as a value has no quote and starts no tag
(`plain_of_ofText`).  So a value with such a character is not read as it was given.  A tree whose
values are left out keeps its tags and its data (`bare`), and a tree is clean if it is without its
values and they are plain (`clean_iff`).  So the text of a tree reads with the tags of a clean tree
that is the same without values, and with its own values, exactly if it is clean too
(`readsLike_iff`).
-/

namespace TreeAtlas.Markup

open Piece

/-- Characters that can be put between quotes, and between tags too. -/
def PlainChars (cs : List Char) : Prop :=
  ∀ c ∈ cs, c ≠ '<' ∧ c ≠ '"'

/-! ### Tags and values of pieces -/

namespace Piece

/-- A tag without its values. -/
def bare? : Piece → Option Piece
  | .char _ => none
  | .opening name attributes => some (.opening name (attributes.map fun a => (a.1, [])))
  | .single name attributes => some (.single name (attributes.map fun a => (a.1, [])))
  | .closing name => some (.closing name)

/-- The tags with the names of their attributes, in order. -/
def tags (ps : List Piece) : List Piece :=
  ps.filterMap bare?

/-- The values of all attributes, in order. -/
def given (ps : List Piece) : List (List Char) :=
  ps.flatMap fun p => p.attributes.map Prod.snd

@[simp] theorem tags_data (cs : List Char) : tags (cs.map Piece.char) = [] := by
  simp [tags, bare?]

@[simp] theorem tags_append (ps qs : List Piece) : tags (ps ++ qs) = tags ps ++ tags qs :=
  List.filterMap_append ..

@[simp] theorem given_nil : given [] = [] := rfl

@[simp] theorem given_cons (p : Piece) (ps : List Piece) :
    given (p :: ps) = p.attributes.map Prod.snd ++ given ps :=
  List.flatMap_cons ..

@[simp] theorem given_data (cs : List Char) : given (cs.map Piece.char) = [] := by
  simp [given, Piece.attributes]

@[simp] theorem given_append (ps qs : List Piece) : given (ps ++ qs) = given ps ++ given qs :=
  List.flatMap_append ..

/-! ### Values are plain -/

/-- The values that the reader holds, the one that it is reading among them. -/
def Place.held : Place → List (List Char)
  | .between _ attributes | .attribute _ attributes _ | .equals _ attributes _
  | .slash _ attributes => attributes.map Prod.snd
  | .value _ attributes _ taken => attributes.map Prod.snd ++ [taken]
  | .content | .tag | .closing _ | .name _ => []

section Reader

variable {p q : Place} {c : Char} {piece : Option Piece}

theorem plain_stepBetween {name : List Char} {attributes : List (List Char × List Char)}
    (h : ∀ v ∈ attributes.map Prod.snd, PlainChars v)
    (hstep : stepBetween name attributes c = some (q, piece)) :
    (∀ v ∈ q.held, PlainChars v) ∧ ∀ v ∈ given piece.toList, PlainChars v := by
  unfold stepBetween at hstep
  split at hstep
  · cases hstep
    exact ⟨h, by simp⟩
  split at hstep
  · cases hstep
    exact ⟨h, by simp⟩
  split at hstep
  · cases hstep
    exact ⟨by simp [Place.held], by simpa [Piece.attributes] using h⟩
  · cases hstep

/-- A step takes nothing into a value that is not plain. -/
theorem plain_step (h : ∀ v ∈ p.held, PlainChars v) (hstep : step p c = some (q, piece)) :
    (∀ v ∈ q.held, PlainChars v) ∧ ∀ v ∈ given piece.toList, PlainChars v := by
  cases p with
  | content | tag | closing name =>
    simp only [step] at hstep
    (repeat' split at hstep) <;> cases hstep <;> simp [Place.held, Piece.attributes]
  | name name =>
    simp only [step] at hstep
    split at hstep
    · cases hstep
      simp [Place.held]
    · exact plain_stepBetween (by simp) hstep
  | between name attributes => exact plain_stepBetween h hstep
  | «attribute» name attributes key =>
    simp only [step] at hstep
    (repeat' split at hstep) <;> cases hstep <;> exact ⟨h, by simp⟩
  | equals name attributes key =>
    simp only [step] at hstep
    split at hstep <;> cases hstep
    refine ⟨?_, by simp⟩
    rw [Place.held, List.forall_mem_append]
    exact ⟨h, by simp [PlainChars]⟩
  | value name attributes key value =>
    rw [Place.held, List.forall_mem_append, List.forall_mem_singleton] at h
    simp only [step] at hstep
    split at hstep
    · cases hstep
      simpa [Place.held, List.forall_mem_append, or_imp, forall_and] using h
    split at hstep
    · cases hstep
    · rename_i hquote hless
      cases hstep
      refine ⟨?_, by simp⟩
      rw [Place.held, List.forall_mem_append, List.forall_mem_singleton]
      refine ⟨h.1, fun d hd => ?_⟩
      rcases List.mem_append.1 hd with hd | hd
      · exact h.2 d hd
      · rw [List.mem_singleton.1 hd]
        exact ⟨hless, hquote⟩
  | slash name attributes =>
    simp only [step] at hstep
    split at hstep <;> cases hstep
    exact ⟨by simp [Place.held], by simpa [Piece.attributes, Place.held] using h⟩

theorem plain_scan {cs : List Char} {ps : List Piece} (h : ∀ v ∈ p.held, PlainChars v)
    (hscan : scan p cs = some ps) : ∀ v ∈ given ps, PlainChars v := by
  induction cs generalizing p ps with
  | nil =>
    cases p <;> cases hscan
    simp
  | cons c cs ih =>
    rw [scan, Option.bind_eq_some_iff] at hscan
    obtain ⟨⟨q, piece⟩, hstep, hrest⟩ := hscan
    obtain ⟨qs, hqs, rfl⟩ := Option.map_eq_some_iff.1 hrest
    obtain ⟨hheld, hpiece⟩ := plain_step h hstep
    rw [given_append, List.forall_mem_append]
    exact ⟨hpiece, ih hheld hqs⟩

/-- What is read as a value is plain. -/
theorem plain_of_ofText {s : String} {ps : List Piece} (h : ofText s = some ps) :
    ∀ v ∈ given ps, PlainChars v :=
  plain_scan (by simp [Place.held]) h

end Reader

end Piece

/-! ### Trees without values -/

def bareAttributes (attributes : List Attribute) : List Attribute :=
  attributes.map fun a => (a.1, "")

mutual

/-- A tree without its values. -/
def bare : Markup → Markup
  | .data written => .data written
  | .single name attributes => .single name (bareAttributes attributes)
  | .element name attributes content =>
    .element name (bareAttributes attributes) (bareAll content)

def bareAll : List Markup → List Markup
  | [] => []
  | m :: ms => m.bare :: bareAll ms

end

theorem bareAll_eq (ms : List Markup) : bareAll ms = ms.map bare := by
  induction ms with
  | nil => rfl
  | cons m ms ih => rw [bareAll, ih, List.map_cons]

theorem attributePieces_bare (attributes : List Attribute) :
    attributePieces (bareAttributes attributes)
      = (attributePieces attributes).map fun a => (a.1, []) := by
  simp [attributePieces, bareAttributes]

mutual

theorem tags_bare : (m : Markup) → tags m.bare.pieces = tags m.pieces
  | .data _ => rfl
  | .single name attributes => by
    simp [bare, pieces, tags, bare?, attributePieces_bare]
  | .element name attributes content => by
    have hcontent := tags_bareAll content
    simp only [tags] at hcontent
    simp [bare, pieces, tags, bare?, attributePieces_bare, hcontent]

theorem tags_bareAll : (ms : List Markup) → tags (piecesOfAll (bareAll ms)) = tags (piecesOfAll ms)
  | [] => rfl
  | m :: ms => by
    rw [bareAll, piecesOfAll, piecesOfAll, tags_append, tags_append, tags_bare m, tags_bareAll ms]

end

theorem cleanAttributes_iff {attributes : List Attribute} : CleanAttributes attributes
    ↔ CleanAttributes (bareAttributes attributes)
      ∧ ∀ v ∈ (attributePieces attributes).map Prod.snd, PlainChars v := by
  have hempty : Plain "" := by decide
  simp only [CleanAttributes, bareAttributes, attributePieces, List.map_map, List.forall_mem_map,
    Function.comp_apply, hempty, and_true]
  exact ⟨fun h => ⟨fun a ha => (h a ha).1, fun a ha => (h a ha).2⟩,
    fun h a ha => ⟨h.1 a ha, h.2 a ha⟩⟩

mutual

/-- A tree is clean if it is without its values, and they are plain. -/
theorem clean_iff : (m : Markup) →
    (m.Clean ↔ m.bare.Clean ∧ ∀ v ∈ given m.pieces, PlainChars v)
  | .data written => by simp [bare, pieces, Clean]
  | .single name attributes => by
    rw [Clean, cleanAttributes_iff, bare, Clean, and_assoc]
    simp [pieces, Piece.attributes]
  | .element name attributes content => by
    rw [Clean, cleanAttributes_iff, cleanAll_iff content, bare, Clean]
    simp only [pieces, given_cons, given_append, given_nil, Piece.attributes, List.map_nil,
      List.append_nil, List.forall_mem_append]
    rw [and_and_and_comm, ← and_assoc]

theorem cleanAll_iff : (ms : List Markup) →
    (CleanAll ms ↔ CleanAll (bareAll ms) ∧ ∀ v ∈ given (piecesOfAll ms), PlainChars v)
  | [] => by simp [bareAll, CleanAll, piecesOfAll]
  | m :: ms => by
    rw [CleanAll, clean_iff m, cleanAll_iff ms, bareAll, CleanAll, piecesOfAll, given_append,
      List.forall_mem_append, and_and_and_comm]

end

/-! ### Reading one tree like another -/

/-- The text of a tree is balanced and reads with the tags and the names of attributes of another
one, and with the values that were given to its own: none of them ends before its end or adds to the
tags. -/
def ReadsLike (m model : Markup) : Prop :=
  ∃ ps qs, ofText m.write = some ps ∧ ofText model.write = some qs ∧ nested [] ps = true
    ∧ tags ps = tags qs ∧ given ps = given m.pieces

theorem readsLike_iff {m model : Markup} (hmodel : model.Clean) (hbare : m.bare = model.bare) :
    m.ReadsLike model ↔ m.Clean := by
  constructor
  · rintro ⟨ps, -, hread, -, -, -, hgiven⟩
    rw [clean_iff, hbare, ← hgiven]
    exact ⟨((clean_iff model).1 hmodel).1, plain_of_ofText hread⟩
  · intro hm
    refine ⟨m.pieces, model.pieces, ofText_write hm, ofText_write hmodel, nested_nil_pieces m, ?_,
      rfl⟩
    rw [← tags_bare m, hbare, tags_bare model]

end TreeAtlas.Markup
