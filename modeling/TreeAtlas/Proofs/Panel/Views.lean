import TreeAtlas.Panel.Views

/-!
# Views answer as if they kept nothing

Both views keep a layout beside the document it belongs to (`Kept`), and differ in what they compute
from a tree and in what they show without one.  What is kept is current if it is what would be
computed afresh, and a view that is current answers every update with what is computed afresh,
whether it keeps its layout or not (`update_eq`).

A view tells a document by its stamp, so all of this is said of documents that agree with the one
that is held: of the same stamp, they are the same document.
-/

namespace TreeAtlas

/-- Documents with one stamp are one document. -/
def Document.Agree (held next : Option Document) : Prop :=
  ∀ d ∈ held, ∀ e ∈ next, d.stamp = e.stamp → d = e

theorem Document.eq_of_unchanged {held next : Option Document} (h : Document.Agree held next)
    (hu : Document.unchanged held next = true) : held = next := by
  rcases held with _ | d <;> rcases next with _ | e
  · rfl
  · cases hu
  · cases hu
  · rw [h d rfl e rfl (by simpa [Document.unchanged] using hu)]

/-- A layout and the document it belongs to. -/
structure Kept (L : Type) where
  document : Option Document
  layout : L

namespace Kept

variable {L : Type} (layoutOf : Ast → Except LayoutError L) (empty : L)

/-- What is computed for a document. -/
def fresh : Option Document → Except LayoutError L
  | none => .ok empty
  | some d => layoutOf d.ast

/-- What is kept of an outcome. -/
def settle (next : Option Document) : Except LayoutError L → Kept L
  | .ok layout => ⟨next, layout⟩
  | .error _ => ⟨none, empty⟩

def update (k : Kept L) (next : Option Document) : Kept L × Except LayoutError L :=
  if Document.unchanged k.document next then (k, .ok k.layout)
  else (settle empty next (fresh layoutOf empty next), fresh layoutOf empty next)

def Current (k : Kept L) : Prop :=
  fresh layoutOf empty k.document = .ok k.layout

variable {layoutOf empty} {k : Kept L} {next : Option Document}

@[simp] theorem fresh_some (d : Document) :
    fresh layoutOf empty (some d) = layoutOf d.ast := rfl

/-- An update of what is current computes nothing else than a computation from scratch. -/
theorem update_eq (hk : k.Current layoutOf empty) (ha : Document.Agree k.document next) :
    k.update layoutOf empty next
      = (settle empty next (fresh layoutOf empty next), fresh layoutOf empty next) := by
  rw [update]
  split
  · rename_i hu
    have hfresh : fresh layoutOf empty next = .ok k.layout :=
      Document.eq_of_unchanged ha hu ▸ hk
    rw [hfresh, settle, ← Document.eq_of_unchanged ha hu]
  · rfl

theorem current_settle (next : Option Document) :
    (settle empty next (fresh layoutOf empty next)).Current layoutOf empty := by
  cases h : fresh layoutOf empty next with
  | ok layout => exact h
  | error e => rfl

theorem document_settle {outcome : Except LayoutError L} {d e : Document}
    (h : (settle empty (some d) outcome).document = some e) : d = e := by
  cases outcome with
  | ok layout => exact Option.some.inj h
  | error e => cases h

/-- What is held comes from the last update or from before. -/
theorem document_update (k : Kept L) (next : Option Document) :
    ∀ d ∈ (k.update layoutOf empty next).1.document, d ∈ k.document ∨ d ∈ next := by
  intro d hd
  rw [update] at hd
  split at hd
  · exact .inl hd
  · cases h : fresh layoutOf empty next with
    | ok layout =>
      rw [h] at hd
      exact .inr hd
    | error e =>
      rw [h] at hd
      cases hd

end Kept

/-! ### The bubble graph -/

namespace BubbleView

def kept (v : BubbleView) : Kept BubbleLayout :=
  ⟨v.document, v.layout⟩

/-- An update with the outcome of a layout, and nothing else of the view changed. -/
theorem update_kept (v : BubbleView) (next : Option Document) :
    ((v.update next).value.1.kept, (v.update next).value.2)
        = v.kept.update (fun ast => (layoutBubbles ast v.config).outcome.value)
            (.empty v.config) next
      ∧ (v.update next).value.1.config = v.config := by
  unfold update Kept.update
  rw [show v.kept.document = v.document from rfl]
  by_cases hu : Document.unchanged v.document next = true
  · rw [if_pos hu, if_pos hu]
    exact ⟨rfl, rfl⟩
  · rw [if_neg hu, if_neg hu]
    cases next with
    | none => exact ⟨rfl, rfl⟩
    | some d =>
      simp only [Kept.fresh]
      cases (layoutBubbles d.ast v.config).outcome.value with
      | ok layout => exact ⟨rfl, rfl⟩
      | error e => exact ⟨rfl, rfl⟩

theorem document_update (v : BubbleView) (next : Option Document) :
    ∀ d ∈ (v.update next).value.1.document, d ∈ v.document ∨ d ∈ next := by
  intro d (hd : d ∈ (v.update next).value.1.kept.document)
  have hkept : (v.update next).value.1.kept = _ := congrArg Prod.fst (v.update_kept next).1
  rw [hkept] at hd
  exact v.kept.document_update next d hd

end BubbleView

/-! ### The outline -/

namespace OutlineView

def kept (v : OutlineView) : Kept Outline :=
  ⟨v.document, v.layout⟩

theorem update_kept (v : OutlineView) (lib : FontLibrary) (next : Option Document)
    (family : String) :
    ((v.update lib next family).value.1.kept, (v.update lib next family).value.2)
        = v.kept.update (fun ast => (layoutOutline lib ast v.config v.limits family).outcome.value)
            (.empty v.config) next
      ∧ (v.update lib next family).value.1.config = v.config
      ∧ (v.update lib next family).value.1.limits = v.limits := by
  unfold update Kept.update
  rw [show v.kept.document = v.document from rfl]
  by_cases hu : Document.unchanged v.document next = true
  · rw [if_pos hu, if_pos hu]
    exact ⟨rfl, rfl, rfl⟩
  · rw [if_neg hu, if_neg hu]
    cases next with
    | none => exact ⟨rfl, rfl, rfl⟩
    | some d =>
      simp only [Kept.fresh]
      cases (layoutOutline lib d.ast v.config v.limits family).outcome.value with
      | ok layout => exact ⟨rfl, rfl, rfl⟩
      | error e => exact ⟨rfl, rfl, rfl⟩

theorem document_update (v : OutlineView) (lib : FontLibrary) (next : Option Document)
    (family : String) :
    ∀ d ∈ (v.update lib next family).value.1.document, d ∈ v.document ∨ d ∈ next := by
  intro d (hd : d ∈ (v.update lib next family).value.1.kept.document)
  have hkept : (v.update lib next family).value.1.kept = _ :=
    congrArg Prod.fst (v.update_kept lib next family).1
  rw [hkept] at hd
  exact v.kept.document_update next d hd

end OutlineView

end TreeAtlas
