/-!
# Forests

A sequence of trees, given by the label of its first tree, the forest below that label, and the
other trees.  Documents and what is reachable in a tree of references both unfold to forests, which
are compared by their labels: renaming labels keeps the shape, so it keeps the size, the number of
levels and the order of entries.
-/

namespace TreeAtlas

inductive Forest (α : Type) where
  | nil
  | cons (label : α) (below rest : Forest α)

/-- A label with its depth and the number of labels right below it. -/
structure Entry (α : Type) where
  label : α
  depth : Nat
  childCount : Nat

namespace Forest

variable {α β : Type}

/-- Number of labels: each tree counts one and what is below it. -/
def size : Forest α → Nat
  | nil => 0
  | cons _ below rest => 1 + below.size + rest.size

/-- Number of trees. -/
def width : Forest α → Nat
  | nil => 0
  | cons _ _ rest => rest.width + 1

/-- Number of labels on the longest way down. -/
def levels : Forest α → Nat
  | nil => 0
  | cons _ below rest => max (below.levels + 1) rest.levels

/-- Number of edges on the longest way down. -/
def height (f : Forest α) : Nat :=
  f.levels - 1

/-- The labels in document order. -/
def entries (depth : Nat) : Forest α → List (Entry α)
  | nil => []
  | cons a below rest =>
    ⟨a, depth, below.width⟩ :: (below.entries (depth + 1) ++ rest.entries depth)

def map (g : α → β) : Forest α → Forest β
  | nil => nil
  | cons a below rest => cons (g a) (below.map g) (rest.map g)

/-- All labels have the property. -/
def All (p : α → Prop) : Forest α → Prop
  | nil => True
  | cons a below rest => p a ∧ below.All p ∧ rest.All p

@[simp] theorem size_nil : (nil : Forest α).size = 0 := rfl

@[simp] theorem size_cons (a : α) (below rest : Forest α) :
    (cons a below rest).size = 1 + below.size + rest.size := rfl

@[simp] theorem levels_nil : (nil : Forest α).levels = 0 := rfl

@[simp] theorem levels_cons (a : α) (below rest : Forest α) :
    (cons a below rest).levels = max (below.levels + 1) rest.levels := rfl

@[simp] theorem width_map (g : α → β) (f : Forest α) : (f.map g).width = f.width := by
  induction f with
  | nil => rfl
  | cons a below rest _ ih => simp only [map, width, ih]

@[simp] theorem size_map (g : α → β) (f : Forest α) : (f.map g).size = f.size := by
  induction f with
  | nil => rfl
  | cons a below rest ihb ihr => simp only [map, size, ihb, ihr]

@[simp] theorem levels_map (g : α → β) (f : Forest α) : (f.map g).levels = f.levels := by
  induction f with
  | nil => rfl
  | cons a below rest ihb ihr => simp only [map, levels, ihb, ihr]

theorem entries_map (g : α → β) (f : Forest α) (depth : Nat) :
    (f.map g).entries depth
      = (f.entries depth).map fun e => ⟨g e.label, e.depth, e.childCount⟩ := by
  induction f generalizing depth with
  | nil => rfl
  | cons a below rest ihb ihr =>
    simp only [map, entries, width_map, ihb, ihr, List.map_cons, List.map_append]

section SameLabels

variable {γ : Type} {g : α → γ} {g' : β → γ} {f : Forest α} {f' : Forest β}

theorem size_eq_of_map_eq (h : f.map g = f'.map g') : f.size = f'.size := by
  rw [← size_map g f, h, size_map]

theorem height_eq_of_map_eq (h : f.map g = f'.map g') : f.height = f'.height := by
  rw [height, ← levels_map g f, h, levels_map, height]

end SameLabels

end Forest

end TreeAtlas
