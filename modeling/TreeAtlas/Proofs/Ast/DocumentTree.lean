import TreeAtlas.Ast.Document
import TreeAtlas.Proofs.Forest
import Mathlib.Algebra.GroupWithZero.Nat

/-!
# The tree that a document stands for

A document unfolds by recursion on its values, without an array: an entry that counts as present
stands for a tree, whose root shows the identifier and the label of the entry and below which its
offspring stand.  The loader looks for the same offspring in the same fields (`entriesOf_eq`) and
gives a node the same face (`face_nodeOf`).
-/

namespace TreeAtlas

/-- What a layout shows of a node. -/
structure Face where
  id : Option NodeId
  label : String

def AstNode.face (node : AstNode) : Face :=
  ⟨node.id, node.label⟩

namespace Json

def field? (key : String) : Json → Option Json
  | .obj fields => Fields.find? key fields
  | _ => none

def items? : Json → Option (List Json)
  | .arr items => some items
  | _ => none

/-- The two sides of a pair, where both are present. -/
def sides (v : Json) : List Json :=
  match v.field? "left", v.field? "right" with
  | some left, some right => if left.isTruthy ∧ right.isTruthy then [left, right] else []
  | _, _ => []

/-- The entries of an array `children`, else those of an array `body`, else the two sides. -/
def offspring (v : Json) : List Json :=
  match (v.field? "children").bind items? with
  | some items => items
  | none =>
    match (v.field? "body").bind items? with
    | some items => items
    | none => v.sides

/-- The identifier of an entry: a number or a text as it is, the text of anything else, and none
where there is nothing or `null`. -/
def id? (v : Json) : Option NodeId :=
  match v.field? "id" with
  | none | some .null => none
  | some (.num n) => some (.number n)
  | some (.str s) => some (.text s)
  | some w => some (.text w.write)

/-- The label of an entry: its type, or the text of a type that is not a string. -/
def typeLabel (v : Json) : String :=
  match v.field? "type" with
  | none | some .null => "Node"
  | some (.str s) => s
  | some w => w.write

def face (v : Json) : Face where
  id := v.id?
  label := v.typeLabel

end Json

/-! ### What the loader reads -/

theorem bind_items?_eq_none {o : Option Json} (h : ∀ items, o ≠ some (.arr items)) :
    o.bind Json.items? = none := by
  rcases o with _ | v
  · rfl
  · cases v with
    | arr items => exact absurd rfl (h items)
    | _ => rfl

/-- The container of an object holds its offspring, and a pair is in it as a whole. -/
theorem containerOf?_cases (v : Json) :
    (containerOf? v = none ∧ v.offspring = [])
      ∨ ∃ container, containerOf? v = some (container, v.offspring)
          ∧ (container = .binary →
              ∃ left right, v.offspring = [left, right] ∧ left.isTruthy ∧ right.isTruthy) := by
  cases v with
  | obj fields =>
    simp only [containerOf?, findContainer?, Json.offspring, Json.field?]
    split
    · rename_i items h
      exact .inr ⟨.children, by simp [h, Json.items?]⟩
    rename_i h
    rw [bind_items?_eq_none h]
    split
    · rename_i items h
      exact .inr ⟨.body, by simp [h, Json.items?]⟩
    rename_i h
    rw [bind_items?_eq_none h]
    simp only [Json.sides, Json.field?]
    rcases Json.Fields.find? "left" fields with _ | left
    · exact .inl ⟨rfl, rfl⟩
    rcases Json.Fields.find? "right" fields with _ | right
    · exact .inl ⟨rfl, rfl⟩
    by_cases ht : left.isTruthy ∧ right.isTruthy
    · refine .inr ⟨.binary, by simp [ht], fun _ => ⟨left, right, by simp [ht], ht⟩⟩
    · exact .inl (by simp [ht])
  | _ => exact .inl ⟨rfl, rfl⟩

theorem entriesOf_eq (v : Json) : entriesOf v = v.offspring := by
  rcases containerOf?_cases v with ⟨h, ho⟩ | ⟨container, h, -⟩
  · rw [entriesOf, h, ho]
  · rw [entriesOf, h]

theorem id_nodeOf (v : Json) : (nodeOf v).1.id = v.id? := by
  cases v with
  | obj fields =>
    simp only [nodeOf, Json.id?, Json.field?]
    rcases Json.Fields.find? "id" fields with _ | w
    · rfl
    · cases w <;> rfl
  | _ => rfl

theorem label_nodeOf (v : Json) : (nodeOf v).1.label = v.typeLabel := by
  cases v with
  | obj fields =>
    simp only [nodeOf, Json.typeLabel, Json.field?, AstNode.label]
    rcases Json.Fields.find? "type" fields with _ | w
    · rfl
    · cases w <;> rfl
  | _ => rfl

theorem face_nodeOf (v : Json) : (nodeOf v).1.face = v.face := by
  rw [AstNode.face, id_nodeOf, label_nodeOf, Json.face]

theorem children_nodeOf (v : Json) : (nodeOf v).1.children = [] := by
  cases v <;> rfl

/-! ### The tree -/

namespace Json

theorem sizeItems_offspring_lt (v : Json) : sizeItems v.offspring < v.size := by
  rw [← entriesOf_eq]
  exact sizeItems_entriesOf_lt v

/-- The trees that the entries of a container stand for. -/
def forest : List Json → Forest Json
  | [] => .nil
  | v :: vs => if v.isTruthy then .cons v (forest v.offspring) (forest vs) else forest vs
termination_by vs => sizeItems vs
decreasing_by
  all_goals
    have := sizeItems_offspring_lt v
    have := size_pos v
    simp only [sizeItems]
    omega

/-- What a document stands for, which is nothing if it does not count as present. -/
def tree (v : Json) : Forest Json :=
  forest [v]

@[simp] theorem forest_nil : forest [] = .nil := by
  rw [forest]

theorem forest_cons_of_truthy {v : Json} (h : v.isTruthy = true) (vs : List Json) :
    forest (v :: vs) = .cons v (forest v.offspring) (forest vs) := by
  rw [forest, if_pos h]

theorem forest_cons_of_falsy {v : Json} (h : v.isTruthy = false) (vs : List Json) :
    forest (v :: vs) = forest vs := by
  rw [forest, if_neg (by simp [h])]

theorem tree_of_truthy {v : Json} (h : v.isTruthy = true) :
    v.tree = .cons v (forest v.offspring) .nil := by
  rw [tree, forest_cons_of_truthy h, forest_nil]

theorem tree_of_falsy {v : Json} (h : v.isTruthy = false) : v.tree = .nil := by
  rw [tree, forest_cons_of_falsy h, forest_nil]

/-- The entries that count as present make up the forest. -/
theorem size_forest (vs : List Json) :
    (forest vs).size = ((vs.filter isTruthy).map fun v => v.tree.size).sum := by
  induction vs with
  | nil => simp
  | cons v vs ih =>
    cases h : v.isTruthy with
    | true =>
      rw [forest_cons_of_truthy h, List.filter_cons_of_pos h, List.map_cons, List.sum_cons,
        tree_of_truthy h, ← ih]
      simp
    | false => rw [forest_cons_of_falsy h, List.filter_cons_of_neg (by simp [h]), ih]

end Json

end TreeAtlas
