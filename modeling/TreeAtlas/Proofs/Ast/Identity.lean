import TreeAtlas.Proofs.Decimal.Doubles
import TreeAtlas.Render

/-!
# Identifiers that count as one

Identifiers are compared by value, and floating point numbers as such: the two zeros are one
identifier, written in two ways.  The comparison is still symmetric and transitive, so it makes no
difference whether nodes are compared with the identifier that was selected or with the one of the
node that was found for it (`isSelected_found`).
-/

namespace TreeAtlas

/-! ### Comparisons -/

instance partialEquivBEq_number : PartialEquivBEq Json.Number where
  symm {m n} h := by
    cases m <;> cases n
    case int.int => exact BEq.symm (α := Int) h
    case float.float => exact BEq.symm (α := Float) h
    all_goals cases h
  trans {m n k} hmn hnk := by
    cases m <;> cases n
    case int.int =>
      cases k
      case int => exact BEq.trans (α := Int) hmn hnk
      case float => cases hnk
    case float.float =>
      cases k
      case int => cases hnk
      case float => exact BEq.trans (α := Float) hmn hnk
    all_goals cases hmn

instance partialEquivBEq_nodeId : PartialEquivBEq NodeId where
  symm {a b} h := by
    cases a <;> cases b
    case number.number => exact BEq.symm (α := Json.Number) h
    case text.text => exact BEq.symm (α := String) h
    all_goals cases h
  trans {a b c} hab hbc := by
    cases a <;> cases b
    case number.number =>
      cases c
      case number => exact BEq.trans (α := Json.Number) hab hbc
      case text => cases hbc
    case text.text =>
      cases c
      case number => cases hbc
      case text => exact BEq.trans (α := String) hab hbc
    all_goals cases hab

/-- A number is never the one value that differs from itself. -/
instance reflBEq_number : ReflBEq Json.Number where
  rfl {n} := by
    cases n with
    | int i _ => exact BEq.rfl (α := Int)
    | float x hx => exact Decimal.beq_self_of_isFinite hx

instance reflBEq_nodeId : ReflBEq NodeId where
  rfl {a} := by
    cases a with
    | number n => exact BEq.rfl (α := Json.Number)
    | text s => exact BEq.rfl (α := String)

/-! ### The node that is found -/

section Found

variable {ast : Ast} {id : NodeId} {r : NodeRef}

theorem Ast.findById?_eq_none_iff :
    ast.findById? id = none ↔ ∀ node ∈ ast.nodes, node.id.any (· == id) = false := by
  simp [findById?]

theorem Ast.get?_of_findById? (h : ast.findById? id = some r) :
    ∃ node, ast.get? r = some node ∧ node.id.any (· == id) = true := by
  obtain ⟨i, hi, rfl⟩ := Option.map_eq_some_iff.1 h
  obtain ⟨hlt, hnode, -⟩ := Array.findIdx?_eq_some_iff_getElem.1 hi
  exact ⟨ast.nodes[i], Array.getElem?_eq_getElem hlt, hnode⟩

theorem isSelected_some (id : Option NodeId) (s : NodeId) :
    Drawing.isSelected id (some s) = id.any (· == s) := by
  cases id <;> rfl

theorem isSelected_none (id : Option NodeId) : Drawing.isSelected id none = false := by
  cases id <;> rfl

/-- The selected identifier and the one of the node that is found for it select the same nodes. -/
theorem isSelected_found (ast : Ast) (selected : Option NodeId) {node : AstNode}
    (hnode : node ∈ ast.nodes) :
    Drawing.isSelected node.id ((selectedNode? ast selected).bind AstNode.id)
      = Drawing.isSelected node.id selected := by
  cases selected with
  | none => rfl
  | some s =>
    rw [selectedNode?, Option.bind_some]
    cases hr : ast.findById? s with
    | none =>
      rw [Option.bind_none, Option.bind_none, isSelected_none, isSelected_some]
      exact (Ast.findById?_eq_none_iff.1 hr node hnode).symm
    | some r =>
      obtain ⟨found, hfound, hany⟩ := Ast.get?_of_findById? hr
      obtain ⟨t, ht, hts⟩ := (Option.any_eq_true ..).1 hany
      rw [Option.bind_some, hfound, Option.bind_some, ht, isSelected_some, isSelected_some]
      cases node.id with
      | none => rfl
      | some i => exact BEq.congr_right hts

end Found

end TreeAtlas
