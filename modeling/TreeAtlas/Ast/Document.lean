import TreeAtlas.Ast.Basic
import TreeAtlas.Json.Nesting
import TreeAtlas.Json.Parser

/-!
# Trees from documents

A document is a data value. Each of its objects keeps its children in one container: an array
`children`, else an array `body`, else a pair `left` and `right` that are both present. The other
fields become attributes. Entries that do not count as present are left out, and an entry that is
no object becomes a leaf with a single attribute.

The loader keeps a stack of nodes whose children are still to be read. Siblings are numbered
together, and the last of them is expanded first. It ends because each step replaces a value on the
stack by smaller ones, its entries, so that the sizes on the stack sum to less.
-/

namespace TreeAtlas

inductive DocumentError where
  | invalid (e : Json.SyntaxError)
  | tooDeep (limit : Nat)
  deriving DecidableEq, Repr

def DocumentError.message : DocumentError → String
  | .invalid e => "invalid AST JSON: " ++ e.message
  | .tooDeep limit => "AST nesting exceeds " ++ toString limit ++ " levels"

/-- Levels of nodes that a document may have unless told otherwise. -/
def defaultNesting : Nat := 4096

/-- Levels of brackets granted below the deepest node, for what its attributes hold. -/
def attributeNesting : Nat := 64

/-- Counters stop at the greatest word of 64 bits. -/
def wordLimit : Nat := UInt64.size - 1

inductive Container where
  | children
  | body
  | binary
  deriving DecidableEq, Repr

namespace Container

/-- Fields of the object that the container takes up. -/
def fields : Container → List String
  | .children => ["children"]
  | .body => ["body"]
  | .binary => ["left", "right"]

/-- The shape of a node with these children; a pair that lost a side leaves a leaf. -/
def shape : Container → List NodeRef → ChildShape
  | .children, refs => .children refs
  | .body, refs => .body refs
  | .binary, [left, right] => .binary left right
  | .binary, _ => .leaf

end Container

/-- The container of an object and the entries in it. -/
def findContainer? (fields : Json.Fields) : Option (Container × List Json) :=
  match fields.find? "children" with
  | some (.arr items) => some (.children, items)
  | _ => match fields.find? "body" with
    | some (.arr items) => some (.body, items)
    | _ => match fields.find? "left", fields.find? "right" with
      | some left, some right =>
        if left.isTruthy && right.isTruthy then some (.binary, [left, right]) else none
      | _, _ => none

def containerOf? : Json → Option (Container × List Json)
  | .obj fields => findContainer? fields
  | _ => none

/-- The entries that become children. -/
def entriesOf (v : Json) : List Json :=
  match containerOf? v with
  | some (_, entries) => entries
  | none => []

/-- The label of a `type` field. -/
def kindOfJson : Json → Option String
  | .null => none
  | .str s => some s
  | v => some v.write

/-- Fields that are neither the identifier, nor the kind, nor the container. -/
def attributesOf (fields : Json.Fields) : Json.Fields :=
  let consumed := match findContainer? fields with
    | some (container, _) => container.fields
    | none => []
  fields.filter fun field => field.1 != "id" && field.1 != "type" && !consumed.contains field.1

/-- The node of a value, still without children, and the warnings about it. -/
def nodeOf : Json → AstNode × List LogLine
  | .obj fields =>
    let (id, lines) := match Json.Fields.find? "id" fields with
      | some v => NodeId.ofJson v
      | none => (none, [])
    let kind := (Json.Fields.find? "type" fields).bind kindOfJson
    ({ id, kind, attributes := attributesOf fields }, lines)
  | v => ({ attributes := [("value", v)] }, [])

/-! ### Sizes -/

namespace Json

mutual

/-- Number of values in a value. -/
def size : Json → Nat
  | .null | .bool _ | .num _ | .str _ => 1
  | .arr items => 1 + sizeItems items
  | .obj fields => 1 + sizeFields fields

def sizeItems : List Json → Nat
  | [] => 0
  | v :: vs => v.size + sizeItems vs

def sizeFields : List (String × Json) → Nat
  | [] => 0
  | (_, v) :: rest => v.size + sizeFields rest

end

theorem size_pos (v : Json) : 0 < v.size := by
  cases v <;> unfold size <;> omega

theorem size_le_of_find? {fields : Fields} {key : String} {v : Json}
    (h : fields.find? key = some v) : v.size ≤ sizeFields fields := by
  induction fields with
  | nil => cases h
  | cons field rest ih =>
    obtain ⟨k, w⟩ := field
    unfold Fields.find? at h ih
    simp only [List.lookup_cons] at h
    simp only [sizeFields]
    split at h
    · cases h; omega
    · have := ih h; omega

/-- Two different fields of an object fit into it together. -/
theorem size_add_le_of_find? {fields : Fields} {key key' : String} {v v' : Json}
    (hne : key ≠ key') (h : fields.find? key = some v) (h' : fields.find? key' = some v') :
    v.size + v'.size ≤ sizeFields fields := by
  induction fields with
  | nil => cases h
  | cons field rest ih =>
    obtain ⟨k, w⟩ := field
    unfold Fields.find? at h h' ih
    simp only [List.lookup_cons] at h h'
    simp only [sizeFields]
    split at h <;> split at h'
    · rename_i e _ e'
      exact absurd ((eq_of_beq e).trans (eq_of_beq e').symm) hne
    · cases h
      have := size_le_of_find? h'
      omega
    · cases h'
      have := size_le_of_find? h
      omega
    · have := ih h h'
      omega

end Json

theorem sizeItems_entriesOf_lt (v : Json) : Json.sizeItems (entriesOf v) < v.size := by
  unfold entriesOf containerOf?
  cases v with
  | obj fields =>
    simp only [Json.size]
    unfold findContainer?
    split
    · rename_i h
      split at h
      · rename_i hf
        cases h
        have := Json.size_le_of_find? hf
        simp only [Json.size] at this
        omega
      · split at h
        · rename_i hf
          cases h
          have := Json.size_le_of_find? hf
          simp only [Json.size] at this
          omega
        · split at h
          · rename_i hl hr
            split at h
            · cases h
              have := Json.size_add_le_of_find? (by decide) hl hr
              simp only [Json.sizeItems]
              omega
            · cases h
          · cases h
    · simp only [Json.sizeItems]
      omega
  | _ => simp only [Json.sizeItems]; exact Json.size_pos _

/-! ### Loading -/

/-- A node whose children are still to be read. -/
structure Pending where
  slot : NodeRef
  value : Json
  depth : Nat

/-- The size of all values on a stack. -/
def Pending.weight : List Pending → Nat
  | [] => 0
  | p :: rest => p.value.size + weight rest

/-- What loading the entries of one container adds. -/
structure Siblings where
  nodes : Array AstNode
  /-- References to the entries that count, the last one first. -/
  refs : List NodeRef := []
  pending : List Pending
  lines : List LogLine := []

/-- Numbers the entries of a container and stacks them, the last one on top. -/
def Siblings.load (depth : Nat) (s : Siblings) : List Json → Siblings
  | [] => s
  | v :: vs =>
    if v.isTruthy then
      let (node, lines) := nodeOf v
      let r : NodeRef := ⟨s.nodes.size⟩
      load depth
        { nodes := s.nodes.push node
          refs := r :: s.refs
          pending := ⟨r, v, depth⟩ :: s.pending
          lines := s.lines ++ lines } vs
    else load depth s vs

theorem Siblings.weight_load (depth : Nat) (s : Siblings) (vs : List Json) :
    Pending.weight (s.load depth vs).pending ≤ Json.sizeItems vs + Pending.weight s.pending := by
  induction vs generalizing s with
  | nil => simp [load, Json.sizeItems]
  | cons v vs ih =>
    simp only [load, Json.sizeItems]
    split
    · refine Nat.le_trans (ih _) ?_
      simp only [Pending.weight]
      omega
    · have := ih s
      omega

/-- Expanding a node leaves less to do. -/
theorem weight_load_lt {p : Pending} {container : Container} {entries : List Json}
    {nodes : Array AstNode} {rest : List Pending}
    (h : containerOf? p.value = some (container, entries)) :
    Pending.weight (Siblings.load (p.depth + 1) { nodes, pending := rest } entries).pending
      < p.value.size + Pending.weight rest := by
  have hw := Siblings.weight_load (p.depth + 1) { nodes, pending := rest } entries
  have hs := sizeItems_entriesOf_lt p.value
  simp only [entriesOf, h] at hs
  simp only [] at hw
  omega

/-- Expands the nodes on the stack until none is left. -/
def expand (limit : Nat) (nodes : Array AstNode) (lines : List LogLine) :
    (pending : List Pending) → Except DocumentError (Array AstNode) × List LogLine
  | [] => (.ok nodes, lines)
  | p :: rest =>
    match h : containerOf? p.value with
    | none =>
      have := Json.size_pos p.value
      expand limit nodes lines rest
    | some (container, entries) =>
      if limit ≤ p.depth then (.error (.tooDeep limit), lines)
      else
        let s := Siblings.load (p.depth + 1) { nodes, pending := rest } entries
        have := @weight_load_lt p container entries nodes rest h
        expand limit (setShapeAt s.nodes p.slot (container.shape s.refs.reverse))
          (lines ++ s.lines) s.pending
termination_by pending => Pending.weight pending
decreasing_by
  · simp only [Pending.weight]; omega
  · simpa only [Pending.weight, List.map_cons, List.sum_cons] using this

/-- The tree of a document. A document that does not count as present has an empty tree. -/
def Ast.ofJson (limit : Nat) (v : Json) : Attempt DocumentError Ast :=
  if v.isTruthy then
    let (node, lines) := nodeOf v
    let (nodes, lines) := expand limit #[node] lines [⟨⟨0⟩, v, 0⟩]
    ExceptT.mk ⟨nodes.map fun nodes => { nodes, root := some ⟨0⟩ }, lines⟩
  else Pure.pure .empty

/-- Reads a document whose brackets nest no deeper than its nodes may. Every level of nodes costs
two levels of brackets at most. -/
def readDocument (limit : Nat) (text : String) : Except DocumentError Json :=
  let bound := min (min (limit * 2) wordLimit + attributeNesting) wordLimit
  if bound < Json.nesting text.toList then .error (.tooDeep limit)
  else (Json.parse none text).mapError .invalid

def Ast.ofText (limit : Nat) (text : String) : Attempt DocumentError Ast := do
  let v ← Attempt.ofExcept (readDocument limit text)
  Ast.ofJson limit v

end TreeAtlas
