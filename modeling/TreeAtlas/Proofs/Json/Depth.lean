import TreeAtlas.Json.Value
import Mathlib.Data.List.Nodup
import Mathlib.Order.Lattice

/-!
# Depth of data values

How deep arrays and objects nest.  A value that was put down with the fields of its objects in the
order of the text, a key perhaps several times, is settled by setting one field after another.  What
is overwritten can only have made it deeper, and nothing is overwritten where keys are distinct
(`depth_settled_le`, `depth_settled`).
-/

namespace TreeAtlas.Json

mutual

/-- Levels of arrays and objects. -/
def depth : Json → Nat
  | .null | .bool _ | .num _ | .str _ => 0
  | .arr items => itemsDepth items + 1
  | .obj fields => fieldsDepth fields + 1

def itemsDepth : List Json → Nat
  | [] => 0
  | v :: vs => max v.depth (itemsDepth vs)

def fieldsDepth : List (String × Json) → Nat
  | [] => 0
  | (_, v) :: rest => max v.depth (fieldsDepth rest)

end

/-- The values directly inside an array or an object. -/
def parts : Json → List Json
  | .arr items => items
  | .obj fields => fields.map Prod.snd
  | _ => []

mutual

/-- The value whose fields are set one after another. -/
def settled : Json → Json
  | .arr items => .arr (settledItems items)
  | .obj fields => .obj (settledFields [] fields)
  | v => v

def settledItems : List Json → List Json
  | [] => []
  | v :: vs => v.settled :: settledItems vs

/-- Sets more fields. -/
def settledFields (read : Fields) : List (String × Json) → Fields
  | [] => read
  | (key, v) :: rest => settledFields (read.insert key v.settled) rest

end

mutual

/-- No object has a key twice. -/
def Distinct : Json → Prop
  | .arr items => DistinctItems items
  | .obj fields => (fields.map Prod.fst).Nodup ∧ DistinctFields fields
  | _ => True

def DistinctItems : List Json → Prop
  | [] => True
  | v :: vs => v.Distinct ∧ DistinctItems vs

def DistinctFields : List (String × Json) → Prop
  | [] => True
  | (_, v) :: rest => v.Distinct ∧ DistinctFields rest

end

theorem itemsDepth_le_iff {vs : List Json} {m : Nat} :
    itemsDepth vs ≤ m ↔ ∀ v ∈ vs, v.depth ≤ m := by
  induction vs with
  | nil => simp [itemsDepth]
  | cons v vs ih => rw [itemsDepth, Nat.max_le, ih, List.forall_mem_cons]

theorem fieldsDepth_le_iff {fields : List (String × Json)} {m : Nat} :
    fieldsDepth fields ≤ m ↔ ∀ field ∈ fields, field.2.depth ≤ m := by
  induction fields with
  | nil => simp [fieldsDepth]
  | cons field rest ih => rw [fieldsDepth, Nat.max_le, ih, List.forall_mem_cons]

theorem depth_lt_of_mem_parts {v w : Json} (h : w ∈ v.parts) : w.depth < v.depth := by
  cases v with
  | arr items => exact Nat.lt_succ_of_le (itemsDepth_le_iff.1 (Nat.le_refl _) w h)
  | obj fields =>
    obtain ⟨field, hfield, rfl⟩ := List.mem_map.1 h
    exact Nat.lt_succ_of_le (fieldsDepth_le_iff.1 (Nat.le_refl _) field hfield)
  | _ => cases h

/-! ### Setting a field -/

section Insert

variable {key : String} {v : Json} {fields : Fields}

theorem mem_keys_insert {k : String} :
    k ∈ (fields.insert key v).map Prod.fst ↔ k = key ∨ k ∈ fields.map Prod.fst := by
  induction fields with
  | nil => simp [Fields.insert]
  | cons field rest ih =>
    obtain ⟨k', w⟩ := field
    unfold Fields.insert
    split_ifs with hlt heq
    · simp
    · subst heq
      simp
    · simp only [List.map_cons, List.mem_cons, ih]
      exact or_left_comm

theorem fieldsDepth_insert_le :
    fieldsDepth (fields.insert key v) ≤ max v.depth (fieldsDepth fields) := by
  induction fields with
  | nil => simp [Fields.insert, fieldsDepth]
  | cons field rest ih =>
    obtain ⟨k, w⟩ := field
    unfold Fields.insert
    split_ifs
    · exact Nat.le_refl _
    · simp only [fieldsDepth]
      omega
    · simp only [fieldsDepth] at ih ⊢
      omega

/-- A new key leaves the other fields. -/
theorem fieldsDepth_insert (h : key ∉ fields.map Prod.fst) :
    fieldsDepth (fields.insert key v) = max v.depth (fieldsDepth fields) := by
  induction fields with
  | nil => simp [Fields.insert, fieldsDepth]
  | cons field rest ih =>
    obtain ⟨k, w⟩ := field
    rw [List.map_cons, List.mem_cons, not_or] at h
    unfold Fields.insert
    split_ifs with hlt heq
    · rfl
    · exact absurd heq h.1
    · simp only [fieldsDepth, ih h.2]
      omega

end Insert

/-! ### Settled values -/

mutual

theorem depth_settled_le : ∀ v : Json, v.settled.depth ≤ v.depth
  | .null | .bool _ | .num _ | .str _ => by simp only [settled]; exact Nat.le_refl _
  | .arr items => by
    simp only [settled, depth]
    exact Nat.succ_le_succ (itemsDepth_settledItems_le items)
  | .obj fields => by
    have := fieldsDepth_settledFields_le fields []
    simp only [settled, depth]
    simp only [fieldsDepth] at this
    omega

theorem itemsDepth_settledItems_le : ∀ vs : List Json, itemsDepth (settledItems vs) ≤ itemsDepth vs
  | [] => Nat.le_refl _
  | v :: vs => by
    have := depth_settled_le v
    have := itemsDepth_settledItems_le vs
    simp only [settledItems, itemsDepth]
    omega

theorem fieldsDepth_settledFields_le : ∀ (fields : List (String × Json)) (read : Fields),
    fieldsDepth (settledFields read fields) ≤ max (fieldsDepth read) (fieldsDepth fields)
  | [], read => by simp [settledFields, fieldsDepth]
  | (key, v) :: rest, read => by
    have := depth_settled_le v
    have := fieldsDepth_settledFields_le rest (read.insert key v.settled)
    have : fieldsDepth (read.insert key v.settled) ≤ _ := fieldsDepth_insert_le
    simp only [settledFields, fieldsDepth]
    omega

end

mutual

/-- Where no object has a key twice nothing is overwritten. -/
theorem depth_settled : ∀ v : Json, v.Distinct → v.settled.depth = v.depth
  | .null, _ | .bool _, _ | .num _, _ | .str _, _ => by simp only [settled]
  | .arr items, h => by
    simp only [Distinct] at h
    simp only [settled, depth, itemsDepth_settledItems items h]
  | .obj fields, h => by
    simp only [Distinct] at h
    have := fieldsDepth_settledFields fields [] h.1 h.2 (by simp)
    simp only [settled, depth, this, fieldsDepth]
    omega

theorem itemsDepth_settledItems :
    ∀ vs : List Json, DistinctItems vs → itemsDepth (settledItems vs) = itemsDepth vs
  | [], _ => rfl
  | v :: vs, h => by
    simp only [DistinctItems] at h
    simp only [settledItems, itemsDepth, depth_settled v h.1, itemsDepth_settledItems vs h.2]

theorem fieldsDepth_settledFields : ∀ (fields : List (String × Json)) (read : Fields),
    (fields.map Prod.fst).Nodup → DistinctFields fields →
    (∀ key ∈ fields.map Prod.fst, key ∉ read.map Prod.fst) →
      fieldsDepth (settledFields read fields) = max (fieldsDepth read) (fieldsDepth fields)
  | [], read, _, _, _ => by simp [settledFields, fieldsDepth]
  | (key, v) :: rest, read, hkeys, h, hnew => by
    simp only [DistinctFields] at h
    rw [List.map_cons, List.nodup_cons] at hkeys
    rw [List.map_cons, List.forall_mem_cons] at hnew
    have hrest : ∀ k ∈ rest.map Prod.fst, k ∉ (read.insert key v.settled).map Prod.fst := by
      intro k hk
      rw [mem_keys_insert, not_or]
      exact ⟨fun e => hkeys.1 (e ▸ hk), hnew.2 k hk⟩
    have := fieldsDepth_settledFields rest (read.insert key v.settled) hkeys.2 h.2 hrest
    have : fieldsDepth (read.insert key v.settled) = max v.settled.depth (fieldsDepth read) :=
      fieldsDepth_insert hnew.1
    have := depth_settled v h.1
    simp only [settledFields, fieldsDepth]
    omega

end

/-- The list is spelled, and gone when the second field is set. -/
example : (obj [("a", .arr []), ("a", .null)]).depth = 2
    ∧ (obj [("a", .arr []), ("a", .null)]).settled.depth = 1 := by
  decide

end TreeAtlas.Json
