import TreeAtlas.Record.Schema

/-!
# Records in trees of values

Reading a record whose members or items are already there as values. A key may still turn out
unreadable when its turn comes. Members nobody answers to go to `ignore`.
-/

namespace TreeAtlas.Record

variable {S E : Type}

/-- Reads values of type `S`. -/
abbrev TreeReader (S E : Type) (α : Type) := S → Except E α

def readMembers {ρ σ : Type} (fault : Mismatch → E) (ignore : S → Except E Unit)
    (fields : Fields (TreeReader S E) ρ σ) : σ → List (Except E String × S) → Except E σ
  | slots, [] => .ok slots
  | slots, (key, v) :: rest => do
    match fields.place (← key) slots with
    | .unknown =>
      ignore v
      readMembers fault ignore fields slots rest
    | .taken name => .error (fault (.duplicateField name))
    | .free read put => readMembers fault ignore fields (put (← read v)) rest

/-- The record of the first items, and the items after them. -/
def readItems {ρ σ : Type} (fault : Mismatch → E) (expected : String) :
    Fields (TreeReader S E) ρ σ → Nat → List S → Except E (ρ × List S)
  | .nil, _, items => .ok ((), items)
  | .cons _ _ absent _ rest, index, [] => do
    let v ← (absent.positional index expected).mapError fault
    let (row, items) ← readItems fault expected rest (index + 1) []
    return ((v, row), items)
  | .cons _ _ _ read rest, index, item :: items => do
    let v ← read item
    let (row, items) ← readItems fault expected rest (index + 1) items
    return ((v, row), items)

/-- The record named by the members of an object. -/
def ofMembers {ρ σ : Type} (fault : Mismatch → E) (ignore : S → Except E Unit)
    (fields : Fields (TreeReader S E) ρ σ) (members : List (Except E String × S)) :
    Except E ρ := do
  let slots ← readMembers fault ignore fields fields.vacant members
  (fields.complete slots).mapError fault

end TreeAtlas.Record
