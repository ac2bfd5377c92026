import TreeAtlas.Proofs.Except
import TreeAtlas.Proofs.Json.Depth
import TreeAtlas.Record.OfJson
import Mathlib.Tactic.SplitIfs

/-!
# Where the values of a record come from

A record is read from the members of an object or from the items of an array.  Either way each of
its values stands for a field that is not there or was read, by the reader of its field, from one of
the values inside (`exists_row_of_recordOfJson`).  By name the slots are filled one after another
and stay filled (`Filled.readMembers`).
-/

namespace TreeAtlas.Record

/-- The value that may stand for a field that is not there. -/
def Absent.value? {α : Type} : Absent α → Option α
  | .required => none
  | .nameable v | .default v => some v

namespace Fields

variable {S E : Type}

/-- What is in the slots was read from a source. -/
def Filled (p : S → Prop) : {ρ σ : Type} → Fields (TreeReader S E) ρ σ → σ → Prop
  | _, _, .nil, _ => True
  | _, _, .cons _ _ _ read rest, (slot, slots) =>
    (∀ v ∈ slot, ∃ s, p s ∧ read s = .ok v) ∧ rest.Filled p slots

/-- Each value of the record was read from a source, or stands for a field that is not there. -/
def Stems (p : S → Prop) : {ρ σ : Type} → Fields (TreeReader S E) ρ σ → ρ → Prop
  | _, _, .nil, _ => True
  | _, _, .cons _ _ absent read rest, (v, row) =>
    (absent.value? = some v ∨ ∃ s, p s ∧ read s = .ok v) ∧ rest.Stems p row

variable {p : S → Prop} {ρ σ : Type} {fields : Fields (TreeReader S E) ρ σ}

/-! ### By name -/

theorem filled_vacant (p : S → Prop) {ρ σ : Type} (fields : Fields (TreeReader S E) ρ σ) :
    fields.Filled p fields.vacant := by
  induction fields with
  | nil => trivial
  | cons name aliases absent read rest ih => exact ⟨nofun, ih⟩

theorem Filled.place {α : Type} {read : TreeReader S E α} {put : α → σ} {key : String} {slots : σ}
    (h : fields.Filled p slots) (hplace : fields.place key slots = .free read put) {s : S} {v : α}
    (hs : p s) (hread : read s = .ok v) : fields.Filled p (put v) := by
  induction fields with
  | nil => cases hplace
  | cons name aliases absent own rest ih =>
    obtain ⟨slot, slots⟩ := slots
    rw [Fields.place] at hplace
    split_ifs at hplace
    · cases hplace
      exact ⟨fun w hw => ⟨s, hs, Option.some.inj hw ▸ hread⟩, h.2⟩
    · split at hplace
      · cases hplace
      · cases hplace
      · rename_i hrest
        cases hplace
        exact ⟨h.1, ih h.2 hrest⟩

theorem Filled.readMembers {fault : Mismatch → E} {ignore : S → Except E Unit}
    {members : List (Except E String × S)} (hp : ∀ member ∈ members, p member.2) :
    ∀ {slots slots' : σ}, fields.Filled p slots →
      Record.readMembers fault ignore fields slots members = .ok slots' →
        fields.Filled p slots' := by
  induction members with
  | nil =>
    intro slots slots' h hread
    cases hread
    exact h
  | cons member members ih =>
    obtain ⟨key, s⟩ := member
    rw [List.forall_mem_cons] at hp
    intro slots slots' h hread
    rw [Record.readMembers] at hread
    obtain ⟨key, -, hread⟩ := exists_of_bind_eq_ok hread
    split at hread
    · obtain ⟨-, -, hread⟩ := exists_of_bind_eq_ok hread
      exact ih hp.2 h hread
    · cases hread
    · rename_i hplace
      obtain ⟨v, hv, hread⟩ := exists_of_bind_eq_ok hread
      exact ih hp.2 (h.place hplace hp.1 hv) hread

theorem Filled.complete {slots : σ} {row : ρ} (h : fields.Filled p slots)
    (hrow : fields.complete slots = .ok row) : fields.Stems p row := by
  induction fields with
  | nil => trivial
  | cons name aliases absent read rest ih =>
    obtain ⟨slot, slots⟩ := slots
    have hvalue : ∀ v : _, ((rest.complete slots).bind fun row => .ok (v, row)) = .ok row →
        (absent.value? = some v ∨ ∃ s, p s ∧ read s = .ok v) →
          (cons name aliases absent read rest).Stems p row := by
      intro v hrow hv
      obtain ⟨row, hrest, hrow⟩ := exists_of_bind_eq_ok hrow
      cases hrow
      exact ⟨hv, ih h.2 hrest⟩
    match slot, absent, hrow with
    | some v, _, hrow => exact hvalue v hrow (.inr (h.1 v rfl))
    | none, .nameable v, hrow => exact hvalue v hrow (.inl rfl)
    | none, .default v, hrow => exact hvalue v hrow (.inl rfl)

/-! ### By place -/

theorem stems_readItems {fault : Mismatch → E} {expected : String} {items : List S}
    {fields : Fields (TreeReader S E) ρ σ} (hp : ∀ s ∈ items, p s) :
    ∀ {index : Nat} {row : ρ} {items' : List S},
      readItems fault expected fields index items = .ok (row, items') → fields.Stems p row := by
  induction fields generalizing items with
  | nil => exact fun _ => trivial
  | cons name aliases absent read rest ih =>
    intro index row items' hread
    cases items with
    | nil =>
      rw [readItems] at hread
      obtain ⟨v, hv, hread⟩ := exists_of_bind_eq_ok hread
      obtain ⟨⟨row, items⟩, hrest, hread⟩ := exists_of_bind_eq_ok hread
      cases hread
      refine ⟨.inl ?_, ih hp hrest⟩
      cases absent <;> cases hv
      rfl
    | cons s items =>
      rw [readItems] at hread
      obtain ⟨v, hv, hread⟩ := exists_of_bind_eq_ok hread
      obtain ⟨⟨row, items⟩, hrest, hread⟩ := exists_of_bind_eq_ok hread
      cases hread
      rw [List.forall_mem_cons] at hp
      exact ⟨.inr ⟨s, hp.1, hv⟩, ih hp.2 hrest⟩

end Fields

section OfJson

variable {α ρ σ : Type} {name : String} {fields : Fields JsonReader ρ σ} {build : ρ → α} {a : α}

theorem exists_row_of_members {members : Json.Fields}
    (h : recordOfJson name fields build (.obj members) = .ok a) :
    ∃ row, fields.Stems (· ∈ members.map Prod.snd) row ∧ build row = a := by
  obtain ⟨row, hrow, h⟩ := exists_of_bind_eq_ok (f := fun row => .ok (build row)) h
  obtain ⟨slots, hslots, hrow⟩ := exists_of_bind_eq_ok hrow
  have hfilled := (fields.filled_vacant (· ∈ members.map Prod.snd)).readMembers ?_ hslots
  · exact ⟨row, hfilled.complete (of_mapError_eq_ok hrow), Except.ok.inj h⟩
  rintro member hmember
  obtain ⟨field, hfield, rfl⟩ := List.mem_map.1 hmember
  exact List.mem_map_of_mem hfield

theorem exists_row_of_items {items : List Json}
    (h : recordOfJson name fields build (.arr items) = .ok a) :
    ∃ row, fields.Stems (· ∈ items) row ∧ build row = a := by
  rw [recordOfJson] at h
  obtain ⟨⟨row, rest⟩, hrow, h⟩ := exists_of_bind_eq_ok h
  simp only [] at h
  split_ifs at h
  exact ⟨row, Fields.stems_readItems (fun _ => id) hrow, Except.ok.inj h⟩

/-- A record is read from an object or an array, and holds what was read from the values inside and
what stands for fields that are not there. -/
theorem exists_row_of_recordOfJson {v : Json} (h : recordOfJson name fields build v = .ok a) :
    0 < v.depth ∧ ∃ row, fields.Stems (· ∈ v.parts) row ∧ build row = a := by
  cases v with
  | obj members => exact ⟨Nat.succ_pos _, exists_row_of_members h⟩
  | arr items => exact ⟨Nat.succ_pos _, exists_row_of_items h⟩
  | _ => cases h

end OfJson

end TreeAtlas.Record
