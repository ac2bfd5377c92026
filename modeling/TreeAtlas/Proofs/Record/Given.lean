import TreeAtlas.Json5.Reading
import TreeAtlas.Proofs.Record.Sources

/-!
# What is given in a record

Each value of a record goes back to one entry: the first member under one of the names of its
field, or the item at its place (`exists_row_of_recordAt`).  By name this needs names that no two
fields share.  Then a member is for one field at most, and the slots of the others stay as they are
(`Fills.of_place`); a slot is filled once, so what fills it is the first member.
-/

namespace TreeAtlas.Record

/-- The value of the first member under one of some names. -/
def member? {S E : Type} (members : List (Except E String × S)) (names : List String) : Option S :=
  (members.find? fun member => member.1.toOption.any (· ∈ names)).map Prod.snd

section Members

variable {S E : Type} {s : S} {key : String} {members : List (Except E String × S)}
  {names : List String}

theorem member?_cons_of_mem (h : key ∈ names) :
    member? ((.ok key, s) :: members) names = some s := by
  rw [member?, List.find?_cons_of_pos (by simpa [Except.toOption] using h), Option.map_some]

theorem member?_cons_of_notMem (h : key ∉ names) :
    member? ((.ok key, s) :: members) names = member? members names := by
  rw [member?, List.find?_cons_of_neg (by simpa [Except.toOption] using h), member?]

end Members

/-- The value that is read from what is given, or stands for what is not. -/
inductive Told {S E α : Type} (absent : Absent α) (read : TreeReader S E α) : Option S → α → Prop
  | given {s : S} {v : α} (h : read s = .ok v) : Told absent read (some s) v
  | missing {v : α} (h : absent.value? = some v) : Told absent read none v

namespace Fields

def keys {R : Type → Type} : {ρ σ : Type} → Fields R ρ σ → List String
  | _, _, .nil => []
  | _, _, .cons name aliases _ _ rest => (name :: aliases) ++ rest.keys

theorem notMem_keys_of_place {R : Type → Type} {ρ σ : Type} {key : String} {fields : Fields R ρ σ}
    {slots : σ} (h : fields.place key slots = .unknown) : key ∉ fields.keys := by
  induction fields with
  | nil => exact List.not_mem_nil
  | cons name aliases absent own rest ih =>
    obtain ⟨slot, slots⟩ := slots
    rw [Fields.place] at h
    split_ifs at h with hkey
    split at h
    · rename_i hrest
      exact List.not_mem_append (mt List.mem_cons.1 hkey) (ih hrest)
    · cases h
    · cases h

section Given

variable {S E : Type}

/-- Each value of a record is told by what is given under the names of its field or at its place. -/
def Given (given : List String → Nat → Option S) :
    {ρ σ : Type} → Fields (TreeReader S E) ρ σ → Nat → ρ → Prop
  | _, _, .nil, _, _ => True
  | _, _, .cons name aliases absent read rest, index, (v, row) =>
    Told absent read (given (name :: aliases) index) v ∧ rest.Given given (index + 1) row

/-- Vacant slots are filled with what is given under the names of their fields, and filled ones
stay. -/
def Fills (given : List String → Option S) :
    {ρ σ : Type} → Fields (TreeReader S E) ρ σ → σ → σ → Prop
  | _, _, .nil, _, _ => True
  | _, _, .cons name aliases _ read rest, (slot, slots), (slot', slots') =>
    (∀ v ∈ slot, slot' = some v)
      ∧ (slot = none → Option.Rel (fun s v => read s = .ok v) (given (name :: aliases)) slot')
      ∧ rest.Fills given slots slots'

variable {ρ σ : Type} {fields : Fields (TreeReader S E) ρ σ} {slots slots' : σ}

/-! ### By name -/

theorem fills_nothing (fields : Fields (TreeReader S E) ρ σ) (slots : σ) :
    fields.Fills (fun _ => none) slots slots := by
  induction fields with
  | nil => trivial
  | cons name aliases absent read rest ih =>
    obtain ⟨slot, slots⟩ := slots
    exact ⟨fun _ => id, fun h => h ▸ .none, ih slots⟩

/-- It matters only what is given under the names of the fields. -/
theorem Fills.congr {given given' : List String → Option S} (h : fields.Fills given slots slots')
    (heq : ∀ names ⊆ fields.keys, given' names = given names) :
    fields.Fills given' slots slots' := by
  induction fields with
  | nil => trivial
  | cons name aliases absent read rest ih =>
    obtain ⟨slot, slots⟩ := slots
    obtain ⟨slot', slots'⟩ := slots'
    refine ⟨h.1, fun hslot => ?_,
      ih h.2.2 fun names hnames => heq names (List.subset_append_of_subset_right _ hnames)⟩
    rw [heq _ (List.subset_append_left _ _)]
    exact h.2.1 hslot

section Cons

variable {α : Type} {read : TreeReader S E α} {put : α → σ} {key : String} {s : S} {v : α}
  {members : List (Except E String × S)}

theorem Fills.cons_of_notMem (hkey : key ∉ fields.keys)
    (h : fields.Fills (member? members) slots slots') :
    fields.Fills (member? ((.ok key, s) :: members)) slots slots' :=
  h.congr fun _ hnames => member?_cons_of_notMem (mt (@hnames key) hkey)

/-- A member fills the slot of its field and no other. -/
theorem Fills.of_place (hkeys : fields.keys.Nodup)
    (hplace : fields.place key slots = .free read put) (hread : read s = .ok v)
    (h : fields.Fills (member? members) (put v) slots') :
    fields.Fills (member? ((.ok key, s) :: members)) slots slots' := by
  induction fields with
  | nil => cases hplace
  | cons name aliases absent own rest ih =>
    obtain ⟨slot, slots⟩ := slots
    obtain ⟨slot', slots'⟩ := slots'
    obtain ⟨-, hrest, hdisjoint⟩ := List.nodup_append.1 hkeys
    rw [Fields.place] at hplace
    split_ifs at hplace with hkey hslot
    · cases hplace
      have hown : key ∈ name :: aliases := List.mem_cons.2 hkey
      have hnone : slot = none := by simpa using hslot
      -- The fields behind have other names, so the member is nothing to them.
      refine ⟨by simp [hnone], fun _ => ?_,
        h.2.2.cons_of_notMem fun hmem => hdisjoint key hown key hmem rfl⟩
      rw [member?_cons_of_mem hown, h.1 v rfl]
      exact .some hread
    · split at hplace
      · cases hplace
      · cases hplace
      · rename_i hfree
        cases hplace
        refine ⟨h.1, fun hnone => ?_, ih hrest hfree h.2.2⟩
        rw [member?_cons_of_notMem (mt List.mem_cons.1 hkey)]
        exact h.2.1 hnone

end Cons

theorem fills_readMembers {fault : Mismatch → E} {ignore : S → Except E Unit}
    {members : List (Except E String × S)} (hkeys : fields.keys.Nodup)
    (h : readMembers fault ignore fields slots members = .ok slots') :
    fields.Fills (member? members) slots slots' := by
  -- The slots are those that the members before have left, whatever these were.
  induction members generalizing slots with
  | nil =>
    cases h
    exact fields.fills_nothing _
  | cons member members ih =>
    obtain ⟨key, s⟩ := member
    rw [readMembers] at h
    obtain ⟨name, rfl, hnamed⟩ := exists_of_bind_eq_ok h
    split at hnamed
    · rename_i hplace
      obtain ⟨-, -, hrest⟩ := exists_of_bind_eq_ok hnamed
      exact (ih hrest).cons_of_notMem (notMem_keys_of_place hplace)
    · cases hnamed
    · rename_i hplace
      obtain ⟨v, hread, hrest⟩ := exists_of_bind_eq_ok hnamed
      exact (ih hrest).of_place hkeys hplace hread

/-- What was filled, and what stands for the slots that are still vacant. -/
theorem Fills.complete {given : List String → Option S} {row : ρ}
    (h : fields.Fills given fields.vacant slots) (hrow : fields.complete slots = .ok row)
    (index : Nat) : fields.Given (fun names _ => given names) index row := by
  induction fields generalizing index with
  | nil => trivial
  | cons name aliases absent read rest ih =>
    obtain ⟨slot, slots⟩ := slots
    have hvalue : ∀ v : _, ((rest.complete slots).bind fun row => .ok (v, row)) = .ok row →
        Told absent read (given (name :: aliases)) v →
          (cons name aliases absent read rest).Given (fun names _ => given names) index row := by
      intro v hrow htold
      obtain ⟨row, hrest, hrow⟩ := exists_of_bind_eq_ok hrow
      cases hrow
      exact ⟨htold, ih h.2.2 hrest (index + 1)⟩
    have hslot := h.2.1 rfl
    cases hgiven : given (name :: aliases) with
    | some s =>
      rw [hgiven] at hslot hvalue
      obtain ⟨hread⟩ := hslot
      exact hvalue _ hrow (.given hread)
    | none =>
      rw [hgiven] at hslot hvalue
      cases hslot
      cases absent with
      | required => cases hrow
      | nameable v => exact hvalue v hrow (.missing rfl)
      | default v => exact hvalue v hrow (.missing rfl)

theorem given_of_ofMembers {fault : Mismatch → E} {ignore : S → Except E Unit}
    {members : List (Except E String × S)} {row : ρ} (hkeys : fields.keys.Nodup)
    (h : ofMembers fault ignore fields members = .ok row) :
    fields.Given (fun names _ => member? members names) 0 row := by
  obtain ⟨slots, hslots, hrow⟩ := exists_of_bind_eq_ok h
  exact (fills_readMembers hkeys hslots).complete (of_mapError_eq_ok hrow) 0

/-! ### By place -/

theorem given_of_readItems {fault : Mismatch → E} {expected : String} {all : List S} {index : Nat}
    {row : ρ} {items : List S}
    (h : readItems fault expected fields index (all.drop index) = .ok (row, items)) :
    fields.Given (fun _ place => all[place]?) index row := by
  induction fields generalizing index items with
  | nil => trivial
  | cons name aliases absent read rest ih =>
    cases hitems : all.drop index with
    | nil =>
      have hlength : all.length ≤ index := List.drop_eq_nil_iff.1 hitems
      rw [hitems, readItems] at h
      obtain ⟨v, hv, h⟩ := exists_of_bind_eq_ok h
      obtain ⟨⟨row, items⟩, hrest, h⟩ := exists_of_bind_eq_ok h
      cases h
      rw [← List.drop_eq_nil_iff.2 (hlength.trans index.le_succ)] at hrest
      have htold : Told absent read none v := by
        cases absent <;> cases hv
        exact .missing rfl
      rw [← List.getElem?_eq_none hlength] at htold
      exact ⟨htold, ih hrest⟩
    | cons s rest' =>
      rw [hitems, readItems] at h
      obtain ⟨v, hv, h⟩ := exists_of_bind_eq_ok h
      obtain ⟨⟨row, items⟩, hrest, h⟩ := exists_of_bind_eq_ok h
      cases h
      have hdrop : all.drop (index + 1) = rest' := by
        rw [← List.drop_drop, hitems, List.drop_one, List.tail_cons]
      have hget : all[index]? = some s := by
        rw [← List.head?_drop, hitems, List.head?_cons]
      have htold : Told absent read (some s) v := .given hv
      rw [← hget] at htold
      rw [← hdrop] at hrest
      exact ⟨htold, ih hrest⟩

end Given

end Fields

end TreeAtlas.Record

namespace TreeAtlas.Json5

open Record (Fields Told)

/-- What a record gives under some names, or, where its fields have no names, at a place. -/
def Node.given? : Node → List String → Nat → Option Node
  | .object members, names, _ =>
    Record.member? (members.map fun member => (valued (text member.1), member.2)) names
  | .array items, _, index => items[index]?
  | _, _, _ => none

/-- The values of a record are told by what it gives. -/
theorem exists_row_of_recordAt {α ρ σ : Type} {name : String} {fields : Fields Reader ρ σ}
    {build : ρ → α} {a : α} {node : Node} (hkeys : fields.keys.Nodup)
    (h : recordAt name fields build node = .ok a) :
    ∃ row, fields.Given node.given? 0 row ∧ build row = a := by
  have hrefuse : ∀ node, refuse ("struct " ++ name) node ≠ .ok a := by
    intro node hnode
    obtain ⟨found, -, hfound⟩ := exists_of_bind_eq_ok hnode
    cases hfound
  cases node with
  | object members =>
    obtain ⟨row, hrow, h⟩ := exists_of_bind_eq_ok (f := fun row => .ok (build row)) h
    exact ⟨row, Fields.given_of_ofMembers hkeys hrow, Except.ok.inj h⟩
  | array items =>
    obtain ⟨⟨row, rest⟩, hrow, h⟩ :=
      exists_of_bind_eq_ok (f := fun x : ρ × List Node => .ok (build x.1)) h
    exact ⟨row, Fields.given_of_readItems hrow, Except.ok.inj h⟩
  | _ => exact absurd h (hrefuse _)

/-! ### Entries -/

/-- What a record gives for a field. -/
def lookup? (record : Option Node) (name : String) (place : Nat) : Option Node :=
  record.bind fun node => node.given? [name] place

def Node.isNull : Node → Bool
  | .null => true
  | _ => false

/-- What a record gives for a field that may be null, which is as good as nothing. -/
def present? (record : Option Node) (name : String) (place : Nat) : Option Node :=
  (lookup? record name place).filter fun node => !node.isNull

/-- The value of an entry, or the standard one if there is none. -/
def valueOr {α : Type} (standard : α) (read : Reader α) : Option Node → Except ReadError α
  | some node => read node
  | none => .ok standard

section Entries

variable {α : Type} {standard : α} {read : Reader α} {entry : Option Node}

theorem valueOr_of_told {v : α} (h : Told (.default standard) read entry v) :
    valueOr standard read entry = .ok v := by
  cases h with
  | given h => exact h
  | missing h =>
    cases h
    rfl

theorem rel_of_told {v : Option α} (h : Told (.nameable none) (format.optional read) entry v) :
    Option.Rel (fun node w => read node = .ok w) (entry.filter fun node => !node.isNull) v := by
  cases h with
  | @given node _ h =>
    cases node with
    | null =>
      cases h
      exact .none
    | _ =>
      obtain ⟨w, hw, hv⟩ := exists_of_bind_eq_ok (f := fun w => .ok (some w)) h
      cases hv
      exact .some hw
  | missing h =>
    cases h
    exact .none

theorem valueOr_of_rel {v : Option α} (h : Option.Rel (fun node w => read node = .ok w) entry v)
    (standard : α) : valueOr standard read entry = .ok (v.getD standard) := by
  cases h with
  | some h => exact h
  | none => rfl

end Entries

end TreeAtlas.Json5
