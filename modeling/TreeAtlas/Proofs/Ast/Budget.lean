import TreeAtlas.Proofs.Ast.Contents
import TreeAtlas.Proofs.Json.Retelling

/-!
# Levels of nodes and levels of brackets

The loader counts levels of nodes, and the scan in front of the parser counts levels of brackets.  A
node in an array lies two levels of brackets below the node above it, and a side of a pair lies
one below.  So a document that is loaded, and that keeps nothing deeper than is granted outside
its containers, goes beyond the bracket limit by one level at most.  It does so exactly if an
object at the limit, with only arrays above it, keeps something that takes up all that is
granted: the bracket of the object itself is not counted in (`budgeted_of_fits`).  What is read
again from the text is the document with other numbers at most, so the loader lets it through
(`Retold.exceeds`).
-/

namespace TreeAtlas

namespace Json

/-! ### What is kept outside of containers -/

/-- Keys of the fields that are the container of an entry. -/
def containerKeys (v : Json) : List String :=
  (v.container?.map Container.fields).getD []

/-- What an entry keeps outside of its container, its identifier and its type included.  An entry
that is no object is kept as it is. -/
def kept : Json → List Json
  | .obj fields =>
    (fields.filter fun field => !(obj fields).containerKeys.contains field.1).map Prod.snd
  | v => [v]

/-- What the entries of a document keep nests no deeper than this. -/
def KeepsWithin (v : Json) (bound : Nat) : Prop :=
  v.tree.All fun entry => ∀ w ∈ entry.kept, w.depth ≤ bound

/-- An entry so many levels below another one, with arrays of entries all the way down. -/
inductive ListedBelow : Json → Nat → Json → Prop where
  | here (v : Json) : ListedBelow v 0 v
  | step {v entry w : Json} {container : Container} {levels : Nat}
      (hc : v.container? = some container) (hlist : container ≠ .binary)
      (he : entry ∈ v.offspring) (below : ListedBelow entry levels w) :
      ListedBelow v (levels + 1) w

/-- An object so many levels down, with arrays of entries all the way, keeps something that takes
up all the nesting that is granted to it. -/
def Brimful (v : Json) (levels : Nat) : Prop :=
  ∃ fields, v.ListedBelow levels (.obj fields)
    ∧ ∃ w ∈ (obj fields).kept, w.depth = attributeNesting

/-! ### Containers -/

section Containers

variable {v w entry : Json} {fields : Fields} {key : String} {container : Container}

/-- A container is an array under a key, or a pair. -/
theorem container?_cases (v : Json) :
    (v.container? = none ∧ v.offspring = [])
      ∨ (∃ container key, v.container? = some container ∧ container ≠ .binary
          ∧ container.fields = [key] ∧ v.field? key = some (.arr v.offspring))
      ∨ ∃ left right, v.container? = some .binary ∧ v.offspring = [left, right]
          ∧ v.field? "left" = some left ∧ v.field? "right" = some right := by
  have harr : ∀ {key items}, (v.field? key).bind items? = some items →
      v.field? key = some (.arr items) := by
    intro key items h
    obtain ⟨w, hw, hitems⟩ := Option.bind_eq_some_iff.1 h
    cases w <;> cases hitems
    exact hw
  unfold container? offspring
  rcases hchildren : (v.field? "children").bind items? with _ | items
  case some => exact .inr (.inl ⟨.children, "children", rfl, by decide, rfl, harr hchildren⟩)
  rcases hbody : (v.field? "body").bind items? with _ | items
  case some => exact .inr (.inl ⟨.body, "body", rfl, by decide, rfl, harr hbody⟩)
  unfold sides
  rcases v.field? "left" with _ | left
  · exact .inl (by simp)
  rcases v.field? "right" with _ | right
  · exact .inl (by simp)
  by_cases h : left.isTruthy ∧ right.isTruthy
  · exact .inr (.inr ⟨left, right, by simp [h]⟩)
  · exact .inl (by simp [h])

theorem containerOf?_of_container? (h : v.container? = some container) :
    containerOf? v = some (container, v.offspring) := by
  rw [containerOf?_eq, h]
  rfl

/-- Where no key is repeated, the fields are what is found. -/
theorem mem_iff_find? (h : (fields.map Prod.fst).Nodup) :
    (key, w) ∈ fields ↔ fields.find? key = some w := by
  unfold Fields.find?
  induction fields with
  | nil => simp
  | cons field rest ih =>
    obtain ⟨k, x⟩ := field
    rw [List.map_cons, List.nodup_cons] at h
    rw [List.mem_cons, List.lookup_cons]
    by_cases hk : key = k
    · subst hk
      have hrest : (key, w) ∉ rest := fun hmem => h.1 (List.mem_map.2 ⟨_, hmem, rfl⟩)
      simp [hrest, eq_comm]
    · rw [beq_false_of_ne hk, ← ih h.2]
      simp [hk]

/-- The depth of an object is that of what it keeps and of what is in its container. -/
theorem depth_obj_le_iff (h : (fields.map Prod.fst).Nodup) {m : Nat} :
    (obj fields).depth ≤ m + 1
      ↔ (∀ w ∈ (obj fields).kept, w.depth ≤ m)
        ∧ ∀ key ∈ (obj fields).containerKeys, ∀ w, (obj fields).field? key = some w →
          w.depth ≤ m := by
  rw [depth, Nat.add_le_add_iff_right, fieldsDepth_le_iff]
  refine ⟨fun hall => ⟨fun w hw => ?_, fun key _ w hw => ?_⟩, fun ⟨hkept, hheld⟩ field hfield => ?_⟩
  · obtain ⟨field, hfield, rfl⟩ := List.mem_map.1 hw
    exact hall field (List.mem_filter.1 hfield).1
  · exact hall (key, w) ((mem_iff_find? h).2 hw)
  · by_cases hkey : field.1 ∈ (obj fields).containerKeys
    · exact hheld field.1 hkey field.2 ((mem_iff_find? h).1 hfield)
    · exact hkept field.2 (List.mem_map_of_mem (List.mem_filter.2 ⟨hfield, by simpa using hkey⟩))

theorem depth_leaf_le_iff (h : (fields.map Prod.fst).Nodup)
    (hc : (obj fields).container? = none) {m : Nat} :
    (obj fields).depth ≤ m + 1 ↔ ∀ w ∈ (obj fields).kept, w.depth ≤ m := by
  rw [depth_obj_le_iff h, containerKeys, hc]
  simp

/-- An array of entries lies a level of brackets below the object, and its items lie two. -/
theorem depth_list_le_iff (h : (fields.map Prod.fst).Nodup)
    (hc : (obj fields).container? = some container) (hkey : container.fields = [key])
    (hfield : (obj fields).field? key = some (arr (obj fields).offspring)) {m : Nat} :
    (obj fields).depth ≤ m + 2
      ↔ (∀ w ∈ (obj fields).kept, w.depth ≤ m + 1)
        ∧ ∀ entry ∈ (obj fields).offspring, entry.depth ≤ m := by
  rw [depth_obj_le_iff h, containerKeys, hc]
  simp [hkey, hfield, depth, itemsDepth_le_iff]

theorem depth_pair_le_iff {left right : Json} (h : (fields.map Prod.fst).Nodup)
    (hc : (obj fields).container? = some .binary) (ho : (obj fields).offspring = [left, right])
    (hl : (obj fields).field? "left" = some left)
    (hr : (obj fields).field? "right" = some right) {m : Nat} :
    (obj fields).depth ≤ m + 1
      ↔ (∀ w ∈ (obj fields).kept, w.depth ≤ m)
        ∧ ∀ entry ∈ (obj fields).offspring, entry.depth ≤ m := by
  rw [depth_obj_le_iff h, containerKeys, hc, ho]
  simp [Container.fields, hl, hr]

/-! ### Entries below -/

theorem Ordered.nodup_keys (h : (obj fields).Ordered) : (fields.map Prod.fst).Nodup := by
  simp only [Ordered] at h
  exact h.1.imp fun hlt => ne_of_lt hlt

theorem Ordered.of_field? (h : v.Ordered) (hw : v.field? key = some w) : w.Ordered := by
  cases v with
  | obj fields =>
    exact h.of_mem_parts (List.mem_map_of_mem ((mem_iff_find? h.nodup_keys).2 hw))
  | _ => cases hw

theorem Ordered.of_mem_offspring (h : v.Ordered) (he : entry ∈ v.offspring) : entry.Ordered := by
  rcases container?_cases v with ⟨-, ho⟩ | ⟨container, key, -, -, -, hfield⟩
    | ⟨left, right, -, ho, hl, hr⟩
  · rw [ho] at he
    cases he
  · exact (h.of_field? hfield).of_mem_parts he
  · rw [ho, List.mem_pair] at he
    rcases he with rfl | rfl
    · exact h.of_field? hl
    · exact h.of_field? hr

theorem all_forest {p : Json → Prop} (vs : List Json) :
    (forest vs).All p ↔ ∀ v ∈ vs, v.tree.All p := by
  induction vs with
  | nil => simp [Forest.All]
  | cons v vs ih =>
    rw [List.forall_mem_cons, ← ih]
    by_cases hv : v.isTruthy = true
    · rw [forest_cons_of_truthy hv, tree_of_truthy hv]
      simp [Forest.All, and_assoc]
    · have hv : v.isTruthy = false := by simpa using hv
      rw [forest_cons_of_falsy hv, tree_of_falsy hv]
      simp [Forest.All]

theorem keepsWithin_iff (hv : v.isTruthy = true) {bound : Nat} :
    v.KeepsWithin bound
      ↔ (∀ w ∈ v.kept, w.depth ≤ bound) ∧ ∀ entry ∈ v.offspring, entry.KeepsWithin bound := by
  unfold KeepsWithin
  rw [tree_of_truthy hv, Forest.All, all_forest]
  simp [Forest.All]

theorem exceeds_iff {limit depth : Nat} (vs : List Json) :
    Exceeds limit depth vs ↔ ∃ v ∈ vs, Exceeds limit depth [v] := by
  induction vs with
  | nil => simp [not_exceeds_nil]
  | cons v vs ih => rw [exceeds_cons, ih, List.exists_mem_cons_iff]

theorem listedBelow_zero : v.ListedBelow 0 w ↔ w = v := by
  refine ⟨fun h => ?_, ?_⟩
  · cases h
    rfl
  · rintro rfl
    exact .here w

theorem listedBelow_succ {levels : Nat} :
    v.ListedBelow (levels + 1) w
      ↔ (∃ container, v.container? = some container ∧ container ≠ .binary)
        ∧ ∃ entry ∈ v.offspring, entry.ListedBelow levels w := by
  refine ⟨fun h => ?_, fun ⟨⟨container, hc, hlist⟩, entry, he, below⟩ => .step hc hlist he below⟩
  cases h with
  | step hc hlist he below => exact ⟨⟨_, hc, hlist⟩, _, he, below⟩

theorem brimful_succ {levels : Nat} :
    v.Brimful (levels + 1)
      ↔ (∃ container, v.container? = some container ∧ container ≠ .binary)
        ∧ ∃ entry ∈ v.offspring, entry.Brimful levels := by
  simp only [Brimful, listedBelow_succ]
  constructor
  · rintro ⟨fields, ⟨hc, entry, he, below⟩, hfull⟩
    exact ⟨hc, entry, he, fields, below, hfull⟩
  · rintro ⟨hc, entry, he, fields, below, hfull⟩
    exact ⟨fields, ⟨hc, entry, he, below⟩, hfull⟩

theorem not_brimful_of_leaf {levels : Nat} (hc : v.container? = none) :
    ¬ v.Brimful (levels + 1) := by
  rw [brimful_succ]
  rintro ⟨⟨container, hsome, -⟩, -⟩
  rw [hc] at hsome
  cases hsome

theorem brimful_obj_zero :
    (obj fields).Brimful 0 ↔ ∃ w ∈ (obj fields).kept, w.depth = attributeNesting := by
  simp [Brimful, listedBelow_zero]

end Containers

/-! ### Levels of brackets -/

/-- A value goes beyond the levels of brackets that so many levels of nodes are granted by one at
most, and only where it is brimful. -/
structure Budgeted (v : Json) (levels : Nat) : Prop where
  depth_le : v.depth ≤ 2 * levels + attributeNesting + 1
  lt_depth_iff : 2 * levels + attributeNesting < v.depth ↔ v.Brimful levels

section Budgeted

variable {v : Json} {fields : Fields} {key : String} {container : Container} {levels : Nat}

/-- A value that is no object is kept as it is. -/
theorem budgeted_scalar (hv : ∀ fields, v ≠ obj fields) (h : v.depth ≤ attributeNesting) :
    v.Budgeted levels := by
  have hc : v.container? = none := by
    cases v with
    | obj fields => exact absurd rfl (hv fields)
    | _ => rfl
  refine ⟨by omega, iff_of_false (by omega) fun hfull => ?_⟩
  cases levels with
  | zero =>
    obtain ⟨fields, below, -⟩ := hfull
    exact hv fields (listedBelow_zero.1 below).symm
  | succ levels => exact not_brimful_of_leaf hc hfull

theorem budgeted_falsy (hv : v.isTruthy = false) : v.Budgeted levels := by
  refine budgeted_scalar (fun fields hobj => ?_) ?_
  · rw [hobj] at hv
    cases hv
  · cases v with
    | arr items => cases hv
    | obj fields => cases hv
    | _ => exact Nat.zero_le _

variable (h : (fields.map Prod.fst).Nodup)
  (hkept : ∀ w ∈ (obj fields).kept, w.depth ≤ attributeNesting)

include h hkept

theorem budgeted_leaf (hc : (obj fields).container? = none) : (obj fields).Budgeted levels := by
  have hle : (obj fields).depth ≤ attributeNesting + 1 := (depth_leaf_le_iff h hc).2 hkept
  refine ⟨by omega, ?_⟩
  cases levels with
  | zero =>
    have hlt : (obj fields).depth ≤ 63 + 1 ↔ _ := depth_leaf_le_iff h hc
    rw [brimful_obj_zero, ← not_le, show 2 * 0 + attributeNesting = 63 + 1 from rfl, hlt]
    push Not
    refine exists_congr fun w => and_congr_right fun hw => ?_
    have := hkept w hw
    rw [attributeNesting] at this ⊢
    omega
  | succ levels =>
    exact iff_of_false (by rw [attributeNesting] at hle ⊢; omega) (not_brimful_of_leaf hc)

theorem budgeted_list (hc : (obj fields).container? = some container)
    (hlist : container ≠ .binary) (hkey : container.fields = [key])
    (hfield : (obj fields).field? key = some (arr (obj fields).offspring))
    (hentries : ∀ entry ∈ (obj fields).offspring, entry.Budgeted levels) :
    (obj fields).Budgeted (levels + 1) := by
  have hbound : ∀ m, attributeNesting ≤ m → ((obj fields).depth ≤ m + 2
      ↔ ∀ entry ∈ (obj fields).offspring, entry.depth ≤ m) := fun m hm => by
    rw [depth_list_le_iff h hc hkey hfield]
    exact and_iff_right fun w hw => (hkept w hw).trans (by omega)
  refine ⟨?_, ?_⟩
  · have hle := (hbound (2 * levels + attributeNesting + 1) (by omega)).2 fun entry he =>
      (hentries entry he).depth_le
    omega
  · rw [brimful_succ, and_iff_right ⟨container, hc, hlist⟩, ← not_le,
      show 2 * (levels + 1) + attributeNesting = 2 * levels + attributeNesting + 2 by omega,
      hbound _ (by omega)]
    push Not
    exact exists_congr fun entry => and_congr_right fun he => (hentries entry he).lt_depth_iff

theorem budgeted_pair {left right : Json} (hc : (obj fields).container? = some .binary)
    (ho : (obj fields).offspring = [left, right]) (hl : (obj fields).field? "left" = some left)
    (hr : (obj fields).field? "right" = some right)
    (hentries : ∀ entry ∈ (obj fields).offspring, entry.Budgeted levels) :
    (obj fields).Budgeted (levels + 1) := by
  have hle : (obj fields).depth ≤ 2 * levels + attributeNesting + 1 + 1 :=
    (depth_pair_le_iff h hc ho hl hr).2 ⟨fun w hw => (hkept w hw).trans (by omega),
      fun entry he => (hentries entry he).depth_le⟩
  refine ⟨by omega, iff_of_false (by omega) ?_⟩
  rw [brimful_succ]
  rintro ⟨⟨container, hsome, hlist⟩, -⟩
  rw [hc, Option.some.injEq] at hsome
  exact hlist hsome.symm

end Budgeted

/-- A document that is loaded and keeps what is granted stays within the levels of brackets, but
for the level of an object at the limit. -/
theorem budgeted_of_fits {v : Json} {limit depth levels : Nat} (hlimit : depth + levels = limit)
    (hv : v.Ordered) (hfits : ¬ Exceeds limit depth [v])
    (hkept : v.KeepsWithin attributeNesting) : v.Budgeted levels := by
  induction levels using Nat.strong_induction_on generalizing depth v with
  | _ levels ih =>
    by_cases htruthy : v.isTruthy = true
    case neg => exact budgeted_falsy (by simpa using htruthy)
    obtain ⟨hown, hbelow⟩ := (keepsWithin_iff htruthy).1 hkept
    cases v with
    | obj fields =>
      have hkeys := hv.nodup_keys
      -- a container takes up one of the levels that are left
      have hentries : ∀ container, (obj fields).container? = some container →
          ∃ left, levels = left + 1 ∧ ∀ entry ∈ (obj fields).offspring, entry.Budgeted left := by
        intro container hc
        rw [exceeds_of_container (containerOf?_of_container? hc), not_or, not_le, exceeds_iff]
          at hfits
        obtain ⟨left, rfl⟩ : ∃ left, levels = left + 1 := Nat.exists_eq_succ_of_ne_zero (by omega)
        have hroom : depth + 1 + left = limit := by omega
        exact ⟨left, rfl, fun entry he => ih left (Nat.lt_succ_self left) hroom
          (hv.of_mem_offspring he) (fun hdeep => hfits.2 ⟨entry, he, hdeep⟩) (hbelow entry he)⟩
      rcases container?_cases (obj fields) with ⟨hc, -⟩ | ⟨container, key, hc, hlist, hkey, hfield⟩
        | ⟨left, right, hc, ho, hl, hr⟩
      · exact budgeted_leaf hkeys hown hc
      · obtain ⟨left, rfl, hbudget⟩ := hentries container hc
        exact budgeted_list hkeys hown hc hlist hkey hfield hbudget
      · obtain ⟨left, rfl, hbudget⟩ := hentries .binary hc
        exact budgeted_pair hkeys hown hc ho hl hr hbudget
    | _ => exact budgeted_scalar (by simp) (hown _ (by simp [kept]))

/-! ### Reading again -/

section Retold

variable {v w : Json} {container : Container}

theorem Retold.field? (h : Retold v w) (key : String) :
    Option.Rel Retold (v.field? key) (w.field? key) := by
  cases h with
  | obj fields => exact fields.find? key
  | _ => exact .none

theorem Retold.items? (h : Retold v w) : Option.Rel RetoldItems v.items? w.items? := by
  cases h with
  | arr items => exact .some items
  | _ => exact .none

theorem Retold.bind_items? (h : Retold v w) (key : String) :
    Option.Rel RetoldItems ((v.field? key).bind Json.items?) ((w.field? key).bind Json.items?) := by
  have hfield := h.field? key
  generalize v.field? key = before, w.field? key = again at hfield
  cases hfield with
  | some hfield => exact hfield.items?
  | none => exact .none

/-- A container that is read again was there, with the entries in it. -/
theorem Retold.container? (h : Retold v w) (hw : w.container? = some container) :
    v.container? = some container ∧ RetoldItems v.offspring w.offspring := by
  have hchildren := h.bind_items? "children"
  have hbody := h.bind_items? "body"
  have hleft := h.field? "left"
  have hright := h.field? "right"
  unfold Json.container? offspring sides at *
  generalize (v.field? "children").bind Json.items? = children,
    (w.field? "children").bind Json.items? = children' at *
  generalize (v.field? "body").bind Json.items? = body,
    (w.field? "body").bind Json.items? = body' at *
  generalize v.field? "left" = left, w.field? "left" = left' at *
  generalize v.field? "right" = right, w.field? "right" = right' at *
  cases hchildren with
  | some items => exact ⟨hw, items⟩
  | none =>
  cases hbody with
  | some items => exact ⟨hw, items⟩
  | none =>
  cases hleft with
  | none => simp at hw
  | some hleft =>
  cases hright with
  | none => simp at hw
  | some hright =>
    simp only [Option.any_some, Option.ite_none_right_eq_some] at hw ⊢
    have hboth := And.intro (hleft.isTruthy hw.1.1) (hright.isTruthy hw.1.2)
    rw [if_pos hboth, if_pos hw.1]
    exact ⟨⟨hboth, hw.2⟩, .cons hleft (.cons hright .nil)⟩

/-- What is read again has no entry too deep that the document has not. -/
theorem Retold.exceeds {limit depth : Nat} {v w : Json} (h : Retold v w)
    (hw : Exceeds limit depth [w]) : Exceeds limit depth [v] := by
  rcases hc : w.container? with _ | container
  · have hnone : containerOf? w = none := by rw [containerOf?_eq, hc, Option.map_none]
    exact absurd hw (not_exceeds_of_leaf hnone)
  obtain ⟨hcv, hentries⟩ := h.container? hc
  rw [exceeds_of_container (containerOf?_of_container? hcv)]
  rcases Nat.lt_or_ge depth limit with hlt | hle
  · rw [exceeds_of_container (containerOf?_of_container? hc), exceeds_iff] at hw
    obtain ⟨x, hx, hdeep⟩ := hw.resolve_left (Nat.not_le.2 hlt)
    obtain ⟨y, hy, hyx⟩ := hentries.exists_of_mem hx
    exact .inr ((exceeds_iff _).2 ⟨y, hy, hyx.exceeds hdeep⟩)
  · exact .inl hle
termination_by limit - depth

end Retold

end Json

/-! ### Documents -/

/-- No other limit is named than the one that was set. -/
theorem eq_limit_of_readDocument {limit l : Nat} {text : String}
    (h : readDocument limit text = .error (.tooDeep l)) : l = limit := by
  rcases Nat.lt_or_ge (min (2 * limit + 64) wordLimit) (Json.nesting text.toList) with hlt | hle
  · rw [Json.readDocument_of_lt hlt] at h
    cases h
    rfl
  · rw [Json.readDocument_of_le hle] at h
    cases hparse : Json.parse none text <;> rw [hparse] at h <;> cases h

/-- A document that is loaded, and that keeps nothing deeper than is granted, is too deep as a text
only where an object at the limit keeps all that is granted. -/
theorem ofText_tooDeep_iff {limit : Nat} {v : Json} {ast : Ast} (hv : v.Ordered)
    (hload : (Ast.ofJson limit v).outcome.value = .ok ast)
    (hkept : v.KeepsWithin attributeNesting) (l : Nat) :
    (Ast.ofText limit v.write).outcome.value = .error (.tooDeep l)
      ↔ l = limit ∧ (v.Brimful limit ∨ wordLimit < v.depth) := by
  have hfits : ¬ Json.Exceeds limit 0 [v] := by
    intro hdeep
    rw [ofJson_eq_error_iff.2 ⟨rfl, hdeep⟩] at hload
    cases hload
  have hbudget := Json.budgeted_of_fits (Nat.zero_add limit) hv hfits hkept
  have hguard : readDocument limit v.write = .error (.tooDeep limit)
      ↔ v.Brimful limit ∨ wordLimit < v.depth := by
    rw [Json.readDocument_eq_tooDeep_iff, Json.nesting_write, ← hbudget.lt_depth_iff, min_lt_iff]
    rfl
  rw [← hguard, Ast.ofText, Attempt.value_bind, Attempt.value_ofExcept]
  cases hread : readDocument limit v.write with
  | error e =>
    simp only [Except.bind, Except.error.injEq]
    constructor
    · rintro rfl
      exact ⟨eq_limit_of_readDocument hread, by rw [eq_limit_of_readDocument hread]⟩
    · rintro ⟨rfl, h⟩
      exact h
  | ok w =>
    refine iff_of_false (fun h => hfits ?_) (by simp)
    have hw := Json.retold_of_parse hv (Json.parse_of_readDocument hread).2
    exact hw.exceeds (ofJson_eq_error_iff.1 h).2

/-- So many lists in one another. -/
def Json.lists : Nat → Json
  | 0 => .null
  | n + 1 => .arr [lists n]

/-- A node with one child, which keeps lists in one another. -/
def Json.listsBelow (n : Nat) : Json :=
  .obj [("children", .arr [.obj [("a", lists n)]])]

section ListsBelow

variable {n : Nat}

theorem Json.depth_lists (n : Nat) : (Json.lists n).depth = n := by
  induction n with
  | zero => rfl
  | succ n ih => simp [lists, depth, itemsDepth, ih]

theorem Json.depth_listsBelow (n : Nat) : (Json.listsBelow n).depth = n + 3 := by
  simp [listsBelow, depth, itemsDepth, fieldsDepth, depth_lists]

theorem Json.ordered_listsBelow (n : Nat) : (Json.listsBelow n).Ordered := by
  have hlists : (lists n).Ordered := by
    induction n with
    | zero => simp only [lists, Ordered]
    | succ n ih => simp only [lists, Ordered, OrderedItems, ih, and_self]
  simp [listsBelow, Ordered, OrderedItems, OrderedFields, hlists]

theorem Json.offspring_listsBelow (n : Nat) :
    (Json.listsBelow n).offspring = [.obj [("a", lists n)]] := rfl

theorem Json.kept_below (n : Nat) : (Json.obj [("a", lists n)]).kept = [lists n] := rfl

theorem Json.keepsWithin_listsBelow (h : n ≤ attributeNesting) :
    (Json.listsBelow n).KeepsWithin attributeNesting := by
  have hroot : (listsBelow n).kept = [] := rfl
  have hleaf : (obj [("a", lists n)]).offspring = [] := rfl
  rw [keepsWithin_iff rfl, offspring_listsBelow, hroot, List.forall_mem_singleton,
    keepsWithin_iff rfl, hleaf, kept_below, List.forall_mem_singleton, depth_lists]
  simpa using h

theorem Json.brimful_listsBelow : (Json.listsBelow n).Brimful 1 ↔ n = attributeNesting := by
  have hc : (listsBelow n).container? = some .children := rfl
  rw [brimful_succ, offspring_listsBelow, hc]
  simp [brimful_obj_zero, kept_below, depth_lists]

/-- One level of nodes lies below the root, so these documents are loaded. -/
theorem Ast.exists_ofJson_listsBelow (n : Nat) :
    ∃ ast, (Ast.ofJson 1 (.listsBelow n)).outcome.value = .ok ast := by
  have hroot : containerOf? (.listsBelow n) = some (.children, (Json.listsBelow n).offspring) := rfl
  have hleaf : containerOf? (.obj [("a", Json.lists n)]) = none := rfl
  cases hload : (Ast.ofJson 1 (.listsBelow n)).outcome.value with
  | ok ast => exact ⟨ast, rfl⟩
  | error e =>
    have hdeep := (ofJson_eq_error_iff.1 hload).2
    rw [exceeds_of_container hroot] at hdeep
    exact absurd (hdeep.resolve_left (by decide)) (not_exceeds_of_leaf hleaf)

end ListsBelow

/-- One level less than is granted is let through. -/
theorem ofText_listsBelow :
    (Ast.ofText 1 (Json.listsBelow 63).write).outcome.value ≠ .error (.tooDeep 1) := by
  intro h
  obtain ⟨ast, hload⟩ := Ast.exists_ofJson_listsBelow 63
  have hbudget := (ofText_tooDeep_iff (Json.ordered_listsBelow 63) hload
    (Json.keepsWithin_listsBelow (by decide)) 1).1 h
  rw [Json.brimful_listsBelow, Json.depth_listsBelow] at hbudget
  exact absurd hbudget.2 (by decide)

/-- What is granted is not let through, though the document is loaded. -/
theorem ofText_listsBelow_tooDeep :
    (Json.listsBelow 64).Ordered
      ∧ (∃ ast, (Ast.ofJson 1 (Json.listsBelow 64)).outcome.value = .ok ast)
      ∧ (Json.listsBelow 64).KeepsWithin attributeNesting
      ∧ (Ast.ofText 1 (Json.listsBelow 64).write).outcome.value = .error (.tooDeep 1) := by
  refine ⟨Json.ordered_listsBelow 64, Ast.exists_ofJson_listsBelow 64,
    Json.keepsWithin_listsBelow (Nat.le_refl 64), ?_⟩
  have hread : readDocument 1 (Json.listsBelow 64).write = .error (.tooDeep 1) := by
    rw [Json.readDocument_eq_tooDeep_iff, Json.nesting_write, Json.depth_listsBelow]
    decide
  rw [Ast.ofText, Attempt.value_bind, Attempt.value_ofExcept, hread]
  rfl

end TreeAtlas
