import TreeAtlas.Proofs.Decimal.Rereading
import TreeAtlas.Proofs.Json.Nesting
import TreeAtlas.Proofs.Json.Rereading

/-!
# What comes back of a value that was written

A floating point number may come back from its text as another one, or not at all, so the text of a
value need not spell that value.  But a number is read from figures, and behind a value stands
what is none of them.  So whatever the text spells has the same lists and objects, with other
numbers at most (`exists_retold`), and so has what is parsed (`retold_of_parse`).  Whole numbers and
zeros come back as they were, and with that no value comes back as present that did not count as
present.
-/

namespace TreeAtlas.Json

mutual

/-- The same value apart from its numbers, of which a zero comes back as a zero. -/
inductive Retold : Json → Json → Prop where
  | null : Retold .null .null
  | bool (b : Bool) : Retold (.bool b) (.bool b)
  | num {n m : Number} (h : n.isZero = true → m.isZero = true) : Retold (.num n) (.num m)
  | str (t : String) : Retold (.str t) (.str t)
  | arr {vs ws : List Json} (items : RetoldItems vs ws) : Retold (.arr vs) (.arr ws)
  | obj {fs gs : List (String × Json)} (fields : RetoldFields fs gs) : Retold (.obj fs) (.obj gs)

inductive RetoldItems : List Json → List Json → Prop where
  | nil : RetoldItems [] []
  | cons {v w : Json} {vs ws : List Json} (item : Retold v w) (more : RetoldItems vs ws) :
      RetoldItems (v :: vs) (w :: ws)

inductive RetoldFields : List (String × Json) → List (String × Json) → Prop where
  | nil : RetoldFields [] []
  | cons {key : String} {v w : Json} {fs gs : List (String × Json)} (value : Retold v w)
      (more : RetoldFields fs gs) : RetoldFields ((key, v) :: fs) ((key, w) :: gs)

end

/-! ### What stays the same -/

section Retold

variable {v w : Json} {vs ws : List Json} {fs gs : Fields}

theorem Retold.isTruthy (h : Retold v w) (hw : w.isTruthy = true) : v.isTruthy = true := by
  cases h with
  | @num n m h =>
    simp only [Json.isTruthy, Bool.not_eq_true'] at hw ⊢
    cases hn : n.isZero with
    | false => rfl
    | true =>
      rw [h hn] at hw
      cases hw
  | arr => rfl
  | obj => rfl
  | _ => exact hw

theorem RetoldItems.exists_of_mem (h : RetoldItems vs ws) (hw : w ∈ ws) : ∃ v ∈ vs, Retold v w := by
  induction ws generalizing vs with
  | nil => cases hw
  | cons w' ws ih =>
    cases h with
    | cons item more =>
      rcases List.mem_cons.1 hw with rfl | hw
      · exact ⟨_, List.mem_cons_self, item⟩
      · obtain ⟨v, hv, hvw⟩ := ih more hw
        exact ⟨v, List.mem_cons_of_mem _ hv, hvw⟩

theorem RetoldFields.keys_eq (h : RetoldFields fs gs) : fs.map Prod.fst = gs.map Prod.fst := by
  induction gs generalizing fs with
  | nil => cases h; rfl
  | cons g gs ih =>
    cases h with
    | cons _ more => rw [List.map_cons, List.map_cons, ih more]

/-- Each field is there again. -/
theorem RetoldFields.find? (h : RetoldFields fs gs) (key : String) :
    Option.Rel Retold (fs.find? key) (gs.find? key) := by
  unfold Fields.find?
  induction gs generalizing fs with
  | nil =>
    cases h
    exact .none
  | cons g gs ih =>
    cases h with
    | @cons k v w fs gs value more =>
      rw [List.lookup_cons, List.lookup_cons]
      cases key == k with
      | true => exact .some value
      | false => exact ih more

mutual

theorem Retold.ordered : ∀ {v w : Json}, Retold v w → v.Ordered → w.Ordered
  | _, _, .null, _ => by simp only [Ordered]
  | _, _, .bool b, _ => by simp only [Ordered]
  | _, _, .num _, _ => by simp only [Ordered]
  | _, _, .str t, _ => by simp only [Ordered]
  | _, _, .arr items, h => by
    simp only [Ordered] at h ⊢
    exact items.ordered h
  | _, _, .obj fields, h => by
    simp only [Ordered] at h ⊢
    exact ⟨fields.keys_eq ▸ h.1, fields.ordered h.2⟩

theorem RetoldItems.ordered : ∀ {vs ws : List Json}, RetoldItems vs ws → OrderedItems vs →
    OrderedItems ws
  | _, _, .nil, h => h
  | _, _, .cons item more, h => by
    simp only [OrderedItems] at h ⊢
    exact ⟨item.ordered h.1, more.ordered h.2⟩

theorem RetoldFields.ordered : ∀ {fs gs : List (String × Json)}, RetoldFields fs gs →
    OrderedFields fs → OrderedFields gs
  | _, _, .nil, h => h
  | _, _, .cons value more, h => by
    simp only [OrderedFields] at h ⊢
    exact ⟨value.ordered h.1, more.ordered h.2⟩

end

end Retold

/-! ### Where a number ends -/

/-- No number goes on here. -/
def Ends (r : List Char) : Prop :=
  ∀ c ∈ r.head?, ¬ Figure c

section Ends

variable {s r u w : List Char} {first : Bool}

theorem Ends.stops (h : Ends r) : Stops r := by
  intro c hc
  have hfigure := h c hc
  simp only [Figure, not_or, Bool.not_eq_true] at hfigure
  obtain ⟨⟨⟨hdigit, hpoint, -⟩, he, -⟩, hE⟩ := hfigure
  exact ⟨hdigit, hpoint, he, hE⟩

theorem isSpace_of_figure {c : Char} (h : Figure c) : isSpace c = false := by
  rw [Bool.eq_false_iff]
  intro hspace
  simp only [isSpace, Bool.or_eq_true, beq_iff_eq] at hspace
  rcases hspace with ((rfl | rfl) | rfl) | rfl <;> simp [Figure] at h

theorem ends_cons {c : Char} (hc : ¬ Figure c) (t : List Char) : Ends (c :: t) := by
  rintro d ⟨⟩
  exact hc

theorem ends_of_skipSpace (h : Ends (skipSpace s)) : Ends s := by
  rcases s with _ | ⟨c, t⟩
  · exact h
  · refine ends_cons (fun hc => ?_) t
    rw [skipSpace, List.dropWhile_cons_of_neg (by simp [isSpace_of_figure hc])] at h
    exact h c rfl hc

theorem ends_of_bracket {c : Char} (hc : c = ',' ∨ c = ']' ∨ c = '\x7d') (t : List Char) :
    Ends (c :: t) := by
  refine ends_cons ?_ t
  rcases hc with rfl | rfl | rfl <;> simp [Figure]

theorem ends_of_separated {s₁ : List Char} (hs : separated? false s = some s₁) : Ends s := by
  rcases separated?_cases hs with ⟨hf, -⟩ | ⟨-, hcomma⟩
  · cases hf
  · exact ends_of_skipSpace (hcomma ▸ ends_of_bracket (.inl rfl) _)

theorem Spells.ends_of_items {vs : List Json} (h : Spells (.items false vs) s r) : Ends s := by
  cases h with
  | listEnd hs => exact ends_of_skipSpace (hs ▸ ends_of_bracket (.inr (.inl rfl)) _)
  | item hs => exact ends_of_separated hs

theorem Spells.ends_of_fields {fs : List (String × Json)} (h : Spells (.fields false fs) s r) :
    Ends s := by
  cases h with
  | objectEnd hs => exact ends_of_skipSpace (hs ▸ ends_of_bracket (.inr (.inr rfl)) _)
  | field hs => exact ends_of_separated hs

/-- Figures up to what is none are those that were read. -/
theorem Spans.eq_of_figures (h : Spans Figure (w ++ u) r) (hw : ∀ c ∈ w, Figure c) (hu : Ends u)
    (hr : Ends r) : r = u := by
  obtain ⟨text, heq, htext⟩ := h
  -- neither of the two runs of figures is longer than the other
  rcases List.append_eq_append_iff.1 heq with ⟨more, rfl, rfl⟩ | ⟨more, rfl, rfl⟩
  · rcases more with _ | ⟨c, more⟩
    · rfl
    · exact absurd (htext c (by simp)) (hu c rfl)
  · rcases more with _ | ⟨c, more⟩
    · rfl
    · exact absurd (hw c (by simp)) (hr c rfl)

end Ends

/-! ### Numbers -/

section Numbers

variable {n : Number} {u : List Char}

theorem figure_of_mem_write (n : Number) : ∀ c ∈ n.write.toList, Figure c := by
  cases n with
  | int i _ => exact figure_of_mem_toString i
  | float x hx =>
    intro c hc
    have hc : c ∈ (doubleData x).toList := hc
    rcases doubleData_cases x with h | ⟨cs, hcs, h⟩
    · obtain ⟨-, literal, hliteral, -⟩ := Decimal.reread_doubleData hx
      rw [h] at hliteral
      cases hliteral
    · rw [h, String.toList_ofList] at hc
      exact .inl (hcs c hc)

theorem write_ne_nil (n : Number) : n.write.toList ≠ [] := by
  cases n with
  | int i hi =>
    intro h
    have hread : Json.parse none (Number.int i hi).write = _ := readsBack_int i hi
    have hempty : (Json.parse none "").toOption.isSome = false := by
      decide +kernel
    rw [String.toList_eq_nil_iff.1 h] at hread
    rw [hread] at hempty
    cases hempty
  | float x hx =>
    intro h
    have h : (doubleData x).toList = [] := h
    obtain ⟨-, literal, hliteral, -⟩ := Decimal.reread_doubleData hx
    rw [h] at hliteral
    cases hliteral

theorem exists_zero (negative : Bool) :
    ∃ z : Number, numberFrom negative ['0', '.', '0'] = .ok (z, []) ∧ z.isZero = true := by
  have hread : (numberFrom negative ['0', '.', '0']).toOption.map (fun p => (p.1.isZero, p.2))
      = some (true, []) := by
    cases negative <;> decide +kernel
  cases h : numberFrom negative ['0', '.', '0'] with
  | error fault =>
    rw [h] at hread
    cases hread
  | ok p =>
    rw [h] at hread
    obtain ⟨hzero, hend⟩ := Prod.mk.inj (Option.some.inj hread)
    exact ⟨p.1, by rw [← hend], hzero⟩

theorem doubleData_of_isZero {x : Float} (h : (x == 0.0) = true) :
    doubleData x = "0.0" ∨ doubleData x = "-0.0" := by
  have hzero : doubleData 0 = "0.0" := by
    decide +kernel
  have hminus : doubleData (-0) = "-0.0" := by
    decide +kernel
  rcases (Float.beq_iff_ne_nan_and_eq.1 h).2.2 with rfl | ⟨rfl, -⟩ | ⟨rfl, -⟩
  · exact .inl hzero
  · exact .inl hzero
  · exact .inr hminus

/-- The text of a zero spells a zero, in front of what no number goes on with. -/
theorem exists_spells_zero (hn : n.isZero = true) (hu : Stops u) :
    ∃ (z : Number) (r : List Char), z.isZero = true
      ∧ Spells (.value (.num z)) (n.write.toList ++ u) r := by
  cases n with
  | int i hi =>
    obtain ⟨r, -, hspells⟩ := (readsBack_int i hi).spelledBy u hu
    exact ⟨_, r, hn, hspells⟩
  | float x hx =>
    rcases doubleData_of_isZero hn with h | h
    · obtain ⟨z, hz, hzero⟩ := exists_zero false
      refine ⟨z, u, hzero, .num ?_⟩
      rw [show (Number.float x hx).write = "0.0" from h]
      exact numberFrom_append hu hz
    · obtain ⟨z, hz, hzero⟩ := exists_zero true
      refine ⟨z, u, hzero, .minus ?_ (numberFrom_append hu hz)⟩
      rw [show (Number.float x hx).write = "-0.0" from h]
      rfl

end Numbers

/-! ### Values -/

/-- A text begins a value and spells, up to an end behind it, the value with other numbers at
most. -/
def RetoldBy (v : Json) (w : List Char) : Prop :=
  (∃ c t, w = c :: t ∧ isSpace c = false ∧ c ≠ ']')
    ∧ ∀ u x r, Ends u → Ends r → Spells (.value x) (w ++ u) r →
      Retold v x ∧ skipSpace r = skipSpace u

section Values

variable {s r u w : List Char} {v : Json} {n : Number}

/-- What can only be spelled as it is. -/
theorem retoldBy_of_spells {c : Char} {t : List Char} (hw : w = c :: t)
    (hc : isSpace c = false ∧ c ≠ ']') (hv : Retold v v)
    (h : ∀ u, Spells (.value v) (w ++ u) u) : RetoldBy v w := by
  refine ⟨⟨c, t, hw, hc⟩, fun u x r _ _ hx => ?_⟩
  obtain ⟨rfl, rfl⟩ := (h u).only x r hx
  exact ⟨hv, rfl⟩

theorem skipSpace_of_not_isSpace {c : Char} (hc : isSpace c = false) (t : List Char) :
    skipSpace (c :: t) = c :: t :=
  List.dropWhile_cons_of_neg (by simp [hc])

/-- The figures of a number are read as some number. -/
theorem exists_num_of_figures {x : Json} (hw : ∀ c ∈ w, Figure c) (hne : w ≠ []) (hu : Ends u)
    (hr : Ends r) (h : Spells (.value x) (w ++ u) r) : ∃ m, x = .num m ∧ r = u := by
  obtain ⟨c, t, rfl⟩ := List.exists_cons_of_ne_nil hne
  have hc := hw c List.mem_cons_self
  have hskip : skipSpace (c :: t ++ u) = c :: t ++ u :=
    skipSpace_of_not_isSpace (isSpace_of_figure hc) _
  have hkind : x.kind = .num := by
    have hkind := h.kindFrom?_eq hskip
    rcases hc with ((hc | rfl | rfl) | rfl | rfl) | rfl
    · rw [kindFrom?_of_isDigit hc] at hkind
      exact (Option.some.inj hkind).symm
    · cases hkind
    · exact (Option.some.inj hkind).symm
    all_goals cases hkind
  cases x <;> cases hkind
  rename_i m
  refine ⟨m, rfl, ?_⟩
  cases h with
  | name hv => simp [names] at hv
  | minus hs hn =>
    have hspans := spans_numberFrom hn
    rw [hskip] at hs
    exact Spans.eq_of_figures (hs ▸ hspans.cons (by simp [Figure])) hw hu hr
  | num hn =>
    rw [hskip] at hn
    exact (spans_numberFrom hn).eq_of_figures hw hu hr

theorem retoldBy_number (n : Number) : RetoldBy (.num n) n.write.toList := by
  obtain ⟨c, t, hw⟩ := List.exists_cons_of_ne_nil (write_ne_nil n)
  have hc : Figure c := figure_of_mem_write n c (hw ▸ List.mem_cons_self)
  refine ⟨⟨c, t, hw, isSpace_of_figure hc, ?_⟩, fun u x r hu hr hx => ?_⟩
  · rintro rfl
    simp [Figure] at hc
  · obtain ⟨m, rfl, rfl⟩ :=
      exists_num_of_figures (figure_of_mem_write n) (write_ne_nil n) hu hr hx
    refine ⟨.num fun hn => ?_, rfl⟩
    obtain ⟨z, r', hz, hspells⟩ := exists_spells_zero hn hu.stops
    obtain ⟨heq, -⟩ := hspells.only _ _ hx
    cases heq
    exact hz

/-- The items of a list up to its end are spelled with other numbers at most. -/
def ItemsRetoldBy (first : Bool) (vs : List Json) (w : List Char) : Prop :=
  ∀ u, (∀ xs r, Spells (.items first xs) (w ++ ']' :: u) r → RetoldItems vs xs ∧ r = u)
    ∧ (first = false → Ends (w ++ ']' :: u))

def FieldsRetoldBy (first : Bool) (fs : List (String × Json)) (w : List Char) : Prop :=
  ∀ u, (∀ gs r, Spells (.fields first gs) (w ++ '\x7d' :: u) r → RetoldFields fs gs ∧ r = u)
    ∧ (first = false → Ends (w ++ '\x7d' :: u))

section Lists

variable {first : Bool} {vs xs : List Json} {fs gs : List (String × Json)} {w' : List Char}
  {key : String}

theorem itemsRetoldBy_nil (first : Bool) : ItemsRetoldBy first [] [] := by
  refine fun u => ⟨fun xs r h => ?_, fun _ => ends_of_bracket (.inr (.inl rfl)) u⟩
  have hend : skipSpace ([] ++ ']' :: u) = ']' :: u := rfl
  obtain ⟨rfl, rfl⟩ := only_listEnd hend xs r h
  exact ⟨.nil, rfl⟩

theorem fieldsRetoldBy_nil (first : Bool) : FieldsRetoldBy first [] [] := by
  refine fun u => ⟨fun gs r h => ?_, fun _ => ends_of_bracket (.inr (.inr rfl)) u⟩
  have hend : skipSpace ([] ++ '\x7d' :: u) = '\x7d' :: u := rfl
  obtain ⟨rfl, rfl⟩ := only_objectEnd hend gs r h
  exact ⟨.nil, rfl⟩

/-- An item behind what separates it, and more items. -/
theorem itemsRetoldBy_cons (hv : RetoldBy v w) (hmore : ItemsRetoldBy false vs w') :
    ItemsRetoldBy first (v :: vs) ((if first then [] else [',']) ++ (w ++ w')) := by
  intro u
  obtain ⟨hitems, hends⟩ := hmore u
  obtain ⟨⟨c, t, hw, hspace, hc⟩, hretold⟩ := hv
  have hstart : separated? first ((if first then [] else [',']) ++ (w ++ w') ++ ']' :: u)
      = some (w ++ (w' ++ ']' :: u)) := by
    cases first <;> simp [separated?, skipSpace, isSpace]
  refine ⟨fun xs r h => ?_, ?_⟩
  · cases h with
    | listEnd hs =>
      refine (not_end_of_separated hstart hs (by decide) fun t' ht' => ?_).elim
      rw [hw, List.cons_append, skipSpace_of_not_isSpace hspace] at ht'
      exact hc (List.cons.inj ht').1
    | item hs value more =>
      rw [hstart, Option.some.injEq] at hs
      subst hs
      obtain ⟨hitem, hskip⟩ := hretold _ _ _ (hends rfl) more.ends_of_items value
      obtain ⟨hrest, rfl⟩ := hitems _ _ (more.items_of_skipSpace hskip)
      exact ⟨.cons hitem hrest, rfl⟩
  · rintro rfl
    exact ends_of_bracket (.inl rfl) _

/-- A field behind what separates it, and more fields. -/
theorem fieldsRetoldBy_cons (hv : RetoldBy v w) (hmore : FieldsRetoldBy false fs w') :
    FieldsRetoldBy first ((key, v) :: fs)
      ((if first then [] else [',']) ++ ((quote key).toList ++ ':' :: (w ++ w'))) := by
  intro u
  obtain ⟨hfields, hends⟩ := hmore u
  obtain ⟨s, hquote, hlt, hread⟩ := string_quote key (':' :: (w ++ (w' ++ '\x7d' :: u)))
  have hstart : separated? first ((if first then [] else [','])
        ++ ((quote key).toList ++ ':' :: (w ++ w')) ++ '\x7d' :: u)
      = some ('"' :: (s ++ ':' :: (w ++ (w' ++ '\x7d' :: u)))) := by
    cases first <;> simp [separated?, skipSpace, isSpace, hquote]
  refine ⟨fun gs r h => ?_, ?_⟩
  · cases h with
    | objectEnd hs => exact (not_objectEnd hstart rfl hs).elim
    | field hs hq hk hc value more =>
      rw [hstart, Option.some.injEq] at hs
      subst hs
      obtain ⟨-, rfl⟩ := List.cons.inj hq
      rw [hread] at hk
      cases hk
      obtain ⟨-, rfl⟩ := List.cons.inj hc
      obtain ⟨hvalue, hskip⟩ := hv.2 _ _ _ (hends rfl) more.ends_of_fields value
      obtain ⟨hrest, rfl⟩ := hfields _ _ (more.fields_of_skipSpace hskip)
      exact ⟨.cons hvalue hrest, rfl⟩
  · rintro rfl
    exact ends_of_bracket (.inl rfl) _

theorem retoldBy_arr (hitems : ItemsRetoldBy true vs w) :
    RetoldBy (.arr vs) ('[' :: (w ++ [']'])) := by
  refine ⟨⟨'[', _, rfl, by decide, by decide⟩, fun u x r _ _ hx => ?_⟩
  rw [List.cons_append, List.append_assoc, List.singleton_append] at hx
  have hkind := hx.kindFrom?_eq (c := '[') rfl
  cases x <;> cases hkind
  cases hx with
  | name hv => simp [names] at hv
  | arr hs items =>
    obtain ⟨-, rfl⟩ := List.cons.inj hs
    obtain ⟨h, rfl⟩ := (hitems u).1 _ _ items
    exact ⟨.arr h, rfl⟩

theorem retoldBy_obj (hfields : FieldsRetoldBy true fs w) :
    RetoldBy (.obj fs) ('\x7b' :: (w ++ ['\x7d'])) := by
  refine ⟨⟨'\x7b', _, rfl, by decide, by decide⟩, fun u x r _ _ hx => ?_⟩
  rw [List.cons_append, List.append_assoc, List.singleton_append] at hx
  have hkind := hx.kindFrom?_eq (c := '\x7b') rfl
  cases x <;> cases hkind
  cases hx with
  | name hv => simp [names] at hv
  | obj hs fields =>
    obtain ⟨-, rfl⟩ := List.cons.inj hs
    obtain ⟨h, rfl⟩ := (hfields u).1 _ _ fields
    exact ⟨.obj h, rfl⟩

end Lists

end Values

mutual

/-- What is appended for a value spells nothing but this value with other numbers. -/
theorem exists_retold : ∀ (v : Json) (out : String),
    ∃ w, (writeOnto out v).toList = out.toList ++ w ∧ RetoldBy v w
  | .null, out => by
    refine ⟨_, by rw [writeOnto, String.toList_append], ?_⟩
    have hmem : (['n', 'u', 'l', 'l'], Json.null) ∈ names := by simp [names]
    exact retoldBy_of_spells rfl (by decide) .null fun u => .name hmem rfl
  | .bool b, out => by
    refine ⟨_, by rw [writeOnto, String.toList_append], ?_⟩
    cases b with
    | false =>
      have hmem : (['f', 'a', 'l', 's', 'e'], Json.bool false) ∈ names := by simp [names]
      exact retoldBy_of_spells rfl (by decide) (.bool _) fun u => .name hmem rfl
    | true =>
      have hmem : (['t', 'r', 'u', 'e'], Json.bool true) ∈ names := by simp [names]
      exact retoldBy_of_spells rfl (by decide) (.bool _) fun u => .name hmem rfl
  | .num n, out => ⟨_, by rw [writeOnto, String.toList_append], retoldBy_number n⟩
  | .str t, out => by
    refine ⟨_, by rw [writeOnto, String.toList_append], ?_⟩
    obtain ⟨s, hquote, -⟩ := string_quote t []
    refine retoldBy_of_spells hquote (by decide) (.str t) fun u => ?_
    obtain ⟨s, hquote, hlt, hread⟩ := string_quote t u
    rw [hquote]
    exact .str (r := ⟨u, hlt⟩) rfl hread
  | .arr items, out => by
    obtain ⟨w, hw, hitems⟩ := exists_retoldItems items true (out ++ "[")
    refine ⟨_, ?_, retoldBy_arr hitems⟩
    rw [writeOnto, String.toList_append, hw]
    simp
  | .obj fields, out => by
    obtain ⟨w, hw, hfields⟩ := exists_retoldFields fields true (out ++ "\x7b")
    refine ⟨_, ?_, retoldBy_obj hfields⟩
    rw [writeOnto, String.toList_append, hw]
    simp

theorem exists_retoldItems : ∀ (vs : List Json) (first : Bool) (out : String),
    ∃ w, (writeItems out first vs).toList = out.toList ++ w ∧ ItemsRetoldBy first vs w
  | [], first, out => ⟨[], by rw [writeItems, List.append_nil], itemsRetoldBy_nil first⟩
  | v :: vs, first, out => by
    obtain ⟨w, hw, hvalue⟩ := exists_retold v (if first then out else out ++ ",")
    obtain ⟨w', hw', hmore⟩ := exists_retoldItems vs false
      (writeOnto (if first then out else out ++ ",") v)
    refine ⟨_, ?_, itemsRetoldBy_cons hvalue hmore⟩
    rw [writeItems, hw', hw]
    cases first <;> simp

theorem exists_retoldFields : ∀ (fs : List (String × Json)) (first : Bool) (out : String),
    ∃ w, (writeFields out first fs).toList = out.toList ++ w ∧ FieldsRetoldBy first fs w
  | [], first, out => ⟨[], by rw [writeFields, List.append_nil], fieldsRetoldBy_nil first⟩
  | (key, v) :: rest, first, out => by
    obtain ⟨w, hw, hvalue⟩ := exists_retold v
      ((if first then out else out ++ ",") ++ quote key ++ ":")
    obtain ⟨w', hw', hmore⟩ := exists_retoldFields rest false
      (writeOnto ((if first then out else out ++ ",") ++ quote key ++ ":") v)
    refine ⟨_, ?_, fieldsRetoldBy_cons hvalue hmore⟩
    rw [writeFields, hw', hw]
    cases first <;> simp

end

/-- What is written is read back with other numbers at most, or not at all. -/
theorem retold_of_parse {v w : Json} (hv : v.Ordered) (h : Json.parse none v.write = .ok w) :
    Retold v w := by
  obtain ⟨x, ⟨r, hspells, hend⟩, rfl⟩ := exists_text_of_parse h
  obtain ⟨text, htext, -, hretold⟩ := exists_retold v ""
  have hnil : Ends [] := by
    rintro c ⟨⟩
  have hends : Ends r := ends_of_skipSpace (hend ▸ hnil)
  rw [write, htext, String.toList_empty, List.nil_append, ← List.append_nil text] at hspells
  have hx := (hretold [] x r hnil hends hspells).1
  rwa [settled_of_ordered x (hx.ordered hv)]

end TreeAtlas.Json
