import Mathlib.Data.String.Basic
import TreeAtlas.Proofs.Json.Scalars

/-!
# What is written is read back

The compact text of a value spells it (`text_write`), so it is parsed to that value (`parse_write`).
The brackets, commas and colons that are written are those of the grammar (`exists_writeOnto`), and
behind a value there is one of them, at which a number stops.  The fields of an object are set in
the order in which they already stand (`settled_of_ordered`).

Floating point numbers are the exception.  The reader does not always return the number that was
written, so that it does is asked for (`Stable`).
-/

namespace TreeAtlas.Json

/-! ### Values -/

/-- The number is read back from its own text.  A floating point number may come back as one next to
it, since the reader scales once and does not always find the nearest one. -/
def Number.ReadsBack (n : Number) : Prop :=
  Json.parse none n.write = .ok (.num n)

mutual

/-- The numbers in a value. -/
def numbers : Json → List Number
  | .num n => [n]
  | .arr items => itemsNumbers items
  | .obj fields => fieldsNumbers fields
  | _ => []

def itemsNumbers : List Json → List Number
  | [] => []
  | v :: vs => v.numbers ++ itemsNumbers vs

def fieldsNumbers : List (String × Json) → List Number
  | [] => []
  | (_, v) :: rest => v.numbers ++ fieldsNumbers rest

end

mutual

/-- The fields of every object stand in the order of their keys. -/
def Ordered : Json → Prop
  | .arr items => OrderedItems items
  | .obj fields => (fields.map Prod.fst).Pairwise (· < ·) ∧ OrderedFields fields
  | _ => True

def OrderedItems : List Json → Prop
  | [] => True
  | v :: vs => v.Ordered ∧ OrderedItems vs

def OrderedFields : List (String × Json) → Prop
  | [] => True
  | (_, v) :: rest => v.Ordered ∧ OrderedFields rest

end

theorem orderedItems_iff {vs : List Json} : OrderedItems vs ↔ ∀ v ∈ vs, v.Ordered := by
  induction vs with
  | nil => simp [OrderedItems]
  | cons v vs ih => rw [OrderedItems, ih, List.forall_mem_cons]

theorem orderedFields_iff {fields : List (String × Json)} :
    OrderedFields fields ↔ ∀ field ∈ fields, field.2.Ordered := by
  induction fields with
  | nil => simp [OrderedFields]
  | cons field rest ih => rw [OrderedFields, ih, List.forall_mem_cons]

theorem Ordered.of_mem_parts {v w : Json} (h : v.Ordered) (hw : w ∈ v.parts) : w.Ordered := by
  cases v with
  | arr items =>
    simp only [Ordered] at h
    exact orderedItems_iff.1 h w hw
  | obj fields =>
    simp only [Ordered] at h
    obtain ⟨field, hfield, rfl⟩ := List.mem_map.1 hw
    exact orderedFields_iff.1 h.2 field hfield
  | _ => cases hw

section Settling

variable {key : String} {v : Json} {read : Fields}

/-- A key behind all others is set at the end. -/
theorem insert_of_lt (h : ∀ k ∈ read.map Prod.fst, k < key) :
    read.insert key v = read ++ [(key, v)] := by
  induction read with
  | nil => rfl
  | cons field rest ih =>
    obtain ⟨k, w⟩ := field
    rw [List.map_cons, List.forall_mem_cons] at h
    unfold Fields.insert
    rw [if_neg (not_lt_of_gt h.1), if_neg (ne_of_gt h.1), ih h.2]
    rfl

mutual

/-- Where fields stand in order, setting them one after another gives them back. -/
theorem settled_of_ordered : ∀ v : Json, v.Ordered → v.settled = v
  | .null, _ | .bool _, _ | .num _, _ | .str _, _ => by simp only [settled]
  | .arr items, h => by
    simp only [Ordered] at h
    rw [settled, settledItems_of_ordered items h]
  | .obj fields, h => by
    simp only [Ordered] at h
    rw [settled, settledFields_of_ordered fields [] h.2 (by simpa using h.1), List.nil_append]

theorem settledItems_of_ordered : ∀ vs : List Json, OrderedItems vs → settledItems vs = vs
  | [], _ => rfl
  | v :: vs, h => by
    simp only [OrderedItems] at h
    rw [settledItems, settled_of_ordered v h.1, settledItems_of_ordered vs h.2]

theorem settledFields_of_ordered : ∀ (fields : List (String × Json)) (read : Fields),
    OrderedFields fields → ((read ++ fields).map Prod.fst).Pairwise (· < ·) →
      settledFields read fields = read ++ fields
  | [], read, _, _ => (List.append_nil read).symm
  | (key, v) :: rest, read, h, hkeys => by
    simp only [OrderedFields] at h
    have hbefore : ∀ k ∈ read.map Prod.fst, k < key := fun k hk => by
      rw [List.map_append, List.pairwise_append] at hkeys
      exact hkeys.2.2 k hk key List.mem_cons_self
    have happ : read.insert key v ++ rest = read ++ (key, v) :: rest := by
      rw [insert_of_lt hbefore, List.append_assoc, List.singleton_append]
    rw [settledFields, settled_of_ordered v h.1,
      settledFields_of_ordered rest _ h.2 (happ ▸ hkeys), happ]

end

theorem insert_ordered (hv : v.Ordered) (hkeys : (read.map Prod.fst).Pairwise (· < ·))
    (h : OrderedFields read) :
    ((read.insert key v).map Prod.fst).Pairwise (· < ·) ∧ OrderedFields (read.insert key v) := by
  induction read with
  | nil => exact ⟨List.pairwise_singleton _ _, hv, trivial⟩
  | cons field rest ih =>
    obtain ⟨k, w⟩ := field
    simp only [OrderedFields] at h
    rw [List.map_cons, List.pairwise_cons] at hkeys
    obtain ⟨hrest, hordered⟩ := ih hkeys.2 h.2
    unfold Fields.insert
    split_ifs with hlt heq
    · refine ⟨List.pairwise_cons.2 ⟨?_, List.pairwise_cons.2 hkeys⟩, hv, h⟩
      intro k' hk'
      rcases List.mem_cons.1 hk' with rfl | hk'
      · exact hlt
      · exact hlt.trans (hkeys.1 k' hk')
    · subst heq
      exact ⟨List.pairwise_cons.2 hkeys, hv, h.2⟩
    · refine ⟨List.pairwise_cons.2 ⟨?_, hrest⟩, h.1, hordered⟩
      intro k' hk'
      rcases mem_keys_insert.1 hk' with rfl | hk'
      · exact lt_of_le_of_ne (not_lt.1 hlt) (Ne.symm heq)
      · exact hkeys.1 k' hk'

mutual

/-- Setting the fields one after another puts them in order. -/
theorem ordered_settled : ∀ v : Json, v.settled.Ordered
  | .null | .bool _ | .num _ | .str _ => by simp only [settled, Ordered]
  | .arr items => by
    simp only [settled, Ordered]
    exact ordered_settledItems items
  | .obj fields => by
    simp only [settled, Ordered]
    exact ordered_settledFields fields [] List.Pairwise.nil trivial

theorem ordered_settledItems : ∀ vs : List Json, OrderedItems (settledItems vs)
  | [] => trivial
  | v :: vs => ⟨ordered_settled v, ordered_settledItems vs⟩

theorem ordered_settledFields : ∀ (fields : List (String × Json)) (read : Fields),
    (read.map Prod.fst).Pairwise (· < ·) → OrderedFields read →
      ((settledFields read fields).map Prod.fst).Pairwise (· < ·)
        ∧ OrderedFields (settledFields read fields)
  | [], _, hkeys, h => ⟨hkeys, h⟩
  | (_, v) :: rest, _, hkeys, h => by
    obtain ⟨hkeys', h'⟩ := insert_ordered (ordered_settled v) hkeys h
    exact ordered_settledFields rest _ hkeys' h'

end

end Settling

section Written

variable {w u : List Char} {v : Json} {n : Number}

/-- In front of what stops a number, a text spells the value and leaves what stands behind it but
for space. -/
def SpelledBy (v : Json) (w : List Char) : Prop :=
  ∀ u, Stops u → ∃ r, skipSpace r = skipSpace u ∧ Spells (.value v) (w ++ u) r

theorem stops_of_bracket {c : Char} (hc : c = ',' ∨ c = ']' ∨ c = '\x7d') (u : List Char) :
    Stops (c :: u) := by
  rintro d ⟨⟩
  rcases hc with rfl | rfl | rfl <;> decide

theorem skipSpace_append_of_ne {s : List Char} (h : skipSpace s ≠ []) (u : List Char) :
    skipSpace (s ++ u) = skipSpace s ++ u := by
  unfold skipSpace at h ⊢
  rw [List.dropWhile_append, if_neg (by simpa using h)]

theorem skipSpace_append_of_nil {s : List Char} (h : skipSpace s = []) (u : List Char) :
    skipSpace (s ++ u) = skipSpace u := by
  unfold skipSpace at h ⊢
  rw [List.dropWhile_append, if_pos (by simpa using h)]

/-- A number that reads back does so in front of anything that stops it. -/
theorem Number.ReadsBack.spelledBy (h : n.ReadsBack) : SpelledBy (.num n) n.write.toList := by
  obtain ⟨v, ⟨r, hspells, hend⟩, hv⟩ := exists_text_of_parse h
  obtain rfl : v = .num n := by
    cases v with
    | num m => simpa only [settled] using hv
    | _ => simp only [settled] at hv; cases hv
  intro u hu
  refine ⟨r ++ u, skipSpace_append_of_nil hend u, ?_⟩
  cases hspells with
  | name hmem _ => simp [names] at hmem
  | @minus _ t _ _ hs hn =>
    have hsign : skipSpace (n.write.toList ++ u) = '-' :: (t ++ u) := by
      rw [skipSpace_append_of_ne (by rw [hs]; exact List.cons_ne_nil _ _), hs, List.cons_append]
    exact .minus hsign (numberFrom_append hu hn)
  | num hn =>
    refine .num ?_
    obtain ⟨c, t, hs, -⟩ := numberFrom_cons hn
    rw [skipSpace_append_of_ne (by rw [hs]; exact List.cons_ne_nil _ _)]
    exact numberFrom_append hu hn

/-- A text that spells a value is parsed to it where there is room for it. -/
theorem parse_of_text {room : Room} {text : String} (h : Text text.toList v)
    (hroom : room.Admits v.depth) : Json.parse room text = .ok v.settled := by
  obtain ⟨r, hspells, hend⟩ := h
  obtain ⟨hlt, hvalue⟩ := hspells.read room _ rfl hroom
  have hfinish : finish r = .ok () := by
    unfold finish
    rw [hend]
  unfold Json.parse document
  simp only [hvalue, hfinish, bind, Except.bind]
  rfl

theorem skipSpace_of_isDigit {c : Char} (hc : c.isDigit = true) (s : List Char) :
    skipSpace (c :: s) = c :: s := by
  refine List.dropWhile_cons_of_neg ?_
  rintro hspace
  simp only [isSpace, Bool.or_eq_true, beq_iff_eq] at hspace
  rcases hspace with ((rfl | rfl) | rfl) | rfl <;> cases hc

/-- Whole numbers read back. -/
theorem readsBack_int (i : Int) (h : InRange i) : (Number.int i h).ReadsBack := by
  have hsmall : i.natAbs < UInt64.size := by
    have := h
    simp only [InRange, UInt64.size] at *
    omega
  have htext : Text (Number.int i h).write.toList (.num (.int i h)) := by
    refine ⟨[], ?_, rfl⟩
    cases i with
    | ofNat k =>
      have hwrite : (Number.int (.ofNat k) h).write.toList = Nat.toDigits 10 k := by
        change k.repr.toList = _
        rw [Nat.repr_eq_ofList_toDigits, String.toList_ofList]
      have hread : numberFrom false (Nat.toDigits 10 k) = .ok (.int (.ofNat k) h, []) :=
        numberFrom_toDigits (k := k) (i := .ofNat k) hsmall rfl (by simp) h
      obtain ⟨c, t, hdigits, hc⟩ := numberFrom_cons hread
      rw [hwrite]
      refine .num ?_
      rw [hdigits, skipSpace_of_isDigit hc, ← hdigits]
      exact hread
    | negSucc k =>
      have hwrite : (Number.int (.negSucc k) h).write.toList = '-' :: Nat.toDigits 10 (k + 1) := by
        change ("-" ++ (k + 1).repr).toList = _
        rw [String.toList_append, Nat.repr_eq_ofList_toDigits, String.toList_ofList]
        simp
      have hread : numberFrom true (Nat.toDigits 10 (k + 1)) = .ok (.int (.negSucc k) h, []) :=
        numberFrom_toDigits (k := k + 1) (i := .negSucc k) hsmall rfl (by simp) h
      rw [hwrite]
      exact .minus rfl hread
  have hparse := parse_of_text htext (Room.admits_none _)
  simp only [settled] at hparse
  exact hparse

/-- The items of a list as they are written, up to its end. -/
def ItemsSpelledBy (first : Bool) (vs : List Json) (w : List Char) : Prop :=
  ∀ u, Spells (.items first vs) (w ++ ']' :: u) u ∧ (first = false → Stops (w ++ ']' :: u))

def FieldsSpelledBy (first : Bool) (fs : List (String × Json)) (w : List Char) : Prop :=
  ∀ u, Spells (.fields first fs) (w ++ '\x7d' :: u) u ∧ (first = false → Stops (w ++ '\x7d' :: u))

/-- Behind the first part only space may differ. -/
theorem Spells.items_of_skipSpace {s t r : List Char} {vs : List Json}
    (h : Spells (.items false vs) s r) (hs : skipSpace s = skipSpace t) :
    Spells (.items false vs) t r := by
  cases h with
  | listEnd h => exact .listEnd (hs ▸ h)
  | item h value more =>
    refine .item ?_ value more
    unfold separated? at h ⊢
    rwa [← hs]

theorem Spells.fields_of_skipSpace {s t r : List Char} {fs : List (String × Json)}
    (h : Spells (.fields false fs) s r) (hs : skipSpace s = skipSpace t) :
    Spells (.fields false fs) t r := by
  cases h with
  | objectEnd h => exact .objectEnd (hs ▸ h)
  | field h hq hk hc value more =>
    refine .field ?_ hq hk hc value more
    unfold separated? at h ⊢
    rwa [← hs]

mutual

/-- What is appended for a value spells it. -/
theorem exists_writeOnto : ∀ (v : Json), (∀ n ∈ v.numbers, n.ReadsBack) → ∀ out : String,
    ∃ w, (writeOnto out v).toList = out.toList ++ w ∧ SpelledBy v w
  | .null, _, out => by
    refine ⟨_, by rw [writeOnto, String.toList_append], fun u _ => ⟨u, rfl, ?_⟩⟩
    have hmem : (['n', 'u', 'l', 'l'], Json.null) ∈ names := by simp [names]
    exact .name hmem rfl
  | .bool b, _, out => by
    refine ⟨_, by rw [writeOnto, String.toList_append], fun u _ => ⟨u, rfl, ?_⟩⟩
    cases b with
    | false =>
      have hmem : (['f', 'a', 'l', 's', 'e'], Json.bool false) ∈ names := by simp [names]
      exact .name hmem rfl
    | true =>
      have hmem : (['t', 'r', 'u', 'e'], Json.bool true) ∈ names := by simp [names]
      exact .name hmem rfl
  | .num n, h, out => by
    refine ⟨_, by rw [writeOnto, String.toList_append], (h n ?_).spelledBy⟩
    simp [numbers]
  | .str t, _, out => by
    refine ⟨_, by rw [writeOnto, String.toList_append], fun u _ => ⟨u, rfl, ?_⟩⟩
    obtain ⟨s, hquote, hlt, hread⟩ := string_quote t u
    rw [hquote]
    exact .str (r := ⟨u, hlt⟩) rfl hread
  | .arr items, h, out => by
    obtain ⟨w, hw, hspells⟩ := exists_writeItems items true (by simpa only [numbers] using h)
      (out ++ "[")
    refine ⟨'[' :: (w ++ [']']), ?_, fun u _ => ⟨u, rfl, .arr rfl ?_⟩⟩
    · rw [writeOnto, String.toList_append, hw]
      simp
    · have := (hspells u).1
      rwa [List.append_cons] at this
  | .obj fields, h, out => by
    obtain ⟨w, hw, hspells⟩ := exists_writeFields fields true (by simpa only [numbers] using h)
      (out ++ "\x7b")
    refine ⟨'\x7b' :: (w ++ ['\x7d']), ?_, fun u _ => ⟨u, rfl, .obj rfl ?_⟩⟩
    · rw [writeOnto, String.toList_append, hw]
      simp
    · have := (hspells u).1
      rwa [List.append_cons] at this

theorem exists_writeItems : ∀ (vs : List Json) (first : Bool),
    (∀ n ∈ itemsNumbers vs, n.ReadsBack) → ∀ out : String,
      ∃ w, (writeItems out first vs).toList = out.toList ++ w ∧ ItemsSpelledBy first vs w
  | [], first, _, out =>
    ⟨[], by rw [writeItems, List.append_nil],
      fun u => ⟨.listEnd rfl, fun _ => stops_of_bracket (.inr (.inl rfl)) u⟩⟩
  | v :: vs, first, h, out => by
    rw [itemsNumbers, List.forall_mem_append] at h
    obtain ⟨w, hw, hvalue⟩ := exists_writeOnto v h.1 (if first then out else out ++ ",")
    obtain ⟨w', hw', hmore⟩ := exists_writeItems vs false h.2
      (writeOnto (if first then out else out ++ ",") v)
    refine ⟨(if first then [] else [',']) ++ (w ++ w'), ?_, fun u => ?_⟩
    · rw [writeItems, hw', hw]
      cases first <;> simp
    · obtain ⟨r, hr, hspells⟩ := hvalue _ ((hmore u).2 rfl)
      have hitems := (hmore u).1.items_of_skipSpace hr.symm
      rw [← List.append_assoc] at hspells
      cases first with
      | true => exact ⟨.item rfl hspells hitems, nofun⟩
      | false => exact ⟨.item rfl hspells hitems, fun _ => stops_of_bracket (.inl rfl) _⟩

theorem exists_writeFields : ∀ (fs : List (String × Json)) (first : Bool),
    (∀ n ∈ fieldsNumbers fs, n.ReadsBack) → ∀ out : String,
      ∃ w, (writeFields out first fs).toList = out.toList ++ w ∧ FieldsSpelledBy first fs w
  | [], first, _, out =>
    ⟨[], by rw [writeFields, List.append_nil],
      fun u => ⟨.objectEnd rfl, fun _ => stops_of_bracket (.inr (.inr rfl)) u⟩⟩
  | (key, v) :: rest, first, h, out => by
    rw [fieldsNumbers, List.forall_mem_append] at h
    obtain ⟨w, hw, hvalue⟩ := exists_writeOnto v h.1
      ((if first then out else out ++ ",") ++ quote key ++ ":")
    obtain ⟨w', hw', hmore⟩ := exists_writeFields rest false h.2
      (writeOnto ((if first then out else out ++ ",") ++ quote key ++ ":") v)
    refine ⟨(if first then [] else [',']) ++ ((quote key).toList ++ ':' :: (w ++ w')), ?_,
      fun u => ?_⟩
    · rw [writeFields, hw', hw]
      cases first <;> simp
    · obtain ⟨r, hr, hspells⟩ := hvalue _ ((hmore u).2 rfl)
      have hfields := (hmore u).1.fields_of_skipSpace hr.symm
      rw [← List.append_assoc] at hspells
      obtain ⟨s, hquote, hlt, hread⟩ := string_quote key (':' :: (w ++ w' ++ '\x7d' :: u))
      rw [List.append_assoc, List.append_assoc, hquote, List.cons_append, List.cons_append]
      cases first with
      | true => exact ⟨.field rfl rfl hread rfl hspells hfields, nofun⟩
      | false => exact ⟨.field rfl rfl hread rfl hspells hfields,
          fun _ => stops_of_bracket (.inl rfl) _⟩

end

mutual

theorem append_writeOnto : ∀ (v : Json) (a b : String),
    writeOnto (a ++ b) v = a ++ writeOnto b v
  | .null, a, b | .bool _, a, b | .num _, a, b | .str _, a, b => by
    simp only [writeOnto, String.append_assoc]
  | .arr items, a, b => by
    rw [writeOnto, writeOnto, String.append_assoc, append_writeItems items true,
      String.append_assoc]
  | .obj fields, a, b => by
    rw [writeOnto, writeOnto, String.append_assoc, append_writeFields fields true,
      String.append_assoc]

theorem append_writeItems : ∀ (vs : List Json) (first : Bool) (a b : String),
    writeItems (a ++ b) first vs = a ++ writeItems b first vs
  | [], _, _, _ => rfl
  | v :: vs, first, a, b => by
    rw [writeItems, writeItems, ← append_writeItems vs false, ← append_writeOnto v]
    cases first <;> simp [String.append_assoc]

theorem append_writeFields : ∀ (fs : List (String × Json)) (first : Bool) (a b : String),
    writeFields (a ++ b) first fs = a ++ writeFields b first fs
  | [], _, _, _ => rfl
  | (key, v) :: rest, first, a, b => by
    rw [writeFields, writeFields, ← append_writeFields rest false, ← append_writeOnto v]
    cases first <;> simp [String.append_assoc]

end

/-- What is written for a value does not depend on what stands before. -/
theorem writeOnto_eq (v : Json) (out : String) : writeOnto out v = out ++ v.write := by
  rw [write, ← append_writeOnto, String.append_empty]

/-- Written out, a value whose numbers read back spells itself. -/
theorem text_write (h : ∀ n ∈ v.numbers, n.ReadsBack) : Text v.write.toList v := by
  obtain ⟨w, hw, hspells⟩ := exists_writeOnto v h ""
  obtain ⟨r, hr, hvalue⟩ := hspells [] (by rintro c ⟨⟩)
  rw [List.append_nil] at hvalue
  exact ⟨r, by rwa [write, hw], hr⟩

/-- A value whose text is read as that value: the fields of its objects are in order, and its
floating point numbers read back. -/
structure Stable (v : Json) : Prop where
  ordered : v.Ordered
  floats : ∀ x h, Number.float x h ∈ v.numbers → (Number.float x h).ReadsBack

theorem Stable.numbers (h : v.Stable) : ∀ n ∈ v.numbers, n.ReadsBack := by
  intro n hn
  cases n with
  | int i hi => exact readsBack_int i hi
  | float x hx => exact h.floats x hx hn

/-- What is written is read back, by a reader that has the room for it. -/
theorem parse_write {room : Room} (h : v.Stable) (hroom : room.Admits v.depth) :
    Json.parse room v.write = .ok v := by
  rw [parse_of_text (text_write h.numbers) hroom, settled_of_ordered v h.ordered]

end Written

end TreeAtlas.Json
