import TreeAtlas.Proofs.Json.Nesting
import TreeAtlas.Proofs.Json.Rereading
import TreeAtlas.Proofs.Record.Sources
import TreeAtlas.Token

/-!
# Tokens are read back

A list of tokens is written as an array of objects that hold every field under its own name, with
`null` for what is not there.  The text is that of a data value (`listText_eq`, `wrappedText_eq`),
so the reader finds this value with the fields in the order of their keys, and takes them by name
(`read_data`).

However a list of tokens was given, its tokens can be told by such a text: what is read for a value
is not `null`, and the places fit their types (`proper_of_read`).  The text nests no deeper than the
one they were read from (`depth_data_le`).
-/

namespace TreeAtlas

open Json (Number nesting)

namespace Token

/-- The text of a list of tokens. -/
def listText (tokens : List Token) : String :=
  (Written.list (tokens.map written)).compact

/-- The text of an object that holds a list of tokens. -/
def wrappedText (tokens : List Token) : String :=
  (Written.record [("tokens", .list (tokens.map written))]).compact

/-- The fields are within their types, objects keep the order of their keys as they always do, and a
value that is there is not `null`. -/
structure Proper (t : Token) : Prop where
  value : t.value ≠ some .null
  ordered : ∀ v ∈ t.value, v.Ordered
  line : ∀ n ∈ t.line, n < UInt32.size
  column : ∀ n ∈ t.column, n < UInt32.size

/-- The floating point numbers in the value are read back from their texts. -/
def FloatsReadBack (t : Token) : Prop :=
  ∀ v ∈ t.value, ∀ x h, Number.float x h ∈ v.numbers → (Number.float x h).ReadsBack

/-- A line or a column as a data value. -/
def placeData : Option Nat → Json
  | none => .null
  | some n => if h : Json.InRange n then .num (.int n h) else .null

/-- The data value that a token is written as. -/
def data (t : Token) : Json :=
  .obj
    [("kind", .str t.kind), ("value", t.value.getD .null), ("line", placeData t.line),
      ("column", placeData t.column)]

theorem placeData_cases (place : Option Nat) :
    placeData place = .null ∨ ∃ i hi, placeData place = .num (.int i hi) := by
  cases place with
  | none => exact .inl rfl
  | some n =>
    by_cases h : Json.InRange n
    · exact .inr ⟨n, h, by rw [placeData, dif_pos h]⟩
    · exact .inl (by rw [placeData, dif_neg h])

theorem placeData_of_lt {n : Nat} (h : n < UInt32.size) :
    ∃ hn, placeData (some n) = .num (.int n hn) := by
  have hn : Json.InRange n := by
    simp only [Json.InRange, UInt32.size, UInt64.size] at *
    omega
  exact ⟨hn, by rw [placeData, dif_pos hn]⟩

/-! ### What is written -/

section Writing

variable {t : Token} {tokens : List Token}

theorem compactOnto_value (out : String) (value : Option Json) :
    Written.compactOnto out (.optional .data value) = Json.writeOnto out (value.getD .null) := by
  cases value with
  | none => rfl
  | some v => exact (Json.writeOnto_eq v out).symm

theorem compactOnto_place (out : String) {place : Option Nat} (h : ∀ n ∈ place, n < UInt32.size) :
    Written.compactOnto out (.optional .whole place) = Json.writeOnto out (placeData place) := by
  cases place with
  | none => rfl
  | some n =>
    obtain ⟨hn, hdata⟩ := placeData_of_lt (h n rfl)
    rw [hdata]
    rfl

theorem Proper.compactOnto (h : t.Proper) (out : String) :
    Written.compactOnto out t.written = Json.writeOnto out t.data := by
  simp only [written, data, Written.compactOnto, Written.compactFields, Json.writeOnto,
    Json.writeFields, compactOnto_value, compactOnto_place _ h.line, compactOnto_place _ h.column]
  rfl

theorem compactItems_written (h : ∀ t ∈ tokens, t.Proper) (out : String) (first : Bool) :
    Written.compactItems out first (tokens.map written)
      = Json.writeItems out first (tokens.map data) := by
  induction tokens generalizing out first with
  | nil => rfl
  | cons t tokens ih =>
    rw [List.forall_mem_cons] at h
    rw [List.map_cons, List.map_cons, Written.compactItems, Json.writeItems, h.1.compactOnto,
      ih h.2]

theorem listText_eq (h : ∀ t ∈ tokens, t.Proper) :
    listText tokens = (Json.arr (tokens.map data)).write := by
  rw [listText, Written.compact, Written.compactOnto, compactItems_written h]
  rfl

theorem wrappedText_eq (h : ∀ t ∈ tokens, t.Proper) :
    wrappedText tokens = (Json.obj [("tokens", .arr (tokens.map data))]).write := by
  simp only [wrappedText, Written.compact, Written.compactOnto, Written.compactFields,
    compactItems_written h]
  rfl

end Writing

/-! ### What is read back -/

/-- The fields of a token, in data values. -/
def dataFields :
    Record.Fields Record.JsonReader (String × Option Json × Option Nat × Option Nat × Unit)
      (Option String × Option (Option Json) × Option (Option Nat) × Option (Option Nat) × Unit) :=
  .cons "kind" ["type"] (.default "") Record.ofJson.text
    <| .cons "value" ["text", "lexeme"] (.default none) (Record.ofJson.optional Record.ofJson.any)
    <| .cons "line" [] (.default none) (Record.ofJson.optional Record.ofJson.word)
    <| .cons "column" ["col"] (.default none) (Record.ofJson.optional Record.ofJson.word) .nil

theorem read_eq (v : Json) :
    read Record.ofJson v
      = Record.recordOfJson "Token" dataFields
          (fun row => ⟨row.1, row.2.1, row.2.2.1, row.2.2.2.1⟩) v :=
  rfl

section Reading

variable {t : Token} {tokens : List Token}

theorem read_place {place : Option Nat} (h : ∀ n ∈ place, n < UInt32.size) :
    Record.ofJson.optional Record.ofJson.word (placeData place) = .ok place := by
  cases place with
  | none => rfl
  | some n =>
    have hbound : 0 ≤ (n : ℤ) ∧ (n : ℤ) < (UInt32.size : ℕ) := by
      have := h n rfl
      omega
    obtain ⟨hn, hdata⟩ := placeData_of_lt (h n rfl)
    rw [hdata]
    simp only [Record.ofJson, Record.boundedOfJson, Record.boundedNat, if_pos hbound]
    rfl

theorem read_value {value : Option Json} (h : value ≠ some .null) :
    Record.ofJson.optional Record.ofJson.any (value.getD .null) = .ok value := by
  cases value with
  | none => rfl
  | some v =>
    cases v with
    | null => exact absurd rfl h
    | _ => rfl

/-- The fields in the order of their keys. -/
theorem Proper.settled_data (h : t.Proper) :
    t.data.settled = .obj
      [("column", placeData t.column), ("kind", .str t.kind), ("line", placeData t.line),
        ("value", t.value.getD .null)] := by
  have hplace : ∀ place, (placeData place).settled = placeData place := fun place => by
    rcases placeData_cases place with h | ⟨i, hi, h⟩ <;> rw [h] <;> rfl
  have hvalue : (t.value.getD .null).settled = t.value.getD .null := by
    refine Json.settled_of_ordered _ ?_
    cases hv : t.value with
    | none => trivial
    | some v => exact h.ordered v hv
  have hvk : ¬ "value" < "kind" := by decide
  have hlk : ¬ "line" < "kind" := by decide
  have hlv : "line" < "value" := by decide
  have hck : "column" < "kind" := by decide
  simp [data, Json.settled, Json.settledFields, Json.Fields.insert, hplace, hvalue, hvk, hlk, hlv,
    hck]

theorem Proper.read_data (h : t.Proper) : read Record.ofJson t.data.settled = .ok t := by
  have hkind : Record.ofJson.text (.str t.kind) = .ok t.kind := rfl
  have hvalue := read_value h.value
  have hline := read_place h.line
  have hcolumn := read_place h.column
  have hslots (ignore : Json → Except Record.Mismatch Unit) :
      Record.readMembers id ignore dataFields dataFields.vacant
        [(.ok "column", placeData t.column), (.ok "kind", .str t.kind),
          (.ok "line", placeData t.line), (.ok "value", t.value.getD .null)]
        = .ok (some t.kind, some t.value, some t.line, some t.column, ()) := by
    simp [dataFields, Record.readMembers, Record.Fields.place, Record.Fields.vacant, hkind, hvalue,
      hline, hcolumn, bind, Except.bind]
  rw [h.settled_data, read_eq]
  simp only [Record.recordOfJson, Record.ofMembers, List.map_cons, List.map_nil, hslots]
  rfl

theorem ofItems_data (h : ∀ t ∈ tokens, t.Proper) :
    ofItems (Json.settledItems (tokens.map data)) = .ok tokens := by
  induction tokens with
  | nil => rfl
  | cons t tokens ih =>
    rw [List.forall_mem_cons] at h
    have hrest := ih h.2
    unfold ofItems at hrest ⊢
    rw [List.map_cons, Json.settledItems, List.mapM_cons, h.1.read_data, hrest]
    rfl

theorem exists_item_of_ofItems {items : List Json} (h : ofItems items = .ok tokens) :
    ∀ t ∈ tokens, ∃ v ∈ items, read Record.ofJson v = .ok t := by
  induction items generalizing tokens with
  | nil =>
    cases h
    exact nofun
  | cons v items ih =>
    unfold ofItems at h ih
    rw [List.mapM_cons] at h
    obtain ⟨t, ht, h⟩ := exists_of_bind_eq_ok h
    obtain ⟨rest, hrest, h⟩ := exists_of_bind_eq_ok h
    cases h
    rw [List.forall_mem_cons]
    refine ⟨⟨v, List.mem_cons_self, of_mapError_eq_ok ht⟩, fun t' ht' => ?_⟩
    obtain ⟨v', hv', hread⟩ := ih hrest t' ht'
    exact ⟨v', List.mem_cons_of_mem v hv', hread⟩

end Reading

/-! ### What is read -/

section Received

variable {t : Token} {v : Json}

/-- A value that is read is one of those inside, and not `null`. -/
theorem value_of_stems {p : Json → Prop} {value : Option Json}
    (h : (Record.Absent.default none).value? = some value
      ∨ ∃ w, p w ∧ Record.ofJson.optional Record.ofJson.any w = .ok value) :
    value ≠ some .null ∧ ∀ w ∈ value, p w := by
  rcases h with h | ⟨w, hw, h⟩
  · cases h
    exact ⟨nofun, nofun⟩
  · cases w with
    | null =>
      cases h
      exact ⟨nofun, nofun⟩
    | _ =>
      cases h
      refine ⟨nofun, ?_⟩
      rintro _ ⟨⟩
      exact hw

theorem place_of_stems {p : Json → Prop} {place : Option Nat}
    (h : (Record.Absent.default none).value? = some place
      ∨ ∃ w, p w ∧ Record.ofJson.optional Record.ofJson.word w = .ok place) :
    ∀ n ∈ place, n < UInt32.size := by
  rcases h with h | ⟨w, -, h⟩
  · cases h
    exact nofun
  · cases w with
    | null =>
      cases h
      exact nofun
    | num number =>
      cases number with
      | float x hx => cases h
      | int i hi =>
        simp only [Record.ofJson, Record.boundedOfJson, Record.boundedNat] at h
        split_ifs at h with hbound
        · cases h
          rintro _ ⟨⟩
          omega
        · cases h
    | _ => cases h

theorem stems_of_read (h : read Record.ofJson v = .ok t) :
    0 < v.depth ∧ t.value ≠ some .null ∧ (∀ w ∈ t.value, w ∈ v.parts)
      ∧ (∀ n ∈ t.line, n < UInt32.size) ∧ ∀ n ∈ t.column, n < UInt32.size := by
  rw [read_eq] at h
  obtain ⟨hdepth, row, ⟨-, hvalue, hline, hcolumn, -⟩, rfl⟩ := Record.exists_row_of_recordOfJson h
  obtain ⟨hnull, hparts⟩ := value_of_stems hvalue
  exact ⟨hdepth, hnull, hparts, place_of_stems hline, place_of_stems hcolumn⟩

theorem proper_of_read (h : read Record.ofJson v = .ok t) (hv : v.Ordered) : t.Proper := by
  obtain ⟨-, hnull, hparts, hline, hcolumn⟩ := stems_of_read h
  exact ⟨hnull, fun w hw => hv.of_mem_parts (hparts w hw), hline, hcolumn⟩

theorem depth_data (t : Token) : t.data.depth = (t.value.getD .null).depth + 1 := by
  have hplace : ∀ place, (placeData place).depth = 0 := fun place => by
    rcases placeData_cases place with h | ⟨i, hi, h⟩ <;> rw [h] <;> rfl
  simp [data, Json.depth, Json.fieldsDepth, hplace]

/-- A token is written no deeper than what it was read from. -/
theorem depth_data_le (h : read Record.ofJson v = .ok t) : t.data.depth ≤ v.depth := by
  obtain ⟨hdepth, -, hparts, -⟩ := stems_of_read h
  rw [depth_data]
  cases hvalue : t.value with
  | none => exact hdepth
  | some w => exact Json.depth_lt_of_mem_parts (hparts w hvalue)

end Received

/-! ### Lists of tokens -/

section Lists

variable {text : String} {tokens : List Token} {v : Json}

theorem FloatsReadBack.numbers_data {t : Token} (h : t.FloatsReadBack) :
    ∀ n ∈ t.data.numbers, n.ReadsBack := by
  have hplace : ∀ place, ∀ n ∈ (placeData place).numbers, n.ReadsBack := by
    intro place n hn
    rcases placeData_cases place with h | ⟨i, hi, h⟩
    · rw [h] at hn
      cases hn
    · rw [h, Json.numbers, List.mem_singleton] at hn
      exact hn ▸ Json.readsBack_int i hi
  have hvalue : ∀ n ∈ (t.value.getD .null).numbers, n.ReadsBack := by
    intro n hn
    cases hv : t.value with
    | none =>
      rw [hv] at hn
      cases hn
    | some w =>
      rw [hv, Option.getD_some] at hn
      cases n with
      | int i hi => exact Json.readsBack_int i hi
      | float x hx => exact h w hv x hx hn
  intro n hn
  simp only [data, Json.numbers, Json.fieldsNumbers, List.mem_append, List.not_mem_nil, false_or,
    or_false] at hn
  exact hn.elim (hvalue n) (Or.rec (hplace _ n) (hplace _ n))

theorem numbers_list (h : ∀ t ∈ tokens, t.FloatsReadBack) :
    ∀ n ∈ Json.itemsNumbers (tokens.map data), n.ReadsBack := by
  induction tokens with
  | nil => simp [Json.itemsNumbers]
  | cons t tokens ih =>
    rw [List.forall_mem_cons] at h
    rw [List.map_cons, Json.itemsNumbers, List.forall_mem_append]
    exact ⟨h.1.numbers_data, ih h.2⟩

/-- A text that spells a list of tokens is read if it keeps to the limit of the reader, and only
then. -/
theorem parseList_eq_ok_iff (htext : Json.Text text.toList v) (h : ofJson v.settled = .ok tokens) :
    parseList text = .ok tokens ↔ nesting text.toList < 128 := by
  rw [Json.nesting_of_text htext]
  constructor
  · intro hparse
    obtain ⟨w, hw, -⟩ := exists_of_bind_eq_ok hparse
    have := Json.admits_of_parse htext (of_mapError_eq_ok hw) 128 rfl
    omega
  · intro hdepth
    have hroom : Json.strictRoom.Admits v.depth := by
      rintro n ⟨⟩
      omega
    unfold parseList
    rw [Json.parse_of_text htext hroom]
    exact h

theorem listText_spells (hproper : ∀ t ∈ tokens, t.Proper)
    (hfloats : ∀ t ∈ tokens, t.FloatsReadBack) :
    Json.Text (listText tokens).toList (.arr (tokens.map data)) := by
  rw [listText_eq hproper]
  exact Json.text_write (by simpa only [Json.numbers] using numbers_list hfloats)

theorem wrappedText_spells (hproper : ∀ t ∈ tokens, t.Proper)
    (hfloats : ∀ t ∈ tokens, t.FloatsReadBack) :
    Json.Text (wrappedText tokens).toList (.obj [("tokens", .arr (tokens.map data))]) := by
  rw [wrappedText_eq hproper]
  refine Json.text_write ?_
  simpa only [Json.numbers, Json.fieldsNumbers, List.append_nil] using numbers_list hfloats

/-- A list of tokens is found in a data value whose fields are in order, one level below its
brackets. -/
theorem exists_items_of_ofJson (h : ofJson v = .ok tokens) (hv : v.Ordered) :
    ∃ items, ofItems items = .ok tokens ∧ (∀ w ∈ items, w.Ordered)
      ∧ Json.itemsDepth items < v.depth := by
  cases v with
  | arr items => exact ⟨items, h, fun w hw => hv.of_mem_parts hw, Nat.lt_succ_self _⟩
  | obj fields =>
    rw [ofJson] at h
    split at h
    · rename_i items hfind
      obtain ⟨front, back, rfl, -⟩ := List.lookup_eq_some_iff.1 hfind
      have hmem : Json.arr items ∈ (Json.obj (front ++ ("tokens", .arr items) :: back)).parts :=
        List.mem_map_of_mem (List.mem_append_right front List.mem_cons_self)
      have hdepth := Json.depth_lt_of_mem_parts hmem
      rw [Json.depth] at hdepth
      exact ⟨items, h, fun w hw => (hv.of_mem_parts hmem).of_mem_parts hw, by omega⟩
    · cases h
  | _ => cases h

/-- What was read is proper, and its text keeps to the limit of the reader. -/
theorem proper_of_parseList (h : parseList text = .ok tokens) :
    (∀ t ∈ tokens, t.Proper) ∧ Json.itemsDepth (tokens.map data) < 127 := by
  obtain ⟨w, hw, hlist⟩ := exists_of_bind_eq_ok h
  obtain ⟨v, -, rfl, hroom⟩ := Json.exists_spelled_of_parse (of_mapError_eq_ok hw)
  obtain ⟨items, hitems, hordered, hdepth⟩ := exists_items_of_ofJson hlist (Json.ordered_settled v)
  have hitem := exists_item_of_ofItems hitems
  refine ⟨fun t ht => ?_, ?_⟩
  · obtain ⟨u, hu, hread⟩ := hitem t ht
    exact proper_of_read hread (hordered u hu)
  · have hle : Json.itemsDepth (tokens.map data) ≤ Json.itemsDepth items := by
      refine Json.itemsDepth_le_iff.2 fun u hu => ?_
      obtain ⟨t, ht, rfl⟩ := List.mem_map.1 hu
      obtain ⟨u, hu, hread⟩ := hitem t ht
      exact (depth_data_le hread).trans (Json.itemsDepth_le_iff.1 le_rfl u hu)
    have := hroom 128 rfl
    have := Json.depth_settled_le v
    omega

/-- Tokens whose floating point numbers read back are read from their text, alone or in an object,
wherever the text keeps to the limit of the reader.  And however a list of tokens was given, it can
be told by the text of its tokens. -/
theorem rereading_of_tokens :
    (∀ tokens : List Token, (∀ t ∈ tokens, t.Proper ∧ t.FloatsReadBack) →
      ∀ text ∈ [listText tokens, wrappedText tokens],
        parseList text = .ok tokens ↔ nesting text.toList < 128)
      ∧ ∀ text tokens, parseList text = .ok tokens → (∀ t ∈ tokens, t.FloatsReadBack) →
        parseList (listText tokens) = .ok tokens := by
  have hlist : ∀ tokens : List Token, (∀ t ∈ tokens, t.Proper) → (∀ t ∈ tokens, t.FloatsReadBack) →
      (parseList (listText tokens) = .ok tokens ↔ nesting (listText tokens).toList < 128) := by
    intro tokens hproper hfloats
    refine parseList_eq_ok_iff (listText_spells hproper hfloats) ?_
    rw [Json.settled, ofJson, ofItems_data hproper]
  refine ⟨fun tokens h text htext => ?_, fun text tokens h hfloats => ?_⟩
  · have hproper : ∀ t ∈ tokens, t.Proper := fun t ht => (h t ht).1
    have hfloats : ∀ t ∈ tokens, t.FloatsReadBack := fun t ht => (h t ht).2
    obtain rfl | rfl := List.mem_pair.1 htext
    · exact hlist tokens hproper hfloats
    · refine parseList_eq_ok_iff (wrappedText_spells hproper hfloats) ?_
      exact ofItems_data hproper
  · obtain ⟨hproper, hdepth⟩ := proper_of_parseList h
    refine (hlist tokens hproper hfloats).2 ?_
    rw [Json.nesting_of_text (listText_spells hproper hfloats), Json.depth]
    omega

/-! ### A list under other names -/

def numberToken : Token where
  kind := "NUMBER"
  value := some (.obj [("a", .arr [.num (.int 12 (by decide)), .null])])
  line := some 1
  column := some 4

/-- An object with a list of tokens, one with other names for its fields and one without names. -/
def namedText : String :=
  "\x7b\"tokens\": [\x7b\"type\":\"NUMBER\",\"lexeme\":\x7b\"a\":[12,null]\x7d,\"line\":1,"
    ++ "\"col\":4\x7d,[\"EOF\",null]]\x7d"

theorem rereading_of_namedText :
    parseList namedText = .ok [numberToken, { kind := "EOF" }]
      ∧ listText [numberToken, { kind := "EOF" }]
        = "[\x7b\"kind\":\"NUMBER\",\"value\":\x7b\"a\":[12,null]\x7d,\"line\":1,\"column\":4\x7d,"
          ++ "\x7b\"kind\":\"EOF\",\"value\":null,\"line\":null,\"column\":null\x7d]"
      ∧ parseList (listText [numberToken, { kind := "EOF" }])
        = .ok [numberToken, { kind := "EOF" }]
      ∧ parseList (wrappedText [numberToken, { kind := "EOF" }])
        = .ok [numberToken, { kind := "EOF" }] := by
  have hread : parseList namedText = .ok [numberToken, { kind := "EOF" }] := by
    with_unfolding_all rfl
  have hproper := (proper_of_parseList hread).1
  have hfloats : ∀ t ∈ [numberToken, { kind := "EOF" }], t.FloatsReadBack := by
    simp [FloatsReadBack, numberToken, Json.numbers, Json.fieldsNumbers, Json.itemsNumbers]
  have hdepth : nesting (wrappedText [numberToken, { kind := "EOF" }]).toList < 128 := by
    decide +kernel
  refine ⟨hread, by decide +kernel, rereading_of_tokens.2 _ _ hread hfloats, ?_⟩
  have hboth := fun t ht => And.intro (hproper t ht) (hfloats t ht)
  exact (rereading_of_tokens.1 _ hboth _ (List.mem_cons_of_mem _ List.mem_cons_self)).2 hdepth

end Lists

end Token

end TreeAtlas
