import TreeAtlas.Proofs.Json.Grammar

/-!
# What is spelled is read

The other direction of the grammar: where a text spells a value, the parser reads it, if it has the
room for the brackets of the value (`Spells.read`).
-/

namespace TreeAtlas.Json

/-- Somewhere in a text a reader returns a value and stops at `r`. -/
def Gives {α : Type} {s : List Char} (x : Scan α s) (a : α) (r : List Char) : Prop :=
  ∃ h : r.length < s.length, x = .ok (a, ⟨r, h⟩)

/-- The readers read what is there.  A value is read from any text that is the same behind space. -/
def Phrase.Read (s r : List Char) : Phrase → Prop
  | .value v => ∀ (room : Room) (t : List Char), skipSpace t = skipSpace s → room.Admits v.depth →
      Gives (valueFrom room t) v.settled r
  | .items first vs => ∀ room : Room, room.Admits (itemsDepth vs) →
      Gives (itemsFrom room first s) (settledItems vs) r
  | .fields first fs => ∀ (room : Room) (read : Fields), room.Admits (fieldsDepth fs) →
      Gives (fieldsFrom room first read s) (settledFields read fs) r

section Reading

variable {s s₁ s₂ s₄ s₅ r : List Char} {v : Json} {vs : List Json} {fs : List (String × Json)}
  {first : Bool}

/-! ### Parts of values -/

theorem first?_of_skipSpace {c : Char} {t : List Char} (hs : skipSpace s = c :: t) :
    ∃ h : t.length < s.length, first? s = some (c, ⟨t, h⟩) := by
  refine ⟨lt_of_skipSpace_eq hs, ?_⟩
  unfold first?
  split
  · rename_i h
    rw [hs] at h
    cases h
  · rename_i c' t' h
    have heq := h.symm.trans hs
    cases heq
    rfl

theorem word_append (letters r : List Char) :
    ∃ h, word letters (letters ++ r) = .ok ⟨r, h⟩ := by
  induction letters with
  | nil => exact ⟨Nat.le_refl _, rfl⟩
  | cons c letters ih =>
    obtain ⟨h, hword⟩ := ih
    refine ⟨Nat.le_succ_of_le h, ?_⟩
    simp only [List.cons_append, word, if_true, hword]
    rfl

theorem wordThen_of_eq {α : Type} (letters : String) (value : α) {t : List Char}
    (ht : t = letters.toList ++ r) : ∃ h, wordThen letters value t = .ok (value, ⟨r, h⟩) := by
  subst ht
  obtain ⟨h, hword⟩ := word_append letters.toList r
  refine ⟨h, ?_⟩
  rw [wordThen, hword]
  rfl

theorem number_of_numberFrom {negative : Bool} {n : Number}
    (h : numberFrom negative s = .ok (n, r)) : Gives (number negative s) n r := by
  refine ⟨length_of_numberFrom h, ?_⟩
  unfold number
  split
  · rename_i h'
    rw [h] at h'
    cases h'
    rfl
  · rename_i h'
    rw [h] at h'
    cases h'

theorem nextItem_of_listEnd (hs : skipSpace s = ']' :: r) : nextItem first s = .ok none := by
  unfold nextItem
  split
  · rename_i h
    rw [hs] at h
    cases h
  · rfl
  · rename_i hne h
    have heq := h.symm.trans hs
    cases heq
    exact (hne rfl).elim

theorem nextKey_of_objectEnd (hs : skipSpace s = '\x7d' :: r) : nextKey first s = .ok none := by
  unfold nextKey
  split
  · rename_i h
    rw [hs] at h
    cases h
  · rfl
  · rename_i hne h
    have heq := h.symm.trans hs
    cases heq
    exact (hne rfl).elim

theorem closing_of_skipSpace {c : Char} (hs : skipSpace s = c :: r) :
    ∃ h, closing s = .ok ⟨r, h⟩ := by
  refine ⟨lt_of_skipSpace_eq hs, ?_⟩
  unfold closing
  split
  · rename_i h
    rw [hs] at h
    cases h
  · rename_i h
    have heq := h.symm.trans hs
    cases heq
    rfl

theorem colon_of_skipSpace (hs : skipSpace s = ':' :: r) : ∃ h, colon s = .ok ⟨r, h⟩ := by
  refine ⟨lt_of_skipSpace_eq hs, ?_⟩
  unfold colon
  split
  · rename_i h
    rw [hs] at h
    cases h
  · rename_i h
    have heq := h.symm.trans hs
    cases heq
    rfl

/-- What stands where the next item or field is looked for. -/
theorem separated?_cases (hs : separated? first s = some s₁) :
    (first = true ∧ s₁ = s) ∨ (first = false ∧ skipSpace s = ',' :: s₁) := by
  unfold separated? at hs
  split_ifs at hs with hf
  · cases hs
    exact .inl ⟨hf, rfl⟩
  · split at hs
    · rename_i h
      cases hs
      exact .inr ⟨by simpa using hf, h⟩
    · cases hs

theorem length_le_of_separated? (hs : separated? first s = some s₁) : s₁.length ≤ s.length := by
  rcases separated?_cases hs with ⟨-, rfl⟩ | ⟨-, h⟩
  · exact Nat.le_refl _
  · exact Nat.le_of_lt (lt_of_skipSpace_eq h)

/-- The next item begins where its value does. -/
theorem nextItem_of_separated {c : Char} {t : List Char} (hs : separated? first s = some s₁)
    (hstart : skipSpace s₁ = c :: t) (hc : c ≠ ']') :
    ∃ h, nextItem first s = .ok (some ⟨c :: t, h⟩) := by
  have hle : (c :: t).length ≤ s.length :=
    (hstart ▸ length_skipSpace_le s₁).trans (length_le_of_separated? hs)
  refine ⟨hle, ?_⟩
  rcases separated?_cases hs with ⟨rfl, rfl⟩ | ⟨rfl, hcomma⟩
  · unfold nextItem
    split
    · rename_i h
      rw [hstart] at h
      cases h
    · rename_i h
      have heq := h.symm.trans hstart
      cases heq
      exact (hc rfl).elim
    · rename_i h
      have heq := h.symm.trans hstart
      cases heq
      rfl
  · unfold nextItem
    split
    · rename_i h
      rw [hcomma] at h
      cases h
    · rename_i h
      have heq := h.symm.trans hcomma
      cases heq
    · rename_i h
      have heq := h.symm.trans hcomma
      cases heq
      simp only [Bool.false_eq_true, if_false, if_true]
      split
      · rename_i h'
        rw [hstart] at h'
        cases h'
      · rename_i h'
        have heq' := h'.symm.trans hstart
        cases heq'
        exact (hc rfl).elim
      · rename_i h'
        have heq' := h'.symm.trans hstart
        cases heq'
        rfl

theorem nextKey_of_separated (hs : separated? first s = some s₁)
    (hq : skipSpace s₁ = '"' :: s₂) : ∃ h, nextKey first s = .ok (some ⟨s₂, h⟩) := by
  have hlt : s₂.length < s.length :=
    Nat.lt_of_lt_of_le (lt_of_skipSpace_eq hq) (length_le_of_separated? hs)
  refine ⟨hlt, ?_⟩
  rcases separated?_cases hs with ⟨rfl, rfl⟩ | ⟨rfl, hcomma⟩
  · unfold nextKey
    split
    · rename_i h
      rw [hq] at h
      cases h
    · rename_i h
      have heq := h.symm.trans hq
      cases heq
    · rename_i h
      have heq := h.symm.trans hq
      cases heq
      rfl
  · unfold nextKey
    split
    · rename_i h
      rw [hcomma] at h
      cases h
    · rename_i h
      have heq := h.symm.trans hcomma
      cases heq
    · rename_i h
      have heq := h.symm.trans hcomma
      cases heq
      simp only [Bool.false_eq_true, if_false, if_true]
      split
      · rename_i h'
        rw [hq] at h'
        cases h'
      · rename_i h'
        have heq' := h'.symm.trans hq
        cases heq'
        rfl

/-! ### Values -/

theorem read_name {text : List Char} (hv : (text, v) ∈ names) (hs : skipSpace s = text ++ r) :
    (Phrase.value v).Read s r := by
  intro room t ht _
  rw [← ht] at hs
  simp only [names, List.mem_cons, Prod.mk.injEq, List.not_mem_nil, or_false] at hv
  rcases hv with ⟨rfl, rfl⟩ | ⟨rfl, rfl⟩ | ⟨rfl, rfl⟩
  all_goals
    simp only [List.cons_append, List.nil_append] at hs
    obtain ⟨h, hfirst⟩ := first?_of_skipSpace hs
    rw [valueFrom, hfirst]
    simp only []
  · obtain ⟨h', hword⟩ := wordThen_of_eq "ull" Json.null (t := 'u' :: 'l' :: 'l' :: r) rfl
    refine ⟨Nat.lt_of_le_of_lt h' h, ?_⟩
    rw [hword]
    rfl
  · obtain ⟨h', hword⟩ := wordThen_of_eq "rue" (Json.bool true) (t := 'r' :: 'u' :: 'e' :: r) rfl
    refine ⟨Nat.lt_of_le_of_lt h' h, ?_⟩
    rw [hword]
    rfl
  · obtain ⟨h', hword⟩ := wordThen_of_eq "alse" (Json.bool false)
      (t := 'a' :: 'l' :: 's' :: 'e' :: r) rfl
    refine ⟨Nat.lt_of_le_of_lt h' h, ?_⟩
    rw [hword]
    rfl

theorem read_str {t : String} {r : Rest s₁} (hs : skipSpace s = '"' :: s₁)
    (ht : string s₁ = .ok (t, r)) : (Phrase.value (.str t)).Read s r.1 := by
  intro room t' ht' _
  obtain ⟨h, hfirst⟩ := first?_of_skipSpace (ht'.trans hs)
  refine ⟨Nat.lt_trans r.2 h, ?_⟩
  rw [valueFrom, hfirst]
  simp only [ht]
  rfl

theorem read_minus {n : Number} (hs : skipSpace s = '-' :: s₁)
    (hn : numberFrom true s₁ = .ok (n, r)) : (Phrase.value (.num n)).Read s r := by
  intro room t ht _
  obtain ⟨h, hfirst⟩ := first?_of_skipSpace (ht.trans hs)
  obtain ⟨h', hnumber⟩ := number_of_numberFrom hn
  refine ⟨Nat.lt_trans h' h, ?_⟩
  rw [valueFrom, hfirst]
  simp only [hnumber]
  rfl

theorem read_num {n : Number} (hn : numberFrom false (skipSpace s) = .ok (n, r)) :
    (Phrase.value (.num n)).Read s r := by
  intro room t' ht' _
  obtain ⟨c, t, hs, hc⟩ := numberFrom_cons hn
  obtain ⟨h, hfirst⟩ := first?_of_skipSpace (ht'.trans hs)
  rw [hs] at hn
  obtain ⟨h', hnumber⟩ := number_of_numberFrom hn
  refine ⟨Nat.lt_of_lt_of_le h' h, ?_⟩
  rw [valueFrom, hfirst]
  simp only []
  split
  case h_8 =>
    rw [if_pos hc, hnumber]
    rfl
  all_goals cases hc

theorem read_arr (hs : skipSpace s = '[' :: s₁) (ih : (Phrase.items true vs).Read s₁ r) :
    (Phrase.value (.arr vs)).Read s r := by
  intro room t ht hroom
  obtain ⟨h, hfirst⟩ := first?_of_skipSpace (ht.trans hs)
  obtain ⟨inner, henter, hinner⟩ := Room.Admits.enter hroom ('[' :: s₁)
  obtain ⟨h', hitems⟩ := ih inner hinner
  refine ⟨Nat.lt_trans h' h, ?_⟩
  rw [valueFrom, hfirst]
  simp only [henter]
  rw [settled]
  simp only [bind, Except.bind, hitems]
  rfl

theorem read_obj (hs : skipSpace s = '\x7b' :: s₁) (ih : (Phrase.fields true fs).Read s₁ r) :
    (Phrase.value (.obj fs)).Read s r := by
  intro room t ht hroom
  obtain ⟨h, hfirst⟩ := first?_of_skipSpace (ht.trans hs)
  obtain ⟨inner, henter, hinner⟩ := Room.Admits.enter hroom ('\x7b' :: s₁)
  obtain ⟨h', hfields⟩ := ih inner [] hinner
  refine ⟨Nat.lt_trans h' h, ?_⟩
  rw [valueFrom, hfirst]
  simp only [henter]
  rw [settled]
  simp only [bind, Except.bind, hfields]
  rfl

/-! ### Items and fields -/

theorem read_listEnd (hs : skipSpace s = ']' :: r) : (Phrase.items first []).Read s r := by
  intro room _
  obtain ⟨h, hclosing⟩ := closing_of_skipSpace hs
  refine ⟨h, ?_⟩
  rw [itemsFrom, nextItem_of_listEnd hs]
  simp only [bind, Except.bind, hclosing]
  rfl

theorem read_item (hs : separated? first s = some s₁) (value : Spells (.value v) s₁ s₂)
    (ihv : (Phrase.value v).Read s₁ s₂) (ihm : (Phrase.items false vs).Read s₂ r) :
    (Phrase.items first (v :: vs)).Read s r := by
  intro room hroom
  rw [itemsDepth] at hroom
  obtain ⟨c, t, hstart, hkind⟩ := value.exists_kindFrom?
  have hc : c ≠ ']' := by
    rintro rfl
    cases hkind
  obtain ⟨h, hnext⟩ := nextItem_of_separated hs hstart hc
  have hskip : skipSpace (c :: t) = skipSpace s₁ := by rw [← hstart, skipSpace_skipSpace]
  obtain ⟨h', hvalue⟩ := ihv room _ hskip (hroom.mono (Nat.le_max_left _ _))
  obtain ⟨h'', hitems⟩ := ihm room (hroom.mono (Nat.le_max_right _ _))
  refine ⟨by omega, ?_⟩
  rw [itemsFrom, hnext]
  simp only [bind, Except.bind, hvalue, hitems]
  rfl

theorem read_objectEnd (hs : skipSpace s = '\x7d' :: r) : (Phrase.fields first []).Read s r := by
  intro room read _
  obtain ⟨h, hclosing⟩ := closing_of_skipSpace hs
  refine ⟨h, ?_⟩
  rw [fieldsFrom, nextKey_of_objectEnd hs]
  simp only [bind, Except.bind, hclosing]
  rfl

theorem read_field {key : String} {s₃ : Rest s₂} (hs : separated? first s = some s₁)
    (hq : skipSpace s₁ = '"' :: s₂) (hk : string s₂ = .ok (key, s₃))
    (hc : skipSpace s₃.1 = ':' :: s₄) (ihv : (Phrase.value v).Read s₄ s₅)
    (ihm : (Phrase.fields false fs).Read s₅ r) :
    (Phrase.fields first ((key, v) :: fs)).Read s r := by
  intro room read hroom
  rw [fieldsDepth] at hroom
  obtain ⟨h, hnext⟩ := nextKey_of_separated hs hq
  obtain ⟨h', hcolon⟩ := colon_of_skipSpace hc
  obtain ⟨h'', hvalue⟩ := ihv room s₄ rfl (hroom.mono (Nat.le_max_left _ _))
  obtain ⟨hf, hfields⟩ :=
    ihm room (read.insert key v.settled) (hroom.mono (Nat.le_max_right _ _))
  have := s₃.2
  refine ⟨by omega, ?_⟩
  rw [fieldsFrom, hnext]
  simp only [bind, Except.bind, hk, hcolon, hvalue, hfields]
  rfl

/-- The readers return what is spelled, with the fields set one after another. -/
theorem Spells.read {p : Phrase} (h : Spells p s r) : p.Read s r := by
  induction h with
  | name hv hs => exact read_name hv hs
  | str hs ht => exact read_str hs ht
  | minus hs hn => exact read_minus hs hn
  | num hn => exact read_num hn
  | arr hs _ ih => exact read_arr hs ih
  | obj hs _ ih => exact read_obj hs ih
  | listEnd hs => exact read_listEnd hs
  | item hs value _ ihv ihm => exact read_item hs value ihv ihm
  | objectEnd hs => exact read_objectEnd hs
  | field hs hq hk hc _ _ ihv ihm => exact read_field hs hq hk hc ihv ihm

end Reading

end TreeAtlas.Json
