import TreeAtlas.Json.Parser
import TreeAtlas.Proofs.Except
import TreeAtlas.Proofs.Json.Depth

/-!
# What a data text spells

A text spells a value as it is written: the fields of an object in their order, with every key that
occurs.  The grammar is a relation between what is left of the text before and behind a value, or
behind the rest of a list or of an object (`Spells`).  Scalars are what their readers read.  A text
spells one value at most (`Spells.only`), and the parser returns that value with its fields set
one after another (`read_of_text`).  Without a bound there is always room for its brackets, and a
reader with a bound needs more levels than the value has (`Room.Admits`).
-/

namespace TreeAtlas.Json

/-- What stands at a place of a text: a value, or the rest of a list or of an object, whose first
part has no comma in front. -/
inductive Phrase where
  | value (v : Json)
  | items (first : Bool) (vs : List Json)
  | fields (first : Bool) (fields : List (String × Json))

def names : List (List Char × Json) :=
  [(['n', 'u', 'l', 'l'], .null), (['t', 'r', 'u', 'e'], .bool true),
    (['f', 'a', 'l', 's', 'e'], .bool false)]

/-- The text of the next item or field, behind a comma unless it is the first. -/
def separated? (first : Bool) (s : List Char) : Option (List Char) :=
  if first then some s
  else match skipSpace s with
    | ',' :: r => some r
    | _ => none

inductive Spells : Phrase → List Char → List Char → Prop where
  | name {text s r : List Char} {v : Json} (hv : (text, v) ∈ names)
      (hs : skipSpace s = text ++ r) : Spells (.value v) s r
  | str {s s₁ : List Char} {t : String} {r : Rest s₁} (hs : skipSpace s = '"' :: s₁)
      (ht : string s₁ = .ok (t, r)) : Spells (.value (.str t)) s r.1
  | minus {s s₁ r : List Char} {n : Number} (hs : skipSpace s = '-' :: s₁)
      (hn : numberFrom true s₁ = .ok (n, r)) : Spells (.value (.num n)) s r
  | num {s r : List Char} {n : Number} (hn : numberFrom false (skipSpace s) = .ok (n, r)) :
      Spells (.value (.num n)) s r
  | arr {s s₁ r : List Char} {vs : List Json} (hs : skipSpace s = '[' :: s₁)
      (items : Spells (.items true vs) s₁ r) : Spells (.value (.arr vs)) s r
  | obj {s s₁ r : List Char} {fs : List (String × Json)} (hs : skipSpace s = '\x7b' :: s₁)
      (fields : Spells (.fields true fs) s₁ r) : Spells (.value (.obj fs)) s r
  | listEnd {first : Bool} {s r : List Char} (hs : skipSpace s = ']' :: r) :
      Spells (.items first []) s r
  | item {first : Bool} {s s₁ s₂ r : List Char} {v : Json} {vs : List Json}
      (hs : separated? first s = some s₁) (value : Spells (.value v) s₁ s₂)
      (more : Spells (.items false vs) s₂ r) : Spells (.items first (v :: vs)) s r
  | objectEnd {first : Bool} {s r : List Char} (hs : skipSpace s = '\x7d' :: r) :
      Spells (.fields first []) s r
  | field {first : Bool} {s s₁ s₂ s₄ s₅ r : List Char} {key : String} {s₃ : Rest s₂} {v : Json}
      {fs : List (String × Json)} (hs : separated? first s = some s₁)
      (hq : skipSpace s₁ = '"' :: s₂) (hk : string s₂ = .ok (key, s₃))
      (hc : skipSpace s₃.1 = ':' :: s₄) (value : Spells (.value v) s₄ s₅)
      (more : Spells (.fields false fs) s₅ r) : Spells (.fields first ((key, v) :: fs)) s r

/-! ### One value at most -/

/-- What the first character of a value tells about it. -/
inductive Kind where
  | null
  | bool (b : Bool)
  | num
  | str
  | arr
  | obj

def kind : Json → Kind
  | .null => .null
  | .bool b => .bool b
  | .num _ => .num
  | .str _ => .str
  | .arr _ => .arr
  | .obj _ => .obj

def kindFrom? (c : Char) : Option Kind :=
  if c = 'n' then some .null
  else if c = 't' then some (.bool true)
  else if c = 'f' then some (.bool false)
  else if c = '"' then some .str
  else if c = '[' then some .arr
  else if c = '\x7b' then some .obj
  else if c = '-' ∨ c.isDigit then some .num
  else none

/-- What else is spelled there is the same. -/
def Phrase.Only (s r : List Char) : Phrase → Prop
  | .value v => ∀ v' r', Spells (.value v') s r' → v' = v ∧ r' = r
  | .items first vs => ∀ vs' r', Spells (.items first vs') s r' → vs' = vs ∧ r' = r
  | .fields first fs => ∀ fs' r', Spells (.fields first fs') s r' → fs' = fs ∧ r' = r

section Unique

variable {s s₁ s₂ s₄ s₅ r text : List Char} {v : Json} {n : Number} {vs : List Json}
  {fs : List (String × Json)} {first : Bool}

theorem kindFrom?_of_isDigit {c : Char} (h : c.isDigit = true) : kindFrom? c = some .num := by
  have hne : ∀ d : Char, d.isDigit = false → c ≠ d := by
    rintro d hd rfl
    rw [h] at hd
    cases hd
  unfold kindFrom?
  rw [if_neg (hne _ (by decide)), if_neg (hne _ (by decide)), if_neg (hne _ (by decide)),
    if_neg (hne _ (by decide)), if_neg (hne _ (by decide)), if_neg (hne _ (by decide)),
    if_pos (.inr h)]

theorem numberFrom_cons {negative : Bool} (h : numberFrom negative s = .ok (n, r)) :
    ∃ c t, s = c :: t ∧ c.isDigit = true := by
  unfold numberFrom at h
  split at h
  · cases h
  · rename_i c t
    by_cases hd : c.isDigit = true
    · exact ⟨c, t, rfl, hd⟩
    · rw [if_pos hd] at h
      cases h

/-- The first character of a value. -/
theorem Spells.exists_kindFrom? (h : Spells (.value v) s r) :
    ∃ c t, skipSpace s = c :: t ∧ kindFrom? c = some v.kind := by
  cases h with
  | name hv hs =>
    simp only [names, List.mem_cons, Prod.mk.injEq, List.not_mem_nil, or_false] at hv
    rcases hv with ⟨rfl, rfl⟩ | ⟨rfl, rfl⟩ | ⟨rfl, rfl⟩ <;> exact ⟨_, _, hs, rfl⟩
  | str hs => exact ⟨_, _, hs, rfl⟩
  | minus hs => exact ⟨_, _, hs, rfl⟩
  | num hn =>
    obtain ⟨c, t, hs, hc⟩ := numberFrom_cons hn
    exact ⟨c, t, hs, kindFrom?_of_isDigit hc⟩
  | arr hs => exact ⟨_, _, hs, rfl⟩
  | obj hs => exact ⟨_, _, hs, rfl⟩

theorem Spells.kindFrom?_eq {c : Char} {t : List Char} (hs : skipSpace s = c :: t)
    (h : Spells (.value v) s r) : kindFrom? c = some v.kind := by
  obtain ⟨c', t', hs', hc⟩ := h.exists_kindFrom?
  rw [hs, List.cons.injEq] at hs'
  rw [hs'.1, hc]

theorem only_name (hv : (text, v) ∈ names) (hs : skipSpace s = text ++ r) :
    (Phrase.value v).Only s r := by
  intro v' r' h'
  simp only [names, List.mem_cons, Prod.mk.injEq, List.not_mem_nil, or_false] at hv
  rcases hv with ⟨rfl, rfl⟩ | ⟨rfl, rfl⟩ | ⟨rfl, rfl⟩
  all_goals
    have hkind := h'.kindFrom?_eq hs
    cases v' <;> cases hkind
    cases h' with
    | name hv' hs' =>
      simp only [names, List.mem_cons, Prod.mk.injEq, List.not_mem_nil, or_false, reduceCtorEq,
        and_false, and_true, false_or, Json.bool.injEq] at hv'
      subst hv'
      rw [hs, List.append_cancel_left_eq] at hs'
      exact ⟨rfl, hs'.symm⟩

theorem only_str {t : String} {r : Rest s₁} (hs : skipSpace s = '"' :: s₁)
    (ht : string s₁ = .ok (t, r)) : (Phrase.value (.str t)).Only s r.1 := by
  intro v' r' h'
  have hkind := h'.kindFrom?_eq hs
  cases v' <;> cases hkind
  cases h' with
  | name hv => simp [names] at hv
  | str hs' ht' =>
    rw [hs, List.cons.injEq] at hs'
    obtain ⟨-, rfl⟩ := hs'
    rw [ht] at ht'
    cases ht'
    exact ⟨rfl, rfl⟩

theorem only_minus (hs : skipSpace s = '-' :: s₁) (hn : numberFrom true s₁ = .ok (n, r)) :
    (Phrase.value (.num n)).Only s r := by
  intro v' r' h'
  have hkind := h'.kindFrom?_eq hs
  cases v' <;> cases hkind
  cases h' with
  | name hv => simp [names] at hv
  | minus hs' hn' =>
    rw [hs, List.cons.injEq] at hs'
    obtain ⟨-, rfl⟩ := hs'
    rw [hn] at hn'
    cases hn'
    exact ⟨rfl, rfl⟩
  | num hn' =>
    obtain ⟨c, t, hs', hc⟩ := numberFrom_cons hn'
    rw [hs, List.cons.injEq] at hs'
    rw [← hs'.1] at hc
    cases hc

theorem only_num (hn : numberFrom false (skipSpace s) = .ok (n, r)) :
    (Phrase.value (.num n)).Only s r := by
  intro v' r' h'
  obtain ⟨c, t, hs, hc⟩ := numberFrom_cons hn
  have hkind := h'.kindFrom?_eq hs
  rw [kindFrom?_of_isDigit hc] at hkind
  cases v' <;> cases hkind
  cases h' with
  | name hv => simp [names] at hv
  | minus hs' hn' =>
    rw [hs, List.cons.injEq] at hs'
    rw [hs'.1] at hc
    cases hc
  | num hn' =>
    rw [hn] at hn'
    cases hn'
    exact ⟨rfl, rfl⟩

theorem only_arr (hs : skipSpace s = '[' :: s₁) (ih : (Phrase.items true vs).Only s₁ r) :
    (Phrase.value (.arr vs)).Only s r := by
  intro v' r' h'
  have hkind := h'.kindFrom?_eq hs
  cases v' <;> cases hkind
  cases h' with
  | name hv => simp [names] at hv
  | arr hs' items' =>
    rw [hs, List.cons.injEq] at hs'
    obtain ⟨-, rfl⟩ := hs'
    obtain ⟨rfl, rfl⟩ := ih _ _ items'
    exact ⟨rfl, rfl⟩

theorem only_obj (hs : skipSpace s = '\x7b' :: s₁) (ih : (Phrase.fields true fs).Only s₁ r) :
    (Phrase.value (.obj fs)).Only s r := by
  intro v' r' h'
  have hkind := h'.kindFrom?_eq hs
  cases v' <;> cases hkind
  cases h' with
  | name hv => simp [names] at hv
  | obj hs' fields' =>
    rw [hs, List.cons.injEq] at hs'
    obtain ⟨-, rfl⟩ := hs'
    obtain ⟨rfl, rfl⟩ := ih _ _ fields'
    exact ⟨rfl, rfl⟩

/-- An item or a field does not stand where the list or the object ends. -/
theorem not_end_of_separated {c : Char} {t : List Char}
    (hs : separated? first s = some s₁) (hend : skipSpace s = c :: t) (hc : c ≠ ',')
    (hstart : ∀ t', skipSpace s₁ ≠ c :: t') : False := by
  unfold separated? at hs
  split_ifs at hs with hf
  · cases hs
    exact hstart t hend
  · rw [hend] at hs
    split at hs
    · rename_i he
      exact hc (List.cons.inj he).1
    · cases hs

theorem Spells.not_listEnd {t : List Char} (hs : separated? first s = some s₁)
    (h : Spells (.value v) s₁ r) (hend : skipSpace s = ']' :: t) : False := by
  refine not_end_of_separated hs hend (by decide) fun t' ht' => ?_
  obtain ⟨c, u, hc, hkind⟩ := h.exists_kindFrom?
  rw [ht', List.cons.injEq] at hc
  rw [← hc.1] at hkind
  cases hkind

theorem not_objectEnd {t : List Char} (hs : separated? first s = some s₁)
    (hq : skipSpace s₁ = '"' :: s₂) (hend : skipSpace s = '\x7d' :: t) : False := by
  refine not_end_of_separated hs hend (by decide) fun t' ht' => ?_
  rw [hq] at ht'
  cases ht'

theorem only_listEnd (hs : skipSpace s = ']' :: r) : (Phrase.items first []).Only s r := by
  intro vs' r' h'
  cases h' with
  | listEnd hs' =>
    rw [hs, List.cons.injEq] at hs'
    exact ⟨rfl, hs'.2.symm⟩
  | item hs' value' _ => exact (value'.not_listEnd hs' hs).elim

theorem only_item (hs : separated? first s = some s₁) (value : Spells (.value v) s₁ s₂)
    (ihv : (Phrase.value v).Only s₁ s₂) (ihm : (Phrase.items false vs).Only s₂ r) :
    (Phrase.items first (v :: vs)).Only s r := by
  intro vs' r' h'
  cases h' with
  | listEnd hs' => exact (value.not_listEnd hs hs').elim
  | item hs' value' more' =>
    rw [hs, Option.some.injEq] at hs'
    subst hs'
    obtain ⟨rfl, rfl⟩ := ihv _ _ value'
    obtain ⟨rfl, rfl⟩ := ihm _ _ more'
    exact ⟨rfl, rfl⟩

theorem only_objectEnd (hs : skipSpace s = '\x7d' :: r) : (Phrase.fields first []).Only s r := by
  intro fs' r' h'
  cases h' with
  | objectEnd hs' =>
    rw [hs, List.cons.injEq] at hs'
    exact ⟨rfl, hs'.2.symm⟩
  | field hs' hq' => exact (not_objectEnd hs' hq' hs).elim

theorem only_field {key : String} {s₃ : Rest s₂} (hs : separated? first s = some s₁)
    (hq : skipSpace s₁ = '"' :: s₂) (hk : string s₂ = .ok (key, s₃))
    (hc : skipSpace s₃.1 = ':' :: s₄) (ihv : (Phrase.value v).Only s₄ s₅)
    (ihm : (Phrase.fields false fs).Only s₅ r) :
    (Phrase.fields first ((key, v) :: fs)).Only s r := by
  intro fs' r' h'
  cases h' with
  | objectEnd hs' => exact (not_objectEnd hs hq hs').elim
  | field hs' hq' hk' hc' value' more' =>
    rw [hs, Option.some.injEq] at hs'
    subst hs'
    rw [hq, List.cons.injEq] at hq'
    obtain ⟨-, rfl⟩ := hq'
    rw [hk] at hk'
    cases hk'
    rw [hc, List.cons.injEq] at hc'
    obtain ⟨-, rfl⟩ := hc'
    obtain ⟨rfl, rfl⟩ := ihv _ _ value'
    obtain ⟨rfl, rfl⟩ := ihm _ _ more'
    exact ⟨rfl, rfl⟩

/-- A text spells one value at most. -/
theorem Spells.only {p : Phrase} (h : Spells p s r) : p.Only s r := by
  induction h with
  | name hv hs => exact only_name hv hs
  | str hs ht => exact only_str hs ht
  | minus hs hn => exact only_minus hs hn
  | num hn => exact only_num hn
  | arr hs _ ih => exact only_arr hs ih
  | obj hs _ ih => exact only_obj hs ih
  | listEnd hs => exact only_listEnd hs
  | item hs value _ ihv ihm => exact only_item hs value ihv ihm
  | objectEnd hs => exact only_objectEnd hs
  | field hs hq hk hc _ _ ihv ihm => exact only_field hs hq hk hc ihv ihm

end Unique

/-! ### What the parser reads -/

/-- Room for some more levels of arrays and objects. -/
def Room.Admits (room : Room) (levels : Nat) : Prop :=
  ∀ n ∈ room, levels ≤ n - 1

section Rooms

variable {room inner : Room} {k l : Nat} {s : List Char}

theorem Room.admits_none (levels : Nat) : Room.Admits none levels := by
  rintro n ⟨⟩

theorem Room.admits_zero (room : Room) : room.Admits 0 :=
  fun _ _ => Nat.zero_le _

theorem Room.Admits.mono (h : room.Admits l) (hk : k ≤ l) : room.Admits k :=
  fun n hn => hk.trans (h n hn)

theorem Room.Admits.max (hk : room.Admits k) (hl : room.Admits l) : room.Admits (max k l) :=
  fun n hn => Nat.max_le.2 ⟨hk n hn, hl n hn⟩

/-- A bracket is let through and leaves room for what is inside. -/
theorem Room.Admits.enter (h : room.Admits (l + 1)) (s : List Char) :
    ∃ inner : Room, room.enter s = .ok inner ∧ inner.Admits l := by
  cases room with
  | none => exact ⟨none, rfl, Room.admits_none l⟩
  | some n =>
    have hn : l + 1 ≤ n - 1 := h n rfl
    have henter : Room.enter? (some n) = some (some (n - 1)) := if_neg (by omega)
    refine ⟨some (n - 1), by rw [Room.enter, henter], ?_⟩
    rintro m ⟨⟩
    omega

/-- What fits behind a bracket fits with the bracket. -/
theorem Room.admits_of_enter (h : room.enter s = .ok inner) (hl : inner.Admits l) :
    room.Admits (l + 1) := by
  cases room with
  | none => exact Room.admits_none _
  | some n =>
    rintro m ⟨⟩
    by_cases hn : n ≤ 1
    · have henter : Room.enter? (some n) = none := if_pos hn
      rw [Room.enter, henter] at h
      cases h
    · have henter : Room.enter? (some n) = some (some (n - 1)) := if_neg hn
      rw [Room.enter, henter] at h
      cases h
      have := hl (n - 1) rfl
      omega

end Rooms

section Parser

variable {s r : List Char} {first : Bool}

theorem skipSpace_skipSpace (s : List Char) : skipSpace (skipSpace s) = skipSpace s := by
  unfold skipSpace
  induction s with
  | nil => rfl
  | cons c s ih =>
    cases hc : isSpace c with
    | true => rw [List.dropWhile_cons_of_pos hc, ih]
    | false =>
      have hc : ¬ isSpace c = true := by simp [hc]
      rw [List.dropWhile_cons_of_neg hc, List.dropWhile_cons_of_neg hc]

/-- Space in front of a value does not count. -/
theorem Spells.of_skipSpace {v : Json} (h : Spells (.value v) (skipSpace s) r) :
    Spells (.value v) s r := by
  cases h with
  | name hv hs => exact .name hv (by rwa [skipSpace_skipSpace] at hs)
  | str hs ht => exact .str (by rwa [skipSpace_skipSpace] at hs) ht
  | minus hs hn => exact .minus (by rwa [skipSpace_skipSpace] at hs) hn
  | num hn => exact .num (by rwa [skipSpace_skipSpace] at hn)
  | arr hs items => exact .arr (by rwa [skipSpace_skipSpace] at hs) items
  | obj hs fields => exact .obj (by rwa [skipSpace_skipSpace] at hs) fields

theorem skipSpace_of_first? {c : Char} {r : Rest s} (h : first? s = some (c, r)) :
    skipSpace s = c :: r.1 := by
  unfold first? at h
  split at h
  · cases h
  · rename_i hs
    cases h
    exact hs

theorem word_eq {letters s : List Char} {r : Left s} (h : word letters s = .ok r) :
    s = letters ++ r.1 := by
  induction letters generalizing s with
  | nil =>
    cases h
    rfl
  | cons e es ih =>
    rcases s with _ | ⟨c, cs⟩
    · cases h
    · simp only [word] at h
      split_ifs at h with hc
      obtain ⟨r', hr', h⟩ := exists_of_bind_eq_ok h
      cases h
      rw [hc, List.cons_append]
      exact congrArg (e :: ·) (ih hr')

theorem wordThen_eq {α : Type} {letters : String} {value v : α} {r : Left s}
    (h : wordThen letters value s = .ok (v, r)) : v = value ∧ s = letters.toList ++ r.1 := by
  obtain ⟨r', hr', h⟩ := exists_of_bind_eq_ok h
  cases h
  exact ⟨rfl, word_eq hr'⟩

theorem Spells.of_wordThen {c : Char} {letters : String} {value v : Json} {t : List Char}
    {r : Left t} (hmem : (c :: letters.toList, value) ∈ names) (hs : skipSpace s = c :: t)
    (h : wordThen letters value t = .ok (v, r)) : v = value ∧ Spells (.value value) s r.1 := by
  obtain ⟨rfl, ht⟩ := wordThen_eq h
  exact ⟨rfl, .name hmem (hs.trans (congrArg _ ht))⟩

theorem number_eq {negative : Bool} {n : Number} {r : Rest s}
    (h : number negative s = .ok (n, r)) : numberFrom negative s = .ok (n, r.1) := by
  unfold number at h
  split at h
  · rename_i hn
    cases h
    exact hn
  · cases h

theorem nextItem_none (h : nextItem first s = .ok none) : ∃ t, skipSpace s = ']' :: t := by
  unfold nextItem at h
  split at h
  · cases h
  · exact ⟨_, ‹_›⟩
  · simp only [] at h
    split_ifs at h
    · cases h
    · split at h <;> cases h

theorem nextItem_some {s' : Left s} (h : nextItem first s = .ok (some s')) :
    ∃ s₁, separated? first s = some s₁ ∧ s'.1 = skipSpace s₁ := by
  unfold nextItem at h
  split at h
  · cases h
  · cases h
  · rename_i c t _ hs
    simp only [] at h
    split_ifs at h with hf hc
    · cases h
      exact ⟨s, if_pos hf, hs.symm⟩
    · subst hc
      split at h
      · cases h
      · cases h
      · rename_i ht
        cases h
        refine ⟨t, ?_, ht.symm⟩
        rw [separated?, if_neg hf, hs]
        rfl

theorem nextKey_none (h : nextKey first s = .ok none) : ∃ t, skipSpace s = '\x7d' :: t := by
  unfold nextKey at h
  split at h
  · cases h
  · exact ⟨_, ‹_›⟩
  · simp only [] at h
    split_ifs at h
    · cases h
    · split at h
      · cases h
      · split_ifs at h
        cases h

theorem nextKey_some {s' : Rest s} (h : nextKey first s = .ok (some s')) :
    ∃ s₁, separated? first s = some s₁ ∧ skipSpace s₁ = '"' :: s'.1 := by
  unfold nextKey at h
  split at h
  · cases h
  · cases h
  · rename_i c t _ hs
    simp only [] at h
    split_ifs at h with hf hq hc
    · subst hq
      cases h
      exact ⟨s, if_pos hf, hs⟩
    · subst hc
      split at h
      · cases h
      · rename_i ht
        split_ifs at h with hq
        subst hq
        cases h
        refine ⟨t, ?_, ht⟩
        rw [separated?, if_neg hf, hs]
        rfl

theorem colon_eq {r : Rest s} (h : colon s = .ok r) : skipSpace s = ':' :: r.1 := by
  unfold colon at h
  split at h
  · cases h
  · rename_i hs
    split_ifs at h with hc
    subst hc
    cases h
    exact hs

theorem closing_eq {r : Rest s} (h : closing s = .ok r) : ∃ c, skipSpace s = c :: r.1 := by
  unfold closing at h
  split at h
  · cases h
  · rename_i c _ hs
    cases h
    exact ⟨c, hs⟩

/-- A value that is read is the settled form of what is spelled, and there was room for that. -/
def ValueRead (s : List Char) : Prop :=
  ∀ room w r, valueFrom room s = .ok (w, r) →
    ∃ v, Spells (.value v) s r.1 ∧ v.settled = w ∧ room.Admits v.depth

def ItemsRead (s : List Char) : Prop :=
  ∀ room first ws r, itemsFrom room first s = .ok (ws, r) →
    ∃ vs, Spells (.items first vs) s r.1 ∧ settledItems vs = ws ∧ room.Admits (itemsDepth vs)

def FieldsRead (s : List Char) : Prop :=
  ∀ room first read ws r, fieldsFrom room first read s = .ok (ws, r) →
    ∃ fs, Spells (.fields first fs) s r.1 ∧ settledFields read fs = ws
      ∧ room.Admits (fieldsDepth fs)

theorem valueRead_of_shorter
    (ih : ∀ t : List Char, t.length < s.length → ItemsRead t ∧ FieldsRead t) : ValueRead s := by
  intro room w r h
  rw [valueFrom] at h
  split at h
  · cases h
  rename_i c t ht hfirst
  have hs : skipSpace s = c :: t := skipSpace_of_first? hfirst
  split at h
  · obtain ⟨⟨v, r'⟩, hword, h⟩ := exists_of_bind_eq_ok h
    obtain ⟨rfl, hname⟩ := Spells.of_wordThen (by simp [names]) hs hword
    cases h
    exact ⟨_, hname, rfl, room.admits_zero⟩
  · obtain ⟨⟨v, r'⟩, hword, h⟩ := exists_of_bind_eq_ok h
    obtain ⟨rfl, hname⟩ := Spells.of_wordThen (by simp [names]) hs hword
    cases h
    exact ⟨_, hname, rfl, room.admits_zero⟩
  · obtain ⟨⟨v, r'⟩, hword, h⟩ := exists_of_bind_eq_ok h
    obtain ⟨rfl, hname⟩ := Spells.of_wordThen (by simp [names]) hs hword
    cases h
    exact ⟨_, hname, rfl, room.admits_zero⟩
  · obtain ⟨⟨text, r'⟩, hstring, h⟩ := exists_of_bind_eq_ok h
    cases h
    exact ⟨.str text, .str (r := r') hs hstring, rfl, room.admits_zero⟩
  · obtain ⟨⟨n, r'⟩, hnumber, h⟩ := exists_of_bind_eq_ok h
    cases h
    exact ⟨.num n, .minus hs (number_eq hnumber), rfl, room.admits_zero⟩
  · obtain ⟨inner, hinner, h⟩ := exists_of_bind_eq_ok h
    obtain ⟨⟨ws, r'⟩, hitems, h⟩ := exists_of_bind_eq_ok h
    cases h
    obtain ⟨vs, hvs, rfl, hroom⟩ := (ih t ht).1 _ _ _ _ hitems
    exact ⟨.arr vs, .arr hs hvs, rfl, Room.admits_of_enter hinner hroom⟩
  · obtain ⟨inner, hinner, h⟩ := exists_of_bind_eq_ok h
    obtain ⟨⟨ws, r'⟩, hfields, h⟩ := exists_of_bind_eq_ok h
    cases h
    obtain ⟨fs, hfs, rfl, hroom⟩ := (ih t ht).2 _ _ _ _ _ hfields
    exact ⟨.obj fs, .obj hs hfs, rfl, Room.admits_of_enter hinner hroom⟩
  · split_ifs at h with hd
    obtain ⟨⟨n, r'⟩, hnumber, h⟩ := exists_of_bind_eq_ok h
    cases h
    refine ⟨.num n, .num ?_, rfl, room.admits_zero⟩
    rw [hs]
    exact number_eq hnumber

theorem itemsRead_of_shorter (hv : ∀ t : List Char, t.length ≤ s.length → ValueRead t)
    (ih : ∀ t : List Char, t.length < s.length → ItemsRead t) : ItemsRead s := by
  intro room first ws r h
  rw [itemsFrom] at h
  obtain ⟨next, hnext, h⟩ := exists_of_bind_eq_ok h
  rcases next with _ | ⟨s', hs'⟩
  · obtain ⟨r', hr', h⟩ := exists_of_bind_eq_ok h
    cases h
    obtain ⟨t, ht⟩ := nextItem_none hnext
    obtain ⟨c, hc⟩ := closing_eq hr'
    rw [ht, List.cons.injEq] at hc
    exact ⟨[], .listEnd (by rw [ht, hc.2]), rfl, room.admits_zero⟩
  · obtain ⟨⟨w, r₁, hr₁⟩, hvalue, h⟩ := exists_of_bind_eq_ok h
    obtain ⟨⟨ws', r₂⟩, hitems, h⟩ := exists_of_bind_eq_ok h
    cases h
    obtain ⟨s₁, hs₁, hskip⟩ := nextItem_some hnext
    obtain ⟨v, hspells, rfl, hroom⟩ := hv s' hs' _ _ _ hvalue
    obtain ⟨vs, hmore, rfl, hroom'⟩ := ih r₁ (Nat.lt_of_lt_of_le hr₁ hs') _ _ _ _ hitems
    obtain rfl : s' = skipSpace s₁ := hskip
    exact ⟨v :: vs, .item hs₁ hspells.of_skipSpace hmore, rfl, hroom.max hroom'⟩

theorem fieldsRead_of_shorter
    (ih : ∀ t : List Char, t.length < s.length → ValueRead t ∧ FieldsRead t) : FieldsRead s := by
  intro room first read ws r h
  rw [fieldsFrom] at h
  obtain ⟨next, hnext, h⟩ := exists_of_bind_eq_ok h
  rcases next with _ | ⟨s₂, hs₂⟩
  · obtain ⟨r', hr', h⟩ := exists_of_bind_eq_ok h
    cases h
    obtain ⟨t, ht⟩ := nextKey_none hnext
    obtain ⟨c, hc⟩ := closing_eq hr'
    rw [ht, List.cons.injEq] at hc
    exact ⟨[], .objectEnd (by rw [ht, hc.2]), rfl, room.admits_zero⟩
  · obtain ⟨⟨key, s₃, hs₃⟩, hkey, h⟩ := exists_of_bind_eq_ok h
    obtain ⟨⟨s₄, hs₄⟩, hcolon, h⟩ := exists_of_bind_eq_ok h
    obtain ⟨⟨w, s₅, hs₅⟩, hvalue, h⟩ := exists_of_bind_eq_ok h
    obtain ⟨⟨ws', r₂⟩, hfields, h⟩ := exists_of_bind_eq_ok h
    cases h
    obtain ⟨s₁, hs₁, hquote⟩ := nextKey_some hnext
    obtain ⟨v, hspells, rfl, hroom⟩ := (ih s₄ (by omega)).1 _ _ _ hvalue
    obtain ⟨fs, hmore, rfl, hroom'⟩ := (ih s₅ (by omega)).2 _ _ _ _ _ hfields
    exact ⟨(key, v) :: fs, .field hs₁ hquote hkey (colon_eq hcolon) hspells hmore, rfl,
      hroom.max hroom'⟩

/-- The parser returns what is spelled, with the fields set one after another. -/
theorem read_of_text (s : List Char) : ValueRead s ∧ ItemsRead s ∧ FieldsRead s := by
  induction hn : s.length using Nat.strong_induction_on generalizing s with
  | _ n ih =>
    subst hn
    have ih : ∀ t : List Char, t.length < s.length → ValueRead t ∧ ItemsRead t ∧ FieldsRead t :=
      fun t ht => ih _ ht t rfl
    have hvalue : ∀ t : List Char, t.length ≤ s.length → ValueRead t := fun t ht =>
      valueRead_of_shorter fun u hu => (ih u (Nat.lt_of_lt_of_le hu ht)).2
    exact ⟨hvalue s (Nat.le_refl _), itemsRead_of_shorter hvalue fun t ht => (ih t ht).2.1,
      fieldsRead_of_shorter fun t ht => ⟨(ih t ht).1, (ih t ht).2.2⟩⟩

/-- A whole text that spells a value, with nothing but space behind it. -/
def Text (s : List Char) (v : Json) : Prop :=
  ∃ r, Spells (.value v) s r ∧ skipSpace r = []

theorem Text.unique {v v' : Json} (h : Text s v) (h' : Text s v') : v' = v := by
  obtain ⟨r, hr, -⟩ := h
  obtain ⟨r', hr', -⟩ := h'
  exact (hr.only v' r' hr').1

section Accepted

variable {room : Room} {text : String} {v w : Json}

/-- A text that is accepted spells a value for whose brackets there is room, and its settled form
is returned. -/
theorem exists_spelled_of_parse (h : Json.parse room text = .ok w) :
    ∃ v, Text text.toList v ∧ v.settled = w ∧ room.Admits v.depth := by
  obtain ⟨⟨w', r⟩, hvalue, h⟩ := exists_of_bind_eq_ok (of_mapError_eq_ok h)
  obtain ⟨⟨⟩, hfinish, h⟩ := exists_of_bind_eq_ok h
  cases h
  obtain ⟨v, hv, rfl, hroom⟩ := (read_of_text _).1 _ _ _ hvalue
  refine ⟨v, ⟨r.1, hv, ?_⟩, rfl, hroom⟩
  unfold finish at hfinish
  split at hfinish
  · assumption
  · cases hfinish

theorem exists_text_of_parse (h : Json.parse room text = .ok w) :
    ∃ v, Text text.toList v ∧ v.settled = w := by
  obtain ⟨v, hv, hw, -⟩ := exists_spelled_of_parse h
  exact ⟨v, hv, hw⟩

theorem admits_of_parse (hv : Text text.toList v) (h : Json.parse room text = .ok w) :
    room.Admits v.depth := by
  obtain ⟨v', hv', -, hroom⟩ := exists_spelled_of_parse h
  rwa [Text.unique hv hv'] at hroom

end Accepted

end Parser

end TreeAtlas.Json
