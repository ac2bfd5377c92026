import TreeAtlas.Ast.Document
import TreeAtlas.Proofs.Decimal.Numeral
import TreeAtlas.Proofs.Json.Grammar
import Mathlib.Data.List.TakeWhile

/-!
# The nesting of a data text

The bracket scan knows neither numbers nor escapes, but it stays in step with the grammar.  What
stands between brackets and strings has no character that it reacts to (`Passes`), and inside a
string it leaves a backslash behind together with the character that the backslash escapes, so it
sees the closing quote where the reader does (`scan_string`).  A value that is spelled at some depth
therefore takes the scan to the depths of the value and back (`Spells.scans`), and so does a value
that is written (`reaches_writeOnto`).
-/

namespace TreeAtlas.Json

namespace BracketScan

/-- Between strings. -/
def outside (depth deepest : Nat) : BracketScan := { depth, deepest }

/-- In a string. -/
def inside (depth deepest : Nat) : BracketScan := { depth, deepest, inString := true }

/-- In a string, behind a backslash. -/
def behind (depth deepest : Nat) : BracketScan :=
  { depth, deepest, inString := true, escaped := true }

/-- The scan goes over some text. -/
def scan (s : BracketScan) (text : List Char) : BracketScan :=
  text.foldl step s

section Steps

variable {d m : Nat} {c : Char}

@[simp] theorem scan_nil (s : BracketScan) : s.scan [] = s := rfl

@[simp] theorem scan_cons (s : BracketScan) (c : Char) (text : List Char) :
    s.scan (c :: text) = (s.step c).scan text := rfl

@[simp] theorem scan_append (s : BracketScan) (text more : List Char) :
    s.scan (text ++ more) = (s.scan text).scan more :=
  List.foldl_append

@[simp] theorem step_quote : (outside d m).step '"' = inside d m := rfl

@[simp] theorem step_closing_quote : (inside d m).step '"' = outside d m := rfl

@[simp] theorem step_backslash : (inside d m).step '\\' = behind d m := rfl

@[simp] theorem step_behind : (behind d m).step c = inside d m := rfl

@[simp] theorem step_list : (outside d m).step '[' = outside (d + 1) (max m (d + 1)) := rfl

@[simp] theorem step_object : (outside d m).step '\x7b' = outside (d + 1) (max m (d + 1)) := rfl

@[simp] theorem step_listEnd : (outside (d + 1) m).step ']' = outside d m := rfl

@[simp] theorem step_objectEnd : (outside (d + 1) m).step '\x7d' = outside d m := rfl

end Steps

end BracketScan

open BracketScan

variable {d m : Nat} {s r : List Char}

/-! ### Outside strings -/

/-- A character that the scan does not react to outside strings. -/
def Bare (c : Char) : Prop :=
  c ∉ ['"', '\x7b', '[', '\x7d', ']']

instance (c : Char) : Decidable (Bare c) :=
  inferInstanceAs (Decidable (¬ _))

theorem scan_bare {text : List Char} (h : ∀ c ∈ text, Bare c) :
    (outside d m).scan text = outside d m := by
  induction text with
  | nil => rfl
  | cons c text ih =>
    obtain ⟨hc, htext⟩ := List.forall_mem_cons.1 h
    simp only [Bare, List.mem_cons, List.not_mem_nil, or_false, not_or] at hc
    obtain ⟨hquote, hobject, hlist, hobjectEnd, hlistEnd⟩ := hc
    have hstep : (outside d m).step c = outside d m := by
      simp [step, outside, hquote, hobject, hlist, hobjectEnd, hlistEnd]
    rw [scan_cons, hstep, ih htext]

/-- Down to `r` there are only characters of one class in `s`. -/
def Spans (P : Char → Prop) (s r : List Char) : Prop :=
  ∃ text, s = text ++ r ∧ ∀ c ∈ text, P c

section Spans

variable {P Q : Char → Prop}

theorem spans_refl (s : List Char) : Spans P s s :=
  ⟨[], rfl, by simp⟩

theorem Spans.cons {c : Char} (hc : P c) (h : Spans P s r) : Spans P (c :: s) r := by
  obtain ⟨text, rfl, htext⟩ := h
  exact ⟨c :: text, rfl, List.forall_mem_cons.2 ⟨hc, htext⟩⟩

theorem Spans.trans {t : List Char} (h : Spans P s r) (h' : Spans P r t) : Spans P s t := by
  obtain ⟨text, rfl, htext⟩ := h
  obtain ⟨more, rfl, hmore⟩ := h'
  exact ⟨text ++ more, (List.append_assoc ..).symm, List.forall_mem_append.2 ⟨htext, hmore⟩⟩

theorem Spans.mono (h : Spans P s r) (hPQ : ∀ c, P c → Q c) : Spans Q s r := by
  obtain ⟨text, rfl, htext⟩ := h
  exact ⟨text, rfl, fun c hc => hPQ c (htext c hc)⟩

theorem spans_dropWhile {p : Char → Bool} (hp : ∀ c, p c = true → P c) (s : List Char) :
    Spans P s (s.dropWhile p) :=
  ⟨s.takeWhile p, List.takeWhile_append_dropWhile.symm,
    fun c hc => hp c (List.mem_takeWhile_imp hc)⟩

end Spans

/-- Down to `r` there is nothing in `s` that the scan reacts to. -/
abbrev Passes : List Char → List Char → Prop :=
  Spans Bare

theorem Spans.scan_eq (h : Passes s r) : (outside d m).scan s = (outside d m).scan r := by
  obtain ⟨text, rfl, htext⟩ := h
  rw [scan_append, scan_bare htext]

theorem bare_of_isDigit {c : Char} (h : c.isDigit = true) : Bare c := by
  intro hc
  simp only [List.mem_cons, List.not_mem_nil, or_false] at hc
  rcases hc with rfl | rfl | rfl | rfl | rfl <;> cases h

theorem bare_of_isSpace {c : Char} (h : isSpace c = true) : Bare c := by
  simp only [isSpace, Bool.or_eq_true, beq_iff_eq] at h
  rcases h with ((rfl | rfl) | rfl) | rfl <;> decide

theorem passes_skipSpace (s : List Char) : Passes s (skipSpace s) :=
  spans_dropWhile (fun _ => bare_of_isSpace) s

/-! ### Numbers -/

/-- The characters of numbers. -/
def Figure (c : Char) : Prop :=
  ((c.isDigit = true ∨ c = '.' ∨ c = '-') ∨ c = 'e' ∨ c = '+') ∨ c = 'E'

theorem figure_of_isDigit {c : Char} (h : c.isDigit = true) : Figure c :=
  .inl (.inl (.inl h))

theorem bare_of_figure {c : Char} (h : Figure c) : Bare c := by
  rcases h with ((h | rfl | rfl) | rfl | rfl) | rfl
  · exact bare_of_isDigit h
  all_goals decide

section Numbers

variable {negative : Bool} {sig : Significand} {n : Number}

theorem spans_digits (s : List Char) : Spans Figure s (s.dropWhile Char.isDigit) :=
  spans_dropWhile (fun _ => figure_of_isDigit) s

theorem spans_takeSign (s : List Char) : Spans Figure s (Decimal.takeSign s).2 := by
  unfold Decimal.takeSign
  split
  · exact .cons (by simp [Figure]) (spans_refl _)
  · exact .cons (by simp [Figure]) (spans_refl _)
  · exact spans_refl _

theorem spans_finishNumber (h : finishNumber negative sig s = .ok (n, r)) :
    Spans Figure s r := by
  unfold finishNumber at h
  split at h
  · cases h
    exact spans_refl _
  · cases h

theorem spans_exponentDigits {k e : Nat} (h : exponentDigits k s = .ok (e, r)) :
    Spans Figure s r := by
  fun_induction exponentDigits k s with
  | case1 => cases h
  | case2 k c cs hc n' hn ih => exact .cons (figure_of_isDigit hc) (ih h)
  | case3 =>
    cases h
    exact spans_refl _
  | case4 =>
    cases h
    exact spans_refl _

theorem spans_exponentDigits_error {k : Nat} (h : exponentDigits k s = .error r) :
    Spans Figure s r := by
  fun_induction exponentDigits k s with
  | case1 k c cs hc =>
    cases h
    exact .cons (figure_of_isDigit hc) (spans_refl _)
  | case2 k c cs hc n' hn ih => exact .cons (figure_of_isDigit hc) (ih h)
  | case3 => cases h
  | case4 => cases h

theorem spans_exponentPart (h : exponentPart negative sig s = .ok (n, r)) :
    Spans Figure s r := by
  refine (spans_takeSign s).trans ?_
  unfold exponentPart at h
  simp only [] at h
  split at h
  · cases h
  · rename_i hd
    rw [hd]
    split at h
    · cases h
    split at h
    · rename_i he
      exact (spans_exponentDigits he).trans (spans_finishNumber h)
    · rename_i he
      split at h
      · cases h
      · exact ((spans_exponentDigits_error he).trans (spans_digits _)).trans
          (spans_finishNumber h)

theorem spans_exponentOrEnd (h : exponentOrEnd negative sig s = .ok (n, r)) :
    Spans Figure s r := by
  unfold exponentOrEnd at h
  split at h
  · exact .cons (by simp [Figure]) (spans_exponentPart h)
  · exact .cons (by simp [Figure]) (spans_exponentPart h)
  · exact spans_finishNumber h

theorem spans_fractionPart (h : fractionPart negative sig s = .ok (n, r)) :
    Spans Figure s r := by
  unfold fractionPart at h
  simp only [] at h
  split at h
  · split_ifs at h
    exact .cons (by simp [Figure]) ((spans_digits _).trans (spans_exponentOrEnd h))
  · exact .cons (by simp [Figure]) (spans_exponentPart h)
  · exact .cons (by simp [Figure]) (spans_exponentPart h)
  · split at h
    · exact spans_finishNumber h
    · split at h
      · cases h
        exact spans_refl _
      · exact spans_finishNumber h

/-- A number is read from figures. -/
theorem spans_numberFrom (h : numberFrom negative s = .ok (n, r)) : Spans Figure s r := by
  unfold numberFrom at h
  split at h
  · cases h
  · rename_i c t
    split_ifs at h with hd hc
    · subst hc
      refine .cons (by simp [Figure]) ?_
      split at h
      · split_ifs at h
        exact spans_fractionPart h
      · exact spans_fractionPart h
    · exact (spans_digits _).trans (spans_fractionPart h)

theorem passes_numberFrom (h : numberFrom negative s = .ok (n, r)) : Passes s r :=
  (spans_numberFrom h).mono fun _ => bare_of_figure

end Numbers

/-! ### Strings -/

/-- A character that the scan does not react to in a string. -/
def Unquoting (c : Char) : Prop :=
  c ≠ '"' ∧ c ≠ '\\'

instance (c : Char) : Decidable (Unquoting c) :=
  inferInstanceAs (Decidable (_ ∧ _))

theorem step_inside {c : Char} (hc : Unquoting c) : (inside d m).step c = inside d m := by
  simp [step, inside, hc.1, hc.2]

theorem unquoting_of_hexValue? {c : Char} {v : Nat} (h : hexValue? c = some v) :
    Unquoting c := by
  constructor <;> rintro rfl <;> cases h

theorem scan_fourDigits {n : Nat} {r : Rest s} (h : fourDigits s = .ok (n, r)) :
    (inside d m).scan s = (inside d m).scan r.1 := by
  unfold fourDigits at h
  split at h
  · split at h
    · rename_i ha hb hc hd
      cases h
      simp only [scan_cons, step_inside (unquoting_of_hexValue? ha),
        step_inside (unquoting_of_hexValue? hb), step_inside (unquoting_of_hexValue? hc),
        step_inside (unquoting_of_hexValue? hd)]
      rfl
    · cases h
  · split at h <;> cases h

theorem scan_trailingEscape {leading : Nat} {c : Char} {r : Rest s}
    (h : trailingEscape leading s = .ok (c, r)) :
    (inside d m).scan s = (inside d m).scan r.1 := by
  unfold trailingEscape at h
  split at h
  · obtain ⟨⟨n, r'⟩, hdigits, h⟩ := exists_of_bind_eq_ok h
    simp only [] at h
    split at h
    · obtain ⟨-, rfl⟩ := Prod.mk.inj (Except.ok.inj h)
      simp only [scan_cons, step_backslash, step_behind]
      exact scan_fourDigits hdigits
    · cases h
  all_goals cases h

theorem scan_unicodeEscape {c : Char} {r : Rest s} (h : unicodeEscape s = .ok (c, r)) :
    (inside d m).scan s = (inside d m).scan r.1 := by
  obtain ⟨⟨n, r'⟩, hdigits, h⟩ := exists_of_bind_eq_ok h
  simp only [] at h
  split at h
  · cases h
  · split at h
    · obtain ⟨⟨c', r''⟩, htrailing, h⟩ := exists_of_bind_eq_ok h
      cases h
      exact (scan_fourDigits hdigits).trans (scan_trailingEscape htrailing)
    · cases h
      exact scan_fourDigits hdigits

/-- An escape is left behind as a whole. -/
theorem scan_escapeSequence {c : Char} {r : Rest s} (h : escapeSequence s = .ok (c, r)) :
    (behind d m).scan s = (inside d m).scan r.1 := by
  unfold escapeSequence at h
  split at h
  · cases h
  · simp only [] at h
    rw [scan_cons, step_behind]
    split at h
    case h_9 =>
      obtain ⟨⟨c', r'⟩, hunicode, h⟩ := exists_of_bind_eq_ok h
      cases h
      exact scan_unicodeEscape hunicode
    case h_10 => cases h
    all_goals
      cases h
      rfl

/-- The scan leaves a string where the reader does. -/
theorem scan_stringFrom (read s : List Char) {cs : List Char} {r : Rest s}
    (h : stringFrom read s = .ok (cs, r)) :
    (inside d m).scan s = (outside d m).scan r.1 := by
  obtain ⟨n, hn⟩ : ∃ n, s.length = n := ⟨_, rfl⟩
  induction n using Nat.strong_induction_on generalizing read s cs r with
  | _ n ih =>
    subst hn
    unfold stringFrom at h
    split at h
    · cases h
    · cases h
      rfl
    · rename_i t
      obtain ⟨⟨c, r'⟩, hescape, h⟩ := exists_of_bind_eq_ok h
      obtain ⟨⟨cs', r''⟩, hrest, h⟩ := exists_of_bind_eq_ok h
      cases h
      rw [scan_cons, step_backslash, scan_escapeSequence hescape]
      exact ih _ (Nat.lt_succ_of_lt r'.2) _ _ hrest rfl
    · rename_i c t hquote hbackslash
      split at h
      · cases h
      · obtain ⟨⟨cs', r'⟩, hrest, h⟩ := exists_of_bind_eq_ok h
        cases h
        have hc : Unquoting c := ⟨fun e => hquote (by rw [e]), fun e => hbackslash (by rw [e])⟩
        rw [scan_cons, step_inside hc]
        exact ih _ (Nat.lt_succ_self _) _ _ hrest rfl

theorem scan_string {t : String} {r : Rest s} (h : string s = .ok (t, r)) :
    (inside d m).scan s = (outside d m).scan r.1 := by
  obtain ⟨⟨cs, r'⟩, hchars, h⟩ := exists_of_bind_eq_ok h
  cases h
  exact scan_stringFrom _ _ hchars

/-! ### What is spelled -/

/-- The scan comes to the depths of a phrase and back. -/
def Phrase.Scans (s r : List Char) : Phrase → Prop
  | .value v => ∀ d m, d ≤ m →
      (outside d m).scan s = (outside d (max m (d + v.depth))).scan r
  | .items _ vs => ∀ d m, d + 1 ≤ m →
      (outside (d + 1) m).scan s = (outside d (max m (d + 1 + itemsDepth vs))).scan r
  | .fields _ fs => ∀ d m, d + 1 ≤ m →
      (outside (d + 1) m).scan s = (outside d (max m (d + 1 + fieldsDepth fs))).scan r

section Spelled

variable {s₁ s₂ s₄ s₅ : List Char} {v : Json} {vs : List Json} {fs : List (String × Json)}
  {first : Bool}

theorem scan_of_skipSpace {c : Char} {t : List Char} (hs : skipSpace s = c :: t) :
    (outside d m).scan s = ((outside d m).step c).scan t := by
  rw [(passes_skipSpace s).scan_eq, hs, scan_cons]

theorem passes_separated (hs : separated? first s = some s₁) : Passes s s₁ := by
  unfold separated? at hs
  split_ifs at hs
  · cases hs
    exact spans_refl _
  · split at hs
    · rename_i he
      cases hs
      refine (passes_skipSpace s).trans ?_
      rw [he]
      exact .cons (by decide) (spans_refl _)
    · cases hs

theorem scans_scalar (hv : v.depth = 0)
    (h : ∀ d m, (outside d m).scan s = (outside d m).scan r) : (Phrase.value v).Scans s r := by
  intro d m hm
  rw [h, hv, Nat.add_zero, Nat.max_eq_left hm]

theorem scans_name {text : List Char} (hv : (text, v) ∈ names) (hs : skipSpace s = text ++ r) :
    (Phrase.value v).Scans s r := by
  have hname : v.depth = 0 ∧ ∀ c ∈ text, Bare c := by
    simp only [names, List.mem_cons, Prod.mk.injEq, List.not_mem_nil, or_false] at hv
    rcases hv with ⟨rfl, rfl⟩ | ⟨rfl, rfl⟩ | ⟨rfl, rfl⟩ <;> exact ⟨rfl, by simp [Bare]⟩
  refine scans_scalar hname.1 fun d m => ?_
  rw [(passes_skipSpace s).scan_eq, hs, scan_append, scan_bare hname.2]

theorem scans_str {t : String} {r : Rest s₁} (hs : skipSpace s = '"' :: s₁)
    (ht : string s₁ = .ok (t, r)) : (Phrase.value (.str t)).Scans s r.1 := by
  refine scans_scalar rfl fun d m => ?_
  rw [scan_of_skipSpace hs, step_quote, scan_string ht]

theorem scans_minus {n : Number} (hs : skipSpace s = '-' :: s₁)
    (hn : numberFrom true s₁ = .ok (n, r)) : (Phrase.value (.num n)).Scans s r := by
  have h : Passes (skipSpace s) r := by
    rw [hs]
    exact .cons (by decide) (passes_numberFrom hn)
  exact scans_scalar rfl fun d m => ((passes_skipSpace s).trans h).scan_eq

theorem scans_num {n : Number} (hn : numberFrom false (skipSpace s) = .ok (n, r)) :
    (Phrase.value (.num n)).Scans s r :=
  scans_scalar rfl fun _ _ => ((passes_skipSpace s).trans (passes_numberFrom hn)).scan_eq

theorem scans_arr (hs : skipSpace s = '[' :: s₁) (ih : (Phrase.items true vs).Scans s₁ r) :
    (Phrase.value (.arr vs)).Scans s r := by
  intro d m hm
  rw [scan_of_skipSpace hs, step_list, ih d _ (Nat.le_max_right _ _)]
  congr 2
  simp only [depth]
  omega

theorem scans_obj (hs : skipSpace s = '\x7b' :: s₁) (ih : (Phrase.fields true fs).Scans s₁ r) :
    (Phrase.value (.obj fs)).Scans s r := by
  intro d m hm
  rw [scan_of_skipSpace hs, step_object, ih d _ (Nat.le_max_right _ _)]
  congr 2
  simp only [depth]
  omega

theorem scans_listEnd (hs : skipSpace s = ']' :: r) : (Phrase.items first []).Scans s r := by
  intro d m hm
  rw [scan_of_skipSpace hs, step_listEnd, itemsDepth, Nat.add_zero, Nat.max_eq_left hm]

theorem scans_item (hs : separated? first s = some s₁) (ihv : (Phrase.value v).Scans s₁ s₂)
    (ihm : (Phrase.items false vs).Scans s₂ r) : (Phrase.items first (v :: vs)).Scans s r := by
  intro d m hm
  rw [(passes_separated hs).scan_eq, ihv _ _ hm, ihm _ _ (hm.trans (Nat.le_max_left _ _))]
  congr 2
  simp only [itemsDepth]
  omega

theorem scans_objectEnd (hs : skipSpace s = '\x7d' :: r) :
    (Phrase.fields first []).Scans s r := by
  intro d m hm
  rw [scan_of_skipSpace hs, step_objectEnd, fieldsDepth, Nat.add_zero, Nat.max_eq_left hm]

theorem scans_field {key : String} {s₃ : Rest s₂} (hs : separated? first s = some s₁)
    (hq : skipSpace s₁ = '"' :: s₂) (hk : string s₂ = .ok (key, s₃))
    (hc : skipSpace s₃.1 = ':' :: s₄) (ihv : (Phrase.value v).Scans s₄ s₅)
    (ihm : (Phrase.fields false fs).Scans s₅ r) :
    (Phrase.fields first ((key, v) :: fs)).Scans s r := by
  intro d m hm
  have hcolon : Passes s₃.1 s₄ := by
    refine (passes_skipSpace _).trans ?_
    rw [hc]
    exact .cons (by decide) (spans_refl _)
  rw [(passes_separated hs).scan_eq, scan_of_skipSpace hq, step_quote, scan_string hk,
    hcolon.scan_eq, ihv _ _ hm, ihm _ _ (hm.trans (Nat.le_max_left _ _))]
  congr 2
  simp only [fieldsDepth]
  omega

theorem Spells.scans {p : Phrase} (h : Spells p s r) : p.Scans s r := by
  induction h with
  | name hv hs => exact scans_name hv hs
  | str hs ht => exact scans_str hs ht
  | minus hs hn => exact scans_minus hs hn
  | num hn => exact scans_num hn
  | arr hs _ ih => exact scans_arr hs ih
  | obj hs _ ih => exact scans_obj hs ih
  | listEnd hs => exact scans_listEnd hs
  | item hs _ _ ihv ihm => exact scans_item hs ihv ihm
  | objectEnd hs => exact scans_objectEnd hs
  | field hs hq hk hc _ _ ihv ihm => exact scans_field hs hq hk hc ihv ihm

/-- The scan finds the depth of the value that a text spells. -/
theorem nesting_of_text (h : Text s v) : nesting s = v.depth := by
  obtain ⟨r, hv, hr⟩ := h
  have hrest : (outside 0 v.depth).scan r = outside 0 v.depth := by
    rw [(passes_skipSpace r).scan_eq, hr, scan_nil]
  have hscan : (outside 0 0).scan s = outside 0 v.depth := by
    rw [hv.scans 0 0 (Nat.le_refl 0), Nat.zero_add, Nat.zero_max, hrest]
  exact congrArg BracketScan.deepest hscan

end Spelled

/-! ### What is written -/

section Written

theorem unquoting_hexDigit : ∀ n < 16, Unquoting (hexDigit n) := by
  decide

theorem scan_escapedChar (c : Char) : (inside d m).scan (escapedChar c) = inside d m := by
  unfold escapedChar
  split_ifs with hquote hbackslash hspace
  case neg =>
    have hhigh : Unquoting (hexDigit (c.toNat / 16)) := unquoting_hexDigit _ (by omega)
    have hlow : Unquoting (hexDigit (c.toNat % 16)) := unquoting_hexDigit _ (by omega)
    have hzero : Unquoting '0' := by decide
    simp only [scan_cons, scan_nil, step_backslash, step_behind, step_inside hzero,
      step_inside hhigh, step_inside hlow]
  · rfl
  · rfl
  · exact step_inside ⟨hquote, hbackslash⟩
  all_goals rfl

theorem scan_quote (t : String) : (outside d m).scan (quote t).toList = outside d m := by
  have hchars : ∀ cs : List Char, (inside d m).scan (cs.flatMap escapedChar) = inside d m := by
    intro cs
    induction cs with
    | nil => rfl
    | cons c cs ih => rw [List.flatMap_cons, scan_append, scan_escapedChar, ih]
  rw [quote, String.toList_ofList, List.cons_append, scan_cons, step_quote, scan_append, hchars]
  rfl

theorem figure_of_mem_toString (i : Int) : ∀ c ∈ (toString i).toList, Figure c := by
  have hnat : ∀ k : Nat, ∀ c ∈ k.repr.toList, Figure c := by
    intro k c hc
    rw [Nat.repr_eq_ofList_toDigits, String.toList_ofList] at hc
    exact .inl (.inl (numeral_toDigits k c hc))
  cases i with
  | ofNat k => exact hnat k
  | negSucc k =>
    intro c hc
    have hc : c ∈ ("-" ++ (k + 1).repr).toList := hc
    rw [String.toList_append, List.mem_append] at hc
    rcases hc with hc | hc
    · obtain rfl : c = '-' := by simpa using hc
      simp [Figure]
    · exact hnat _ c hc

theorem bare_of_mem_write (n : Number) : ∀ c ∈ n.write.toList, Bare c := by
  cases n with
  | int i _ => exact fun c hc => bare_of_figure (figure_of_mem_toString i c hc)
  | float x _ =>
    intro c hc
    have hc : c ∈ (doubleData x).toList := hc
    rcases doubleData_cases x with h | ⟨cs, hcs, h⟩
    · have hnull : ∀ c ∈ "null".toList, Bare c := by simp [Bare]
      rw [h] at hc
      exact hnull c hc
    · rw [h, String.toList_ofList] at hc
      exact bare_of_figure (.inl (hcs c hc))

/-- The scan of some text behind which there is room for a value. -/
def Reaches (text : String) (d m : Nat) : Prop :=
  d ≤ m ∧ (outside 0 0).scan text.toList = outside d m

theorem Reaches.append {out text : String} {e k : Nat} (h : Reaches out d m) (hk : e ≤ k)
    (htext : (outside d m).scan text.toList = outside e k) : Reaches (out ++ text) e k :=
  ⟨hk, by rw [String.toList_append, scan_append, h.2, htext]⟩

theorem Reaches.bare {out text : String} (h : Reaches out d m)
    (htext : ∀ c ∈ text.toList, Bare c) : Reaches (out ++ text) d m :=
  h.append h.1 (scan_bare htext)

theorem Reaches.comma {out : String} (h : Reaches out d m) (first : Bool) :
    Reaches (if first then out else out ++ ",") d m := by
  cases first with
  | true => exact h
  | false => exact h.bare (by simp [Bare])

mutual

/-- The scan of a value that is written comes to its depths and back. -/
theorem reaches_writeOnto : ∀ (v : Json) {out : String} {d m : Nat}, Reaches out d m →
    Reaches (writeOnto out v) d (max m (d + v.depth))
  | .null, out, d, m, h => by
    rw [writeOnto, depth, Nat.add_zero, Nat.max_eq_left h.1]
    exact h.bare (by simp [Bare])
  | .bool b, out, d, m, h => by
    rw [writeOnto, depth, Nat.add_zero, Nat.max_eq_left h.1]
    exact h.bare (by cases b <;> simp [Bare])
  | .num n, out, d, m, h => by
    rw [writeOnto, depth, Nat.add_zero, Nat.max_eq_left h.1]
    exact h.bare (bare_of_mem_write n)
  | .str t, out, d, m, h => by
    rw [writeOnto, depth, Nat.add_zero, Nat.max_eq_left h.1]
    exact h.append h.1 (scan_quote t)
  | .arr items, out, d, m, h => by
    have hopen : Reaches (out ++ "[") (d + 1) (max m (d + 1)) :=
      h.append (Nat.le_max_right _ _) rfl
    have hitems := reaches_writeItems items true hopen
    have := h.1
    rw [writeOnto, depth, show max m (d + (itemsDepth items + 1))
      = max (max m (d + 1)) (d + 1 + itemsDepth items) by omega]
    exact hitems.append (by omega) rfl
  | .obj fields, out, d, m, h => by
    have hopen : Reaches (out ++ "\x7b") (d + 1) (max m (d + 1)) :=
      h.append (Nat.le_max_right _ _) rfl
    have hfields := reaches_writeFields fields true hopen
    have := h.1
    rw [writeOnto, depth, show max m (d + (fieldsDepth fields + 1))
      = max (max m (d + 1)) (d + 1 + fieldsDepth fields) by omega]
    exact hfields.append (by omega) rfl

theorem reaches_writeItems : ∀ (vs : List Json) (first : Bool) {out : String} {d m : Nat},
    Reaches out d m → Reaches (writeItems out first vs) d (max m (d + itemsDepth vs))
  | [], first, out, d, m, h => by
    rwa [writeItems, itemsDepth, Nat.add_zero, Nat.max_eq_left h.1]
  | v :: vs, first, out, d, m, h => by
    have := reaches_writeItems vs false (reaches_writeOnto v (h.comma first))
    rw [writeItems, itemsDepth, show max m (d + max v.depth (itemsDepth vs))
      = max (max m (d + v.depth)) (d + itemsDepth vs) by omega]
    exact this

theorem reaches_writeFields : ∀ (fs : List (String × Json)) (first : Bool) {out : String}
    {d m : Nat}, Reaches out d m →
      Reaches (writeFields out first fs) d (max m (d + fieldsDepth fs))
  | [], first, out, d, m, h => by
    rwa [writeFields, fieldsDepth, Nat.add_zero, Nat.max_eq_left h.1]
  | (key, v) :: rest, first, out, d, m, h => by
    have hkey := (h.comma first).append h.1 (scan_quote key)
    have hcolon : ∀ c ∈ ":".toList, Bare c := by simp [Bare]
    have := reaches_writeFields rest false (reaches_writeOnto v (hkey.bare hcolon))
    rw [writeFields, fieldsDepth, show max m (d + max v.depth (fieldsDepth rest))
      = max (max m (d + v.depth)) (d + fieldsDepth rest) by omega]
    exact this

end

/-- The scan finds the depth of a value that is written. -/
theorem nesting_write (v : Json) : nesting v.write.toList = v.depth := by
  have hstart : Reaches "" 0 0 := ⟨Nat.le_refl 0, rfl⟩
  have hscan := (reaches_writeOnto v hstart).2
  rw [Nat.zero_add, Nat.zero_max] at hscan
  exact congrArg BracketScan.deepest hscan

end Written

/-! ### The guard -/

theorem bracketBound_eq (limit : Nat) :
    min (min (limit * 2) wordLimit + attributeNesting) wordLimit
      = min (2 * limit + 64) wordLimit := by
  rw [attributeNesting]
  omega

theorem readDocument_of_le {limit : Nat} {text : String}
    (h : nesting text.toList ≤ min (2 * limit + 64) wordLimit) :
    readDocument limit text = (Json.parse none text).mapError .invalid := by
  rw [readDocument, bracketBound_eq]
  exact if_neg (Nat.not_lt.2 h)

theorem readDocument_of_lt {limit : Nat} {text : String}
    (h : min (2 * limit + 64) wordLimit < nesting text.toList) :
    readDocument limit text = .error (.tooDeep limit) := by
  rw [readDocument, bracketBound_eq]
  exact if_pos h

theorem readDocument_eq_tooDeep_iff {limit : Nat} {text : String} :
    readDocument limit text = .error (.tooDeep limit)
      ↔ min (2 * limit + 64) wordLimit < nesting text.toList := by
  refine ⟨fun h => ?_, readDocument_of_lt⟩
  by_contra hle
  rw [readDocument_of_le (Nat.not_lt.1 hle)] at h
  cases hp : Json.parse none text with
  | error e =>
    rw [hp] at h
    cases h
  | ok w =>
    rw [hp] at h
    cases h

/-- A document that is read was let through and parsed. -/
theorem parse_of_readDocument {limit : Nat} {text : String} {w : Json}
    (h : readDocument limit text = .ok w) :
    nesting text.toList ≤ min (2 * limit + 64) wordLimit ∧ Json.parse none text = .ok w := by
  rcases Nat.lt_or_ge (min (2 * limit + 64) wordLimit) (nesting text.toList) with hlt | hle
  · rw [readDocument_of_lt hlt] at h
    cases h
  · rw [readDocument_of_le hle] at h
    cases hp : Json.parse none text with
    | error e =>
      rw [hp] at h
      cases h
    | ok w' =>
      rw [hp] at h
      cases h
      exact ⟨hle, rfl⟩

theorem depth_le_nesting {text : String} {w : Json} (h : Json.parse none text = .ok w) :
    w.depth ≤ nesting text.toList := by
  obtain ⟨v, hv, rfl⟩ := exists_text_of_parse h
  rw [nesting_of_text hv]
  exact depth_settled_le v

/-- The scan in front of the parser bounds what the parser builds.  It counts what the text spells,
which is what is built where no key is repeated, and what a value has that is written. -/
theorem nesting_guards (limit : Nat) :
    (∀ text w, readDocument limit text = .ok w → w.depth ≤ min (2 * limit + 64) wordLimit)
      ∧ (∀ text w, Json.parse none text = .ok w → w.depth ≤ nesting text.toList
          ∧ (∃! v, Text text.toList v)
          ∧ ∀ v, Text text.toList v → v.settled = w ∧ nesting text.toList = v.depth
            ∧ (v.Distinct → nesting text.toList = w.depth))
      ∧ ∀ v : Json, nesting v.write.toList = v.depth
          ∧ (readDocument limit v.write = .error (.tooDeep limit)
            ↔ min (2 * limit + 64) wordLimit < v.depth) := by
  refine ⟨fun text w h => ?_, fun text w h => ⟨depth_le_nesting h, ?_⟩, fun v => ?_⟩
  · obtain ⟨hbound, hparse⟩ := parse_of_readDocument h
    exact (depth_le_nesting hparse).trans hbound
  · obtain ⟨v, hv, rfl⟩ := exists_text_of_parse h
    refine ⟨⟨v, hv, fun v' hv' => hv.unique hv'⟩, fun v' hv' => ?_⟩
    obtain rfl : v' = v := hv.unique hv'
    have hnesting := nesting_of_text hv
    exact ⟨rfl, hnesting, fun hdistinct => hnesting.trans (depth_settled v' hdistinct).symm⟩
  · rw [readDocument_eq_tooDeep_iff, nesting_write]
    exact ⟨rfl, Iff.rfl⟩

end TreeAtlas.Json
