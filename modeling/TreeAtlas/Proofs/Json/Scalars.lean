import Mathlib.Data.List.TakeWhile
import TreeAtlas.Proofs.Decimal.Numeral
import TreeAtlas.Proofs.Json.Reading

/-!
# Scalars in front of something else

A number is read up to whatever stands behind it, as long as that is not a character a number goes
on with (`Stops`, `numberFrom_append`), and whole numbers are found from their digits
(`numberFrom_toDigits`).  Texts end at their quote, and their escapes are undone one character at a
time (`string_quote`).
-/

namespace TreeAtlas.Json

/-! ### Whole numbers -/

section Whole

variable {r : List Char}

/-- Behind a number: its digits, a fraction or an exponent would go on with one of these. -/
def Stops (r : List Char) : Prop :=
  ∀ c ∈ r.head?, c.isDigit = false ∧ c ≠ '.' ∧ c ≠ 'e' ∧ c ≠ 'E'

theorem digitValue_digitChar {d : Nat} (hd : d < 10) :
    Decimal.digitValue (Nat.digitChar d) = d :=
  Nat.toNat_digitChar_sub_48_of_lt_ten hd

theorem toDigits_div {n : Nat} (hn : 10 ≤ n) :
    Nat.toDigits 10 n = Nat.toDigits 10 (n / 10) ++ [Nat.digitChar (n % 10)] :=
  Nat.toDigits_of_base_le (by decide) hn

theorem foldl_pushWhole {n : Nat} (hn : n < UInt64.size) :
    (Nat.toDigits 10 n).foldl Significand.pushWhole {} = { value := n } := by
  induction n using Nat.strong_induction_on with
  | _ n ih =>
    rcases Nat.lt_or_ge n 10 with hlt | hge
    · rw [Nat.toDigits_of_lt_base hlt]
      simp only [List.foldl_cons, List.foldl_nil, Significand.pushWhole, Bool.false_eq_true,
        digitValue_digitChar hlt]
      rw [if_neg (by simp; omega)]
      simp
    · rw [toDigits_div hge, List.foldl_append, ih (n / 10) (by omega) (by omega)]
      have hvalue : n / 10 * 10 + n % 10 = n := by omega
      simp only [List.foldl_cons, List.foldl_nil, Significand.pushWhole,
        digitValue_digitChar (Nat.mod_lt n (by decide)), hvalue]
      rw [if_neg (by simp; omega)]

theorem head?_toDigits {n : Nat} (hn : 0 < n) : ∃ c t, Nat.toDigits 10 n = c :: t ∧ c ≠ '0' := by
  induction n using Nat.strong_induction_on with
  | _ n ih =>
    rcases Nat.lt_or_ge n 10 with hlt | hge
    · refine ⟨_, [], Nat.toDigits_of_lt_base hlt, ?_⟩
      intro h
      have := digitValue_digitChar hlt
      rw [h] at this
      change 0 = n at this
      omega
    · obtain ⟨c, t, ht, hc⟩ := ih (n / 10) (by omega) (by omega)
      exact ⟨c, t ++ [Nat.digitChar (n % 10)], by rw [toDigits_div hge, ht, List.cons_append], hc⟩

end Whole

section Digits

variable {ds r : List Char}

theorem Stops.takeWhile_eq (hr : Stops r) : r.takeWhile Char.isDigit = [] := by
  rcases r with _ | ⟨c, t⟩
  · rfl
  · exact List.takeWhile_cons_of_neg (by simp [(hr c rfl).1])

theorem Stops.dropWhile_eq (hr : Stops r) : r.dropWhile Char.isDigit = r := by
  rcases r with _ | ⟨c, t⟩
  · rfl
  · exact List.dropWhile_cons_of_neg (by simp [(hr c rfl).1])

theorem Stops.takeWhile_append (hr : Stops r) (s : List Char) :
    (s ++ r).takeWhile Char.isDigit = s.takeWhile Char.isDigit := by
  rw [List.takeWhile_append, hr.takeWhile_eq, List.append_nil]
  split_ifs with h
  · exact (List.takeWhile_prefix _).eq_of_length h |>.symm
  · rfl

theorem Stops.dropWhile_append (hr : Stops r) (s : List Char) :
    (s ++ r).dropWhile Char.isDigit = s.dropWhile Char.isDigit ++ r := by
  rw [List.dropWhile_append, hr.dropWhile_eq]
  split_ifs with h
  · rw [List.isEmpty_iff.1 h, List.nil_append]
  · rfl

end Digits

/-! ### Numbers in front of something else -/

section Numbers

variable {negative : Bool} {sig : Significand} {n : Number} {s t r : List Char}

theorem finishNumber_append (h : finishNumber negative sig s = .ok (n, t)) (r : List Char) :
    finishNumber negative sig (s ++ r) = .ok (n, t ++ r) := by
  unfold finishNumber at h ⊢
  split at h
  · cases h
    rfl
  · cases h

theorem exponentDigits_append (hr : Stops r) {k e : Nat}
    (h : exponentDigits k s = .ok (e, t)) : exponentDigits k (s ++ r) = .ok (e, t ++ r) := by
  fun_induction exponentDigits k s with
  | case1 => cases h
  | case2 k c cs hc n hn ih =>
    rw [List.cons_append, exponentDigits, if_pos hc]
    simp only []
    rw [if_neg hn]
    exact ih h
  | case3 k c cs hc =>
    cases h
    rw [List.cons_append, exponentDigits, if_neg hc]
  | case4 k =>
    cases h
    rw [List.nil_append]
    rcases r with _ | ⟨c, u⟩
    · rfl
    · rw [exponentDigits, if_neg (by simp [(hr c rfl).1])]

theorem exponentDigits_append_error {k : Nat}
    (h : exponentDigits k s = .error t) : exponentDigits k (s ++ r) = .error (t ++ r) := by
  fun_induction exponentDigits k s with
  | case1 k c cs hc n hn =>
    cases h
    rw [List.cons_append, exponentDigits, if_pos hc]
    simp only []
    rw [if_pos hn]
  | case2 k c cs hc n hn ih =>
    rw [List.cons_append, exponentDigits, if_pos hc]
    simp only []
    rw [if_neg hn]
    exact ih h
  | case3 => cases h
  | case4 => cases h

theorem takeSign_append (hs : s ≠ []) (r : List Char) :
    Decimal.takeSign (s ++ r) = ((Decimal.takeSign s).1, (Decimal.takeSign s).2 ++ r) := by
  rcases s with _ | ⟨c, u⟩
  · exact absurd rfl hs
  · rw [List.cons_append]
    unfold Decimal.takeSign
    split <;> simp_all

theorem exponentPart_append (hr : Stops r) (h : exponentPart negative sig s = .ok (n, t)) :
    exponentPart negative sig (s ++ r) = .ok (n, t ++ r) := by
  have hs : s ≠ [] := by
    rintro rfl
    cases h
  unfold exponentPart at h ⊢
  rw [takeSign_append hs]
  simp only [] at h ⊢
  rcases hd : (Decimal.takeSign s).2 with _ | ⟨c, cs⟩
  · rw [hd] at h
    cases h
  · rw [hd] at h
    simp only [List.cons_append] at h ⊢
    rw [← List.cons_append]
    by_cases hc : ¬ c.isDigit
    · rw [if_pos hc] at h
      cases h
    rw [if_neg hc] at h ⊢
    rcases he : exponentDigits 0 (c :: cs) with rest | ⟨e, rest⟩
    · rw [he] at h
      rw [exponentDigits_append_error he]
      simp only [] at h ⊢
      by_cases hv : sig.value ≠ 0 ∧ ¬ (Decimal.takeSign s).1
      · rw [if_pos hv] at h
        cases h
      · rw [if_neg hv] at h ⊢
        rw [hr.dropWhile_append]
        exact finishNumber_append h r
    · rw [he] at h
      rw [exponentDigits_append hr he]
      exact finishNumber_append h r

/-- A text that goes on with neither mark of an exponent. -/
theorem exponentOrEnd_eq_finishNumber {u : List Char} (hu : ∀ c ∈ u.head?, c ≠ 'e' ∧ c ≠ 'E') :
    exponentOrEnd negative sig u = finishNumber negative sig u := by
  unfold exponentOrEnd
  split
  · exact absurd rfl (hu _ rfl).1
  · exact absurd rfl (hu _ rfl).2
  · rfl

theorem exponentOrEnd_append (hr : Stops r) (h : exponentOrEnd negative sig s = .ok (n, t)) :
    exponentOrEnd negative sig (s ++ r) = .ok (n, t ++ r) := by
  rcases s with _ | ⟨c, u⟩
  · rw [List.nil_append, exponentOrEnd_eq_finishNumber fun c hc => (hr c hc).2.2]
    exact finishNumber_append h r
  · unfold exponentOrEnd at h
    split at h
    · rename_i heq
      cases heq
      exact exponentPart_append hr h
    · rename_i heq
      cases heq
      exact exponentPart_append hr h
    · rename_i hlower hupper
      rw [exponentOrEnd_eq_finishNumber]
      · exact finishNumber_append h r
      · rintro d ⟨⟩
        exact ⟨by rintro rfl; exact hlower u rfl, by rintro rfl; exact hupper u rfl⟩

/-- What stands behind whole digits with neither a point nor a mark of an exponent after them. -/
def wholeEnd (negative : Bool) (sig : Significand) (rest : List Char) :
    Except Fault (Number × List Char) :=
  if sig.full then finishNumber negative sig rest
  else
    match if negative ∧ sig.value = 0 then none
      else Number.ofInt? (if negative then -(sig.value : Int) else sig.value) with
    | some n => .ok (n, rest)
    | none => finishNumber negative sig rest

theorem fractionPart_eq_wholeEnd {u : List Char}
    (hu : ∀ c ∈ u.head?, c ≠ '.' ∧ c ≠ 'e' ∧ c ≠ 'E') :
    fractionPart negative sig u = wholeEnd negative sig u := by
  unfold fractionPart
  split
  · exact absurd rfl (hu _ rfl).1
  · exact absurd rfl (hu _ rfl).2.1
  · exact absurd rfl (hu _ rfl).2.2
  · rfl

theorem wholeEnd_append (h : wholeEnd negative sig s = .ok (n, t)) (r : List Char) :
    wholeEnd negative sig (s ++ r) = .ok (n, t ++ r) := by
  unfold wholeEnd at h ⊢
  split
  · rename_i hf
    rw [if_pos hf] at h
    exact finishNumber_append h r
  · rename_i hf
    rw [if_neg hf] at h
    split at h
    · cases h
      rfl
    · exact finishNumber_append h r

theorem fractionPart_append (hr : Stops r) (h : fractionPart negative sig s = .ok (n, t)) :
    fractionPart negative sig (s ++ r) = .ok (n, t ++ r) := by
  rcases s with _ | ⟨c, u⟩
  · rw [List.nil_append, fractionPart_eq_wholeEnd fun c hc => (hr c hc).2]
    exact wholeEnd_append h r
  · unfold fractionPart at h
    split at h
    · rename_i u' heq
      cases heq
      simp only [List.cons_append, fractionPart, hr.takeWhile_append, hr.dropWhile_append] at h ⊢
      split_ifs at h ⊢
      exact exponentOrEnd_append hr h
    · rename_i heq
      cases heq
      exact exponentPart_append hr h
    · rename_i heq
      cases heq
      exact exponentPart_append hr h
    · rename_i hpoint hlower hupper
      rw [fractionPart_eq_wholeEnd]
      · exact wholeEnd_append h r
      · rintro d ⟨⟩
        exact ⟨by rintro rfl; exact hpoint u rfl, by rintro rfl; exact hlower u rfl,
          by rintro rfl; exact hupper u rfl⟩

/-- A number is read the same in front of what no number goes on with. -/
theorem numberFrom_append (hr : Stops r) (h : numberFrom negative s = .ok (n, t)) :
    numberFrom negative (s ++ r) = .ok (n, t ++ r) := by
  rcases s with _ | ⟨c, u⟩
  · cases h
  · rw [List.cons_append]
    unfold numberFrom at h ⊢
    simp only [] at h ⊢
    by_cases hc : ¬ c.isDigit
    · rw [if_pos hc] at h
      cases h
    rw [if_neg hc] at h ⊢
    by_cases hzero : c = '0'
    · rw [if_pos hzero] at h ⊢
      rcases u with _ | ⟨d, u⟩
      · have happ := fractionPart_append hr h
        rw [List.nil_append] at happ ⊢
        rcases r with _ | ⟨d, r⟩
        · exact happ
        · simp only [(hr d rfl).1]
          exact happ
      · simp only [List.cons_append] at h ⊢
        by_cases hd : d.isDigit
        · rw [if_pos hd] at h
          cases h
        · rw [if_neg hd] at h ⊢
          exact fractionPart_append hr h
    · rw [if_neg hzero] at h ⊢
      rw [← List.cons_append, hr.takeWhile_append, hr.dropWhile_append]
      exact fractionPart_append hr h

/-- The digits of a whole number in range are read as that number. -/
theorem numberFrom_toDigits {k : Nat} {i : Int} (hk : k < UInt64.size)
    (hi : (if negative then -(k : Int) else k) = i) (hsign : negative = true → k ≠ 0)
    (hrange : InRange i) :
    numberFrom negative (Nat.toDigits 10 k) = .ok (.int i hrange, []) := by
  have hend : wholeEnd negative { value := k } [] = .ok (.int i hrange, []) := by
    have hsome : Number.ofInt? i = some (.int i hrange) := dif_pos hrange
    unfold wholeEnd
    simp only [Bool.false_eq_true, if_false, hi]
    rw [if_neg (fun h => hsign h.1 h.2), hsome]
  rcases Nat.eq_zero_or_pos k with rfl | hpos
  · exact hend
  · obtain ⟨c, t, ht, hc⟩ := head?_toDigits hpos
    have hdigits : ∀ d ∈ c :: t, d.isDigit = true := fun d hd =>
      Nat.isDigit_of_mem_toDigits (by decide) (by decide) (ht ▸ hd)
    have htake : (c :: t).takeWhile Char.isDigit = c :: t := List.takeWhile_eq_self_iff.2 hdigits
    have hdrop : (c :: t).dropWhile Char.isDigit = [] := List.dropWhile_eq_nil_iff.2 hdigits
    rw [ht]
    unfold numberFrom
    simp only []
    rw [if_neg (by simp [hdigits c List.mem_cons_self]), if_neg hc, htake, hdrop, ← ht,
      foldl_pushWhole hk]
    exact hend

end Numbers

/-! ### Texts -/

section Texts

variable {read cs : List Char} {c : Char} {r s : List Char}

theorem hexValue?_hexDigit : ∀ n < 16, hexValue? (hexDigit n) = some n := by
  decide

/-- The escape of a control character by its number. -/
theorem unicodeEscape_append (hc : c.toNat < 0x20) (r : List Char) :
    Gives (unicodeEscape ('0' :: '0' :: hexDigit (c.toNat / 16) :: hexDigit (c.toNat % 16) :: r))
      c r := by
  have hhigh := hexValue?_hexDigit (c.toNat / 16) (by omega)
  have hlow := hexValue?_hexDigit (c.toNat % 16) (by omega)
  have hzero : hexValue? '0' = some 0 := rfl
  have hvalue : ((0 * 16 + 0) * 16 + c.toNat / 16) * 16 + c.toNat % 16 = c.toNat := by omega
  have htrailing : isTrailing c.toNat = false := by
    simp only [isTrailing, Bool.and_eq_false_iff, decide_eq_false_iff_not]
    omega
  have hleading : isLeading c.toNat = false := by
    simp only [isLeading, Bool.and_eq_false_iff, decide_eq_false_iff_not]
    omega
  refine ⟨by simp only [List.length_cons]; omega, ?_⟩
  unfold unicodeEscape fourDigits
  simp only [hhigh, hlow, hzero, hvalue, bind, Except.bind, htrailing, hleading,
    Bool.false_eq_true, if_false, Char.ofNat_toNat]
  rfl

/-- A character other than the one that ends the text is read from its escape. -/
theorem stringFrom_escapedChar {t : List Char}
    (h : Gives (stringFrom (c :: read) s) t r) :
    Gives (stringFrom read (escapedChar c ++ s)) t r := by
  obtain ⟨hlt, hs⟩ := h
  by_cases hplain : c ≠ '"' ∧ c ≠ '\\' ∧ 0x20 ≤ c.toNat
  · obtain ⟨hquote, hslash, hspace⟩ := hplain
    rw [escapedChar, if_neg hquote, if_neg hslash, if_pos hspace, List.singleton_append]
    refine ⟨by simp only [List.length_cons]; omega, ?_⟩
    rw [stringFrom, if_neg (by omega), hs]
    · rfl
    · exact hquote
    · exact hslash
  · obtain ⟨e, he, hescape⟩ : ∃ e, escapedChar c = '\\' :: e
        ∧ Gives (escapeSequence (e ++ s)) c s := by
      unfold escapedChar
      split_ifs with h₁ h₂ h₃ h₄ h₅ h₆ h₇ h₈
      · exact ⟨['"'], rfl, by simp, by rw [h₁]; rfl⟩
      · exact ⟨['\\'], rfl, by simp, by rw [h₂]; rfl⟩
      · exact absurd ⟨h₁, h₂, h₃⟩ hplain
      · exact ⟨['b'], rfl, by simp, by rw [h₄]; rfl⟩
      · exact ⟨['t'], rfl, by simp, by rw [h₅]; rfl⟩
      · exact ⟨['n'], rfl, by simp, by rw [h₆]; rfl⟩
      · exact ⟨['f'], rfl, by simp, by rw [h₇]; rfl⟩
      · exact ⟨['r'], rfl, by simp, by rw [h₈]; rfl⟩
      · obtain ⟨hlen, hunicode⟩ := unicodeEscape_append (c := c) (by omega) s
        refine ⟨_, rfl, by simp; omega, ?_⟩
        simp only [List.cons_append, List.nil_append, escapeSequence, hunicode]
        rfl
    obtain ⟨hlen, heq⟩ := hescape
    rw [he, List.cons_append]
    refine ⟨by simp only [List.length_cons]; omega, ?_⟩
    rw [stringFrom, heq]
    simp only [bind, Except.bind, hs]
    rfl

theorem stringFrom_flatMap (read cs r : List Char) :
    Gives (stringFrom read (cs.flatMap escapedChar ++ '"' :: r)) (read.reverse ++ cs) r := by
  induction cs generalizing read with
  | nil =>
    rw [List.flatMap_nil, List.nil_append, List.append_nil]
    refine ⟨Nat.lt_succ_self _, ?_⟩
    rw [stringFrom]
    rfl
  | cons c cs ih =>
    rw [List.flatMap_cons, List.append_assoc]
    have := stringFrom_escapedChar (ih (c :: read))
    rwa [List.reverse_cons, List.append_assoc, List.singleton_append] at this

/-- A quoted text is read back behind its opening quote. -/
theorem string_quote (t : String) (r : List Char) :
    ∃ s, (quote t).toList = '"' :: s ∧ Gives (string (s ++ r)) t r := by
  refine ⟨t.toList.flatMap escapedChar ++ ['"'], ?_, ?_⟩
  · rw [quote, String.toList_ofList, List.cons_append]
  · rw [List.append_assoc, List.singleton_append]
    obtain ⟨h, hread⟩ := stringFrom_flatMap [] t.toList r
    refine ⟨h, ?_⟩
    rw [string, hread]
    simp [bind, Except.bind, String.ofList_toList]
    rfl

end Texts

end TreeAtlas.Json
