import TreeAtlas.Decimal.Notation
import TreeAtlas.Decimal.Reading
import TreeAtlas.Proofs.Decimal.Doubles
import TreeAtlas.Proofs.Decimal.Numeral
import TreeAtlas.Proofs.Decimal.Shortest

/-!
# Reading back what was written

The notation of data files puts the digits of a number before and behind a point, or in front of an
exponent, and is read with the value of the digits wherever they stand (`readsAs_write`).  That
value lies in the neighbourhood of the number that was written, and is far from the magnitudes that
are settled without rounding, so it is rounded to this number again (`Literal.bits_of_within`).  So
every finite number is read back as it was (`reread_doubleData`).
-/

namespace TreeAtlas.Decimal

/-! ### Digits -/

theorem ofDigits_eq (cs : List Char) : ofDigits cs = Nat.ofDigitChars 10 cs 0 := rfl

theorem ofDigits_toDigits (n : Nat) : ofDigits (Nat.toDigits 10 n) = n :=
  Nat.ofDigitChars_toDigits (by decide) (by decide)

theorem ofDigits_append (cs ds : List Char) :
    ofDigits (cs ++ ds) = ofDigits cs * 10 ^ ds.length + ofDigits ds := by
  rw [ofDigits_eq, Nat.ofDigitChars_append, Nat.ofDigitChars_eq_ofDigitChars_zero, Nat.mul_comm]
  rfl

theorem ofDigits_zeros (n : Nat) : ofDigits (List.replicate n '0') = 0 := by
  rw [ofDigits_eq, Nat.ofDigitChars_replicate_zero, Nat.mul_zero]

/-! ### Literals -/

/-- An unsigned literal is read with this value, and it is not a whole number. -/
def ReadsAs (body : List Char) (v : ℚ) : Prop :=
  ∀ negative, integer? (signed negative body) = none
    ∧ ∃ digits exponent, Literal.ofChars? (signed negative body)
        = some (.number negative digits exponent)
      ∧ (digits : ℚ) * 10 ^ exponent = v

theorem takeSign_signed {c : Char} (hc : c.isDigit = true) (cs : List Char) (negative : Bool) :
    takeSign (signed negative (c :: cs)) = (negative, c :: cs) := by
  cases negative with
  | true => rfl
  | false =>
    have hminus : c ≠ '-' := by
      rintro rfl
      exact absurd hc (by decide)
    have hplus : c ≠ '+' := by
      rintro rfl
      exact absurd hc (by decide)
    simp [signed, takeSign, hminus, hplus]

theorem toLower_of_isDigit {c : Char} (hc : c.isDigit = true) : c.toLower = c := by
  rw [Char.isDigit, Bool.and_eq_true, decide_eq_true_iff, decide_eq_true_iff] at hc
  refine dif_neg fun hupper => ?_
  have hlow := UInt32.le_iff_toNat_le.1 hupper.1
  have hhigh := UInt32.le_iff_toNat_le.1 hc.2
  exact absurd (hlow.trans hhigh) (by decide)

/-- What starts with a digit is no word. -/
theorem ofChars?_signed {c : Char} (hc : c.isDigit = true) (cs : List Char) (negative : Bool) :
    Literal.ofChars? (signed negative (c :: cs)) = unsigned? negative (c :: cs) := by
  have hword : ∀ word : String, (∀ d ∈ word.toList.head?, d.isDigit = false) →
      String.ofList ((c :: cs).map Char.toLower) ≠ word := by
    rintro word hhead rfl
    rw [String.toList_ofList] at hhead
    have hlower := hhead c.toLower rfl
    rw [toLower_of_isDigit hc, hc] at hlower
    cases hlower
  unfold Literal.ofChars?
  rw [takeSign_signed hc]
  simp only []
  split
  · exact absurd ‹_› (hword _ (by simp))
  · exact absurd ‹_› (hword _ (by simp))
  · exact absurd ‹_› (hword _ (by simp))
  · rfl

/-- Digits with something else behind them are no whole number. -/
theorem integer?_signed {c d : Char} (hc : c.isDigit = true) {cs : List Char} (hd : d ∈ cs)
    (hdigit : d.isDigit = false) (negative : Bool) :
    integer? (signed negative (c :: cs)) = none := by
  have hall : ¬ (c :: cs).all Char.isDigit = true := by
    intro hall
    rw [List.all_eq_true] at hall
    rw [hall d (List.mem_cons_of_mem c hd)] at hdigit
    cases hdigit
  unfold integer?
  rw [takeSign_signed hc]
  exact if_pos (.inr hall)

/-- Digits alone are a literal too. -/
theorem ofChars?_toDigits (n : Nat) :
    Literal.ofChars? (Nat.toDigits 10 n) = some (.number false n 0) := by
  have hdigits := allDigits_toDigits n
  obtain ⟨htake, hdrop⟩ := hdigits.takeWhile_append [] (by simp)
  have hread : unsigned? false (Nat.toDigits 10 n) = some (.number false n 0) := by
    unfold unsigned?
    rw [List.append_nil] at htake hdrop
    simp only [htake, hdrop, List.append_nil, ofDigits_toDigits]
    exact if_neg fun h => Nat.toDigits_ne_nil (List.isEmpty_iff.1 h.1)
  obtain ⟨c, cs, hchars⟩ := List.exists_cons_of_ne_nil (Nat.toDigits_ne_nil (b := 10) (n := n))
  rw [hchars] at hdigits hread ⊢
  exact (ofChars?_signed (hdigits c List.mem_cons_self) cs false).trans hread

section Literals

variable {whole part tail : List Char} {e : ℤ}

/-- Digits with a point and an exponent. -/
theorem readsAs_point (whole part tail : List Char) (hwhole : AllDigits whole) (hne : whole ≠ [])
    (hpart : AllDigits part)
    (htail : ∀ c ∈ tail.head?, c.isDigit = false) (he : exponentPart? tail = some e) :
    ReadsAs (whole ++ '.' :: (part ++ tail))
      (ofDigits (whole ++ part) * 10 ^ (e - part.length)) := by
  intro negative
  obtain ⟨htake, hdrop⟩ := hwhole.takeWhile_append ('.' :: (part ++ tail))
    (by rintro c ⟨⟩; rfl)
  obtain ⟨htake', hdrop'⟩ := hpart.takeWhile_append tail htail
  have hread : unsigned? negative (whole ++ '.' :: (part ++ tail))
      = some (.number negative (ofDigits (whole ++ part)) (e - part.length)) := by
    unfold unsigned?
    simp only [htake, hdrop, htake', hdrop', he, Option.map_some]
    exact if_neg fun h => hne (List.isEmpty_iff.1 h.1)
  obtain ⟨c, cs, rfl⟩ := List.exists_cons_of_ne_nil hne
  have hc := (List.forall_mem_cons.1 hwhole).1
  refine ⟨integer?_signed hc (d := '.') (by simp) rfl negative, _, _, ?_, rfl⟩
  exact (ofChars?_signed hc _ negative).trans hread

/-- Digits with an exponent. -/
theorem readsAs_mark (hwhole : AllDigits whole) (hne : whole ≠ [])
    (he : exponentPart? ('e' :: tail) = some e) :
    ReadsAs (whole ++ 'e' :: tail) (ofDigits whole * 10 ^ e) := by
  intro negative
  obtain ⟨htake, hdrop⟩ := hwhole.takeWhile_append ('e' :: tail) (by rintro c ⟨⟩; rfl)
  have hread : unsigned? negative (whole ++ 'e' :: tail)
      = some (.number negative (ofDigits whole) e) := by
    unfold unsigned?
    simp only [htake, hdrop]
    change (if whole.isEmpty = true ∧ ([] : List Char).isEmpty = true then none else
      (exponentPart? ('e' :: tail)).map fun e => Literal.number negative (ofDigits (whole ++ []))
        (e - (([] : List Char).length : ℤ))) = _
    rw [he, List.append_nil, List.length_nil, Option.map_some, Nat.cast_zero, sub_zero]
    exact if_neg fun h => hne (List.isEmpty_iff.1 h.1)
  obtain ⟨c, cs, rfl⟩ := List.exists_cons_of_ne_nil hne
  have hc := (List.forall_mem_cons.1 hwhole).1
  refine ⟨integer?_signed hc (d := 'e') (by simp) rfl negative, _, _, ?_, rfl⟩
  exact (ofChars?_signed hc _ negative).trans hread

end Literals

/-! ### Notations -/

namespace Digits

variable (d : Digits)

theorem chars_ne_nil : d.chars ≠ [] := Nat.toDigits_ne_nil

theorem ofDigits_chars : ofDigits d.chars = d.digits := ofDigits_toDigits d.digits

/-- A signed exponent behind its mark. -/
theorem exponentPart?_mark (e : ℤ) :
    exponentPart? ('e' :: (if e < 0 then '-' else '+') :: Nat.toDigits 10 e.natAbs) = some e := by
  have hempty : ¬ ((Nat.toDigits 10 e.natAbs).isEmpty = true
      ∨ ¬ (Nat.toDigits 10 e.natAbs).all Char.isDigit = true) := by
    rw [not_or, not_not, List.isEmpty_iff, List.all_eq_true]
    exact ⟨Nat.toDigits_ne_nil, allDigits_toDigits _⟩
  have hvalue := ofDigits_toDigits e.natAbs
  by_cases he : e < 0
  · rw [if_pos he]
    simp only [exponentPart?, true_or, if_true, takeSign]
    rw [if_neg hempty, hvalue, Option.some.injEq]
    omega
  · rw [if_neg he]
    simp only [exponentPart?, true_or, if_true, takeSign]
    rw [if_neg hempty, hvalue, if_neg (by decide), Option.some.injEq]
    omega

theorem readsAs_scientific : ReadsAs d.scientific (d.digits * 10 ^ d.exponent) := by
  have hdigits : AllDigits d.chars := allDigits_toDigits d.digits
  have hmark := exponentPart?_mark d.magnitude
  have hvalue := d.ofDigits_chars
  have hplace : d.magnitude = d.exponent + d.chars.length - 1 := rfl
  unfold scientific
  simp only []
  split
  · rename_i first second rest hchars
    rw [hchars] at hdigits hvalue hplace
    have hread := readsAs_point [first] (second :: rest) _
      (fun c hc => hdigits c (List.mem_cons.2 (.inl (List.mem_singleton.1 hc)))) (by simp)
      (fun c hc => hdigits c (List.mem_cons_of_mem _ hc)) (by rintro c ⟨⟩; rfl) hmark
    have hexponent : d.magnitude - ((second :: rest).length : ℤ) = d.exponent := by
      rw [hplace]
      push_cast [List.length_cons]
      ring
    have hvalue' : ofDigits ([first] ++ second :: rest) = d.digits := hvalue
    rw [hexponent, hvalue'] at hread
    exact hread
  · rename_i hshort
    obtain ⟨c, cs, hchars⟩ := List.exists_cons_of_ne_nil d.chars_ne_nil
    cases cs with
    | cons second rest => exact absurd hchars (hshort _ _ _)
    | nil =>
      have hread := readsAs_mark hdigits d.chars_ne_nil hmark
      rw [hchars, List.length_singleton, Nat.cast_one, add_sub_cancel_right] at hplace
      rw [hvalue] at hread
      rw [← hplace]
      exact hread

/-- Positional notation of a whole number with a point. -/
theorem readsAs_whole (he : 0 ≤ d.exponent) :
    ReadsAs (d.positional ++ ['.', '0']) (d.digits * 10 ^ d.exponent) := by
  have hdigits : AllDigits d.chars := allDigits_toDigits d.digits
  have hread := readsAs_point _ ['0'] []
    (hdigits.append (allDigits_zeros d.exponent.toNat))
    (List.append_ne_nil_of_left_ne_nil d.chars_ne_nil _) (allDigits_zeros 1) (by simp) rfl
  have hvalue : ofDigits (d.chars ++ List.replicate d.exponent.toNat '0' ++ ['0'])
      = d.digits * 10 ^ d.exponent.toNat * 10 := by
    rw [ofDigits_append, ofDigits_append, ofDigits_zeros, d.ofDigits_chars, List.length_replicate]
    rfl
  have hnumber : ((d.digits * 10 ^ d.exponent.toNat * 10 : Nat) : ℚ) * 10 ^ (0 - (1 : ℤ))
      = d.digits * 10 ^ d.exponent := by
    rw [zero_sub, zpow_neg_one]
    push_cast
    rw [mul_inv_cancel_right₀ (by norm_num), ← zpow_natCast, Int.toNat_of_nonneg he]
  rw [hvalue, List.length_singleton, Nat.cast_one, hnumber] at hread
  rw [positional, if_pos he]
  exact hread

/-- Positional notation of a number with a fraction. -/
theorem readsAs_fraction (he : d.exponent < 0) :
    ReadsAs d.positional (d.digits * 10 ^ d.exponent) := by
  have hdigits : AllDigits d.chars := allDigits_toDigits d.digits
  have hplaces : (0 : ℤ) - d.exponent.natAbs = d.exponent := by omega
  rw [positional, if_neg (by omega)]
  simp only []
  split
  · rename_i hlt
    have hread := readsAs_point (d.chars.take (d.chars.length - d.exponent.natAbs))
      (d.chars.drop (d.chars.length - d.exponent.natAbs)) []
      (fun c hc => hdigits c (List.mem_of_mem_take hc))
      (List.ne_nil_of_length_pos (by rw [List.length_take]; omega))
      (fun c hc => hdigits c (List.mem_of_mem_drop hc)) (by simp) rfl
    rw [List.take_append_drop, d.ofDigits_chars, List.length_drop, List.append_nil,
      Nat.sub_sub_self hlt.le, hplaces] at hread
    exact hread
  · rename_i hle
    have hread := readsAs_point ['0']
      (List.replicate (d.exponent.natAbs - d.chars.length) '0' ++ d.chars) []
      (allDigits_zeros 1) (by simp) ((allDigits_zeros _).append hdigits) (by simp) rfl
    have hvalue : ofDigits (['0'] ++ (List.replicate (d.exponent.natAbs - d.chars.length) '0'
        ++ d.chars)) = d.digits := by
      rw [ofDigits_append, ofDigits_append, ofDigits_zeros, d.ofDigits_chars,
        show ofDigits ['0'] = 0 from rfl, Nat.zero_mul, Nat.zero_mul, Nat.zero_add, Nat.zero_add]
    have hlength : (List.replicate (d.exponent.natAbs - d.chars.length) '0' ++ d.chars).length
        = d.exponent.natAbs := by
      rw [List.length_append, List.length_replicate]
      omega
    rw [hvalue, hlength, hplaces, List.append_nil] at hread
    exact hread

end Digits

theorem readsAs_write (style : DataNotation) (d : Digits) :
    ReadsAs (style.write d) (d.digits * 10 ^ d.exponent) := by
  unfold DataNotation.write
  split
  · exact d.readsAs_scientific
  · split
    · exact d.readsAs_whole ‹_›
    · exact d.readsAs_fraction (by omega)

/-! ### Magnitudes -/

theorem Format.Canonical.exponent_le {m : Nat} {q : ℤ} (h : Format.double.Canonical m q) :
    -1074 ≤ q ∧ q ≤ 972 := by
  have hleast : Format.double.least = -1074 := rfl
  have hfraction : Format.double.fraction = 52 := rfl
  have hinfinity : Format.double.infinityBits = 2047 * 2 ^ 52 := rfl
  have hlow := h.least
  have hfinite := h.finite
  rw [hleast] at hlow hfinite
  rw [hfraction, hinfinity] at hfinite
  omega

/-- The place of the first digit of a number. -/
theorem zpow_top_bounds {digits : Nat} (hd : 0 < digits) (e : ℤ) :
    (10 : ℚ) ^ (e + (Nat.toDigits 10 digits).length - 1) ≤ digits * 10 ^ e
      ∧ (digits : ℚ) * 10 ^ e < 10 ^ (e + (Nat.toDigits 10 digits).length) := by
  have hten : (10 : ℚ) ≠ 0 := by norm_num
  obtain ⟨k, hk⟩ : ∃ k, (Nat.toDigits 10 digits).length = k + 1 :=
    Nat.exists_eq_succ_of_ne_zero Nat.length_toDigits_pos.ne'
  have hbelow : digits < 10 ^ (k + 1) :=
    (Nat.length_toDigits_le_iff (by decide) k.succ_pos).1 hk.le
  have habove : 10 ^ k ≤ digits := by
    cases k with
    | zero => exact hd
    | succ k =>
      by_contra hlt
      have := (Nat.length_toDigits_le_iff (by decide) k.succ_pos).2 (Nat.lt_of_not_le hlt)
      omega
  rw [hk]
  push_cast
  constructor
  · rw [show e + ((k : ℤ) + 1) - 1 = k + e by ring, zpow_add₀ hten, zpow_natCast]
    gcongr
    exact_mod_cast habove
  · rw [show e + ((k : ℤ) + 1) = ((k + 1 : Nat) : ℤ) + e by push_cast; ring, zpow_add₀ hten,
      zpow_natCast]
    gcongr
    exact_mod_cast hbelow

/-- Numbers of the format are far from the magnitudes that are settled without rounding. -/
theorem Format.Within.top_bounds {digits m : Nat} {e q : ℤ} (hc : Format.double.Canonical m q)
    (hm : 0 < m) (h : Format.double.Within m q (digits * 10 ^ e)) :
    0 < digits ∧ -400 < e + (Nat.toDigits 10 digits).length
      ∧ e + (Nat.toDigits 10 digits).length ≤ 400 := by
  have hpow : (0 : ℚ) < 2 ^ q := by positivity
  have hbig : (2 : ℚ) ^ (1076 : ℤ) < 10 ^ (400 : ℤ) := by
    exact_mod_cast (show 2 ^ 1076 < 10 ^ 400 by decide +kernel)
  obtain ⟨hq, hq'⟩ := hc.exponent_le
  obtain ⟨hlow, hhigh⟩ := h.bounds
  rw [le_div_iff₀ hpow] at hlow
  rw [div_le_iff₀ hpow] at hhigh
  have hm' : (1 : ℚ) ≤ m := by exact_mod_cast hm
  have hmantissa : (m : ℚ) + 1 ≤ 2 ^ (53 : ℤ) := by exact_mod_cast hc.mantissa
  have hbelow : (2 : ℚ) ^ (-1076 : ℤ) < digits * 10 ^ e := by
    calc (2 : ℚ) ^ (-1076 : ℤ) < 2 ^ (q - 1) := zpow_lt_zpow_right₀ one_lt_two (by omega)
      _ = 1 / 2 * 2 ^ q := by
        rw [zpow_sub_one₀ two_ne_zero]
        ring
      _ ≤ (m - 1 / 2) * 2 ^ q := by
        gcongr
        linarith
      _ ≤ digits * 10 ^ e := hlow
  have habove : (digits : ℚ) * 10 ^ e < 2 ^ (1076 : ℤ) := by
    calc (digits : ℚ) * 10 ^ e ≤ (m + 1 / 2) * 2 ^ q := hhigh
      _ ≤ 2 ^ (53 : ℤ) * 2 ^ q := by
        gcongr
        linarith
      _ = 2 ^ (53 + q) := (zpow_add₀ two_ne_zero _ _).symm
      _ < 2 ^ (1076 : ℤ) := zpow_lt_zpow_right₀ one_lt_two (by omega)
  have hdigits : 0 < digits := by
    rcases Nat.eq_zero_or_pos digits with rfl | hpos
    · rw [Nat.cast_zero, zero_mul] at hbelow
      exact absurd hbelow (not_lt_of_ge (by positivity))
    · exact hpos
  obtain ⟨htop, htop'⟩ := zpow_top_bounds hdigits e
  have hten : (1 : ℚ) < 10 := by norm_num
  refine ⟨hdigits, ?_, ?_⟩
  · rw [← zpow_lt_zpow_iff_right₀ hten]
    calc (10 : ℚ) ^ (-400 : ℤ) = (10 ^ (400 : ℤ))⁻¹ := zpow_neg _ _
      _ ≤ (2 ^ (1076 : ℤ))⁻¹ := inv_anti₀ (by positivity) hbig.le
      _ = 2 ^ (-1076 : ℤ) := (zpow_neg _ _).symm
      _ < digits * 10 ^ e := hbelow
      _ < 10 ^ (e + (Nat.toDigits 10 digits).length) := htop'
  · have := (zpow_lt_zpow_iff_right₀ hten).1 ((htop.trans_lt habove).trans hbig)
    omega

/-- A literal near a number of the format is read as this number. -/
theorem Literal.bits_of_within {negative : Bool} {digits m : Nat} {e q : ℤ}
    (hc : Format.double.Canonical m q) (hm : 0 < m)
    (h : Format.double.Within m q (digits * 10 ^ e)) :
    (Literal.number negative digits e).bits .double = Format.double.withSign negative
      ((q - Format.double.least).toNat * 2 ^ Format.double.fraction + m) := by
  obtain ⟨hdigits, hlow, hhigh⟩ := h.top_bounds hc hm
  have hnum : 0 < digits * pow10 e.toNat := Nat.mul_pos hdigits (Nat.pow_pos (by decide))
  have hden : 0 < pow10 (-e).toNat := Nat.pow_pos (by decide)
  have hvalue : ((digits * pow10 e.toNat : Nat) : ℚ) / (pow10 (-e).toNat : Nat)
      = digits * 10 ^ e := by
    rw [zpow_eq_div (show (10 : ℚ) ≠ 0 by norm_num) e, pow10_eq, pow10_eq]
    push_cast
    ring
  have hnearest := Format.nearest_of_within hc hnum hden (by rw [hvalue]; exact h)
  simp only [Literal.bits]
  rw [if_neg (by omega), if_neg (by omega), hnearest]

/-- A literal of no magnitude is read as zero. -/
theorem Literal.bits_of_zero {negative : Bool} {digits : Nat} {e q : ℤ}
    (hc : Format.double.Canonical 0 q) (h : (digits : ℚ) * 10 ^ e = 0) :
    (Literal.number negative digits e).bits .double = Format.double.withSign negative
      ((q - Format.double.least).toNat * 2 ^ Format.double.fraction + 0) := by
  have hdigits : digits = 0 := by
    rw [mul_eq_zero, Nat.cast_eq_zero] at h
    exact h.resolve_right (by positivity)
  have hq : q = Format.double.least := by
    have hlead : 0 < 2 ^ Format.double.fraction := Nat.two_pow_pos _
    exact hc.leading.resolve_right (by omega)
  rw [hq, sub_self, Literal.bits, if_pos (.inl hdigits), Int.toNat_zero, Nat.zero_mul]

/-! ### Numbers -/

/-- What is written for a finite number is no whole number, and is read as the number. -/
theorem reread_doubleData {x : Float} (hx : x.isFinite = true) :
    integer? (doubleData x).toList = none
      ∧ ∃ literal, Literal.ofChars? (doubleData x).toList = some literal
        ∧ literal.toDouble = x := by
  obtain ⟨negative, m, q, hdecode⟩ := (isFinite_iff_decode x).1 hx
  have hbound : x.toBits.toNat < 2 * Format.double.signBit := x.toBits.toNat_lt
  obtain ⟨hc, hbits⟩ := Format.canonical_of_decode hbound hdecode
  rw [doubleData, Format.dataText, hdecode]
  simp only [String.toList_ofList]
  split
  · rename_i hzero
    obtain ⟨hinteger, digits, e, hread, hvalue⟩ := readsAs_point ['0'] ['0'] []
      (allDigits_zeros 1) (by simp) (allDigits_zeros 1) (by simp) rfl negative
    have hnone : ((ofDigits (['0'] ++ ['0']) : Nat) : ℚ) = 0 := Nat.cast_zero
    rw [hnone, zero_mul] at hvalue
    subst hzero
    exact ⟨hinteger, _, hread, toDouble_of_bits ((Literal.bits_of_zero hc hvalue).trans hbits)⟩
  · rename_i hm
    have hpos : 0 < m := Nat.pos_of_ne_zero hm
    obtain ⟨hinteger, digits, e, hread, hvalue⟩ :=
      readsAs_write .double (shortest .even .double m q) negative
    have hnear := within_shortest .even hc hpos (by decide) (by
      have := hc.exponent_le
      have hfraction : Format.double.fraction = 52 := rfl
      omega)
    rw [← hvalue] at hnear
    exact ⟨hinteger, _, hread,
      toDouble_of_bits ((Literal.bits_of_within hc hpos hnear).trans hbits)⟩

end TreeAtlas.Decimal
