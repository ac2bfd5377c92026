import TreeAtlas.Decimal.Shortest
import TreeAtlas.Proofs.Decimal.Nearest

/-!
# Shortest digits are near enough

The search for digits ends at a point of the neighbourhood (`within_shortest`).  The grid sixteen
places below the first digit is finer than the distance of neighbours, so one of its two points
beside the number is near enough (`Neighbourhood.exists_contains`), and the search stops there at
the latest.  The place of the first digit is guessed from that of the first bit by a fraction close
to the logarithm of two, which is never too much for numbers of a sensible size (`ten_zpow_le`).
-/

namespace TreeAtlas.Decimal

/-! ### Powers of ten and of two -/

theorem ten_pow_bounds : 2 ^ 100000 ≤ 10 ^ 30103 ∧ 10 ^ 30103 ≤ 2 ^ 100001 := by
  decide +kernel

/-- The exponent of a power of ten that is not above a power of two. -/
theorem ten_zpow_le {d : ℤ} (hd : d ≤ 100000) :
    (10 : ℚ) ^ ((d - 1) * 30103 / 100000) ≤ 2 ^ d := by
  have hlow : (2 : ℚ) ^ 100000 ≤ 10 ^ 30103 := by exact_mod_cast ten_pow_bounds.1
  have hhigh : (10 : ℚ) ^ 30103 ≤ 2 ^ 100001 := by exact_mod_cast ten_pow_bounds.2
  have hfloor : (d - 1) * 30103 / 100000 * 100000 ≤ 30103 * (d - 1) := by omega
  rw [← pow_le_pow_iff_left₀ (by positivity) (by positivity) (show 100000 ≠ 0 by decide),
    ← zpow_natCast, ← zpow_natCast, ← zpow_mul, ← zpow_mul]
  calc (10 : ℚ) ^ ((d - 1) * 30103 / 100000 * ((100000 : Nat) : ℤ))
      ≤ 10 ^ (30103 * (d - 1)) := zpow_le_zpow_right₀ (by norm_num) hfloor
    _ = (10 ^ 30103) ^ (d - 1) := by rw [zpow_mul]; rfl
    _ ≤ 2 ^ (d * ((100000 : Nat) : ℤ)) := ?_
  rcases le_total 0 (d - 1) with hd' | hd'
  · calc ((10 : ℚ) ^ 30103) ^ (d - 1) ≤ (2 ^ 100001) ^ (d - 1) :=
          zpow_le_zpow_left₀ hd' (by positivity) hhigh
      _ = 2 ^ (100001 * (d - 1)) := by rw [zpow_mul]; rfl
      _ ≤ 2 ^ (d * ((100000 : Nat) : ℤ)) := zpow_le_zpow_right₀ one_le_two (by omega)
  · have hbase : ((10 : ℚ) ^ 30103) ^ (d - 1) ≤ (2 ^ 100000) ^ (d - 1) := by
      rw [← neg_sub, zpow_neg, zpow_neg]
      exact inv_anti₀ (by positivity) (zpow_le_zpow_left₀ (by omega) (by positivity) hlow)
    calc ((10 : ℚ) ^ 30103) ^ (d - 1) ≤ (2 ^ 100000) ^ (d - 1) := hbase
      _ = 2 ^ (100000 * (d - 1)) := by rw [zpow_mul]; rfl
      _ ≤ 2 ^ (d * ((100000 : Nat) : ℤ)) := zpow_le_zpow_right₀ one_le_two (by omega)

/-! ### Neighbourhoods -/

section Neighbourhoods

variable {f : Format} {m : Nat} {q : ℤ}

namespace Neighbourhood

/-- Numbers are held in quarters of their last place. -/
theorem zpow_two_eq (q : ℤ) :
    (2 : ℚ) ^ q = 4 * (2 ^ (q - 2).toNat / 2 ^ (2 - q).toNat) := by
  have h := zpow_eq_div (show (2 : ℚ) ≠ 0 by norm_num) (q - 2)
  rw [neg_sub] at h
  rw [← h, zpow_sub₀ two_ne_zero]
  norm_num
  ring

/-- Points and multiples of the unit are compared on one scale. -/
theorem exists_scale (f : Format) (m : Nat) (q s : ℤ) : ∃ scale : ℚ, 0 < scale
    ∧ (∀ a : Nat, ((a * ((of f m q).up * pow10 (-s).toNat) : Nat) : ℚ) = a / 4 * 2 ^ q * scale)
    ∧ ∀ c : Nat, ((c * (of f m q).down * pow10 s.toNat : Nat) : ℚ) = c * 10 ^ s * scale := by
  refine ⟨2 ^ (2 - q).toNat * 10 ^ (-s).toNat, by positivity, fun a => ?_, fun c => ?_⟩
  · simp only [of, pow2_eq, pow10_eq]
    rw [zpow_two_eq q]
    push_cast
    field_simp
  · simp only [of, pow2_eq, pow10_eq]
    rw [zpow_eq_div (show (10 : ℚ) ≠ 0 by norm_num) s]
    push_cast
    field_simp

theorem le_floor_iff (c : Nat) (s : ℤ) :
    c ≤ (of f m q).floor s ↔ (c : ℚ) * 10 ^ s ≤ m * 2 ^ q := by
  obtain ⟨scale, hscale, hunit, hpoint⟩ := exists_scale f m q s
  have hpos : 0 < (of f m q).down * pow10 s.toNat :=
    Nat.mul_pos (Nat.two_pow_pos _) (Nat.pow_pos (by decide))
  have hmid : ((of f m q).mid : ℚ) / 4 = m := by
    simp only [of]
    push_cast
    ring
  rw [floor, Nat.le_div_iff_mul_le hpos, ← Nat.mul_assoc, Nat.mul_assoc (of f m q).mid,
    ← Nat.cast_le (α := ℚ), hunit, hpoint, hmid, mul_le_mul_iff_left₀ hscale]

theorem low_div (hm : 0 < m) : ((of f m q).low : ℚ) / 4
    = if m = 2 ^ f.fraction ∧ f.least < q then (m - 1 / 4 : ℚ) else m - 1 / 2 := by
  by_cases hpower : m = 2 ^ f.fraction ∧ f.least < q
  · have hlow : (of f m q).low = 4 * m - 1 := if_pos hpower
    rw [if_pos hpower, hlow, Nat.cast_sub (by omega)]
    push_cast
    ring
  · have hlow : (of f m q).low = 4 * m - 2 := if_neg hpower
    rw [if_neg hpower, hlow, Nat.cast_sub (by omega)]
    push_cast
    ring

/-- Points are tested against the halfway points around the number. -/
theorem contains_iff (hm : 0 < m) (c : Nat) (s : ℤ) :
    (of f m q).contains c s = true ↔ f.Within m q (c * 10 ^ s) := by
  obtain ⟨scale, hscale, hunit, hpoint⟩ := exists_scale f m q s
  have hpow : (0 : ℚ) < 2 ^ q := by positivity
  have hhigh : ((of f m q).high : ℚ) / 4 = m + 1 / 2 := by
    simp only [of]
    push_cast
    ring
  have hclosed : (of f m q).closed = decide (m % 2 = 0) := rfl
  unfold contains Format.Within
  simp only []
  rw [← low_div hm, ← hhigh, hclosed]
  by_cases heven : m % 2 = 0
  · simp only [heven, decide_true, if_true, Bool.and_eq_true, decide_eq_true_iff, true_and]
    rw [← Nat.cast_le (α := ℚ), ← Nat.cast_le (α := ℚ), hunit, hunit, hpoint,
      mul_le_mul_iff_left₀ hscale, mul_le_mul_iff_left₀ hscale, ← le_div_iff₀ hpow,
      ← div_le_iff₀ hpow]
    exact ⟨.inr, fun h => h.elim (fun h => ⟨h.1.le, h.2.le⟩) id⟩
  · simp only [heven, decide_false, Bool.false_eq_true, if_false, Bool.and_eq_true,
      decide_eq_true_iff, false_and, or_false]
    rw [← Nat.cast_lt (α := ℚ), ← Nat.cast_lt (α := ℚ), hunit, hunit, hpoint,
      mul_lt_mul_iff_left₀ hscale, mul_lt_mul_iff_left₀ hscale, lt_div_iff₀ hpow, div_lt_iff₀ hpow]

/-- The power of two that the first digit is guessed from. -/
theorem zpow_log2_bounds (hm : 0 < m) (hmantissa : m < 2 ^ (f.fraction + 1)) {d : ℤ}
    (hd : d = (((of f m q).mid * (of f m q).up).log2 : ℤ) - (of f m q).down.log2) :
    (2 : ℚ) ^ d ≤ m * 2 ^ q ∧ d ≤ q + f.fraction := by
  have hmid : 0 < (of f m q).mid * (of f m q).up :=
    Nat.mul_pos (Nat.mul_pos (by decide) hm) (Nat.two_pow_pos _)
  have hvalue : (2 : ℚ) ^ d ≤ m * 2 ^ q := by
    have hdown : (of f m q).down.log2 = (2 - q).toNat := Nat.log2_two_pow
    have hlog := (Format.zpow_log2_le hmid).1
    rw [hd, hdown, zpow_sub₀ two_ne_zero, div_le_iff₀ (by positivity)]
    refine hlog.trans_eq ?_
    rw [zpow_two_eq q, zpow_natCast]
    simp only [of, pow2_eq]
    push_cast
    field_simp
  refine ⟨hvalue, ?_⟩
  have hbelow : (m : ℚ) * 2 ^ q < 2 ^ (q + f.fraction + 1) := by
    have hm' : (m : ℚ) < 2 ^ (f.fraction + 1) := by exact_mod_cast hmantissa
    calc (m : ℚ) * 2 ^ q < 2 ^ (f.fraction + 1) * 2 ^ q := by gcongr
      _ = 2 ^ (q + f.fraction + 1) := by
        rw [← zpow_natCast, ← zpow_add₀ two_ne_zero]
        congr 1
        push_cast
        ring
  have := (zpow_lt_zpow_iff_right₀ one_lt_two).1 (hvalue.trans_lt hbelow)
  omega

/-- The exponent of the first digit is not too large. -/
theorem magnitude_le (hm : 0 < m) (hmantissa : m < 2 ^ (f.fraction + 1))
    (hq : q + f.fraction ≤ 100000) : (10 : ℚ) ^ (of f m q).magnitude ≤ m * 2 ^ q := by
  unfold magnitude
  simp only []
  split
  · rename_i hnext
    rw [le_floor_iff, Nat.cast_one, one_mul] at hnext
    exact hnext
  · obtain ⟨hvalue, hd⟩ := zpow_log2_bounds hm hmantissa rfl
    exact (ten_zpow_le (hd.trans hq)).trans hvalue

/-- One of the points beside the number is near enough on a fine grid. -/
theorem exists_contains (hm : 0 < m) (hmantissa : m < 2 ^ (f.fraction + 1))
    (hfraction : f.fraction ≤ 52) {s : ℤ} (hs : (10 : ℚ) ^ (s + 16) ≤ m * 2 ^ q) :
    (of f m q).contains ((of f m q).floor s) s = true
      ∨ (of f m q).contains ((of f m q).floor s + 1) s = true := by
  have hpow : (0 : ℚ) < 2 ^ q := by positivity
  have hbelow := (le_floor_iff (f := f) (m := m) (q := q) _ s).1 le_rfl
  have habove := mt (le_floor_iff (f := f) (m := m) (q := q) _ s).2 (Nat.not_succ_le_self _)
  rw [contains_iff hm, contains_iff hm]
  generalize (of f m q).floor s = c at *
  push_cast [add_mul, one_mul] at habove ⊢
  -- everything in units of the last place
  obtain ⟨x, hx⟩ : ∃ x, x = (c : ℚ) * 10 ^ s / 2 ^ q := ⟨_, rfl⟩
  obtain ⟨δ, hδ⟩ : ∃ δ, δ = (10 : ℚ) ^ s / 2 ^ q := ⟨_, rfl⟩
  have hxm : x ≤ m := by rwa [hx, div_le_iff₀ hpow]
  have hmy : (m : ℚ) < x + δ := by
    rw [hx, hδ, ← add_div, lt_div_iff₀ hpow]
    exact lt_of_not_ge habove
  have hfine : δ * 10 ^ 16 ≤ m := by
    rw [hδ, div_mul_eq_mul_div, div_le_iff₀ hpow, ← zpow_natCast, ← zpow_add₀ (by norm_num)]
    exact hs
  unfold Format.Within
  simp only []
  rw [← hx, add_div, ← hx, ← hδ]
  by_cases hpower : m = 2 ^ f.fraction ∧ f.least < q
  · have hm' : (m : ℚ) ≤ 2 ^ 52 := by
      rw [hpower.1]
      push_cast
      exact pow_le_pow_right₀ one_le_two hfraction
    rw [if_pos hpower]
    by_cases hfirst : (m : ℚ) - 1 / 4 < x
    · exact .inl (.inl ⟨hfirst, by linarith⟩)
    · exact .inr (.inl ⟨by linarith, by linarith⟩)
  · have hm' : (m : ℚ) < 2 ^ 53 := by
      have hle : 2 ^ (f.fraction + 1) ≤ 2 ^ 53 := Nat.pow_le_pow_right (by decide) (by omega)
      exact_mod_cast hmantissa.trans_le hle
    rw [if_neg hpower]
    by_cases hfirst : (m : ℚ) - 1 / 2 < x
    · exact .inl (.inl ⟨hfirst, by linarith⟩)
    · exact .inr (.inl ⟨by linarith, by linarith⟩)

/-- A search that comes to a grid with a near point stops there at the latest, at such a point. -/
theorem contains_search (tie : Tie) (n : Neighbourhood) {i fuel : Nat} {s : ℤ} (hi : i < fuel)
    (h : n.contains (n.floor (s - i)) (s - i) = true
      ∨ n.contains (n.floor (s - i) + 1) (s - i) = true) :
    n.contains (n.search tie fuel s).digits (n.search tie fuel s).exponent = true := by
  induction fuel generalizing i s with
  | zero => exact absurd hi (Nat.not_lt_zero i)
  | succ fuel ih =>
    rw [search]
    split
    · rename_i hfirst hsecond
      cases i with
      | zero =>
        rw [Nat.cast_zero, sub_zero, hfirst, hsecond] at h
        simp at h
      | succ i =>
        refine ih (Nat.lt_of_succ_lt_succ hi) ?_
        rw [show s - 1 - (i : ℤ) = s - ((i + 1 : Nat) : ℤ) by push_cast; ring]
        exact h
    · assumption
    · assumption
    · split <;> assumption

end Neighbourhood

theorem Digits.value_trimZeros (fuel : Nat) (d : Digits) :
    ((d.trimZeros fuel).digits : ℚ) * 10 ^ (d.trimZeros fuel).exponent
      = d.digits * 10 ^ d.exponent := by
  induction fuel generalizing d with
  | zero => rfl
  | succ fuel ih =>
    rw [trimZeros]
    split
    · rename_i h
      have hdigits : d.digits = d.digits / 10 * 10 := by omega
      rw [ih, zpow_add_one₀ (by norm_num)]
      conv_rhs => rw [hdigits]
      push_cast
      ring
    · rfl

/-- The shortest digits lie in the neighbourhood of their number. -/
theorem within_shortest (tie : Tie) (hc : f.Canonical m q) (hm : 0 < m)
    (hfraction : f.fraction ≤ 52) (hq : q + f.fraction ≤ 100000) :
    f.Within m q ((shortest tie f m q).digits * 10 ^ (shortest tie f m q).exponent) := by
  let n := Neighbourhood.of f m q
  have hmagnitude := Neighbourhood.magnitude_le hm hc.mantissa hq
  have hnear := n.contains_search tie (show 16 < 17 by decide) (s := n.magnitude)
    (Neighbourhood.exists_contains hm hc.mantissa hfraction (by
      rw [Nat.cast_ofNat, sub_add_cancel]
      exact hmagnitude))
  rw [shortest, Digits.value_trimZeros]
  exact (Neighbourhood.contains_iff hm _ _).1 hnear

end Neighbourhoods

end TreeAtlas.Decimal
