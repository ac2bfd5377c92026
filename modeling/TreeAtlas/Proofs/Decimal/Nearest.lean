import TreeAtlas.Decimal.Binary
import Mathlib.Algebra.Order.Field.Basic
import Mathlib.Algebra.Order.Field.Power
import Mathlib.Algebra.Order.Ring.Rat
import Mathlib.Tactic.FieldSimp
import Mathlib.Tactic.Linarith
import Mathlib.Tactic.Positivity
import Mathlib.Tactic.Ring

/-!
# The nearest number of a format

A quotient that lies between the halfway points around `m * 2 ^ q` is rounded to the pattern of this
number (`Format.nearest_of_within`).  Rounding starts with a guess for the exponent, which is one
off at most, so the exponent that is used is the one of the binade of the quotient, or the least one
(`Format.exists_nearest`).  That is `q`, but for quotients just below a power of two: they are
rounded up into the next binade, and the pattern is the same.
-/

namespace TreeAtlas.Decimal

/-! ### Powers -/

theorem pow2_eq (n : Nat) : pow2 n = 2 ^ n := rfl

theorem pow10_eq (n : Nat) : pow10 n = 10 ^ n := rfl

/-- An integral power as a quotient of natural ones. -/
theorem zpow_eq_div {b : ℚ} (hb : b ≠ 0) (s : ℤ) : b ^ s = b ^ s.toNat / b ^ (-s).toNat := by
  rw [← zpow_natCast, ← zpow_natCast, ← zpow_sub₀ hb]
  congr 1
  omega

theorem div_zpow {b : ℚ} (hb : b ≠ 0) (x y : ℚ) (s : ℤ) :
    x * b ^ (-s).toNat / (y * b ^ s.toNat) = x / y / b ^ s := by
  rw [zpow_eq_div hb s]
  have hup : b ^ s.toNat ≠ 0 := pow_ne_zero _ hb
  have hdown : b ^ (-s).toNat ≠ 0 := pow_ne_zero _ hb
  field_simp

theorem cast_div_pow2 (num den : Nat) (s : ℤ) :
    ((num * pow2 (-s).toNat : Nat) : ℚ) / ((den * pow2 s.toNat : Nat) : ℚ)
      = num / den / 2 ^ s := by
  rw [← div_zpow two_ne_zero, pow2_eq, pow2_eq]
  push_cast
  rfl

theorem mul_pow2_pos {den : Nat} (hden : 0 < den) (n : Nat) : 0 < den * pow2 n :=
  Nat.mul_pos hden (Nat.two_pow_pos n)

/-! ### Whole numbers -/

/-- A multiple of a power of two is whole if the places behind the point are empty. -/
theorem natCast_eq_mul_zpow_iff (n m : Nat) (q : ℤ) :
    (n : ℚ) = m * 2 ^ q
      ↔ m % pow2 (-q).toNat = 0 ∧ n = m * pow2 q.toNat / pow2 (-q).toNat := by
  cases q with
  | ofNat k =>
    have hplaces : pow2 (-Int.ofNat k).toNat = 1 := by
      rw [Int.ofNat_eq_natCast, Int.toNat_neg_natCast]
      rfl
    rw [hplaces, Nat.mod_one, Nat.div_one, Int.ofNat_eq_natCast, zpow_natCast, Int.toNat_natCast,
      pow2_eq, eq_self_iff_true, true_and]
    norm_cast
  | negSucc k =>
    have hplaces : (-Int.negSucc k).toNat = k + 1 := rfl
    have hone : pow2 (Int.negSucc k).toNat = 1 := rfl
    rw [hplaces, hone, Nat.mul_one, pow2_eq, zpow_negSucc, ← div_eq_mul_inv,
      eq_div_iff (by positivity)]
    norm_cast
    constructor
    · rintro rfl
      exact ⟨Nat.mul_mod_left _ _, (Nat.mul_div_cancel _ (Nat.two_pow_pos _)).symm⟩
    · rintro ⟨hmod, rfl⟩
      exact Nat.div_mul_cancel (Nat.dvd_of_mod_eq_zero hmod)

/-- A value lies between the halfway points around a whole number, or on one of them if the number
is even. -/
def RoundsTo (t : ℚ) (n : Nat) : Prop :=
  (n - 1 / 2 < t ∧ t < n + 1 / 2) ∨ (n % 2 = 0 ∧ n - 1 / 2 ≤ t ∧ t ≤ n + 1 / 2)

theorem roundsTo_div_iff {num den n : Nat} (hden : 0 < den) : RoundsTo (num / den) n
    ↔ (2 * (n * den) < 2 * num + den ∧ 2 * num < 2 * (n * den) + den)
      ∨ (n % 2 = 0 ∧ 2 * (n * den) ≤ 2 * num + den ∧ 2 * num ≤ 2 * (n * den) + den) := by
  have hden' : (0 : ℚ) < den := by exact_mod_cast hden
  have hlow : ((n : ℚ) - 1 / 2 < num / den ↔ 2 * (n * den) < 2 * num + den)
      ∧ ((n : ℚ) - 1 / 2 ≤ num / den ↔ 2 * (n * den) ≤ 2 * num + den) := by
    rw [lt_div_iff₀ hden', le_div_iff₀ hden', ← Nat.cast_lt (α := ℚ), ← Nat.cast_le (α := ℚ)]
    push_cast
    constructor <;> constructor <;> intro h <;> linarith
  have hhigh : ((num : ℚ) / den < n + 1 / 2 ↔ 2 * num < 2 * (n * den) + den)
      ∧ ((num : ℚ) / den ≤ n + 1 / 2 ↔ 2 * num ≤ 2 * (n * den) + den) := by
    rw [div_lt_iff₀ hden', div_le_iff₀ hden', ← Nat.cast_lt (α := ℚ), ← Nat.cast_le (α := ℚ)]
    push_cast
    constructor <;> constructor <;> intro h <;> linarith
  rw [RoundsTo, hlow.1, hlow.2, hhigh.1, hhigh.2]

theorem roundHalfEven_eq {num den n : Nat} (hden : 0 < den) (h : RoundsTo (num / den) n) :
    roundHalfEven num den = n := by
  rw [roundsTo_div_iff hden] at h
  have hdiv := Nat.div_add_mod' num den
  have hmod := Nat.mod_lt num hden
  unfold roundHalfEven
  simp only []
  generalize num / den = k at *
  generalize num % den = r at *
  -- only the two whole numbers beside the quotient are near enough
  have hle : k ≤ n := by
    by_contra hlt
    have := Nat.mul_le_mul_right den (Nat.lt_of_not_le hlt)
    rw [Nat.succ_mul] at this
    omega
  have hge : n ≤ k + 1 := by
    by_contra hlt
    have := Nat.mul_le_mul_right den (Nat.lt_of_not_le hlt)
    rw [Nat.succ_mul, Nat.succ_mul] at this
    omega
  obtain rfl | rfl : n = k ∨ n = k + 1 := by omega
  · split <;> [rfl; split] <;> omega
  · simp only [Nat.add_mul, Nat.one_mul] at h
    split <;> [skip; split] <;> omega

theorem roundHalfEven_bounds (num den : Nat) :
    num / den ≤ roundHalfEven num den ∧ roundHalfEven num den ≤ num / den + 1 := by
  unfold roundHalfEven
  simp only []
  split_ifs <;> omega

/-! ### Binades -/

namespace Format

variable {f : Format} {num den m : Nat} {q : ℤ}

/-- A whole number lies between powers of two. -/
theorem zpow_log2_le {n : Nat} (hn : 0 < n) :
    (2 : ℚ) ^ (n.log2 : ℤ) ≤ n ∧ (n : ℚ) < 2 ^ ((n.log2 : ℤ) + 1) := by
  constructor
  · rw [zpow_natCast]
    exact_mod_cast Nat.log2_self_le hn.ne'
  · rw [show (n.log2 : ℤ) + 1 = ((n.log2 + 1 : Nat) : ℤ) by push_cast; rfl, zpow_natCast]
    exact_mod_cast Nat.lt_log2_self

/-- The binade of a quotient is told by those of its parts up to one. -/
theorem zpow_log2_lt_div (hnum : 0 < num) (hden : 0 < den) :
    (2 : ℚ) ^ ((num.log2 : ℤ) - den.log2 - 1) < num / den
      ∧ (num / den : ℚ) < 2 ^ ((num.log2 : ℤ) - den.log2 + 1) := by
  have hpos : (0 : ℚ) < den := by exact_mod_cast hden
  obtain ⟨hnumlow, hnumhigh⟩ := zpow_log2_le hnum
  obtain ⟨hdenlow, hdenhigh⟩ := zpow_log2_le hden
  constructor
  · rw [lt_div_iff₀ hpos]
    calc (2 : ℚ) ^ ((num.log2 : ℤ) - den.log2 - 1) * den
        < 2 ^ ((num.log2 : ℤ) - den.log2 - 1) * 2 ^ ((den.log2 : ℤ) + 1) := by gcongr
      _ = 2 ^ (num.log2 : ℤ) := by
        rw [← zpow_add₀ two_ne_zero]
        congr 1
        ring
      _ ≤ num := hnumlow
  · rw [div_lt_iff₀ hpos]
    calc (num : ℚ) < 2 ^ ((num.log2 : ℤ) + 1) := hnumhigh
      _ = 2 ^ ((num.log2 : ℤ) - den.log2 + 1) * 2 ^ (den.log2 : ℤ) := by
        rw [← zpow_add₀ two_ne_zero]
        congr 1
        ring
      _ ≤ 2 ^ ((num.log2 : ℤ) - den.log2 + 1) * den := by gcongr

/-- The exponent that is rounded with is that of the binade of the quotient, but not too small. -/
theorem exists_nearest (hnum : 0 < num) (hden : 0 < den) :
    ∃ q : ℤ, f.least ≤ q ∧ (num / den : ℚ) < 2 ^ (q + f.fraction + 1)
      ∧ (q = f.least ∨ (2 : ℚ) ^ (q + f.fraction) ≤ num / den)
      ∧ f.nearest num den = min ((q - f.least).toNat * 2 ^ f.fraction
        + roundHalfEven (num * pow2 (-q).toNat) (den * pow2 q.toNat)) f.infinityBits := by
  obtain ⟨hlow, hhigh⟩ := zpow_log2_lt_div hnum hden
  let guess : ℤ := (num.log2 : ℤ) - den.log2 - f.fraction
  let q₀ : ℤ := if num * pow2 (-guess).toNat / (den * pow2 guess.toNat) < pow2 f.fraction
    then guess - 1 else guess
  have hbinade : (2 : ℚ) ^ (q₀ + f.fraction) ≤ num / den
      ∧ (num / den : ℚ) < 2 ^ (q₀ + f.fraction + 1) := by
    have hpow : (0 : ℚ) < 2 ^ guess := by positivity
    have hsplit : (2 : ℚ) ^ (guess + f.fraction) = 2 ^ f.fraction * 2 ^ guess := by
      rw [zpow_add₀ two_ne_zero, zpow_natCast, mul_comm]
    have hpos := mul_pow2_pos hden guess.toNat
    have hquot : num * pow2 (-guess).toNat / (den * pow2 guess.toNat) < pow2 f.fraction
        ↔ (num / den : ℚ) < 2 ^ (guess + f.fraction) := by
      rw [Nat.div_lt_iff_lt_mul hpos, hsplit, ← div_lt_iff₀ hpow, ← cast_div_pow2,
        div_lt_iff₀ (by exact_mod_cast hpos), pow2_eq f.fraction, ← Nat.cast_lt (α := ℚ)]
      push_cast
      rfl
    have hbelow : guess - 1 + f.fraction = (num.log2 : ℤ) - den.log2 - 1 := by
      simp only [guess]
      ring
    have habove : guess + f.fraction + 1 = (num.log2 : ℤ) - den.log2 + 1 := by
      simp only [guess]
      ring
    by_cases hsmall : (num / den : ℚ) < 2 ^ (guess + f.fraction)
    · have hq₀ : q₀ = guess - 1 := if_pos (hquot.2 hsmall)
      have hnext : guess - 1 + f.fraction + 1 = guess + f.fraction := by ring
      rw [hq₀, hnext, hbelow]
      exact ⟨hlow.le, hsmall⟩
    · have hq₀ : q₀ = guess := if_neg (mt hquot.1 hsmall)
      rw [hq₀, habove]
      exact ⟨le_of_not_gt hsmall, hhigh⟩
  refine ⟨max q₀ f.least, le_max_right _ _, ?_, ?_, ?_⟩
  · refine hbinade.2.trans_le (zpow_le_zpow_right₀ one_le_two ?_)
    have := le_max_left q₀ f.least
    omega
  · rcases le_total f.least q₀ with h | h
    · rw [max_eq_left h]
      exact .inr hbinade.1
    · exact .inl (max_eq_right h)
  · rw [nearest, if_neg hnum.ne']
    rfl

/-- The finite numbers of a format: the leading bit is there unless the exponent is the least. -/
structure Canonical (f : Format) (m : Nat) (q : ℤ) : Prop where
  mantissa : m < 2 ^ (f.fraction + 1)
  least : f.least ≤ q
  leading : q = f.least ∨ 2 ^ f.fraction ≤ m
  finite : (q - f.least).toNat * 2 ^ f.fraction + m < f.infinityBits

/-- A value lies between the halfway points around `m * 2 ^ q`, or on one of them if `m` is even.
Below a power of two the next smaller number is only half as far away. -/
def Within (f : Format) (m : Nat) (q : ℤ) (w : ℚ) : Prop :=
  let low : ℚ := if m = 2 ^ f.fraction ∧ f.least < q then m - 1 / 4 else m - 1 / 2
  (low < w / 2 ^ q ∧ w / 2 ^ q < m + 1 / 2)
    ∨ (m % 2 = 0 ∧ low ≤ w / 2 ^ q ∧ w / 2 ^ q ≤ m + 1 / 2)

theorem Within.bounds {w : ℚ} (h : f.Within m q w) :
    (m - 1 / 2 : ℚ) ≤ w / 2 ^ q ∧ w / 2 ^ q ≤ m + 1 / 2 := by
  unfold Within at h
  simp only [] at h
  split at h
  · obtain ⟨hlow, hhigh⟩ | ⟨-, hlow, hhigh⟩ := h <;> constructor <;> linarith
  · obtain ⟨hlow, hhigh⟩ | ⟨-, hlow, hhigh⟩ := h <;> constructor <;> linarith

theorem Within.roundsTo {w : ℚ} (h : f.Within m q w) : RoundsTo (w / 2 ^ q) m := by
  unfold Within at h
  simp only [] at h
  split at h
  · obtain ⟨hlow, hhigh⟩ | ⟨heven, hlow, hhigh⟩ := h
    · exact .inl ⟨by linarith, hhigh⟩
    · exact .inr ⟨heven, by linarith, hhigh⟩
  · exact h

/-- Just below a power of two, half of the last place leads to the power. -/
theorem Within.roundsTo_double {w : ℚ} (h : f.Within m q w) (hm : m = 2 ^ f.fraction)
    (hq : f.least < q) (hlow : w / 2 ^ q < m) : RoundsTo (w / 2 ^ (q - 1)) (2 * m) := by
  have hhalf : w / 2 ^ (q - 1) = 2 * (w / 2 ^ q) := by
    rw [zpow_sub_one₀ two_ne_zero]
    field_simp
  unfold Within at h
  simp only [if_pos (And.intro hm hq)] at h
  rw [RoundsTo, hhalf]
  refine .inr ⟨Nat.mul_mod_right 2 m, ?_, ?_⟩ <;> push_cast
  · obtain ⟨hlow, -⟩ | ⟨-, hlow, -⟩ := h <;> linarith
  · linarith

theorem zpow_binade (q k : ℤ) : (2 : ℚ) ^ (q + k) = 2 ^ k * 2 ^ q := by
  rw [zpow_add₀ two_ne_zero, mul_comm]

/-- Values around a number of the format do not reach beyond its binade. -/
theorem Within.lt_binade {w : ℚ} (h : f.Within m q w) (hc : f.Canonical m q) :
    w < 2 ^ (q + (f.fraction + 1)) := by
  have hpow : (0 : ℚ) < 2 ^ q := by positivity
  have hm : (m : ℚ) + 1 ≤ 2 ^ (f.fraction + 1) := by exact_mod_cast hc.mantissa
  have hhigh := h.bounds.2
  rw [zpow_binade, ← div_lt_iff₀ hpow, ← Nat.cast_add_one, zpow_natCast]
  linarith

/-- In a smaller binade there are only values just below a power of two. -/
theorem Within.eq_of_smaller {w : ℚ} (h : f.Within m q w) (hc : f.Canonical m q) {p : ℤ}
    (hp : f.least ≤ p) (hlt : p < q) (hbelow : w < 2 ^ (p + f.fraction + 1)) :
    m = 2 ^ f.fraction ∧ p = q - 1 ∧ w / 2 ^ q < m := by
  have hpow : (0 : ℚ) < 2 ^ q := by positivity
  have hone : (1 : ℚ) ≤ 2 ^ f.fraction := one_le_pow₀ one_le_two
  obtain ⟨hlow, -⟩ := h.bounds
  have hlead : 2 ^ f.fraction ≤ m := hc.leading.resolve_left (by omega)
  have hlead' : (2 : ℚ) ^ f.fraction ≤ m := by exact_mod_cast hlead
  have hbelow' : w / 2 ^ q < 2 ^ f.fraction := by
    have hexp : p + f.fraction + 1 ≤ q + f.fraction := by omega
    rw [div_lt_iff₀ hpow, ← zpow_natCast, ← zpow_binade]
    exact hbelow.trans_le (zpow_le_zpow_right₀ one_le_two hexp)
  refine ⟨?_, ?_, hbelow'.trans_le hlead'⟩
  · have hlt' : (m : ℚ) < 2 ^ f.fraction + 1 := by linarith
    have hle : m < 2 ^ f.fraction + 1 := by exact_mod_cast hlt'
    omega
  · have hhalf : (2 : ℚ) ^ (q + ((f.fraction : ℤ) - 1)) ≤ w := by
      rw [zpow_binade, ← le_div_iff₀ hpow, zpow_sub_one₀ two_ne_zero, zpow_natCast]
      linarith
    have := (zpow_lt_zpow_iff_right₀ one_lt_two).1 (hhalf.trans_lt hbelow)
    omega

/-- Values around a number of the format are rounded to it. -/
theorem nearest_of_within (hc : f.Canonical m q) (hnum : 0 < num) (hden : 0 < den)
    (h : f.Within m q (num / den)) :
    f.nearest num den = (q - f.least).toNat * 2 ^ f.fraction + m := by
  obtain ⟨p, hleast, hbelow, hbinade, hnearest⟩ := f.exists_nearest hnum hden
  generalize hw : (num / den : ℚ) = w at h hbelow hbinade
  have hle : p ≤ q := by
    by_contra hlt
    have hp := hbinade.resolve_left (by have := hc.least; omega)
    have := (zpow_lt_zpow_iff_right₀ one_lt_two).1 (hp.trans_lt (h.lt_binade hc))
    omega
  rcases hle.eq_or_lt with rfl | hlt
  · have hround := roundHalfEven_eq (mul_pow2_pos hden p.toNat)
      (by rw [cast_div_pow2, hw]; exact h.roundsTo)
    rw [hnearest, hround, min_eq_left hc.finite.le]
  · -- it is rounded up into the binade of the power, with twice the mantissa
    obtain ⟨hm, rfl, hlow⟩ := h.eq_of_smaller hc hleast hlt hbelow
    have hround := roundHalfEven_eq (mul_pow2_pos hden (q - 1).toNat) (by
      rw [cast_div_pow2, hw]
      exact h.roundsTo_double hm (by omega) hlow)
    have hsame : (q - 1 - f.least).toNat * 2 ^ f.fraction + 2 * m
        = (q - f.least).toNat * 2 ^ f.fraction + m := by
      rw [show (q - f.least).toNat = (q - 1 - f.least).toNat + 1 by omega, Nat.add_mul, hm]
      omega
    rw [hnearest, hround, hsame, min_eq_left hc.finite.le]

/-! ### Fields of patterns -/

/-- A pattern is its sign, its exponent and its fraction side by side. -/
theorem fields_eq {bits : Nat} (h : bits < 2 * f.signBit) :
    f.withSign (decide (f.signBit ≤ bits))
      (bits / 2 ^ f.fraction % 2 ^ f.exponent * 2 ^ f.fraction + bits % 2 ^ f.fraction)
      = bits := by
  have hsign : f.signBit = 2 ^ f.exponent * 2 ^ f.fraction := by
    rw [signBit, pow2_eq, Nat.pow_add, Nat.mul_comm]
  have hdiv := Nat.div_add_mod' bits (2 ^ f.fraction)
  have hlt : bits / 2 ^ f.fraction < 2 * 2 ^ f.exponent := by
    rw [Nat.div_lt_iff_lt_mul (Nat.two_pow_pos _), Nat.mul_assoc, ← hsign]
    exact h
  have hneg : f.signBit ≤ bits ↔ 2 ^ f.exponent ≤ bits / 2 ^ f.fraction := by
    rw [hsign, Nat.le_div_iff_mul_le (Nat.two_pow_pos _)]
  by_cases hle : 2 ^ f.exponent ≤ bits / 2 ^ f.fraction
  · rw [Nat.mod_eq_sub_mod hle, Nat.mod_eq_of_lt (by omega), withSign, decide_eq_true (hneg.2 hle),
      if_pos rfl, Nat.sub_mul, ← hsign]
    have := hneg.2 hle
    have := Nat.mul_le_mul_right (2 ^ f.fraction) hle
    omega
  · rw [Nat.mod_eq_of_lt (Nat.lt_of_not_le hle), withSign, decide_eq_false (mt hneg.1 hle), hdiv]
    rfl

/-- A finite number is one of the format, and its pattern is told by its parts. -/
theorem canonical_of_decode {bits : Nat} {negative : Bool} (h : bits < 2 * f.signBit)
    (hdecode : f.decode bits = .finite negative m q) : f.Canonical m q
      ∧ f.withSign negative ((q - f.least).toNat * 2 ^ f.fraction + m) = bits := by
  have hfields := fields_eq h
  have hexp := Nat.mod_lt (bits / 2 ^ f.fraction) (Nat.two_pow_pos f.exponent)
  have hfrac := Nat.mod_lt bits (Nat.two_pow_pos f.fraction)
  unfold decode at hdecode
  simp only [] at hdecode
  simp only [← pow2_eq] at hfields hexp hfrac ⊢
  generalize bits / pow2 f.fraction % pow2 f.exponent = e at *
  generalize bits % pow2 f.fraction = r at *
  simp only [pow2_eq] at hfields hexp hfrac ⊢
  have hpow : 2 ^ (f.fraction + 1) = 2 * 2 ^ f.fraction := Nat.pow_succ'
  have hfinite : ∀ n, n + 1 < 2 ^ f.exponent → n * 2 ^ f.fraction + r < f.infinityBits := by
    intro n hn
    have := Nat.mul_le_mul_right (2 ^ f.fraction) (show n + 1 ≤ 2 ^ f.exponent - 1 by omega)
    rw [Nat.succ_mul] at this
    exact (Nat.add_lt_add_left hfrac _).trans_le this
  split at hdecode
  · split at hdecode <;> cases hdecode
  rename_i htop
  rw [pow2_eq] at htop
  split at hdecode
  · rename_i hzero
    cases hdecode
    subst hzero
    have hinf := hfinite 0 (by omega)
    refine ⟨⟨by omega, le_refl _, .inl rfl, ?_⟩, ?_⟩
    · simpa using hinf
    · simpa using hfields
  · rename_i hne
    rw [pow2_eq] at hdecode
    cases hdecode
    have hinf := hfinite e (by omega)
    have hplace : (f.least + ((e : ℤ) - 1) - f.least).toNat * 2 ^ f.fraction + (r + 2 ^ f.fraction)
        = e * 2 ^ f.fraction + r := by
      obtain ⟨k, rfl⟩ := Nat.exists_eq_succ_of_ne_zero hne
      rw [show (f.least + (((k + 1 : Nat) : ℤ) - 1) - f.least).toNat = k by omega, Nat.succ_mul]
      omega
    refine ⟨⟨by omega, by omega, .inr (by omega), ?_⟩, ?_⟩
    · rw [hplace]
      exact hinf
    · rw [hplace]
      exact hfields

/-! ### Words that need their highest bit -/

/-- A word that needs all of its 64 bits keeps the leading ones. -/
theorem nearest_double_of_large {n : Nat} (hlow : 2 ^ 63 ≤ n) (hhigh : n < 2 ^ 64) :
    ∃ m, 2 ^ 52 ≤ m ∧ m ≤ 2 ^ 53 ∧ double.nearest n 1 = 1085 * 2 ^ 52 + m := by
  have hpos : 0 < n := by omega
  obtain ⟨q, -, hbelow, hbinade, hnearest⟩ := double.exists_nearest hpos Nat.one_pos
  have hvalue : ((n : ℚ) / (1 : Nat)) = n := by simp
  have hlow' : (2 : ℚ) ^ (63 : ℤ) ≤ n := by exact_mod_cast hlow
  have hhigh' : (n : ℚ) < 2 ^ (64 : ℤ) := by exact_mod_cast hhigh
  rw [hvalue] at hbelow hbinade
  have hfraction : (double.fraction : ℤ) = 52 := rfl
  have hleast : double.least = -1074 := rfl
  rw [hfraction] at hbelow hbinade
  have hq : q = 11 := by
    have := (zpow_lt_zpow_iff_right₀ one_lt_two).1 (hlow'.trans_lt hbelow)
    have := (zpow_lt_zpow_iff_right₀ one_lt_two).1
      ((hbinade.resolve_left (by omega)).trans_lt hhigh')
    omega
  subst hq
  obtain ⟨hm, hm'⟩ := roundHalfEven_bounds n (2 ^ 11)
  have hquot : 2 ^ 52 ≤ n / 2 ^ 11 ∧ n / 2 ^ 11 < 2 ^ 53 := by omega
  refine ⟨roundHalfEven n (2 ^ 11), by omega, by omega, ?_⟩
  have hone : n * pow2 (-11 : ℤ).toNat = n := Nat.mul_one n
  have htwo : 1 * pow2 (11 : ℤ).toNat = 2 ^ 11 := Nat.one_mul _
  rw [hnearest, hone, htwo, hleast]
  have hinf : double.infinityBits = 2047 * 2 ^ 52 := rfl
  have hexp : ((11 : ℤ) - -1074).toNat * 2 ^ double.fraction = 1085 * 2 ^ 52 := rfl
  rw [hexp, hinf]
  omega

/-- Patterns with this exponent are those of whole numbers from a word on. -/
theorem decode_double_of_large {m : Nat} (hlow : 2 ^ 52 ≤ m) (hhigh : m ≤ 2 ^ 53) :
    ∃ m' k : Nat, double.decode (1085 * 2 ^ 52 + m) = .finite false m' k
      ∧ 2 ^ 63 ≤ m' * 2 ^ k := by
  have hsign : ¬ double.signBit ≤ 1085 * 2 ^ 52 + m := by
    have : double.signBit = 2 ^ 63 := rfl
    omega
  have hfraction : pow2 double.fraction = 2 ^ 52 := rfl
  have hexponent : pow2 double.exponent = 2 ^ 11 := rfl
  have hleast : double.least = -1074 := rfl
  unfold decode
  simp only [hfraction, hexponent, hleast, decide_eq_false hsign]
  rcases hhigh.eq_or_lt with rfl | hlt
  · exact ⟨2 ^ 52, 12, by decide, by decide⟩
  · have hexp : (1085 * 2 ^ 52 + m) / 2 ^ 52 % 2 ^ 11 = 1086 := by omega
    have hmod : (1085 * 2 ^ 52 + m) % 2 ^ 52 + 2 ^ 52 = m := by omega
    refine ⟨m, 11, ?_, by omega⟩
    rw [hexp, if_neg (by decide), if_neg (by decide), hmod]
    rfl

end Format

end TreeAtlas.Decimal
