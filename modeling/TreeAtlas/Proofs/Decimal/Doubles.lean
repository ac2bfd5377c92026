import TreeAtlas.Decimal.Reading
import Mathlib

/-!
# Floating point numbers and their patterns

A number is finite exactly if the exponent field of its pattern is not full (`isFinite_iff`), and
such a pattern is the one of its number (`toBits_ofBits`).  So a literal with a finite pattern is
read as the number with this pattern (`toBits_toDouble`).  Numbers are compared by value, and the
two zeros are equal, but still in a way that is symmetric and transitive, and a finite number is
equal to itself (`beq_self_of_isFinite`).

The library is imported as a whole here, since its facts about the patterns of floats and about
their comparison come with no smaller part of it.
-/

namespace TreeAtlas

namespace Decimal

/-! ### Patterns -/

/-- The exponent field of a pattern is full. -/
theorem unpackExponent_eq_iff (bits : UInt64) :
    @Float.Model.UnpackedFloat.unpackExponent .binary64 bits.toBitVec = -1#_
      ↔ bits.toNat / 2 ^ 52 % 2 ^ 11 = 2 ^ 11 - 1 := by
  rw [← BitVec.toNat_inj, Float.Model.UnpackedFloat.unpackExponent, BitVec.toNat_cast,
    BitVec.extractLsb_toNat, Nat.shiftRight_eq_div_pow]
  exact Iff.rfl

/-- A number is finite if its exponent field is not full. -/
theorem isFinite_iff (x : Float) :
    x.isFinite = true ↔ x.toBits.toNat / 2 ^ 52 % 2 ^ 11 ≠ 2 ^ 11 - 1 := by
  let b : BitVec Float.Model.Format.binary64.numBits := x.toBits.toBitVec
  have hunpack : x.isFinite = (Float.Model.UnpackedFloat.unpack .binary64 b).isFinite := rfl
  rw [hunpack, Float.Model.UnpackedFloat.unpack, ne_eq, ← unpackExponent_eq_iff]
  by_cases hfull : Float.Model.UnpackedFloat.unpackExponent b = -1#_
  · simp only [b, hfull, if_true, not_true_eq_false, iff_false]
    split <;> exact Bool.false_ne_true
  · simp only [b, hfull, if_false, not_false_eq_true, iff_true]
    split
    · split <;> rfl
    · rfl

theorem isFinite_unpacked_eq_false_iff (x : Float.Model.UnpackedFloat) :
    x.isFinite = false ↔ x.isNaN = true ∨ x.isInf = true := by
  cases x with
  | infinity s => exact iff_of_true rfl (.inr rfl)
  | notANumber => exact iff_of_true rfl (.inl rfl)
  | zero s => exact iff_of_false nofun nofun
  | finite s m e h => exact iff_of_false nofun nofun

theorem isFinite_eq_false_iff (x : Float) :
    x.isFinite = false ↔ x.isNaN = true ∨ x.isInf = true :=
  isFinite_unpacked_eq_false_iff x.toModel.unpack

/-- The finite numbers are those with a finite pattern. -/
theorem isFinite_iff_decode (x : Float) :
    x.isFinite = true
      ↔ ∃ negative m q, Format.double.decode x.toBits.toNat = .finite negative m q := by
  rw [isFinite_iff, Format.decode]
  by_cases hfull : x.toBits.toNat / pow2 Format.double.fraction % pow2 Format.double.exponent
      = pow2 Format.double.exponent - 1
  · refine iff_of_false (fun h => h hfull) ?_
    rintro ⟨negative, m, q, h⟩
    rw [if_pos hfull] at h
    split at h <;> cases h
  · refine iff_of_true hfull ?_
    rw [if_neg hfull]
    split <;> exact ⟨_, _, _, rfl⟩

/-- A pattern that is not full is that of its number. -/
theorem toBits_ofBits {bits : UInt64} (h : bits.toNat / 2 ^ 52 % 2 ^ 11 ≠ 2 ^ 11 - 1) :
    (Float.ofBits bits).toBits = bits := by
  let x : Float := .ofModel ⟨bits, ⟨fun hfull => absurd ((unpackExponent_eq_iff bits).1 hfull) h⟩⟩
  have hx : x.toBits = bits := rfl
  rw [← hx, Float.ofBits_toBits]

/-! ### Literals -/

theorem toDouble_of_bits {x : Float} {literal : Literal}
    (h : literal.bits .double = x.toBits.toNat) : literal.toDouble = x := by
  rw [Literal.toDouble, h, UInt64.ofNat_toNat, Float.ofBits_toBits]

/-- A literal with a finite pattern is read as the number with this pattern. -/
theorem toBits_toDouble {literal : Literal} {bits : Nat} (h : literal.bits .double = bits)
    (hfinite : bits < Format.double.infinityBits) : literal.toDouble.toBits.toNat = bits := by
  have hinfinity : Format.double.infinityBits = 2047 * 2 ^ 52 := rfl
  have hpattern : (UInt64.ofNat bits).toNat = bits :=
    UInt64.toNat_ofNat_of_lt' (show bits < 2 ^ 64 by omega)
  rw [Literal.toDouble, h, toBits_ofBits, hpattern]
  rw [hpattern]
  omega

end Decimal

/-! ### Comparisons -/

instance partialEquivBEq_float : PartialEquivBEq Float where
  symm {x y} h := by
    rw [Float.beq_iff_ne_nan_and_eq] at h ⊢
    obtain ⟨hx, hy, rfl | ⟨rfl, rfl⟩ | ⟨rfl, rfl⟩⟩ := h
    · exact ⟨hx, hx, .inl rfl⟩
    · exact ⟨hy, hx, .inr (.inr ⟨rfl, rfl⟩)⟩
    · exact ⟨hy, hx, .inr (.inl ⟨rfl, rfl⟩)⟩
  trans {x y z} hxy hyz := by
    rw [Float.beq_iff_ne_nan_and_eq] at hxy hyz ⊢
    refine ⟨hxy.1, hyz.2.1, ?_⟩
    obtain ⟨-, -, rfl | ⟨rfl, rfl⟩ | ⟨rfl, rfl⟩⟩ := hxy
    · exact hyz.2.2
    · obtain ⟨-, -, rfl | ⟨-, rfl⟩ | ⟨-, rfl⟩⟩ := hyz
      · exact .inr (.inl ⟨rfl, rfl⟩)
      · exact .inr (.inl ⟨rfl, rfl⟩)
      · exact .inl rfl
    · obtain ⟨-, -, rfl | ⟨-, rfl⟩ | ⟨-, rfl⟩⟩ := hyz
      · exact .inr (.inr ⟨rfl, rfl⟩)
      · exact .inl rfl
      · exact .inr (.inr ⟨rfl, rfl⟩)

theorem Decimal.beq_self_of_isFinite {x : Float} (hx : x.isFinite = true) : (x == x) = true := by
  have hnan : x ≠ Float.nan := by
    rintro rfl
    revert hx
    decide
  exact Float.beq_self_iff.2 hnan

end TreeAtlas
