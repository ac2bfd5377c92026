import Mathlib.Data.List.Basic
import Mathlib.Tactic.Common
import TreeAtlas.Font.Measurer

/-!
# Advances that a face remembers

A face looks up the advances of the ASCII characters when it is made and those of other characters
when it meets them.  Whatever it has met, it gives a character the advance that the typeface alone
determines (`FontFace.Recalls.advance`), so a width is a sum over the characters of the text that
reads nothing but the typeface (`FontFace.Recalls.width`).

The table of the ASCII characters has no word for a missing advance and takes zero for it.  So an
ASCII character with the advance zero counts as one that the typeface does not have.  Widths are the
sums of the advances that the typeface gives exactly if no ASCII character has the advance zero
(`widths_of_typeface`), the line end apart, which is left out of the sum.
-/

namespace TreeAtlas

open FontFace

namespace Typeface

/-- The advance that counts for a character: an ASCII character does not have the advance zero. -/
def counted? (typeface : Typeface) (c : Char) : Option UInt16 :=
  if c.toNat < 128 then (lookUp typeface c).filter (0 < ·) else lookUp typeface c

/-- What a character adds to a width. -/
def contribution (typeface : Typeface) (size : Float32) (advance? : Option UInt16) : Float32 :=
  match advance? with
  | some units => singleOfNat units.toNat * (size / singleOfNat (max typeface.unitsPerEm 1))
  | none => size * averageRatio

/-- The sum from left to right of what the characters add, line ends apart. -/
def sum (typeface : Typeface) (advance? : Char → Option UInt16) (text : String)
    (size : Float32) : Float32 :=
  (text.toList.filter (· != '\n')).foldl
    (fun width c => width + typeface.contribution size (advance? c)) 0

/-- No character of the text is an ASCII character with the advance zero, line ends apart. -/
def Spaced (typeface : Typeface) (text : String) : Prop :=
  ∀ c ∈ text.toList, c ≠ '\n' → c.toNat < 128 → lookUp typeface c ≠ some 0

instance decidableSpaced (typeface : Typeface) (text : String) :
    Decidable (typeface.Spaced text) :=
  List.decidableBAll _ text.toList

variable {typeface : Typeface} {text : String}

theorem counted?_of_ne {c : Char} (h : c.toNat < 128 → lookUp typeface c ≠ some 0) :
    typeface.counted? c = lookUp typeface c := by
  unfold counted?
  split_ifs with hc
  · cases hfound : lookUp typeface c with
    | none => rfl
    | some units =>
      have hpos : 0 < units := by
        refine UInt16.pos_iff_ne_zero.2 ?_
        rintro rfl
        exact h hc hfound
      rw [Option.filter_some, if_pos (decide_eq_true hpos)]
  · rfl

/-- Where all ASCII characters have a width, the advances that count are those of the typeface. -/
theorem Spaced.sum_eq (h : typeface.Spaced text) (size : Float32) :
    typeface.sum typeface.counted? text size = typeface.sum (lookUp typeface) text size := by
  refine List.foldl_ext _ _ _ fun width c hc => ?_
  obtain ⟨hmem, hne⟩ := List.mem_filter.1 hc
  rw [counted?_of_ne (h c hmem (by simpa using hne))]

end Typeface

/-! ### What a face remembers -/

namespace FontFace

/-- All that a face remembers is what its typeface says. -/
structure Recalls (face : FontFace) (typeface : Typeface) : Prop where
  typeface_eq : face.typeface = typeface
  ascii_eq : face.ascii = (ofTypeface typeface).ascii
  others_eq : ∀ c found, face.others.lookup c = some found → found = lookUp typeface c

variable {face : FontFace} {typeface : Typeface}

theorem recalls_ofTypeface (typeface : Typeface) : (ofTypeface typeface).Recalls typeface where
  typeface_eq := rfl
  ascii_eq := rfl
  others_eq := nofun

/-- The table has a place for every ASCII character. -/
theorem getElem?_ascii (typeface : Typeface) {c : Char} (hc : c.toNat < 128) :
    (ofTypeface typeface).ascii[c.toNat]? = some ((lookUp typeface c).getD 0) := by
  simp [ofTypeface, hc]

theorem filter_getD_zero (found : Option UInt16) :
    (some (found.getD 0)).filter (0 < ·) = found.filter (0 < ·) := by
  cases found <;> rfl

/-- A face gives the advance that counts, and remembers nothing else than that. -/
theorem Recalls.advance (h : face.Recalls typeface) (c : Char) :
    (face.advance c).1 = typeface.counted? c ∧ (face.advance c).2.Recalls typeface := by
  unfold FontFace.advance Typeface.counted?
  split_ifs with hc
  · rw [h.ascii_eq, getElem?_ascii typeface hc]
    exact ⟨filter_getD_zero _, h⟩
  · cases hknown : face.others.lookup c with
    | some known => exact ⟨h.others_eq c known hknown, h⟩
    | none =>
      refine ⟨by rw [h.typeface_eq], h.typeface_eq, h.ascii_eq, fun d found hd => ?_⟩
      rw [List.lookup_cons, h.typeface_eq] at hd
      split at hd
      · rename_i heq
        rw [beq_iff_eq.1 heq]
        exact (Option.some.inj hd).symm
      · exact h.others_eq d found hd

theorem Recalls.extend (size : Float32) (cs : List Char) :
    ∀ {face : FontFace}, face.Recalls typeface → ∀ width : Float32,
      let extended := face.extend (size / singleOfNat (max typeface.unitsPerEm 1))
        (size * averageRatio) width cs
      extended.1 = (cs.filter (· != '\n')).foldl
          (fun width c => width + typeface.contribution size (typeface.counted? c)) width
        ∧ extended.2.Recalls typeface := by
  induction cs with
  | nil => exact fun h _ => ⟨rfl, h⟩
  | cons c cs ih =>
    intro face h width
    by_cases hc : c = '\n'
    · simp only [FontFace.extend, if_pos hc]
      rw [List.filter_cons_of_neg (by simp [hc])]
      exact ih h width
    · obtain ⟨hadvance, hkept⟩ := h.advance c
      simp only [FontFace.extend, if_neg hc, hadvance]
      rw [List.filter_cons_of_pos (by simpa using hc), List.foldl_cons]
      exact ih hkept _

/-- A width reads nothing but the typeface, and what is remembered stays true. -/
theorem Recalls.width (h : face.Recalls typeface) (text : String) (size : Float32) :
    (face.width text size).1 = singleMax (typeface.sum typeface.counted? text size) 0
      ∧ (face.width text size).2.Recalls typeface := by
  obtain ⟨hsum, hkept⟩ := Recalls.extend size text.toList h 0
  unfold FontFace.width
  simp only [h.typeface_eq]
  exact ⟨congrArg (singleMax · 0) hsum, hkept⟩

end FontFace

/-! ### Characters without width -/

section Zero

open Float.Model UnpackedFloat

/-- Nothing is added by what has no width, whatever it is scaled by. -/
theorem singleMax_zero_mul (scale : Float32) : singleMax (0 + 0 * scale) 0 = 0 := by
  let packed (u : UnpackedFloat) : Float32 := .ofModel (.pack u)
  have hmul : 0 * scale = packed (.mul .binary32 (.zero .positive) scale.toModel.unpack) := rfl
  have hnan : singleMax (0 + packed .notANumber) 0 = 0 := by decide +kernel
  have hzero : ∀ s, singleMax (0 + packed (.zero s)) 0 = 0 := fun s => by
    cases s <;> decide +kernel
  rw [hmul]
  cases scale.toModel.unpack with
  | infinity s => exact hnan
  | notANumber => exact hnan
  | zero s => exact hzero _
  | finite s m e h => exact hzero _

end Zero

namespace Typeface

variable {typeface : Typeface} {c : Char}

theorem sum_singleton (advance? : Char → Option UInt16) (hc : c ≠ '\n') (size : Float32) :
    typeface.sum advance? (String.singleton c) size
      = 0 + typeface.contribution size (advance? c) := by
  have hlist : (String.singleton c).toList.filter (· != '\n') = [c] := by
    rw [String.toList_singleton]
    exact List.filter_cons_of_pos (by simpa using hc)
  rw [sum, hlist]
  rfl

/-- An ASCII character with the advance zero is measured as one that is not there. -/
theorem width_of_zero (h : c.toNat < 128) (hc : c ≠ '\n') (hzero : lookUp typeface c = some 0) :
    singleMax (typeface.sum typeface.counted? (String.singleton c) 1) 0
      ≠ singleMax (typeface.sum (lookUp typeface) (String.singleton c) 1) 0 := by
  have hnone : typeface.counted? c = none := by
    rw [counted?, if_pos h, hzero]
    rfl
  have hplain : singleMax (typeface.sum (lookUp typeface) (String.singleton c) 1) 0 = 0 := by
    rw [sum_singleton _ hc, hzero]
    exact singleMax_zero_mul _
  have hfallback : singleMax (0 + 1 * averageRatio) 0 ≠ 0 := by
    decide +kernel
  rw [hplain, sum_singleton _ hc, hnone]
  exact hfallback

end Typeface

/-- Whatever a face remembers of its typeface, a width is the sum of the advances that count, which
are those of the typeface in a text without ASCII characters of the advance zero.  In all texts they
are exactly if the typeface has no such character. -/
theorem widths_of_typeface (typeface : Typeface) :
    (ofTypeface typeface).Recalls typeface
      ∧ (∀ face : FontFace, face.Recalls typeface → ∀ text size,
          (face.width text size).2.Recalls typeface
            ∧ (face.width text size).1 = singleMax (typeface.sum typeface.counted? text size) 0
            ∧ (typeface.Spaced text →
                (face.width text size).1 = singleMax (typeface.sum (lookUp typeface) text size) 0))
      ∧ ((∀ face : FontFace, face.Recalls typeface → ∀ text size,
            (face.width text size).1 = singleMax (typeface.sum (lookUp typeface) text size) 0)
          ↔ ∀ text, typeface.Spaced text) := by
  refine ⟨recalls_ofTypeface typeface, fun face h text size => ?_, fun h text c _ hc hascii => ?_,
    fun h face hface text size => ?_⟩
  · obtain ⟨hwidth, hkept⟩ := h.width text size
    refine ⟨hkept, hwidth, fun hspaced => ?_⟩
    rw [hwidth, hspaced.sum_eq]
  · intro hzero
    have hface := recalls_ofTypeface typeface
    refine Typeface.width_of_zero hascii hc hzero ?_
    rw [← (hface.width _ _).1, h _ hface]
  · rw [(hface.width text size).1, (h text).sum_eq]

/-- A face that has met an accented letter measures it again, and a capital in the next line. -/
theorem widths_of_accented :
    let face := ((ofTypeface .proportional).width "é" 12).2
    face.others = [('é', some 512)] ∧ Typeface.proportional.Spaced "é\nA"
      ∧ (face.width "é\nA" 10).1 = 11.12 := by
  intro face
  obtain ⟨hnew, hrecalls, -⟩ := widths_of_typeface .proportional
  have hface : face.Recalls .proportional := (hrecalls _ hnew "é" 12).1
  have hspaced : Typeface.proportional.Spaced "é\nA" := by
    decide +kernel
  refine ⟨by decide +kernel, hspaced, ?_⟩
  rw [(hrecalls face hface "é\nA" 10).2.2 hspaced]
  decide +kernel

/-- A number sign that has a glyph of no width is measured as if it had no glyph. -/
theorem width_of_numberSign :
    lookUp .proportional '#' = some 0
      ∧ ((ofTypeface .proportional).width "#" 10).1 = 10 * averageRatio
      ∧ singleMax (Typeface.proportional.sum (lookUp .proportional) "#" 10) 0 = 0
      ∧ 10 * averageRatio ≠ 0 := by
  decide +kernel

end TreeAtlas
