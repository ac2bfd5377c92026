import TreeAtlas.Ast.NodeId
import TreeAtlas.Proofs.Decimal.Rereading

/-!
# Identifiers and their texts

A number is shown so that its text is read with its value (`integer?_toString`,
`numberOfText?_doubleData`).  But a text does not tell a floating point number with the value of a
signed word (`wholeOfFloat?_eq_some_iff`) from the word itself, and is read as the latter
(`ofText_display_whole`).  A whole number beyond the signed words is read as a floating point number
instead, which is rounded but still too large for those words (`ofText_display_large`).  All other
numbers are read back as they are (`ofText_display`).

The numbers that are read from texts are of this kind (`told_of_numberOfText?`), so reading what is
shown of an identifier that was read gives the identifier (`reading_of_texts`).
-/

namespace TreeAtlas

open Decimal

/-! ### Numbers as texts -/

theorem integer?_signed_toDigits (n : Nat) (negative : Bool) :
    integer? (signed negative (Nat.toDigits 10 n))
      = some (if negative then -(n : ℤ) else n) := by
  have hdigits := allDigits_toDigits n
  have hvalue := ofDigits_toDigits n
  obtain ⟨c, cs, hchars⟩ := List.exists_cons_of_ne_nil (Nat.toDigits_ne_nil (b := 10) (n := n))
  rw [hchars] at hdigits hvalue ⊢
  have hall : (c :: cs).all Char.isDigit = true := List.all_eq_true.2 hdigits
  rw [integer?, takeSign_signed (hdigits c List.mem_cons_self)]
  simp only []
  rw [if_neg (by simp [hall]), hvalue]

/-- A whole number is read back. -/
theorem integer?_toString (i : ℤ) : integer? (toString i).toList = some i := by
  cases i with
  | ofNat n =>
    have htext : (toString (Int.ofNat n)).toList = signed false (Nat.toDigits 10 n) :=
      String.toList_ofList
    rw [htext, integer?_signed_toDigits]
    rfl
  | negSucc n =>
    have htext : (toString (Int.negSucc n)).toList = signed true (Nat.toDigits 10 (n + 1)) := by
      change ("-" ++ String.ofList (Nat.toDigits 10 (n + 1))).toList = _
      rw [String.toList_append, String.toList_ofList]
      simp [signed]
    rw [htext, integer?_signed_toDigits]
    rfl

/-! ### Whole values -/

/-- The value of a floating point number is this whole number. -/
def IsWhole (x : Float) (i : ℤ) : Prop :=
  ∃ negative m q, Format.double.decode x.toBits.toNat = .finite negative m q
    ∧ (i : ℚ) = (if negative then -1 else 1) * (m * 2 ^ q)

theorem fitsWord_iff {i : ℤ} : fitsWord i = true ↔ -2 ^ 63 ≤ i ∧ i < 2 ^ 63 := by
  rw [fitsWord, Bool.and_eq_true, decide_eq_true_iff, decide_eq_true_iff]
  norm_num

/-- A whole number is its absolute value with a sign. -/
theorem intCast_eq_sign_mul_iff {negative : Bool} {i : ℤ} {v : ℚ} (hv : 0 ≤ v) :
    (i : ℚ) = (if negative then -1 else 1) * v
      ↔ ∃ n : Nat, (n : ℚ) = v ∧ i = if negative then -(n : ℤ) else n := by
  cases negative with
  | true =>
    simp only [if_true, neg_one_mul]
    constructor
    · intro h
      have hi : (0 : ℚ) ≤ (-i : ℤ) := by
        rw [Int.cast_neg, h, neg_neg]
        exact hv
      obtain ⟨n, hn⟩ := Int.eq_ofNat_of_zero_le (Int.cast_nonneg_iff.1 hi)
      refine ⟨n, ?_, (Int.neg_eq_comm.1 hn).symm⟩
      rw [← Int.cast_natCast, ← hn, Int.cast_neg, h, neg_neg]
    · rintro ⟨n, rfl, rfl⟩
      exact Int.cast_neg _
  | false =>
    simp only [Bool.false_eq_true, if_false, one_mul]
    constructor
    · rintro rfl
      obtain ⟨n, rfl⟩ := Int.eq_ofNat_of_zero_le (Int.cast_nonneg_iff.1 hv)
      exact ⟨n, rfl, rfl⟩
    · rintro ⟨n, rfl, rfl⟩
      rfl

namespace NodeId

/-- The whole value that is used of a number is its value, if that fits a signed word. -/
theorem wholeOfFloat?_eq_some_iff {x : Float} {i : ℤ} :
    wholeOfFloat? x = some i ↔ IsWhole x i ∧ -2 ^ 63 ≤ i ∧ i < 2 ^ 63 := by
  rw [← fitsWord_iff]
  unfold wholeOfFloat? IsWhole
  cases Format.double.decode x.toBits.toNat with
  | finite negative m q =>
    have hvalue : (0 : ℚ) ≤ m * 2 ^ q := by positivity
    simp only [Binary.finite.injEq]
    constructor
    · intro h
      obtain ⟨hmod, h⟩ := Option.ite_none_right_eq_some.1 h
      obtain ⟨hfits, h⟩ := Option.ite_none_right_eq_some.1 h
      cases h
      exact ⟨⟨negative, m, q, ⟨rfl, rfl, rfl⟩, (intCast_eq_sign_mul_iff hvalue).2
        ⟨_, (natCast_eq_mul_zpow_iff _ m q).2 ⟨hmod, rfl⟩, rfl⟩⟩, hfits⟩
    · rintro ⟨⟨_, _, _, ⟨rfl, rfl, rfl⟩, hi⟩, hfits⟩
      obtain ⟨n, hn, rfl⟩ := (intCast_eq_sign_mul_iff hvalue).1 hi
      obtain ⟨hmod, rfl⟩ := (natCast_eq_mul_zpow_iff n m q).1 hn
      rw [if_pos hmod, if_pos hfits]
  | _ => simp

theorem wholeOfFloat?_eq_none_iff {x : Float} :
    wholeOfFloat? x = none ↔ ∀ i, IsWhole x i → ¬ (-2 ^ 63 ≤ i ∧ i < 2 ^ 63) := by
  simp only [Option.eq_none_iff_forall_ne_some, ne_eq, wholeOfFloat?_eq_some_iff, not_and]

theorem fitsWord_of_wholeOfFloat? {x : Float} {i : ℤ} (h : wholeOfFloat? x = some i) :
    fitsWord i = true :=
  fitsWord_iff.2 (wholeOfFloat?_eq_some_iff.1 h).2

theorem ofInt?_of_fitsWord {i : ℤ} (h : fitsWord i = true) :
    ∃ hi, Json.Number.ofInt? i = some (.int i hi) := by
  have hi : Json.InRange i := by
    obtain ⟨hmin, hmax⟩ := fitsWord_iff.1 h
    exact ⟨hmin, hmax.trans (by decide)⟩
  exact ⟨hi, dif_pos hi⟩

theorem numberOfText?_toString {i : ℤ} (h : fitsWord i = true) :
    numberOfText? (toString i) = Json.Number.ofInt? i := by
  rw [numberOfText?, integer?_toString, Option.filter_some, if_pos h]

/-- The text of a floating point number is read as the number, or as its whole value. -/
theorem numberOfText?_doubleData {x : Float} (hx : x.isFinite = true) :
    numberOfText? (doubleData x)
      = (wholeOfFloat? x).elim (some (.float x hx)) Json.Number.ofInt? := by
  obtain ⟨hinteger, literal, hliteral, hvalue⟩ := reread_doubleData hx
  rw [numberOfText?, hinteger, Option.filter_none, hliteral]
  simp only [Option.bind_eq_bind, Option.bind_some, hvalue]
  cases wholeOfFloat? x with
  | some i => rfl
  | none => exact dif_pos hx

end NodeId

/-- A number that is told by its text: a whole number that fits a signed word, or a floating point
number whose value is not such a number. -/
def Json.Number.Told : Json.Number → Prop
  | .int i _ => -2 ^ 63 ≤ i ∧ i < 2 ^ 63
  | .float x _ => ∀ i, IsWhole x i → ¬ (-2 ^ 63 ≤ i ∧ i < 2 ^ 63)

/-- A number that is told by its text is read back. -/
theorem ofText_display {n : Json.Number} (h : n.Told) :
    NodeId.ofText (NodeId.number n).display = .number n := by
  have hnumber : NodeId.numberOfText? (NodeId.number n).display = some n := by
    cases n with
    | int i hi => exact (NodeId.numberOfText?_toString (fitsWord_iff.2 h)).trans (dif_pos hi)
    | float x hx =>
      have hwhole := NodeId.wholeOfFloat?_eq_none_iff.2 h
      rw [NodeId.display, Json.Number.write, NodeId.numberOfText?_doubleData hx, hwhole,
        Option.elim_none]
  rw [NodeId.ofText, hnumber]

/-- A floating point number with the value of a signed word is read as this value. -/
theorem ofText_display_whole {x : Float} (hx : x.isFinite = true) {i : ℤ} (h : IsWhole x i)
    (hfits : -2 ^ 63 ≤ i ∧ i < 2 ^ 63) :
    ∃ hi, NodeId.ofText (NodeId.number (.float x hx)).display = .number (.int i hi) := by
  have hwhole := NodeId.wholeOfFloat?_eq_some_iff.2 ⟨h, hfits⟩
  obtain ⟨hi, hint⟩ := NodeId.ofInt?_of_fitsWord (fitsWord_iff.2 hfits)
  refine ⟨hi, ?_⟩
  rw [NodeId.display, Json.Number.write, NodeId.ofText, NodeId.numberOfText?_doubleData hx, hwhole,
    Option.elim_some, hint]

/-! ### Identifiers that were read -/

namespace NodeId

/-- The whole number of 64 bits that a text is read as. -/
def word? (s : String) : Option ℤ :=
  (integer? s.toList).filter fitsWord

/-- The floating point number that a text is read as. -/
def double? (s : String) : Option Float :=
  (Literal.ofChars? s.toList).map Literal.toDouble

variable {s : String}

/-- The number of a text is a whole one where there is one of either kind. -/
theorem numberOfText?_eq (s : String) :
    numberOfText? s = match word? s with
      | some i => Json.Number.ofInt? i
      | none => (double? s).bind fun x =>
          (wholeOfFloat? x).elim (Json.Number.ofFloat? x) Json.Number.ofInt? := by
  unfold numberOfText? word? double?
  cases (integer? s.toList).filter fitsWord with
  | some i => rfl
  | none =>
    cases Literal.ofChars? s.toList with
    | none => rfl
    | some literal =>
      simp only [Option.bind_eq_bind, Option.bind_some, Option.map_some]
      cases wholeOfFloat? literal.toDouble <;> rfl

theorem fitsWord_of_word? {i : ℤ} (h : word? s = some i) : fitsWord i = true :=
  (Option.filter_eq_some_iff.1 h).2

/-- A number that is read is told by its text. -/
theorem told_of_numberOfText? {n : Json.Number} (h : numberOfText? s = some n) : n.Told := by
  have hint : ∀ {i : ℤ}, fitsWord i = true → Json.Number.ofInt? i = some n → n.Told := by
    intro i hfits hi
    obtain ⟨hrange, hsome⟩ := ofInt?_of_fitsWord hfits
    obtain rfl := Option.some.inj (hsome.symm.trans hi)
    exact fitsWord_iff.1 hfits
  rw [numberOfText?_eq] at h
  cases hword : word? s with
  | some i =>
    rw [hword] at h
    exact hint (fitsWord_of_word? hword) h
  | none =>
    rw [hword] at h
    obtain ⟨x, -, hx⟩ := Option.bind_eq_some_iff.1 h
    cases hwhole : wholeOfFloat? x with
    | some i =>
      rw [hwhole] at hx
      exact hint (fitsWord_of_wholeOfFloat? hwhole) hx
    | none =>
      rw [hwhole, Option.elim_none, Json.Number.ofFloat?] at hx
      split_ifs at hx
      cases hx
      exact wholeOfFloat?_eq_none_iff.1 hwhole

/-- A number without a finite value has no whole value either. -/
theorem wholeOfFloat?_of_not_finite {x : Float} (hx : x.isFinite = false) :
    wholeOfFloat? x = none := by
  refine wholeOfFloat?_eq_none_iff.2 fun i hi => ?_
  obtain ⟨negative, m, q, hdecode, -⟩ := hi
  rw [(isFinite_iff_decode x).2 ⟨_, _, _, hdecode⟩] at hx
  cases hx

/-- A floating point number makes no identifier exactly if it is not finite. -/
theorem elim_wholeOfFloat?_eq_none_iff (x : Float) :
    (wholeOfFloat? x).elim (Json.Number.ofFloat? x) Json.Number.ofInt? = none
      ↔ x.isFinite = false := by
  cases hwhole : wholeOfFloat? x with
  | some i =>
    obtain ⟨hrange, hsome⟩ := ofInt?_of_fitsWord (fitsWord_of_wholeOfFloat? hwhole)
    refine iff_of_false (by simp [hsome]) fun hx => ?_
    rw [wholeOfFloat?_of_not_finite hx] at hwhole
    cases hwhole
  | none => simp [Json.Number.ofFloat?]

theorem numberOfText?_eq_none_iff :
    numberOfText? s = none
      ↔ word? s = none ∧ (double? s = none ∨ ∃ x, double? s = some x ∧ x.isFinite = false) := by
  rw [numberOfText?_eq]
  cases hword : word? s with
  | some i =>
    obtain ⟨hrange, hsome⟩ := ofInt?_of_fitsWord (fitsWord_of_word? hword)
    simp [hsome]
  | none =>
    cases double? s with
    | none => simp
    | some x => simp [elim_wholeOfFloat?_eq_none_iff]

theorem ofText_eq_text_iff : ofText s = .text s ↔ numberOfText? s = none := by
  unfold ofText
  cases numberOfText? s <;> simp

end NodeId

/-! ### Words that need their highest bit -/

theorem NodeId.wholeOfFloat?_of_large {x : Float} {m k : Nat}
    (h : Format.double.decode x.toBits.toNat = .finite false m k) (hlarge : 2 ^ 63 ≤ m * 2 ^ k) :
    wholeOfFloat? x = none := by
  refine wholeOfFloat?_eq_none_iff.2 fun i hi hfits => ?_
  obtain ⟨negative, m', q, hdecode, hvalue⟩ := hi
  cases hdecode.symm.trans h
  rw [if_neg Bool.false_ne_true, one_mul, zpow_natCast] at hvalue
  have hvalue : i = (m * 2 ^ k : Nat) := by exact_mod_cast hvalue
  omega

/-- A whole number that needs all 64 bits is read as a floating point number that does so too. -/
theorem NodeId.exists_double?_of_large {n : Nat} (hlow : 2 ^ 63 ≤ n) (hhigh : n < 2 ^ 64) :
    ∃ x, double? (toString (n : ℤ)) = some x ∧ x.isFinite = true ∧ wholeOfFloat? x = none := by
  obtain ⟨m, hm, hm', hnearest⟩ := Format.nearest_double_of_large hlow hhigh
  obtain ⟨m', k, hdecode, hlarge⟩ := Format.decode_double_of_large hm hm'
  have hlength : (Nat.toDigits 10 n).length ≤ 400 :=
    ((Nat.length_toDigits_le_iff (by decide) (by decide)).2 (show n < 10 ^ 20 by omega)).trans
      (by decide)
  have hbits : (Literal.number false n 0).bits .double = 1085 * 2 ^ 52 + m := by
    have hone : pow10 (0 : ℤ).toNat = 1 := rfl
    simp only [Literal.bits, neg_zero, hone, Nat.mul_one]
    rw [if_neg (by omega), if_neg (by omega), hnearest, Format.withSign,
      if_neg Bool.false_ne_true]
  have hinfinity : Format.double.infinityBits = 2047 * 2 ^ 52 := rfl
  have htoBits := toBits_toDouble hbits (by omega)
  have htext : (toString (n : ℤ)).toList = Nat.toDigits 10 n := String.toList_ofList
  refine ⟨(Literal.number false n 0).toDouble, ?_, ?_, ?_⟩
  · rw [double?, htext, ofChars?_toDigits, Option.map_some]
  · refine (isFinite_iff_decode _).2 ⟨false, m', k, ?_⟩
    rw [htoBits, hdecode]
  · refine wholeOfFloat?_of_large ?_ hlarge
    rw [htoBits, hdecode]

/-- A whole number that needs all 64 bits is read as a floating point number. -/
theorem ofText_display_large {i : ℤ} (hi : Json.InRange i) (h : 2 ^ 63 ≤ i) :
    ∃ x hx, NodeId.ofText (NodeId.number (.int i hi)).display = .number (.float x hx) := by
  obtain ⟨n, rfl, hlow, hhigh⟩ : ∃ n : Nat, i = n ∧ 2 ^ 63 ≤ n ∧ n < 2 ^ 64 := by
    have hmax := hi.2
    rw [show ((UInt64.size : Nat) : ℤ) = 2 ^ 64 from rfl] at hmax
    exact ⟨i.toNat, by omega, by omega, by omega⟩
  obtain ⟨x, hdouble, hfinite, hwhole⟩ := NodeId.exists_double?_of_large hlow hhigh
  have hword : NodeId.word? (toString (n : ℤ)) = none := by
    have hfits : ¬ fitsWord (n : ℤ) = true := fun hfits => (fitsWord_iff.1 hfits).2.not_ge h
    rw [NodeId.word?, integer?_toString, Option.filter_some, if_neg hfits]
  have hnumber : NodeId.numberOfText? (toString (n : ℤ)) = some (.float x hfinite) := by
    rw [NodeId.numberOfText?_eq, hword, hdouble, Option.bind_some, hwhole, Option.elim_none]
    exact dif_pos hfinite
  refine ⟨x, hfinite, ?_⟩
  rw [NodeId.display, Json.Number.write, NodeId.ofText, hnumber]

/-! ### Readings -/

/-- What is shown of an identifier that was read is read as the identifier.  The text of a whole
number of 64 bits is read as that number, and a text is read as itself exactly if it is no such
number and is no floating point number either, or is one that is not finite. -/
theorem reading_of_texts :
    (∀ s, NodeId.ofText (NodeId.ofText s).display = NodeId.ofText s)
      ∧ (∀ v : Int64, ∃ h, NodeId.ofText (toString v) = .number (.int v.toInt h))
      ∧ ∀ s, NodeId.ofText s = .text s
        ↔ NodeId.word? s = none
          ∧ (NodeId.double? s = none
            ∨ ∃ x, NodeId.double? s = some x ∧ (x.isNaN = true ∨ x.isInf = true)) := by
  refine ⟨fun s => ?_, fun v => ?_, fun s => ?_⟩
  · cases hnumber : NodeId.numberOfText? s with
    | none =>
      have htext : NodeId.ofText s = .text s := NodeId.ofText_eq_text_iff.2 hnumber
      rw [htext]
      exact htext
    | some n =>
      have hread : NodeId.ofText s = .number n := by rw [NodeId.ofText, hnumber]
      rw [hread]
      exact ofText_display (NodeId.told_of_numberOfText? hnumber)
  · have hfits : -2 ^ 63 ≤ v.toInt ∧ v.toInt < 2 ^ 63 := ⟨v.le_toInt, v.toInt_lt⟩
    obtain ⟨hrange, -⟩ := NodeId.ofInt?_of_fitsWord (fitsWord_iff.2 hfits)
    exact ⟨hrange, ofText_display (n := .int v.toInt hrange) hfits⟩
  · simp only [NodeId.ofText_eq_text_iff, NodeId.numberOfText?_eq_none_iff, isFinite_eq_false_iff]

end TreeAtlas
