import TreeAtlas.Decimal.Notation

/-!
# Numerals

The characters of numbers in positional notation: digits, points and signs.  The class is closed
under what the notation does, so a text of numbers has none of the characters that a format gives a
meaning to.  A row of digits ends where something else stands (`AllDigits.takeWhile_append`).
-/

namespace TreeAtlas

/-- Characters that are all digits. -/
def AllDigits (cs : List Char) : Prop :=
  ∀ c ∈ cs, c.isDigit = true

theorem allDigits_toDigits (n : Nat) : AllDigits (Nat.toDigits 10 n) :=
  fun _ hc => Nat.isDigit_of_mem_toDigits (by decide) (by decide) hc

theorem allDigits_zeros (n : Nat) : AllDigits (List.replicate n '0') := by
  intro c hc
  obtain rfl := List.eq_of_mem_replicate hc
  decide

theorem AllDigits.append {cs ds : List Char} (hc : AllDigits cs) (hd : AllDigits ds) :
    AllDigits (cs ++ ds) :=
  List.forall_mem_append.2 ⟨hc, hd⟩

theorem AllDigits.takeWhile_append {cs : List Char} (h : AllDigits cs) (rest : List Char)
    (hrest : ∀ c ∈ rest.head?, c.isDigit = false) :
    (cs ++ rest).takeWhile Char.isDigit = cs ∧ (cs ++ rest).dropWhile Char.isDigit = rest := by
  rw [List.takeWhile_append_of_pos h, List.dropWhile_append_of_pos h]
  cases rest with
  | nil => simp
  | cons c rest =>
    have hc : c.isDigit = false := hrest c rfl
    simp [hc]

/-- Digits, points and signs. -/
def Numeral (cs : List Char) : Prop :=
  ∀ c ∈ cs, c.isDigit = true ∨ c = '.' ∨ c = '-'

theorem Numeral.append {cs ds : List Char} (hc : Numeral cs) (hd : Numeral ds) :
    Numeral (cs ++ ds) :=
  List.forall_mem_append.2 ⟨hc, hd⟩

theorem Numeral.cons {c : Char} {cs : List Char} (hc : c.isDigit = true ∨ c = '.' ∨ c = '-')
    (h : Numeral cs) : Numeral (c :: cs) :=
  List.forall_mem_cons.2 ⟨hc, h⟩

theorem numeral_nil : Numeral [] := by
  simp [Numeral]

theorem AllDigits.numeral {cs : List Char} (h : AllDigits cs) : Numeral cs :=
  fun c hc => .inl (h c hc)

theorem numeral_toDigits (n : Nat) : Numeral (Nat.toDigits 10 n) :=
  (allDigits_toDigits n).numeral

theorem numeral_replicate (n : Nat) : Numeral (List.replicate n '0') :=
  (allDigits_zeros n).numeral

theorem Numeral.signed {cs : List Char} (h : Numeral cs) (negative : Bool) :
    Numeral (Decimal.signed negative cs) := by
  cases negative with
  | false => exact h
  | true => exact h.cons (by decide)

theorem numeral_positional (d : Decimal.Digits) : Numeral d.positional := by
  have hchars : Numeral d.chars := numeral_toDigits d.digits
  unfold Decimal.Digits.positional
  split
  · exact hchars.append (numeral_replicate _)
  simp only []
  split
  · refine .append (fun c hc => hchars c (List.mem_of_mem_take hc)) ?_
    exact .cons (by decide) fun c hc => hchars c (List.mem_of_mem_drop hc)
  · exact .append (.cons (by decide) (.cons (by decide) (numeral_replicate _))) hchars

theorem numeral_digitChar (n : Nat) : (Nat.digitChar (n % 10)).isDigit = true := by
  rw [Nat.isDigit_digitChar, decide_eq_true_iff]
  omega

/-- Numerals with an exponent, whose mark and sign they may have too. -/
def Scientific (cs : List Char) : Prop :=
  ∀ c ∈ cs, (c.isDigit = true ∨ c = '.' ∨ c = '-') ∨ c = 'e' ∨ c = '+'

theorem Numeral.scientific {cs : List Char} (h : Numeral cs) : Scientific cs :=
  fun c hc => .inl (h c hc)

theorem Scientific.signed {cs : List Char} (h : Scientific cs) (negative : Bool) :
    Scientific (Decimal.signed negative cs) := by
  cases negative with
  | false => exact h
  | true => exact List.forall_mem_cons.2 ⟨by decide, h⟩

theorem scientific_scientific (d : Decimal.Digits) : Scientific d.scientific := by
  have hchars : Numeral d.chars := numeral_toDigits d.digits
  unfold Decimal.Digits.scientific
  simp only []
  refine List.forall_mem_append.2 ⟨Numeral.scientific ?_, ?_⟩
  · split
    · rename_i first second rest h
      rw [h] at hchars
      obtain ⟨hfirst, hrest⟩ := List.forall_mem_cons.1 hchars
      exact .cons hfirst (.cons (by decide) hrest)
    · exact hchars
  · refine List.forall_mem_cons.2 ⟨by decide, List.forall_mem_cons.2 ⟨?_, ?_⟩⟩
    · split <;> decide
    · exact (numeral_toDigits _).scientific

/-- Numbers of data files, or the word that stands for one that is not finite. -/
theorem doubleData_cases (x : Float) :
    doubleData x = "null" ∨ ∃ cs, Scientific cs ∧ doubleData x = String.ofList cs := by
  unfold doubleData Decimal.Format.dataText
  split
  · exact .inl rfl
  · exact .inl rfl
  · rename_i negative m q _
    refine .inr ⟨_, Scientific.signed ?_ negative, rfl⟩
    have hpoint : Numeral ['.', '0'] := .cons (by decide) (.cons (by decide) numeral_nil)
    split
    · exact (hpoint.cons (by decide)).scientific
    · unfold Decimal.DataNotation.write
      split
      · exact scientific_scientific _
      · split
        · exact ((numeral_positional _).append hpoint).scientific
        · exact (numeral_positional _).scientific

end TreeAtlas
