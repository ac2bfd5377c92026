import Mathlib.Data.List.Forall2
import Mathlib.Data.List.TakeWhile
import TreeAtlas.Text.Blank

/-!
# Trimming and splitting

Blanks at the ends of a text are blanks at the ends of its first and last piece, if the separator is
not blank itself.  So a text whose pieces are trimmed may as well have been trimmed before it was
split (`map_trim_splitAt_trim`).
-/

namespace TreeAtlas.Text

section Strip

variable {p : Char → Bool} {cs ds : List Char}

theorem strip_append_left (h : ∀ c ∈ ds, p c = true) : strip p (ds ++ cs) = strip p cs := by
  rw [strip, List.dropWhile_append_of_pos h, strip]

theorem strip_append_right (h : ∀ c ∈ ds, p c = true) : strip p (cs ++ ds) = strip p cs := by
  have hds : ds.dropWhile p = [] := List.dropWhile_eq_nil_iff.2 h
  rw [strip, strip, List.dropWhile_append]
  split_ifs with hcs
  · rw [hds, List.isEmpty_iff.1 hcs]
  · rw [List.reverse_append,
      List.dropWhile_append_of_pos fun c hc => h c (List.mem_reverse.1 hc)]

/-- Stripping drops what satisfies `p` in front and behind, and nothing else. -/
theorem exists_eq_append_strip (p : Char → Bool) (cs : List Char) :
    ∃ front back, (∀ c ∈ front, p c = true) ∧ (∀ c ∈ back, p c = true)
      ∧ cs = front ++ (strip p cs ++ back) := by
  refine ⟨cs.takeWhile p, ((cs.dropWhile p).reverse.takeWhile p).reverse,
    fun c hc => List.mem_takeWhile_imp hc,
    fun c hc => List.mem_takeWhile_imp (List.mem_reverse.1 hc), ?_⟩
  rw [strip, ← List.reverse_append, List.takeWhile_append_dropWhile, List.reverse_reverse,
    List.takeWhile_append_dropWhile]

end Strip

section Split

variable {sep : Char} {cs ds : List Char}

theorem splitAt_cons_self : splitAt sep (sep :: cs) = [] :: splitAt sep cs := by
  simp [splitAt]

theorem splitAt_cons_of_ne {c : Char} (h : c ≠ sep) :
    splitAt sep (c :: cs) = (splitAt sep cs).modifyHead (c :: ·) := by
  rw [splitAt, if_neg h]
  split
  · rename_i hnil
    exact absurd hnil (splitAt_ne_nil sep cs)
  · rename_i hcons
    rw [hcons]
    rfl

theorem splitAt_append_left (h : sep ∉ ds) :
    splitAt sep (ds ++ cs) = (splitAt sep cs).modifyHead (ds ++ ·) := by
  induction ds with
  | nil => exact (congrFun List.modifyHead_id _).symm
  | cons d ds ih =>
    obtain ⟨hd, hds⟩ := List.ne_and_not_mem_of_not_mem_cons h
    rw [List.cons_append, splitAt_cons_of_ne hd.symm, ih hds, List.modifyHead_modifyHead]
    rfl

/-- The pieces of a text, of which the last goes on if something is added to the text. -/
theorem splitAt_append_right (h : sep ∉ ds) :
    List.Forall₂ (fun piece longer => longer = piece ∨ longer = piece ++ ds)
      (splitAt sep cs) (splitAt sep (cs ++ ds)) := by
  induction cs with
  | nil =>
    rw [List.nil_append, ← List.append_nil ds, splitAt_append_left h]
    exact .cons (.inr rfl) .nil
  | cons c cs ih =>
    rw [List.cons_append]
    by_cases hc : c = sep
    · rw [hc, splitAt_cons_self, splitAt_cons_self]
      exact .cons (.inl rfl) ih
    · rw [splitAt_cons_of_ne hc, splitAt_cons_of_ne hc]
      revert ih
      generalize splitAt sep cs = pieces, splitAt sep (cs ++ ds) = longer
      intro ih
      cases ih with
      | nil => exact .nil
      | cons hpiece hmore =>
        exact .cons (hpiece.imp (congrArg (c :: ·)) (congrArg (c :: ·))) hmore

end Split

/-- Blanks around a text do not show in its trimmed pieces. -/
theorem map_trim_splitAt_trim {sep : Char} (hsep : isBlank sep = false) (cs : List Char) :
    (splitAt sep (trim cs)).map trim = (splitAt sep cs).map trim := by
  obtain ⟨front, back, hfront, hback, hcs⟩ := exists_eq_append_strip isBlank cs
  have hnot : ∀ {ds : List Char}, (∀ c ∈ ds, isBlank c = true) → sep ∉ ds := fun hds hmem => by
    rw [hds sep hmem] at hsep
    cases hsep
  have hbehind : (splitAt sep (trim cs)).map trim = (splitAt sep (trim cs ++ back)).map trim := by
    rw [← List.forall₂_eq_eq_eq, List.forall₂_map_left_iff, List.forall₂_map_right_iff]
    refine (splitAt_append_right (hnot hback)).imp ?_
    rintro piece longer (rfl | rfl)
    · rfl
    · exact (strip_append_right hback).symm
  have hbefore : (splitAt sep (front ++ (trim cs ++ back))).map trim
      = (splitAt sep (trim cs ++ back)).map trim := by
    rw [splitAt_append_left (hnot hfront)]
    cases splitAt sep (trim cs ++ back) with
    | nil => rfl
    | cons piece pieces => exact congrArg (· :: pieces.map trim) (strip_append_left hfront)
  conv_rhs => rw [hcs]
  exact hbehind.trans hbefore.symm

end TreeAtlas.Text
