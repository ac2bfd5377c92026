import TreeAtlas.Proofs.Font.Advances
import TreeAtlas.Proofs.Text.Trimming

/-!
# Measuring does not depend on what was measured before

A measurer keeps what it found for a list of families under the text of the list without blanks at
its ends, and reads the list from the text as it stands.  Both texts name the same families
(`FontFamily.list_key`), so what is kept under a text is what the library answers for it
(`TextMeasurer.Sound`), together with a face that recalls the typeface.  One measurement keeps that,
answers with what the library and the typeface tell, and knows one text more, of which it reports
the first time that no typeface was found (`Sound.measure`).  From there a run is an induction on
the list of measurements (`Sound.measureAll`).
-/

namespace TreeAtlas

open Text

/-- Blanks around a list of families do not change which families it names. -/
theorem FontFamily.list_key (family : String) :
    FontFamily.list (TextMeasurer.key family) = FontFamily.list family := by
  have hpieces : (splitAt ',' (trim family.toList)).map trim
      = (splitAt ',' family.toList).map trim :=
    map_trim_splitAt_trim (by decide) family.toList
  have hquotes := congrArg (List.map fun piece => strip (· == '\x27') (strip (· == '"') piece))
    hpieces
  simp only [List.map_map, Function.comp_def] at hquotes
  unfold FontFamily.list TextMeasurer.key
  simp only [String.toList_ofList, hquotes]

/-- A text to be measured. -/
structure Measurement where
  text : String
  size : Float32
  family : String

namespace TextMeasurer

variable (lib : FontLibrary)

/-- Measures one text after another. -/
def measureAll (m : TextMeasurer) :
    List Measurement → Logged (List (Option Float32) × TextMeasurer)
  | [] => return ([], m)
  | c :: cs => do
    let (width, m) ← m.measure lib c.text c.size c.family
    let (widths, m) ← m.measureAll cs
    return (width :: widths, m)

/-- The text of a list of families was looked up before. -/
def Knows (m : TextMeasurer) (k : String) : Prop :=
  m.faces.lookup k ≠ none

instance decidableKnows (m : TextMeasurer) (k : String) : Decidable (m.Knows k) :=
  inferInstanceAs (Decidable (_ ≠ none))

/-- What is kept under a text is what the library answers for it. -/
def Sound (m : TextMeasurer) : Prop :=
  ∀ k known, m.faces.lookup k = some known →
    Option.Rel (fun typeface face => FontFace.Recalls face typeface)
      (lib.find? (FontFamily.list k)) known

/-- The width of a text, told without a measurer. -/
def told (c : Measurement) : Option Float32 :=
  (lib.find? (FontFamily.list c.family)).map fun typeface =>
    singleMax (typeface.sum typeface.counted? c.text c.size) 0

variable {lib} {m : TextMeasurer}

theorem sound_new : Sound lib {} :=
  nofun

/-! ### One measurement -/

theorem lookup_load (lib : FontLibrary) (m : TextMeasurer) (family : String) :
    ∃ known, (m.load lib family).value.faces.lookup (key family) = some known := by
  unfold load
  split
  · exact ⟨_, ‹_›⟩
  · exact ⟨_, List.lookup_cons_self⟩

theorem knows_load (m : TextMeasurer) (family k : String) :
    (m.load lib family).value.Knows k ↔ m.Knows k ∨ k = key family := by
  unfold load
  split
  · rename_i hknown
    refine ⟨.inl, ?_⟩
    rintro (hk | rfl)
    · exact hk
    · simp [Knows, hknown]
  · by_cases hk : k = key family
    · simp [Knows, hk]
    · simp [Knows, hk, List.lookup_cons, beq_false_of_ne hk]

theorem lines_load (lib : FontLibrary) (m : TextMeasurer) (family : String) :
    (m.load lib family).lines
      = if ¬ m.Knows (key family) ∧ lib.find? (FontFamily.list family) = none
        then [missingFontLine family] else [] := by
  unfold load
  split
  · rename_i hknown
    rw [if_neg (by simp [Knows, hknown])]
  · rename_i hnew
    have hnew : ¬ m.Knows (key family) := by simp [Knows, hnew]
    cases hfind : lib.find? (FontFamily.list family) with
    | none => rw [if_pos ⟨hnew, rfl⟩]; rfl
    | some typeface => rw [if_neg (by simp)]; rfl

theorem Sound.load (h : m.Sound lib) (family : String) : (m.load lib family).value.Sound lib := by
  unfold TextMeasurer.load
  split
  · exact h
  · intro k known hk
    rw [List.lookup_cons] at hk
    split at hk
    · rename_i heq
      rw [beq_iff_eq.1 heq, FontFamily.list_key, ← Option.some.inj hk]
      cases lib.find? (FontFamily.list family) with
      | none => exact .none
      | some typeface => exact .some (FontFace.recalls_ofTypeface typeface)
    · exact h k known hk

theorem lookup_remember (m : TextMeasurer) (family : String) (face : FontFace) (k : String) :
    (m.remember family face).faces.lookup k
      = if k = key family then (m.faces.lookup k).map fun _ => some face
        else m.faces.lookup k := by
  unfold remember
  induction m.faces with
  | nil => simp
  | cons entry faces ih =>
    obtain ⟨k', known⟩ := entry
    rw [List.map_cons, List.lookup_cons, List.lookup_cons, ih]
    by_cases hk : k = k'
    · subst hk
      split_ifs <;> simp
    · split_ifs <;> simp [beq_false_of_ne hk]

theorem knows_remember (m : TextMeasurer) (family : String) (face : FontFace) (k : String) :
    (m.remember family face).Knows k ↔ m.Knows k := by
  unfold Knows
  rw [lookup_remember]
  split_ifs <;> simp

theorem Sound.remember (h : m.Sound lib) {family : String} {typeface : Typeface} {face : FontFace}
    (hfind : lib.find? (FontFamily.list family) = some typeface) (hface : face.Recalls typeface) :
    (m.remember family face).Sound lib := by
  intro k known hk
  rw [lookup_remember] at hk
  split_ifs at hk with hkey
  · obtain ⟨-, -, rfl⟩ := Option.map_eq_some_iff.1 hk
    rw [hkey, FontFamily.list_key, hfind]
    exact .some hface
  · exact h k known hk

/-- A measurement answers with what is told without the measurer, and reports that there is no
typeface when the list of families is new. -/
theorem Sound.measure (h : m.Sound lib) (c : Measurement) :
    let measured := m.measure lib c.text c.size c.family
    measured.value.1 = told lib c
      ∧ measured.value.2.Sound lib
      ∧ (∀ k, measured.value.2.Knows k ↔ m.Knows k ∨ k = key c.family)
      ∧ measured.lines
        = if ¬ m.Knows (key c.family) ∧ lib.find? (FontFamily.list c.family) = none
          then [missingFontLine c.family] else [] := by
  obtain ⟨known, hknown⟩ := lookup_load lib m c.family
  have hsound := h.load c.family
  have hlines := lines_load lib m c.family
  have hrel := hsound _ _ hknown
  rw [FontFamily.list_key] at hrel
  unfold TextMeasurer.measure told
  simp only [Logged.value_bind, Logged.lines_bind, hknown, hlines]
  cases hfind : lib.find? (FontFamily.list c.family) with
  | none =>
    rw [hfind] at hrel
    cases hrel
    exact ⟨rfl, hsound, fun k => knows_load m c.family k, List.append_nil _⟩
  | some typeface =>
    rw [hfind] at hrel
    cases hrel with
    | some hface =>
      obtain ⟨hwidth, hkept⟩ := hface.width c.text c.size
      refine ⟨congrArg some hwidth, hsound.remember hfind hkept, fun k => ?_, List.append_nil _⟩
      exact (knows_remember _ _ _ k).trans (knows_load m c.family k)

/-! ### Runs -/

/-- The lists of families that are reported when these texts are measured: one for each text that is
new and has no typeface, blanks at its ends apart. -/
structure Reported (lib : FontLibrary) (m : TextMeasurer) (cs : List Measurement)
    (families : List String) : Prop where
  sublist : families.Sublist (cs.map Measurement.family)
  nodup : (families.map key).Nodup
  mem_iff : ∀ k, k ∈ families.map key
    ↔ ¬ m.Knows k ∧ k ∈ cs.map (fun c => key c.family) ∧ lib.find? (FontFamily.list k) = none

section Reported

variable {m' : TextMeasurer} {c : Measurement} {cs : List Measurement} {families : List String}

theorem Reported.cons_of_missing (h : Reported lib m' cs families)
    (hknows : ∀ k, m'.Knows k ↔ m.Knows k ∨ k = key c.family) (hnew : ¬ m.Knows (key c.family))
    (hnone : lib.find? (FontFamily.list c.family) = none) :
    Reported lib m (c :: cs) (c.family :: families) where
  sublist := h.sublist.cons_cons _
  nodup := by
    rw [List.map_cons, List.nodup_cons]
    exact ⟨fun hk => ((h.mem_iff _).1 hk).1 ((hknows _).2 (.inr rfl)), h.nodup⟩
  mem_iff k := by
    rw [List.map_cons, List.mem_cons, h.mem_iff, hknows, List.map_cons, List.mem_cons]
    constructor
    · rintro (rfl | ⟨hk, hcs, hfind⟩)
      · exact ⟨hnew, .inl rfl, by rw [FontFamily.list_key, hnone]⟩
      · exact ⟨fun hm => hk (.inl hm), .inr hcs, hfind⟩
    · rintro ⟨hk, hcs, hfind⟩
      by_cases hkey : k = key c.family
      · exact .inl hkey
      · exact .inr ⟨by simp [hk, hkey], hcs.resolve_left hkey, hfind⟩

theorem Reported.cons_of_settled (h : Reported lib m' cs families)
    (hknows : ∀ k, m'.Knows k ↔ m.Knows k ∨ k = key c.family)
    (hold : ¬ (¬ m.Knows (key c.family) ∧ lib.find? (FontFamily.list c.family) = none)) :
    Reported lib m (c :: cs) families where
  sublist := h.sublist.cons _
  nodup := h.nodup
  mem_iff k := by
    rw [h.mem_iff, hknows, List.map_cons, List.mem_cons]
    constructor
    · rintro ⟨hk, hcs, hfind⟩
      exact ⟨fun hm => hk (.inl hm), .inr hcs, hfind⟩
    · rintro ⟨hk, hcs, hfind⟩
      have hkey : k ≠ key c.family := by
        rintro rfl
        exact hold ⟨hk, by rw [← FontFamily.list_key, hfind]⟩
      exact ⟨by simp [hk, hkey], hcs.resolve_left hkey, hfind⟩

end Reported

/-- A run answers each measurement with what is told without the measurer, and reports once for each
new text of a list of families that there is no typeface for it. -/
theorem Sound.measureAll (cs : List Measurement) :
    ∀ {m : TextMeasurer}, m.Sound lib →
      (m.measureAll lib cs).value.1 = cs.map (told lib)
        ∧ ∃ families, (m.measureAll lib cs).lines = families.map missingFontLine
          ∧ Reported lib m cs families := by
  induction cs with
  | nil => exact fun _ => ⟨rfl, [], rfl, List.Sublist.slnil, List.nodup_nil, by simp⟩
  | cons c cs ih =>
    intro m h
    obtain ⟨hwidth, hsound, hknows, hlines⟩ := h.measure c
    obtain ⟨hwidths, families, hmore, hreported⟩ := ih hsound
    refine ⟨?_, ?_⟩
    · rw [List.map_cons, ← hwidth, ← hwidths]
      rfl
    have hall : (m.measureAll lib (c :: cs)).lines
        = (m.measure lib c.text c.size c.family).lines ++ families.map missingFontLine := by
      rw [← hmore, TextMeasurer.measureAll, Logged.lines_bind, Logged.lines_bind,
        Logged.lines_pure, List.append_nil]
    rw [hall, hlines]
    split_ifs with hmissing
    · exact ⟨c.family :: families, rfl,
        hreported.cons_of_missing hknows hmissing.1 hmissing.2⟩
    · exact ⟨families, rfl, hreported.cons_of_settled hknows hmissing⟩

/-- Each measurement of a run returns what it returns on a new measurer, which is the width in a new
face of the typeface that the library has for the families.  Over the whole run, each text of a list
of families for which there is no typeface, blanks at its ends apart, is reported once. -/
theorem measureAll_of_new (lib : FontLibrary) (cs : List Measurement) :
    let fresh (c : Measurement) := (measure {} lib c.text c.size c.family).value.1
    (measureAll lib {} cs).value.1 = cs.map fresh
      ∧ (∀ c, fresh c = (lib.find? (FontFamily.list c.family)).map fun typeface =>
          ((FontFace.ofTypeface typeface).width c.text c.size).1)
      ∧ ∃ families : List String,
        (measureAll lib {} cs).lines = families.map missingFontLine
          ∧ families.Sublist (cs.map Measurement.family)
          ∧ (families.map key).Nodup
          ∧ ∀ k, k ∈ families.map key
            ↔ k ∈ cs.map (fun c => key c.family) ∧ lib.find? (FontFamily.list k) = none := by
  intro fresh
  have hfresh : fresh = told lib := funext fun c => (sound_new.measure c).1
  obtain ⟨hwidths, families, hlines, hreported⟩ := (sound_new : Sound lib {}).measureAll cs
  refine ⟨hfresh ▸ hwidths, fun c => ?_, families, hlines, hreported.sublist, hreported.nodup,
    fun k => ?_⟩
  · rw [hfresh, told]
    refine congrArg (Option.map · _) (funext fun typeface => ?_)
    exact ((FontFace.recalls_ofTypeface typeface).width c.text c.size).1.symm
  · rw [hreported.mem_iff]
    exact and_iff_right fun hk => hk rfl

end TextMeasurer

end TreeAtlas
