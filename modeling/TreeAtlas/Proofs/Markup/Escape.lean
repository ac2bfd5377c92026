import TreeAtlas.Markup.Escape

/-!
# Escaping and back

Escaping goes over the whole text once for each special character.  Because the ampersand goes
first, this comes to one pass that puts an entity for each special character (`escapeChars_eq`).  So
escaped text has none of the characters that end a run of data or a value
(`special_escapeChars`), its ampersands are those of entities (`ampersand_escapeChars`), and reading
the entities back gives the text (`unescapeChars_escapeChars`), so no two texts are escaped alike
(`escape_character_by_character`).
-/

namespace TreeAtlas.Markup

/-- What stands for a character in escaped text. -/
def entityOf (c : Char) : List Char :=
  if c = '&' then "&amp;".toList
  else if c = '<' then "&lt;".toList
  else if c = '>' then "&gt;".toList
  else if c = '"' then "&quot;".toList
  else if c = '\x27' then "&apos;".toList
  else [c]

/-- Reads entities back.  An ampersand that starts none of them stays. -/
def unescapeChars : List Char → List Char
  | '&' :: 'a' :: 'm' :: 'p' :: ';' :: cs => '&' :: unescapeChars cs
  | '&' :: 'l' :: 't' :: ';' :: cs => '<' :: unescapeChars cs
  | '&' :: 'g' :: 't' :: ';' :: cs => '>' :: unescapeChars cs
  | '&' :: 'q' :: 'u' :: 'o' :: 't' :: ';' :: cs => '"' :: unescapeChars cs
  | '&' :: 'a' :: 'p' :: 'o' :: 's' :: ';' :: cs => '\x27' :: unescapeChars cs
  | c :: cs => c :: unescapeChars cs
  | [] => []

theorem escapeChars_append (cs ds : List Char) :
    escapeChars (cs ++ ds) = escapeChars cs ++ escapeChars ds := by
  simp only [escapeChars, replaceChar, List.flatMap_append]

theorem escapeChars_singleton (c : Char) : escapeChars [c] = entityOf c := by
  unfold entityOf
  split
  · subst c; rfl
  split
  · subst c; rfl
  split
  · subst c; rfl
  split
  · subst c; rfl
  split
  · subst c; rfl
  · rename_i hamp hlt hgt hquot hapos
    simp only [escapeChars, replaceChar, List.flatMap_singleton, if_neg hamp, if_neg hlt,
      if_neg hgt, if_neg hquot, if_neg hapos]

theorem escapeChars_cons (c : Char) (cs : List Char) :
    escapeChars (c :: cs) = entityOf c ++ escapeChars cs := by
  rw [← escapeChars_singleton, ← escapeChars_append, List.singleton_append]

/-- Escaping puts an entity for each special character. -/
theorem escapeChars_eq (cs : List Char) : escapeChars cs = cs.flatMap entityOf := by
  induction cs with
  | nil => rfl
  | cons c cs ih => rw [escapeChars_cons, ih, List.flatMap_cons]

/-! ### Special characters -/

def specials : List Char := ['<', '>', '"', '\x27']

theorem special_entityOf (c : Char) : ∀ d ∈ entityOf c, d ∉ specials := by
  unfold entityOf
  split
  · simp [specials]
  split
  · simp [specials]
  split
  · simp [specials]
  split
  · simp [specials]
  split
  · simp [specials]
  · simp [specials, *]

/-- No special character but the ampersand is left. -/
theorem special_escapeChars (cs : List Char) : ∀ d ∈ escapeChars cs, d ∉ specials := by
  intro d hd
  rw [escapeChars_eq, List.mem_flatMap] at hd
  obtain ⟨c, -, hd⟩ := hd
  exact special_entityOf c d hd

/-! ### Reading back -/

theorem unescapeChars_cons {c : Char} (hc : c ≠ '&') (cs : List Char) :
    unescapeChars (c :: cs) = c :: unescapeChars cs := by
  rw [unescapeChars]
  all_goals exact fun _ h _ => hc h

theorem unescapeChars_append {cs : List Char} (h : '&' ∉ cs) (ds : List Char) :
    unescapeChars (cs ++ ds) = cs ++ unescapeChars ds := by
  induction cs with
  | nil => rfl
  | cons c cs ih =>
    rw [List.mem_cons, not_or] at h
    rw [List.cons_append, unescapeChars_cons (Ne.symm h.1), ih h.2, List.cons_append]

theorem unescapeChars_entityOf (c : Char) (cs : List Char) :
    unescapeChars (entityOf c ++ cs) = c :: unescapeChars cs := by
  unfold entityOf
  split
  · subst c; rfl
  split
  · subst c; rfl
  split
  · subst c; rfl
  split
  · subst c; rfl
  split
  · subst c; rfl
  · rename_i hamp _ _ _ _
    exact unescapeChars_cons hamp cs

theorem unescapeChars_escapeChars (cs : List Char) : unescapeChars (escapeChars cs) = cs := by
  induction cs with
  | nil => rfl
  | cons c cs ih => rw [escapeChars_cons, unescapeChars_entityOf, ih]

/-! ### Ampersands -/

def entities : List (List Char) :=
  ["&amp;", "&lt;", "&gt;", "&quot;", "&apos;"].map String.toList

/-- A character is special and stands as an entity, or it stays and is no ampersand. -/
theorem entityOf_cases (c : Char) :
    (entityOf c ∈ entities ∧ ∃ tail, entityOf c = '&' :: tail ∧ '&' ∉ tail)
      ∨ entityOf c = [c] ∧ c ≠ '&' := by
  have hentity : ∀ tail, '&' :: tail ∈ entities → '&' ∉ tail →
      '&' :: tail ∈ entities ∧ ∃ tail', '&' :: tail = '&' :: tail' ∧ '&' ∉ tail' :=
    fun tail hmem htail => ⟨hmem, tail, rfl, htail⟩
  unfold entityOf
  split
  · exact .inl (hentity "amp;".toList (by decide) (by decide))
  split
  · exact .inl (hentity "lt;".toList (by decide) (by decide))
  split
  · exact .inl (hentity "gt;".toList (by decide) (by decide))
  split
  · exact .inl (hentity "quot;".toList (by decide) (by decide))
  split
  · exact .inl (hentity "apos;".toList (by decide) (by decide))
  · rename_i hamp _ _ _ _
    exact .inr ⟨rfl, hamp⟩

/-- An ampersand in what stands for one character is the first of an entity. -/
theorem ampersand_entityOf {c : Char} {before after rest : List Char}
    (h : entityOf c ++ rest = before ++ '&' :: after) :
    (∃ entity ∈ entities, entity <+: '&' :: after)
      ∨ ∃ before', before = entityOf c ++ before' ∧ rest = before' ++ '&' :: after := by
  rcases List.append_eq_append_iff.1 h with ⟨more, hbefore, hrest⟩ | ⟨more, hentity, hrest⟩
  · exact .inr ⟨more, hbefore, hrest⟩
  · cases more with
    | nil =>
      rw [List.append_nil] at hentity
      exact .inr ⟨[], by rw [hentity, List.append_nil], hrest.symm⟩
    | cons d more =>
      rw [List.cons_append, List.cons.injEq] at hrest
      obtain ⟨rfl, rfl⟩ := hrest
      rcases entityOf_cases c with ⟨hmem, tail, htail, hnot⟩ | ⟨hself, hne⟩
      · cases before with
        | nil =>
          rw [List.nil_append] at hentity
          exact .inl ⟨_, hmem, hentity ▸ List.prefix_append ('&' :: more) rest⟩
        | cons b before =>
          rw [htail, List.cons_append, List.cons.injEq] at hentity
          exact absurd (hentity.2 ▸ by simp) hnot
      · cases before with
        | nil =>
          rw [hself, List.nil_append, List.cons.injEq] at hentity
          exact absurd hentity.1 hne
        | cons b before =>
          rw [hself] at hentity
          simp at hentity

theorem ampersand_escapeChars {cs before after : List Char}
    (h : escapeChars cs = before ++ '&' :: after) :
    ∃ entity ∈ entities, entity <+: '&' :: after := by
  induction cs generalizing before with
  | nil => simp [escapeChars_eq] at h
  | cons c cs ih =>
    rw [escapeChars_cons] at h
    rcases ampersand_entityOf h with hentity | ⟨before', -, hrest⟩
    · exact hentity
    · exact ih hrest

/-! ### Texts -/

def unescape (s : String) : String :=
  String.ofList (unescapeChars s.toList)

theorem unescape_escape (s : String) : unescape (escape s) = s := by
  rw [unescape, escape, String.toList_ofList, unescapeChars_escapeChars, String.ofList_toList]

/-- Escaping replaces each special character where it stands, also in a text that has entities
already.  What comes out has no special character but ampersands that start an entity, and it tells
the text. -/
theorem escape_character_by_character :
    (∀ s, (escape s).toList = s.toList.flatMap entityOf)
      ∧ (∀ s t, escape (s ++ t) = escape s ++ escape t)
      ∧ (∀ s, ∀ c ∈ ['<', '>', '"', '\x27'], c ∉ (escape s).toList)
      ∧ (∀ s before after, (escape s).toList = before ++ '&' :: after →
        ∃ entity ∈ entities, entity <+: '&' :: after)
      ∧ (∀ s, unescape (escape s) = s)
      ∧ Function.Injective escape := by
  refine ⟨fun s => ?_, fun s t => ?_, fun s c hc hmem => ?_, fun s before after h => ?_,
    unescape_escape, Function.LeftInverse.injective unescape_escape⟩
  · rw [escape, String.toList_ofList, escapeChars_eq]
  · simp only [escape, String.toList_append, escapeChars_append, String.ofList_append]
  · rw [escape, String.toList_ofList] at hmem
    exact special_escapeChars s.toList c hmem hc
  · rw [escape, String.toList_ofList] at h
    exact ampersand_escapeChars h

example : escape "a &lt; \"b\"" = "a &amp;lt; &quot;b&quot;" := by rfl

end TreeAtlas.Markup
