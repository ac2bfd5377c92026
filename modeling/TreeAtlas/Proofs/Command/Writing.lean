import TreeAtlas.Command.Directory
import TreeAtlas.Proofs.Except
import Mathlib.Tactic.SplitIfs

/-!
# Writing in a directory

A file that is put at a place changes what lies there and nothing else, since all that is above the
place was a folder already (`entry_put_of_ne`).  A path that could be written leads through
folders, and the place of a file that was put is none of them.  So the path can be written as
before, and it leads to the same place (`writable_put`).
-/

namespace TreeAtlas.Command

namespace Directory

variable {d : Directory} {p q folder : Place} {contents : Contents} {path : String}

/-! ### Folders -/

theorem hasFolder_iff : d.hasFolder p = true ↔
    p <+: d.here ∨ p ∈ lastingFolders ∨ ∃ file ∈ d.files, p <+: file.1 ∧ p ≠ file.1 := by
  simp only [hasFolder, Bool.or_eq_true, List.isPrefixOf_iff_prefix, List.contains_iff_mem,
    List.any_eq_true, Bool.and_eq_true, decide_eq_true_eq, or_assoc]

/-- What is above a folder is one. -/
theorem hasFolder_above (h : d.hasFolder p = true) (hq : q <+: p) : d.hasFolder q = true := by
  rw [hasFolder_iff] at h ⊢
  rcases h with h | h | ⟨file, hfile, h, hne⟩
  · exact .inl (hq.trans h)
  · obtain ⟨name, rfl⟩ : ∃ name, p = [name] := by
      simp only [lastingFolders, List.mem_cons, List.not_mem_nil, or_false] at h
      rcases h with rfl | rfl | rfl | rfl | rfl | rfl | rfl | rfl <;> exact ⟨_, rfl⟩
    rcases List.prefix_cons_iff.1 hq with rfl | ⟨t, rfl, ht⟩
    · exact .inl List.nil_prefix
    · rw [List.prefix_nil.1 ht]
      exact .inr (.inl h)
  · refine .inr (.inr ⟨file, hfile, hq.trans h, ?_⟩)
    rintro rfl
    exact hne (h.eq_of_length_le hq.length_le)

/-- All that is above a place is a folder. -/
def Rooted (d : Directory) (p : Place) : Prop :=
  ∀ q, q <+: p → q ≠ p → d.hasFolder q = true

theorem rooted_of_hasFolder (h : d.hasFolder p = true) : d.Rooted p :=
  fun _ hq _ => hasFolder_above h hq

theorem rooted_follow (h : d.hasFolder folder = true) (name : String) :
    d.Rooted (folder.follow name) := by
  unfold Place.follow
  split_ifs
  · exact rooted_of_hasFolder h
  · exact rooted_of_hasFolder (hasFolder_above h (List.dropLast_prefix folder))
  · intro q hq hne
    rcases List.prefix_concat_iff.1 hq with rfl | hq
    · exact absurd rfl hne
    · exact hasFolder_above h hq

/-! ### Places of paths -/

theorem enter_eq_ok_iff {name : String} : d.enter folder name = .ok p ↔
    folder.follow name = p ∧ d.entry? p = some .folder := by
  unfold enter
  simp only []
  constructor
  · intro h
    split at h
    · rename_i hentry
      cases h
      exact ⟨rfl, hentry⟩
    · cases h
    · cases h
  · rintro ⟨rfl, hentry⟩
    rw [hentry]

theorem hasFolder_of_entry (h : d.entry? p = some .folder) : d.hasFolder p = true := by
  unfold entry? at h
  split at h
  · cases h
  · split_ifs at h with hfolder
    exact hfolder

theorem hasFolder_of_enters {names : List String} (h : names.foldlM d.enter folder = .ok p)
    (hfolder : d.hasFolder folder = true) : d.hasFolder p = true := by
  induction names generalizing folder with
  | nil =>
    cases h
    exact hfolder
  | cons name names ih =>
    rw [List.foldlM_cons] at h
    obtain ⟨next, hnext, h⟩ := exists_of_bind_eq_ok h
    exact ih h (hasFolder_of_entry (enter_eq_ok_iff.1 hnext).2)

theorem hasFolder_start (path : Path) : d.hasFolder (path.start d.here) = true := by
  rw [hasFolder_iff, Path.start]
  split_ifs
  · exact .inl List.nil_prefix
  · exact .inl List.prefix_rfl

/-- The names of a path but the last lead through folders. -/
theorem locate_eq_ok_iff : d.locate path = .ok p ↔
    path ≠ "" ∧ ¬ longestPath < path.utf8ByteSize
      ∧ ∃ folder, (Path.ofText path).names.dropLast.foldlM d.enter
          ((Path.ofText path).start d.here) = .ok folder
        ∧ (match (Path.ofText path).names.getLast? with
          | some name => folder.follow name
          | none => folder) = p := by
  unfold locate
  by_cases hempty : path = ""
  · rw [if_pos hempty]
    exact ⟨nofun, fun h => absurd hempty h.1⟩
  · by_cases hlong : longestPath < path.utf8ByteSize
    · rw [if_neg hempty, if_pos hlong]
      exact ⟨nofun, fun h => absurd hlong h.2.1⟩
    · rw [if_neg hempty, if_neg hlong]
      constructor
      · intro h
        obtain ⟨folder, hfolder, h⟩ := exists_of_bind_eq_ok h
        exact ⟨hempty, hlong, folder, hfolder, Except.ok.inj h⟩
      · rintro ⟨-, -, folder, hfolder, rfl⟩
        simp only [hfolder]
        rfl

theorem rooted_of_locate (h : d.locate path = .ok p) : d.Rooted p := by
  obtain ⟨-, -, folder, hfolder, rfl⟩ := locate_eq_ok_iff.1 h
  have hfolder := hasFolder_of_enters hfolder (hasFolder_start _)
  split
  · exact rooted_follow hfolder _
  · exact rooted_of_hasFolder hfolder

/-- What may lie at a place that is written. -/
def Free (d : Directory) (p : Place) : Prop :=
  match d.entry? p with
  | some .folder => False
  | some (.file _) => True
  | none => p.absence = .missing

/-- A path that can be written leads to a place where it can be. -/
theorem writable_eq_ok_iff : d.writable path = .ok p ↔
    d.locate path = .ok p ∧ (Path.ofText path).asksFolder = false ∧ d.Free p := by
  unfold writable Free
  cases hlocate : d.locate path with
  | error e => simp [bind, Except.bind]
  | ok place =>
    rw [Except.ok.injEq]
    simp only [bind, Except.bind]
    by_cases hasks : (Path.ofText path).asksFolder = true
    · rw [if_pos hasks, hasks]
      simp
    · rw [if_neg hasks, Bool.eq_false_iff.2 hasks]
      cases hentry : d.entry? place with
      | none =>
        simp only []
        constructor
        · intro h
          split_ifs at h with habsence
          cases h
          rw [hentry]
          exact ⟨rfl, trivial, habsence⟩
        · rintro ⟨rfl, -, h⟩
          rw [hentry] at h
          rw [if_pos h]
      | some entry =>
        cases entry with
        | folder =>
          constructor
          · intro h
            cases h
          · rintro ⟨rfl, -, h⟩
            rw [hentry] at h
            exact h.elim
        | file _ =>
          simp only [Except.ok.injEq]
          constructor
          · rintro rfl
            rw [hentry]
            exact ⟨rfl, trivial, trivial⟩
          · exact fun h => h.1

/-! ### What is put -/

section Put

variable {target : Place}

theorem hasFolder_put (h : d.hasFolder p = true) : (d.put target contents).hasFolder p = true := by
  rw [hasFolder_iff] at h ⊢
  refine h.imp_right (.imp_right ?_)
  rintro ⟨file, hfile, h⟩
  exact ⟨file, List.mem_cons_of_mem _ hfile, h⟩

theorem entry_put_self : entry? (d.put target contents) target = some (.file contents) := by
  simp [put, entry?]

theorem lookup_put_of_ne (hne : p ≠ target) :
    (d.put target contents).files.lookup p = d.files.lookup p := by
  rw [put, List.lookup_cons, beq_false_of_ne hne]

/-- Elsewhere there is what there was, as what is above the place was there before. -/
theorem entry_put_of_ne (hroot : d.Rooted target) (hne : p ≠ target) :
    entry? (d.put target contents) p = d.entry? p := by
  have hfolder : (d.put target contents).hasFolder p = d.hasFolder p := by
    rw [Bool.eq_iff_iff]
    refine ⟨fun h => ?_, hasFolder_put⟩
    rw [hasFolder_iff] at h
    rcases h with h | h | ⟨file, hfile, h⟩
    · exact hasFolder_iff.2 (.inl h)
    · exact hasFolder_iff.2 (.inr (.inl h))
    · rcases List.mem_cons.1 hfile with rfl | hfile
      · exact hroot p h.1 h.2
      · exact hasFolder_iff.2 (.inr (.inr ⟨file, hfile, h⟩))
  unfold entry?
  rw [lookup_put_of_ne hne, hfolder]

theorem enters_put {names : List String} (hroot : d.Rooted target)
    (htarget : d.Free target) (h : names.foldlM d.enter folder = .ok p) :
    names.foldlM (d.put target contents).enter folder = .ok p := by
  induction names generalizing folder with
  | nil => exact h
  | cons name names ih =>
    rw [List.foldlM_cons] at h ⊢
    obtain ⟨next, hnext, h⟩ := exists_of_bind_eq_ok h
    obtain ⟨hfollow, hentry⟩ := enter_eq_ok_iff.1 hnext
    have hne : next ≠ target := by
      rintro rfl
      rwa [Free, hentry] at htarget
    have hstays : (d.put target contents).enter folder name = .ok next :=
      enter_eq_ok_iff.2 ⟨hfollow, by rwa [entry_put_of_ne hroot hne]⟩
    rw [hstays]
    exact ih h

/-- What could be written can be written after another file was, at the same place. -/
theorem writable_put {path' : String} (h : d.writable path = .ok p)
    (htarget : d.writable path' = .ok target) :
    (d.put target contents).writable path = .ok p := by
  rw [writable_eq_ok_iff] at h htarget ⊢
  obtain ⟨hlocate, hasks, hfree⟩ := h
  have hroot := rooted_of_locate htarget.1
  obtain ⟨hempty, hlong, folder, hfolder, hp⟩ := locate_eq_ok_iff.1 hlocate
  refine ⟨locate_eq_ok_iff.2 ⟨hempty, hlong, folder, enters_put hroot htarget.2.2 hfolder, hp⟩,
    hasks, ?_⟩
  by_cases hne : p = target
  · rw [hne, Free, entry_put_self]
    trivial
  · rwa [Free, entry_put_of_ne hroot hne]

end Put

end Directory

end TreeAtlas.Command
