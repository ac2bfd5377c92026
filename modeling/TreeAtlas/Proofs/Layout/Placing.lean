import TreeAtlas.Layout.Outline
import TreeAtlas.Proofs.Layout.Acceptance
import TreeAtlas.Proofs.Layout.Counting

/-!
# What the layouts place

Both layouts fold over the visits of the walk and place one item for each.  Nothing can fail there:
the visits come from a walk that succeeded, so their nodes are in the array and sound, and a counter
answers for a sound node.  So each layout fails exactly where the walk does, with its error, and
otherwise its items show the visits in order (`Bubble.Shows`, `OutlineRow.Shows`).
-/

namespace TreeAtlas

/-! ### Visited nodes -/

theorem Ast.Unfolds.reaches_of_visits {ast : Ast} {rs : List NodeRef} {f : Forest NodeRef}
    (h : ast.Unfolds rs f) {depth slot : Nat} {parent : Option Nat} {v : Visit}
    (hv : v ∈ f.visits depth parent slot) : ∃ r ∈ rs, ast.Reaches r v.node := by
  induction h generalizing depth slot parent with
  | nil => cases hv
  | @cons r rs node below rest here _ _ ihb ihr =>
    simp only [Forest.visits, List.mem_cons, List.mem_append] at hv
    rcases hv with rfl | hv | hv
    · exact ⟨r, List.mem_cons_self, .refl⟩
    · obtain ⟨k, hk, hreach⟩ := ihb hv
      rw [← kids_of_get? here] at hk
      exact ⟨r, List.mem_cons_self, .head hk hreach⟩
    · obtain ⟨k, hk, hreach⟩ := ihr hv
      exact ⟨k, List.mem_cons_of_mem _ hk, hreach⟩

/-- What a walk visits is sound. -/
theorem sound_of_preorder {ast : Ast} {maxDepth maxNodes : Nat} {visits : Array Visit}
    (h : preorder ast maxDepth maxNodes = .ok visits) {v : Visit} (hv : v ∈ visits.toList) :
    ast.Sound v.node := by
  obtain ⟨f, hf, -, -, hvisits⟩ := preorder_ok h
  rw [hvisits] at hv
  obtain ⟨r, hr, hreach⟩ := hf.reaches_of_visits hv
  exact (hf.sound r hr).of_reaches hreach

/-! ### Placing one item for each visit -/

/-- Where each visit adds an item to a good state and leaves it good, so do all of them. -/
theorem foldlM_places {σ β ε : Type} (place : σ → Visit → Except ε σ) (items : σ → Array β)
    (Good : σ → Prop) (Shows : β → Visit → Prop) {vs : List Visit}
    (hplace : ∀ p v, v ∈ vs → Good p →
      ∃ p' b, place p v = .ok p' ∧ Good p' ∧ items p' = (items p).push b ∧ Shows b v)
    {p : σ} (hp : Good p) :
    ∃ p' bs, vs.foldlM place p = .ok p' ∧ (items p').toList = (items p).toList ++ bs
      ∧ List.Forall₂ Shows bs vs := by
  induction vs generalizing p with
  | nil => exact ⟨p, [], rfl, by simp, .nil⟩
  | cons v vs ih =>
    obtain ⟨p₁, b, hp₁, hgood, hitems, hshows⟩ := hplace p v List.mem_cons_self hp
    obtain ⟨p₂, bs, hp₂, hitems₂, hall⟩ :=
      ih (fun p u hu => hplace p u (List.mem_cons_of_mem _ hu)) hgood
    refine ⟨p₂, b :: bs, ?_, ?_, .cons hshows hall⟩
    · rw [List.foldlM_cons, hp₁]
      exact hp₂
    · rw [hitems₂, hitems, Array.toList_push, List.append_assoc, List.singleton_append]

/-- What each step keeps is kept by all of them. -/
theorem foldlM_keeps {σ α ε : Type} {f : σ → α → Except ε σ} {P : σ → Prop}
    (h : ∀ s a s', P s → f s a = .ok s' → P s') {as : List α} {s s' : σ} (hs : P s)
    (hf : as.foldlM f s = .ok s') : P s' := by
  induction as generalizing s with
  | nil =>
    cases hf
    exact hs
  | cons a as ih =>
    rw [List.foldlM_cons] at hf
    cases ha : f s a with
    | error e =>
      rw [ha] at hf
      cases hf
    | ok t =>
      rw [ha] at hf
      exact ih (h s a t hs ha) hf

/-- What two lists show is the same if it is the same place by place. -/
theorem map_eq_map_of_forall₂ {α β γ : Type} {R : α → β → Prop} {f : α → γ} {g : β → γ}
    {as : List α} {bs : List β} (h : List.Forall₂ R as bs) (hR : ∀ a b, R a b → f a = g b) :
    as.map f = bs.map g := by
  induction h with
  | nil => rfl
  | cons hab _ ih => rw [List.map_cons, List.map_cons, hR _ _ hab, ih]

/-- Two lists that go with a third one show the same if they do so place by place. -/
theorem map_eq_map_of_forall₂_forall₂ {α α' β γ : Type} {R : α → β → Prop} {S : α' → β → Prop}
    {f : α → γ} {g : α' → γ} {as : List α} {as' : List α'} {bs : List β}
    (h : List.Forall₂ R as bs) (h' : List.Forall₂ S as' bs)
    (hfg : ∀ a a' b, R a b → S a' b → f a = g a') : as.map f = as'.map g := by
  induction h generalizing as' with
  | nil =>
    cases h'
    rfl
  | cons hab _ ih =>
    cases h' with
    | cons hab' h' => rw [List.map_cons, List.map_cons, hfg _ _ _ hab hab', ih h']

theorem exists_of_forall₂ {α β : Type} {R : α → β → Prop} {as : List α} {bs : List β}
    (h : List.Forall₂ R as bs) {i : Nat} {a : α} (ha : as[i]? = some a) :
    ∃ b, bs[i]? = some b ∧ R a b := by
  induction h generalizing i with
  | nil => cases ha
  | cons hab _ ih =>
    cases i with
    | zero =>
      cases ha
      exact ⟨_, rfl, hab⟩
    | succ i => exact ih ha

/-- A circle for a visit. -/
def Bubble.Shows (ast : Ast) (b : Bubble) (v : Visit) : Prop :=
  b.node = v.node ∧ b.depth = v.depth
    ∧ ∃ node, ast.get? v.node = some node ∧ b.id = node.id ∧ b.label = node.label

/-- A circle for a visit that is as large as what is below its node. -/
def Bubble.Grows (ast : Ast) (config : LayoutConfig) (b : Bubble) (v : Visit) : Prop :=
  b.Shows ast v ∧ ∃ below, ast.Unfolds (ast.kids v.node) below
    ∧ b.r = nodeRadius config (min below.size DescendantCounter.cap)

/-- A row for a visit. -/
def OutlineRow.Shows (ast : Ast) (showIds : Bool) (row : OutlineRow) (v : Visit) : Prop :=
  row.node = v.node ∧ row.depth = v.depth
    ∧ ∃ node, ast.get? v.node = some node ∧ row.id = node.id
      ∧ row.text = rowText node.label node.id showIds ∧ row.childCount = node.children.length

theorem Placing.place_ok {ast : Ast} {config : LayoutConfig} {p : Placing} {v : Visit}
    (hv : ast.Sound v.node) (hp : p.counter.Exact ast) :
    ∃ p' b, p.place ast config v = .ok p' ∧ p'.counter.Exact ast
      ∧ p'.bubbles = p.bubbles.push b ∧ b.Grows ast config v := by
  obtain ⟨node, hn⟩ := Ast.contains_iff.1 hv.contains
  obtain ⟨hexact, hcount⟩ := hp.count v.node
  rcases hcount with ⟨below, -, hb, hc⟩ | ⟨e, hunsound, -⟩
  · rcases hq : p.counter.count ast v.node with ⟨c, answer⟩
    rw [hq] at hexact hc
    obtain rfl : answer = _ := hc
    simp only [place, hn, hq]
    exact ⟨_, _, rfl, hexact, rfl, ⟨rfl, rfl, node, hn, rfl, rfl⟩, below, hb, rfl⟩
  · exact absurd hv hunsound

theorem RowPlacing.place_ok (lib : FontLibrary) {ast : Ast} (config : TreeConfig)
    (family : String) (p : RowPlacing) {v : Visit} (hv : ast.Sound v.node) :
    ∃ p' row, p.place lib ast config family v = .ok p' ∧ p'.rows = p.rows.push row
      ∧ row.Shows ast config.showIds v := by
  obtain ⟨node, hn⟩ := Ast.contains_iff.1 hv.contains
  simp only [place, hn]
  exact ⟨_, _, rfl, rfl, rfl, rfl, node, hn, rfl, rfl, rfl⟩

/-! ### The layouts -/

section Layouts

variable {ast : Ast} {limits : LayoutConfig} {visits : Array Visit} {e : LayoutError}

theorem layoutBubbles_error (h : preorder ast limits.maxDepth limits.maxNodes = .error e) :
    (layoutBubbles ast limits).outcome.value = .error e := by
  rw [layoutBubbles, Attempt.value_reported, bubbleLayout, h]
  rfl

/-- All visits of a walk are placed. -/
theorem Placing.foldlM_ok (h : preorder ast limits.maxDepth limits.maxNodes = .ok visits) :
    ∃ p, visits.toList.foldlM (Placing.place ast limits) { counter := .ofAst ast } = .ok p
      ∧ List.Forall₂ (Bubble.Grows ast limits) p.bubbles.toList visits.toList := by
  obtain ⟨p, bs, hp, hbubbles, hall⟩ := foldlM_places (Placing.place ast limits) Placing.bubbles
    (fun p => p.counter.Exact ast) (Bubble.Grows ast limits)
    (fun p v hv hp => Placing.place_ok (sound_of_preorder h hv) hp)
    (p := { counter := .ofAst ast }) (DescendantCounter.exact_ofAst ast)
  rw [List.nil_append] at hbubbles
  exact ⟨p, hp, hbubbles ▸ hall⟩

theorem layoutBubbles_ok (h : preorder ast limits.maxDepth limits.maxNodes = .ok visits) :
    ∃ layout, (layoutBubbles ast limits).outcome.value = .ok layout
      ∧ List.Forall₂ (Bubble.Shows ast) layout.bubbles.toList visits.toList
      ∧ layout.links = (linkEnds visits.toList).zipIdx.filterMap fun ((source, target), number) =>
          linkBetween layout.bubbles number source target := by
  obtain ⟨p, hp, hall⟩ := Placing.foldlM_ok h
  rw [layoutBubbles, Attempt.value_reported, bubbleLayout, h]
  simp only [bind, Except.bind, hp]
  exact ⟨_, rfl, hall.imp fun _ _ => And.left, rfl⟩

variable (lib : FontLibrary) (tree : TreeConfig) (family : String)

theorem layoutOutline_error (h : preorder ast limits.maxDepth limits.maxNodes = .error e) :
    (layoutOutline lib ast tree limits family).outcome.value = .error e := by
  rw [layoutOutline, Attempt.value_bind, Attempt.value_ofExcept, h]
  rfl

theorem layoutOutline_ok (h : preorder ast limits.maxDepth limits.maxNodes = .ok visits) :
    ∃ outline, (layoutOutline lib ast tree limits family).outcome.value = .ok outline
      ∧ List.Forall₂ (OutlineRow.Shows ast tree.showIds) outline.rows.toList visits.toList := by
  have hempty : visits.isEmpty = true ↔ visits.toList = [] := by
    rw [Array.isEmpty_iff, Array.toList_eq_nil_iff]
  rw [layoutOutline, Attempt.value_bind, Attempt.value_ofExcept, h]
  simp only [Except.bind]
  by_cases hv : visits.toList = []
  · rw [if_pos (hempty.2 hv), hv]
    exact ⟨_, Attempt.value_pure _, .nil⟩
  · obtain ⟨p, rows, hp, hrows, hall⟩ := foldlM_places (RowPlacing.place lib ast tree family)
      RowPlacing.rows (fun _ => True) (OutlineRow.Shows ast tree.showIds)
      (fun p v hv _ => by
        obtain ⟨p', row, hp', hrow, hshows⟩ :=
          RowPlacing.place_ok lib tree family p (sound_of_preorder h hv)
        exact ⟨p', row, hp', trivial, hrow, hshows⟩)
      (p := {}) trivial
    rw [List.nil_append] at hrows
    rw [if_neg (mt hempty.1 hv), Attempt.value_bind, Attempt.value_ofExcept, hp]
    exact ⟨_, rfl, hrows ▸ hall⟩

end Layouts

end TreeAtlas
