import TreeAtlas.Proofs.Layout.Descent

/-!
# What the walk accepts

The walk accepts a root exactly if its routes meet no node twice, stay in the array, are no longer
than the depth limit, and are no more than the node limit.  Otherwise the error it gives is true of
the root (`Blames`).

A descent that fails is true of the siblings it fails at, which gives the second half.  The first
half is that the unfolding found by a descent that succeeds is a proof of all four conditions, and
that none of the errors is true where they hold.
-/

namespace TreeAtlas

namespace Ast

variable (ast : Ast) (maxDepth maxNodes : Nat)

/-- What the walk asks of a root. -/
structure Fits (r : NodeRef) : Prop where
  nodup : ∀ route ns, ast.stops r route = some ns → ns.Nodup
  inside : ∀ route ns, ast.stops r route = some ns → ∀ n ∈ ns, ast.contains n = true
  shallow : ∀ route ∈ ast.routes r, route.length ≤ maxDepth
  few : ast.ways r ≤ maxNodes

/-- What an error says about a root. -/
def Blames (r : NodeRef) : LayoutError → Prop
  | .cycle n => ast.Reaches r n ∧ ast.Above n n
  | .unknownNode n => ast.Reaches r n ∧ ast.contains n = false
  | .depthExceeded limit => limit = maxDepth ∧ ∃ route ∈ ast.routes r, route.length = maxDepth + 1
  | .tooManyNodes limit => limit = maxNodes ∧ (maxNodes : ℕ∞) < ast.ways r

variable {ast maxDepth maxNodes} {r : NodeRef} {e : LayoutError}

theorem Fits.sound (h : ast.Fits maxDepth maxNodes r) : ast.Sound r :=
  sound_iff_stops.2 fun route ns hns => ⟨h.nodup route ns hns, h.inside route ns hns⟩

/-- No error is true of a root that fits. -/
theorem Fits.not_blames (h : ast.Fits maxDepth maxNodes r) :
    ¬ ast.Blames maxDepth maxNodes r e := by
  cases e with
  | cycle n => exact fun ⟨hn, hc⟩ => (h.sound n hn).2 hc
  | unknownNode n =>
    rintro ⟨hn, hc⟩
    rw [(h.sound n hn).1] at hc
    cases hc
  | depthExceeded limit =>
    rintro ⟨-, route, hroute, hlen⟩
    have := h.shallow route hroute
    omega
  | tooManyNodes limit => exact fun ⟨_, hlt⟩ => hlt.not_ge h.few

theorem Unfolds.fits {f : Forest NodeRef} (h : ast.Unfolds [r] f) (hl : f.levels ≤ maxDepth + 1)
    (hs : f.size ≤ maxNodes) : ast.Fits maxDepth maxNodes r := by
  have hr : r ∈ [r] := List.mem_cons_self
  have hsound := sound_iff_stops.1 (h.sound r hr)
  have hways : ast.ways r = f.size := by
    simpa using h.sum_ways
  refine ⟨fun route ns hns => (hsound route ns hns).1, fun route ns hns => (hsound route ns hns).2,
    fun route hroute => ?_, ?_⟩
  · have := h.length_lt r hr route hroute
    omega
  · rw [hways]
    exact_mod_cast hs

theorem blames_of_truthful (h : Walk.Truthful ast maxDepth maxNodes 0 0 [r] e) :
    ast.Blames maxDepth maxNodes r e := by
  cases e with
  | cycle n =>
    obtain ⟨⟨k, hk, hkn⟩, hc⟩ := h
    cases List.mem_singleton.1 hk
    exact ⟨hkn, hc⟩
  | unknownNode n =>
    obtain ⟨⟨k, hk, hkn⟩, hc⟩ := h
    cases List.mem_singleton.1 hk
    exact ⟨hkn, hc⟩
  | depthExceeded limit =>
    obtain ⟨hlimit, k, hk, route, hroute, hlen⟩ := h
    cases List.mem_singleton.1 hk
    exact ⟨hlimit, route, hroute, by omega⟩
  | tooManyNodes limit => simpa [Walk.Truthful, Blames] using h

end Ast

variable {ast : Ast} {maxDepth maxNodes : Nat}

/-- A walk that succeeds lists the unfolding of the root. -/
theorem preorder_ok {visits : Array Visit} (h : preorder ast maxDepth maxNodes = .ok visits) :
    ∃ f, ast.Unfolds ast.root.toList f ∧ f.levels ≤ maxDepth + 1 ∧ f.size ≤ maxNodes
      ∧ visits.toList = f.visits 0 none 0 := by
  rw [preorder_eq_descent] at h
  obtain ⟨f, hf, hl, hs, hv⟩ := Walk.descend_ok h
  exact ⟨f, hf, by simpa using hl, by simpa using hs, by simpa using hv⟩

/-- A walk that fails is true of the root. -/
theorem preorder_error {e : LayoutError} (h : preorder ast maxDepth maxNodes = .error e) :
    ∃ r, ast.root = some r ∧ ast.Blames maxDepth maxNodes r e := by
  rw [preorder_eq_descent] at h
  cases hr : ast.root with
  | none =>
    rw [hr] at h
    simp [Walk.descend] at h
  | some r =>
    rw [hr] at h
    exact ⟨r, rfl, Ast.blames_of_truthful (Walk.descend_error h (Nat.zero_le _) (by simp))⟩

theorem preorder_depth {limit : Nat}
    (h : preorder ast maxDepth maxNodes = .error (.depthExceeded limit)) : maxDepth < ast.size := by
  rw [preorder_eq_descent] at h
  exact Walk.descend_depth h rfl List.nodup_nil (by simp)

theorem preorder_ok_of_fits (h : ∀ r ∈ ast.root, ast.Fits maxDepth maxNodes r) :
    ∃ visits, preorder ast maxDepth maxNodes = .ok visits := by
  cases hp : preorder ast maxDepth maxNodes with
  | ok visits => exact ⟨visits, rfl⟩
  | error e =>
    obtain ⟨r, hr, hb⟩ := preorder_error hp
    exact absurd hb (h r hr).not_blames

/-- What the walk accepts, and what its errors say. -/
theorem preorder_verdict (ast : Ast) (maxDepth maxNodes : Nat) :
    ((∃ visits, preorder ast maxDepth maxNodes = .ok visits)
        ↔ ast.root = none ∨ ∃ r, ast.root = some r ∧ ast.Fits maxDepth maxNodes r)
      ∧ (∀ e, preorder ast maxDepth maxNodes = .error e →
          ∃ r, ast.root = some r ∧ ast.Blames maxDepth maxNodes r e)
      ∧ (ast.size ≤ maxDepth → ∀ limit,
          preorder ast maxDepth maxNodes ≠ .error (.depthExceeded limit)) := by
  refine ⟨⟨?_, ?_⟩, fun e => preorder_error, fun hle limit h => ?_⟩
  · rintro ⟨visits, h⟩
    obtain ⟨f, hf, hl, hs, -⟩ := preorder_ok h
    cases hr : ast.root with
    | none => exact .inl rfl
    | some r =>
      rw [hr] at hf
      exact .inr ⟨r, rfl, hf.fits hl hs⟩
  · rintro (hr | ⟨r, hr, hfits⟩)
    · exact preorder_ok_of_fits (by simp [hr])
    · exact preorder_ok_of_fits (by simpa [hr] using hfits)
  · exact absurd (preorder_depth h) (by omega)

end TreeAtlas
