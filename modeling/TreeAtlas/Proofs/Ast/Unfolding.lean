import TreeAtlas.Proofs.Ast.Routes
import TreeAtlas.Proofs.Forest
import Mathlib.Data.Fintype.Card

/-!
# Unfolding references into a forest

A list of references unfolds to the forest in which every reference is replaced by its node over
the unfolding of that node's children.  The array being finite, references unfold exactly when they
are sound (`Unfolds.sound`, `Sound.exists_unfolds`): what reaches neither a cycle nor the outside is
well founded, and an unfolding is a proof of that.  The size of the forest is then the number of
routes, and its levels bound their lengths.
-/

namespace TreeAtlas.Ast

open Relation

inductive Unfolds (ast : Ast) : List NodeRef → Forest NodeRef → Prop where
  | nil : Unfolds ast [] .nil
  | cons {r : NodeRef} {rs : List NodeRef} {node : AstNode} {below rest : Forest NodeRef}
      (here : ast.get? r = some node) (children : Unfolds ast node.children below)
      (others : Unfolds ast rs rest) : Unfolds ast (r :: rs) (.cons r below rest)

variable {ast : Ast} {r : NodeRef} {rs : List NodeRef} {f : Forest NodeRef}

theorem Unfolds.unique {g : Forest NodeRef} (h : ast.Unfolds rs f) (h' : ast.Unfolds rs g) :
    f = g := by
  induction h generalizing g with
  | nil => cases h'; rfl
  | cons here _ _ ihc iho =>
    cases h' with
    | cons here' children' others' =>
      rw [here, Option.some.injEq] at here'
      subst here'
      rw [ihc children', iho others']

theorem Unfolds.width_eq (h : ast.Unfolds rs f) : f.width = rs.length := by
  induction h with
  | nil => rfl
  | cons _ _ _ _ ih => simp only [Forest.width, List.length_cons, ih]

theorem unfolds_singleton_iff :
    ast.Unfolds [r] f
      ↔ ∃ below, ast.contains r = true ∧ ast.Unfolds (ast.kids r) below
          ∧ f = .cons r below .nil := by
  constructor
  · intro h
    cases h with
    | cons here children others =>
      cases others
      exact ⟨_, contains_iff.2 ⟨_, here⟩, by rwa [kids_of_get? here], rfl⟩
  · rintro ⟨below, hr, hb, rfl⟩
    obtain ⟨node, here⟩ := contains_iff.1 hr
    exact .cons here (by rwa [kids_of_get? here] at hb) .nil

/-! ### Soundness -/

theorem Unfolds.acc (h : ast.Unfolds rs f) : ∀ r ∈ rs, Acc (Function.swap ast.Refers) r := by
  induction h with
  | nil => simp
  | @cons r rs node below rest here _ _ ihc iho =>
    intro n hn
    rcases List.mem_cons.1 hn with rfl | hn
    · refine Acc.intro _ fun k hk => ihc k ?_
      rwa [← kids_of_get? here]
    · exact iho n hn

theorem Unfolds.contains (h : ast.Unfolds rs f) :
    ∀ r ∈ rs, ∀ n, ast.Reaches r n → ast.contains n = true := by
  induction h with
  | nil => simp
  | @cons r rs node below rest here _ _ ihc iho =>
    intro a ha n hn
    rcases List.mem_cons.1 ha with rfl | ha
    · rcases ReflTransGen.cases_head hn with rfl | ⟨k, hk, hkn⟩
      · exact contains_iff.2 ⟨node, here⟩
      · exact ihc k (by rwa [← kids_of_get? here]) n hkn
    · exact iho a ha n hn

theorem not_rel_self_of_acc {α : Type} {rel : α → α → Prop} {a : α} (h : Acc rel a) :
    ¬ rel a a := by
  induction h with
  | intro a _ ih => exact fun h => ih a h h

theorem Unfolds.sound (h : ast.Unfolds rs f) : ∀ r ∈ rs, ast.Sound r := by
  intro r hr n hn
  refine ⟨h.contains r hr n hn, fun hc => ?_⟩
  have hacc : Acc (Function.swap ast.Refers) n := by
    clear hc
    induction hn with
    | refl => exact h.acc r hr
    | tail _ hab ih => exact ih.inv hab
  exact not_rel_self_of_acc hacc.transGen (transGen_swap.2 hc)

/-- What a sound node reaches is well founded from below. -/
theorem Sound.wellFounded (h : ast.Sound r) :
    WellFounded fun a b : {n // ast.Reaches r n} => ast.Above b.1 a.1 := by
  have : Finite {n // ast.Reaches r n} := by
    refine Finite.of_injective (β := Fin ast.nodes.size)
      (fun n => ⟨n.1.index, by simpa [Ast.contains] using (h n.1 n.2).1⟩) ?_
    rintro ⟨⟨i⟩, _⟩ ⟨⟨j⟩, _⟩ e
    simpa using e
  have : IsTrans {n // ast.Reaches r n} fun a b => ast.Above b.1 a.1 :=
    ⟨fun _ _ _ hab hbc => hbc.trans hab⟩
  have : Std.Irrefl fun a b : {n // ast.Reaches r n} => ast.Above b.1 a.1 :=
    ⟨fun a => (h a.1 a.2).2⟩
  exact Finite.wellFounded_of_trans_of_irrefl _

theorem exists_unfolds_of_forall :
    ∀ rs : List NodeRef, (∀ r ∈ rs, ∃ f, ast.Unfolds [r] f) → ∃ f, ast.Unfolds rs f
  | [], _ => ⟨.nil, .nil⟩
  | r :: rs, h => by
    obtain ⟨rest, hrest⟩ := exists_unfolds_of_forall rs fun k hk => h k (List.mem_cons_of_mem _ hk)
    obtain ⟨f, hf⟩ := h r List.mem_cons_self
    cases hf with
    | cons here children _ => exact ⟨_, .cons here children hrest⟩

theorem Sound.exists_unfolds (h : ast.Sound r) : ∃ f, ast.Unfolds [r] f := by
  have key : ∀ n : {n // ast.Reaches r n}, ∃ f, ast.Unfolds [n.1] f := by
    intro n
    induction n using h.wellFounded.induction with
    | _ n ih =>
      obtain ⟨below, hb⟩ := exists_unfolds_of_forall (ast.kids n.1) fun k hk =>
        ih ⟨k, n.2.tail hk⟩ (.single hk)
      exact ⟨_, unfolds_singleton_iff.2 ⟨below, (h n.1 n.2).1, hb, rfl⟩⟩
  exact key ⟨r, .refl⟩

/-! ### Routes -/

theorem Unfolds.sum_ways (h : ast.Unfolds rs f) : (rs.map ast.ways).sum = f.size := by
  induction h with
  | nil => rfl
  | cons here _ _ ihc iho =>
    rw [List.map_cons, List.sum_cons, ways_eq, kids_of_get? here, ihc, iho]
    simp

theorem Unfolds.length_lt (h : ast.Unfolds rs f) :
    ∀ r ∈ rs, ∀ route ∈ ast.routes r, route.length < f.levels := by
  induction h with
  | nil => simp
  | @cons r rs node below rest here _ _ ihc iho =>
    intro a ha route hroute
    simp only [Forest.levels_cons]
    rcases List.mem_cons.1 ha with rfl | ha
    · rcases route with _ | ⟨i, p⟩
      · simp
      · obtain ⟨_, _, k, hik, hk, hp⟩ := cons_mem_routes.1 hroute
        cases hik
        rw [kids_of_get? here] at hk
        have := ihc k (List.mem_of_getElem? hk) p hp
        simp only [List.length_cons]
        omega
    · have := iho a ha route hroute
      omega

end TreeAtlas.Ast
