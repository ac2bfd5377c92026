import TreeAtlas.Proofs.Layout.Placing
import TreeAtlas.Proofs.Panel.Runs

/-!
# Runs of a view

A view on its own goes through updates, renderings and clicks.  Only updates change it, and each
leaves it with the document it was given and a layout of that document, or with neither.  As for
panels, all of this is said of runs in which every document agrees with the one that is held when it
comes (`Document.AgreeAlong`).

The bubble graph of a document depends on the document and on the settings of the view alone, so
what is held after a run and how often a layout was computed are told without the view
(`BubbleView.heldAfter`, `BubbleView.passesAfter`).  The outline depends on the font as well, which
comes with every update, while the view tells documents apart by their stamps only.  So a document
keeps the outline that was computed when it came in (`OutlineView.Measured`), whatever fonts the
updates after that one ask for.
-/

namespace TreeAtlas

/-! ### Documents along a run -/

namespace Document

section Along

variable {σ γ : Type} (step : σ → γ → σ) (held : σ → Option Document) (given : γ → Option Document)

/-- Every document that a step is given agrees with the one that is held before the step. -/
def AgreeAlong : σ → List γ → Prop
  | _, [] => True
  | s, c :: cs => Agree (held s) (given c) ∧ AgreeAlong (step s c) cs

variable {step held given} {s : σ} {cs : List γ}

theorem agreeAlong_append_singleton {c : γ} :
    AgreeAlong step held given s (cs ++ [c])
      ↔ AgreeAlong step held given s cs ∧ Agree (held (cs.foldl step s)) (given c) := by
  induction cs generalizing s with
  | nil => simp [AgreeAlong]
  | cons b cs ih => simp only [List.cons_append, AgreeAlong, ih, List.foldl_cons, and_assoc]

/-- Documents agree where all of them come from a shelf with no stamp on two of them. -/
theorem agreeAlong_of_shelf {shelf : List Document}
    (hshelf : ∀ d ∈ shelf, ∀ e ∈ shelf, d.stamp = e.stamp → d = e)
    (hstep : ∀ s c, ∀ d ∈ held (step s c), d ∈ held s ∨ d ∈ given c)
    (hs : ∀ d ∈ held s, d ∈ shelf) (hcs : ∀ c ∈ cs, ∀ d ∈ given c, d ∈ shelf) :
    AgreeAlong step held given s cs := by
  induction cs generalizing s with
  | nil => trivial
  | cons c cs ih =>
    have hc := hcs c List.mem_cons_self
    refine ⟨fun d hd e he => hshelf d (hs d hd) e (hc e he), ih (fun d hd => ?_)
      fun b hb => hcs b (List.mem_cons_of_mem _ hb)⟩
    exact (hstep s c d hd).elim (hs d) (hc d)

end Along

end Document

/-- No two of the samples have the same stamp. -/
theorem eq_of_stamp_samples : ∀ d ∈ samples, ∀ e ∈ samples, d.stamp = e.stamp → d = e := by
  simp [samples, leafDocument, loopDocument]

namespace Kept

variable {L : Type} {layoutOf : Ast → Except LayoutError L} {empty : L}

/-- What is held after an update is what it was given, if that can be laid out. -/
theorem document_settle_fresh (next : Option Document) :
    (settle empty next (fresh layoutOf empty next)).document
      = next.filter fun d => (layoutOf d.ast).isOk := by
  cases next with
  | none => rfl
  | some d =>
    rw [fresh_some, Option.filter_some]
    cases layoutOf d.ast with
    | ok layout => rfl
    | error e => rfl

/-- What is current without document is the empty layout, and else the layout of the document. -/
theorem Current.cases {k : Kept L} (hk : k.Current layoutOf empty) :
    k.document = none ∧ k.layout = empty
      ∨ ∃ d, k.document = some d ∧ layoutOf d.ast = .ok k.layout := by
  rw [Current] at hk
  cases hd : k.document with
  | none =>
    rw [hd] at hk
    exact .inl ⟨rfl, (Except.ok.inj hk).symm⟩
  | some d =>
    rw [hd] at hk
    exact .inr ⟨d, rfl, hk⟩

theorem update_of_changed {k : Kept L} {next : Option Document}
    (h : Document.unchanged k.document next = false) :
    k.update layoutOf empty next
      = (settle empty next (fresh layoutOf empty next), fresh layoutOf empty next) :=
  if_neg (Bool.not_eq_true _ ▸ h)

end Kept

/-! ### The bubble graph -/

/-- What is done to a bubble graph. -/
inductive BubbleStep where
  | update (next : Option Document)
  | render (selected : Option NodeId) (theme : Theme) (render : RenderConfig)
  | click (x y : Float32)

/-- The document that a step brings to the view. -/
def BubbleStep.given : BubbleStep → Option Document
  | .update next => next
  | .render _ _ _ | .click _ _ => none

namespace BubbleView

/-- The view after a step.  Renderings and clicks read the view and leave it as it is. -/
def step (v : BubbleView) : BubbleStep → BubbleView
  | .update next => (v.update next).value.1
  | .render _ _ _ | .click _ _ => v

def after (v : BubbleView) (steps : List BubbleStep) : BubbleView :=
  steps.foldl step v

def KeepsStamps (v : BubbleView) (steps : List BubbleStep) : Prop :=
  Document.AgreeAlong step document BubbleStep.given v steps

section Told

variable (config : LayoutConfig)

/-- What is computed for a document. -/
def layoutOf (ast : Ast) : Except LayoutError BubbleLayout :=
  (layoutBubbles ast config).outcome.value

/-- What is held after a step, told from what was held before it. -/
def holding (held : Option Document) : BubbleStep → Option Document
  | .update next => next.filter fun d => (layoutOf config d.ast).isOk
  | .render _ _ _ | .click _ _ => held

/-- Whether a step is an update with a document that is not held and can be laid out. -/
def laysOut (held : Option Document) : BubbleStep → Bool
  | .update next =>
    !Document.unchanged held next && next.any fun d => (layoutOf config d.ast).isOk
  | .render _ _ _ | .click _ _ => false

/-- What is held after the steps of a run. -/
def heldAfter (steps : List BubbleStep) : Option Document :=
  steps.foldl (holding config) none

/-- The steps of a run that lay out a document. -/
def passesAfter : Option Document → List BubbleStep → Nat
  | _, [] => 0
  | held, s :: steps => (laysOut config held s).toNat + passesAfter (holding config held s) steps

end Told

/-- A view with the settings `config` whose layout is current. -/
structure Settled (config : LayoutConfig) (v : BubbleView) : Prop where
  config_eq : v.config = config
  current : v.kept.Current (layoutOf config) (.empty config)

variable {config : LayoutConfig} {v : BubbleView} {next : Option Document}

theorem settled_new : (new config).Settled config :=
  ⟨rfl, rfl⟩

/-- An update of a settled view leaves and returns what a computation from scratch gives. -/
theorem Settled.update (h : v.Settled config) (ha : Document.Agree v.document next) :
    (v.update next).value.1.kept
        = .settle (.empty config) next (Kept.fresh (layoutOf config) (.empty config) next)
      ∧ (v.update next).value.2 = Kept.fresh (layoutOf config) (.empty config) next
      ∧ (v.update next).value.1.Settled config := by
  obtain ⟨hkept, hconfig⟩ := v.update_kept next
  have hlayout : (fun ast => (layoutBubbles ast config).outcome.value) = layoutOf config := rfl
  rw [h.config_eq, hlayout, Kept.update_eq h.current ha, Prod.mk.injEq] at hkept
  refine ⟨hkept.1, hkept.2, hconfig.trans h.config_eq, ?_⟩
  rw [hkept.1]
  exact Kept.current_settle next

theorem passes_update (v : BubbleView) (next : Option Document) :
    (v.update next).value.1.passes
      = v.passes + (laysOut v.config v.document (.update next)).toNat := by
  simp only [laysOut]
  unfold BubbleView.update
  by_cases hu : Document.unchanged v.document next = true
  · rw [if_pos hu, hu]
    rfl
  · rw [if_neg hu, Bool.eq_false_of_not_eq_true hu]
    cases next with
    | none => rfl
    | some d =>
      simp only [layoutOf, Bool.not_false, Bool.true_and, Option.any_some]
      cases (layoutBubbles d.ast v.config).outcome.value with
      | ok layout => rfl
      | error e => rfl

theorem Settled.step (h : v.Settled config) {s : BubbleStep}
    (ha : Document.Agree v.document s.given) :
    (v.step s).Settled config
      ∧ (v.step s).document = holding config v.document s
      ∧ (v.step s).passes = v.passes + (laysOut config v.document s).toNat := by
  cases s with
  | update next =>
    obtain ⟨hkept, -, hsettled⟩ := h.update ha
    refine ⟨hsettled, ?_, ?_⟩
    · exact (congrArg Kept.document hkept).trans (Kept.document_settle_fresh next)
    · rw [← h.config_eq]
      exact v.passes_update next
  | render _ _ _ => exact ⟨h, rfl, rfl⟩
  | click _ _ => exact ⟨h, rfl, rfl⟩

theorem Settled.after (h : v.Settled config) {steps : List BubbleStep}
    (hk : v.KeepsStamps steps) :
    (v.after steps).Settled config
      ∧ (v.after steps).document = steps.foldl (holding config) v.document
      ∧ (v.after steps).passes = v.passes + passesAfter config v.document steps := by
  induction steps generalizing v with
  | nil => exact ⟨h, rfl, rfl⟩
  | cons s steps ih =>
    obtain ⟨hstep, hdocument, hpasses⟩ := h.step hk.1
    obtain ⟨hsettled, hheld, hcount⟩ := ih hstep hk.2
    rw [hdocument] at hheld hcount
    refine ⟨hsettled, hheld, ?_⟩
    rw [passesAfter, ← Nat.add_assoc, ← hpasses]
    exact hcount

/-- An update that fails empties the view and is not counted.  The same document fails again, and
one that can be laid out is, whatever was held before. -/
theorem Settled.update_error (h : v.Settled config) {d : Document} {e : LayoutError}
    (ha : Document.Agree v.document (some d)) (he : layoutOf config d.ast = .error e) :
    let failed := (v.update (some d)).value.1
    failed.document = none ∧ failed.layout = .empty config ∧ failed.passes = v.passes
      ∧ (failed.update (some d)).value.2 = .error e
      ∧ ∀ good layout, layoutOf config good.ast = .ok layout →
        (failed.update (some good)).value.2 = .ok layout
          ∧ (failed.update (some good)).value.1.passes = v.passes + 1 := by
  intro failed
  obtain ⟨hkept, -, hfailed⟩ := h.update ha
  rw [Kept.fresh_some, he] at hkept
  have hdocument : failed.document = none := congrArg Kept.document hkept
  have hpasses : failed.passes = v.passes := by
    simp only [failed, passes_update, laysOut, h.config_eq, Option.any_some, he, Except.isOk,
      Except.toBool, Bool.and_false, Bool.toNat_false, Nat.add_zero]
  have hagree (next : Option Document) : Document.Agree failed.document next := by
    rw [hdocument]
    rintro _ ⟨⟩
  refine ⟨hdocument, congrArg Kept.layout hkept, hpasses, ?_, fun good layout hgood => ⟨?_, ?_⟩⟩
  · rw [(hfailed.update (hagree _)).2.1, Kept.fresh_some, he]
  · rw [(hfailed.update (hagree _)).2.1, Kept.fresh_some, hgood]
  · rw [passes_update, hpasses, hfailed.config_eq, hdocument]
    simp only [laysOut, Document.unchanged, Option.any_some, hgood, Except.isOk, Except.toBool,
      Bool.not_false, Bool.and_true, Bool.toNat_true]

theorem document_step (v : BubbleView) (s : BubbleStep) :
    ∀ d ∈ (v.step s).document, d ∈ v.document ∨ d ∈ s.given := by
  intro d hd
  cases s with
  | update next => exact v.document_update next d hd
  | render _ _ _ => exact .inl hd
  | click _ _ => exact .inl hd

theorem keepsStamps_samples {steps : List BubbleStep}
    (h : ∀ s ∈ steps, ∀ d ∈ s.given, d ∈ samples) : (new config).KeepsStamps steps :=
  Document.agreeAlong_of_shelf eq_of_stamp_samples document_step (by rintro d ⟨⟩) h

end BubbleView

/-- After any run, a bubble graph holds what the last update gave it, with the layout computed
afresh, or nothing, and it has computed as many layouts as there were updates with something new
that could be laid out.  The next update returns what is computed afresh; one that fails leaves
nothing behind. -/
theorem bubbleView_after (config : LayoutConfig) (steps : List BubbleStep)
    (h : (BubbleView.new config).KeepsStamps steps) :
    let v := (BubbleView.new config).after steps
    (v.document = none ∧ v.layout = .empty config
        ∨ ∃ d, v.document = some d ∧ (layoutBubbles d.ast config).outcome.value = .ok v.layout)
      ∧ v.document = BubbleView.heldAfter config steps
      ∧ v.passes = BubbleView.passesAfter config none steps
      ∧ ∀ d, Document.Agree v.document (some d) →
        (v.update (some d)).value.2 = (layoutBubbles d.ast config).outcome.value
          ∧ ∀ e, (v.update (some d)).value.2 = .error e →
            let failed := (v.update (some d)).value.1
            failed.document = none ∧ failed.layout = .empty config ∧ failed.passes = v.passes
              ∧ (failed.update (some d)).value.2 = .error e
              ∧ ∀ good layout, (layoutBubbles good.ast config).outcome.value = .ok layout →
                (failed.update (some good)).value.2 = .ok layout
                  ∧ (failed.update (some good)).value.1.passes = v.passes + 1 := by
  intro v
  obtain ⟨hsettled, hheld, hpasses⟩ := BubbleView.settled_new.after h
  refine ⟨hsettled.current.cases, hheld, hpasses.trans (Nat.zero_add _), fun d ha => ?_⟩
  have hanswer : (v.update (some d)).value.2 = BubbleView.layoutOf config d.ast :=
    (hsettled.update ha).2.1
  refine ⟨hanswer, fun e he => ?_⟩
  rw [hanswer] at he
  exact hsettled.update_error ha he

/-- A document is shown twice, one that fails comes in between, and the first one comes back.  Then
the one that fails is tried again. -/
theorem bubbleView_after_return :
    let good := leafDocument 0 "a"
    let bad := loopDocument 2
    let steps : List BubbleStep :=
      [.update (some good), .update (some good), .click 30 30, .update (some bad),
        .update (some good)]
    let v := (BubbleView.new {}).after steps
    let failed := (v.update (some bad)).value.1
    (BubbleView.new {}).KeepsStamps steps
      ∧ (v.document = some good ∧ (layoutBubbles good.ast {}).outcome.value = .ok v.layout
        ∧ v.passes = 2)
      ∧ (v.update (some bad)).value.2 = .error (.cycle ⟨0⟩)
      ∧ (failed.document = none ∧ failed.layout = .empty {} ∧ failed.passes = 2)
      ∧ (failed.update (some bad)).value.2 = .error (.cycle ⟨0⟩)
      ∧ (failed.update (some good)).value.1.passes = 3 := by
  intro good bad steps v failed
  have h : (BubbleView.new {}).KeepsStamps steps :=
    BubbleView.keepsStamps_samples (by simp [steps, good, bad, samples, BubbleStep.given])
  obtain ⟨layout, hgood, -⟩ : ∃ layout, BubbleView.layoutOf {} good.ast = .ok layout ∧ _ :=
    @layoutBubbles_ok good.ast {} #[⟨⟨0⟩, 0, none⟩] (by decide +kernel)
  have hbad : BubbleView.layoutOf {} bad.ast = .error (.cycle ⟨0⟩) :=
    layoutBubbles_error (by decide +kernel)
  obtain ⟨hcases, hheld, hpasses, hnext⟩ := bubbleView_after {} steps h
  replace hheld : v.document = some good := hheld.trans <| by
    simp [steps, BubbleView.heldAfter, BubbleView.holding, hgood, Option.filter_some, Except.isOk,
      Except.toBool]
  replace hpasses : v.passes = 2 := hpasses.trans <| by
    simp [steps, BubbleView.passesAfter, BubbleView.laysOut, BubbleView.holding, hgood, hbad,
      Option.filter_some, Document.unchanged, Except.isOk, Except.toBool]
  have ha : Document.Agree v.document (some bad) := by
    rw [hheld]
    rintro _ ⟨⟩ _ ⟨⟩ hstamp
    cases hstamp
  obtain ⟨hanswer, hfailed⟩ := hnext bad ha
  replace hanswer := hanswer.trans hbad
  obtain ⟨hnone, hempty, hcount, hagain, hreturn⟩ := hfailed _ hanswer
  rw [hpasses] at hcount hreturn
  rcases hcases with ⟨hd, -⟩ | ⟨d, hd, hok⟩
  · exact absurd (hheld.symm.trans hd) (by simp)
  · obtain rfl : good = d := Option.some.inj (hheld.symm.trans hd)
    exact ⟨h, ⟨hheld, hok, hpasses⟩, hanswer, ⟨hnone, hempty, hcount⟩, hagain,
      (hreturn good layout hgood).2⟩

/-! ### The outline -/

/-- An update of an outline, with the font that it asks for. -/
structure OutlineCall where
  next : Option Document
  family : String

namespace OutlineView

section Calls

variable (lib : FontLibrary) (config : TreeConfig) (limits : LayoutConfig)

def call (v : OutlineView) (c : OutlineCall) : OutlineView :=
  (v.update lib c.next c.family).value.1

def after (v : OutlineView) (calls : List OutlineCall) : OutlineView :=
  calls.foldl (call lib) v

def KeepsStamps (v : OutlineView) (calls : List OutlineCall) : Prop :=
  Document.AgreeAlong (call lib) document OutlineCall.next v calls

/-- What is computed for a document in a font. -/
def layoutIn (family : String) (ast : Ast) : Except LayoutError Outline :=
  (layoutOutline lib ast config limits family).outcome.value

/-- The font of the call that brought a document in: it was not held then, and all calls after that
one were given the same document. -/
def Measured (calls : List OutlineCall) (d : Document) (family : String) : Prop :=
  ∃ before series, calls = before ++ ⟨some d, family⟩ :: series
    ∧ (∀ c ∈ series, c.next = some d)
    ∧ Document.unchanged ((new config limits).after lib before).document (some d) = false

/-- A view after some calls is current for the font of the call that brought its document in. -/
structure Settled (calls : List OutlineCall) (v : OutlineView) : Prop where
  config_eq : v.config = config
  limits_eq : v.limits = limits
  current : ∃ family, v.kept.Current (layoutIn lib config limits family) (.empty config)
    ∧ ∀ d, v.document = some d → Measured lib config limits calls d family

variable {lib config limits} {calls : List OutlineCall} {next : Option Document} {family : String}

/-- Whether a document can be laid out does not depend on the font. -/
theorem layoutIn_eq_error_iff {ast : Ast} {e : LayoutError} :
    layoutIn lib config limits family ast = .error e
      ↔ preorder ast limits.maxDepth limits.maxNodes = .error e := by
  refine ⟨fun h => ?_, layoutOutline_error lib config family⟩
  cases hp : preorder ast limits.maxDepth limits.maxNodes with
  | error e' =>
    rw [layoutIn, layoutOutline_error lib config family hp] at h
    exact congrArg Except.error (Except.error.inj h)
  | ok visits =>
    obtain ⟨outline, houtline, -⟩ := layoutOutline_ok lib config family hp
    rw [layoutIn, houtline] at h
    cases h

variable {d : Document} {asked : String}

theorem Measured.append (h : Measured lib config limits calls d asked) (family : String) :
    Measured lib config limits (calls ++ [⟨some d, family⟩]) d asked := by
  obtain ⟨before, series, rfl, hseries, hnew⟩ := h
  refine ⟨before, series ++ [⟨some d, family⟩], by simp, fun c hc => ?_, hnew⟩
  rcases List.mem_append.1 hc with hc | hc
  · exact hseries c hc
  · rw [List.mem_singleton.1 hc]

theorem Measured.mem (h : Measured lib config limits calls d asked) :
    ⟨some d, asked⟩ ∈ calls := by
  obtain ⟨before, series, rfl, -⟩ := h
  exact List.mem_append_right _ List.mem_cons_self

theorem measured_of_changed
    (h : Document.unchanged ((new config limits).after lib calls).document (some d) = false)
    (family : String) :
    Measured lib config limits (calls ++ [⟨some d, family⟩]) d family :=
  ⟨calls, [], rfl, by simp, h⟩

theorem document_call (v : OutlineView) (c : OutlineCall) :
    ∀ d ∈ (v.call lib c).document, d ∈ v.document ∨ d ∈ c.next :=
  v.document_update lib c.next c.family

theorem keepsStamps_samples (h : ∀ c ∈ calls, ∀ d ∈ c.next, d ∈ samples) :
    (new config limits).KeepsStamps lib calls :=
  Document.agreeAlong_of_shelf eq_of_stamp_samples document_call (by rintro d ⟨⟩) h

theorem settled_new : Settled lib config limits [] (new config limits) :=
  ⟨rfl, rfl, "", rfl, by rintro d ⟨⟩⟩

variable {v : OutlineView}

/-- A call with what is held leaves the view as it is and returns the layout that it keeps. -/
theorem update_of_unchanged (hu : Document.unchanged v.document next = true) (family : String) :
    (v.update lib next family).value = (v, .ok v.layout) := by
  unfold update
  rw [if_pos hu]

/-- Any other call leaves and returns what is computed in its font. -/
theorem Settled.update_of_changed (h : Settled lib config limits calls v)
    (hu : Document.unchanged v.document next = false) (family : String) :
    (v.update lib next family).value.1.kept
        = .settle (.empty config) next
          (Kept.fresh (layoutIn lib config limits family) (.empty config) next)
      ∧ (v.update lib next family).value.2
        = Kept.fresh (layoutIn lib config limits family) (.empty config) next := by
  have hkept := (v.update_kept lib next family).1
  rw [h.config_eq, h.limits_eq, Kept.update_of_changed hu, Prod.mk.injEq] at hkept
  exact hkept

theorem Settled.call (h : Settled lib config limits calls ((new config limits).after lib calls))
    {c : OutlineCall} (ha : Document.Agree ((new config limits).after lib calls).document c.next) :
    Settled lib config limits (calls ++ [c])
      (((new config limits).after lib calls).call lib c) := by
  obtain ⟨next, family⟩ := c
  have hnew := @measured_of_changed lib config limits calls
  generalize (new config limits).after lib calls = v at h ha hnew
  obtain ⟨-, hconfig, hlimits⟩ := v.update_kept lib next family
  refine ⟨hconfig.trans h.config_eq, hlimits.trans h.limits_eq, ?_⟩
  by_cases hu : Document.unchanged v.document next = true
  · obtain ⟨asked, hcurrent, hasked⟩ := h.current
    have hsame : v.call lib ⟨next, family⟩ = v := congrArg Prod.fst (update_of_unchanged hu family)
    rw [hsame]
    refine ⟨asked, hcurrent, fun d hd => ?_⟩
    obtain rfl : some d = next := hd ▸ Document.eq_of_unchanged ha hu
    exact (hasked d hd).append family
  · replace hu := Bool.eq_false_of_not_eq_true hu
    have hkept : (v.call lib ⟨next, family⟩).kept = _ := (h.update_of_changed hu family).1
    refine ⟨family, hkept ▸ Kept.current_settle next, fun d hd => ?_⟩
    have hheld := (congrArg Kept.document hkept).symm.trans hd
    rw [Kept.document_settle_fresh, Option.filter_eq_some_iff] at hheld
    obtain ⟨rfl, -⟩ := hheld
    exact hnew hu family

theorem settled_after (h : (new config limits).KeepsStamps lib calls) :
    Settled lib config limits calls ((new config limits).after lib calls) := by
  induction calls using List.reverseRecOn with
  | nil => exact settled_new
  | append_singleton calls c ih =>
    obtain ⟨hcalls, hc⟩ := Document.agreeAlong_append_singleton.1 h
    have hlast : (new config limits).after lib (calls ++ [c])
        = ((new config limits).after lib calls).call lib c := List.foldl_append
    rw [hlast]
    exact (ih hcalls).call hc

/-- A call with a document returns its layout in the font of the call that brought it in. -/
theorem Settled.update (h : Settled lib config limits calls ((new config limits).after lib calls))
    (ha : Document.Agree ((new config limits).after lib calls).document (some d))
    (family : String) :
    ∃ asked, Measured lib config limits (calls ++ [⟨some d, family⟩]) d asked
      ∧ (((new config limits).after lib calls).update lib (some d) family).value.2
        = layoutIn lib config limits asked d.ast := by
  have hnew := @measured_of_changed lib config limits calls d
  generalize (new config limits).after lib calls = v at h ha hnew
  by_cases hu : Document.unchanged v.document (some d) = true
  · obtain ⟨asked, hcurrent, hasked⟩ := h.current
    have hd : v.document = some d := Document.eq_of_unchanged ha hu
    refine ⟨asked, (hasked d hd).append family, ?_⟩
    rw [Kept.Current, kept, hd, Kept.fresh_some] at hcurrent
    rw [update_of_unchanged hu, hcurrent]
  · replace hu := Bool.eq_false_of_not_eq_true hu
    exact ⟨family, hnew hu family, (h.update_of_changed hu family).2⟩

theorem Settled.update_none (h : Settled lib config limits calls v) (family : String) :
    (v.update lib none family).value.2 = .ok (.empty config) := by
  by_cases hu : Document.unchanged v.document none = true
  · obtain ⟨asked, hcurrent, -⟩ := h.current
    rcases hcurrent.cases with ⟨-, hlayout⟩ | ⟨d, hd, -⟩
    · rw [update_of_unchanged hu]
      exact congrArg Except.ok hlayout
    · have hd : v.document = some d := hd
      rw [hd] at hu
      cases hu
  · exact (h.update_of_changed (Bool.eq_false_of_not_eq_true hu) family).2

end Calls

end OutlineView

/-- After any calls, the next one returns the outline of its document in the font of the call that
brought the document in.  That is the font asked for if the document is new, or if no other font was
asked for it; and whatever the font, the call fails exactly where the document cannot be laid
out. -/
theorem outlineView_update_after (lib : FontLibrary) (config : TreeConfig) (limits : LayoutConfig)
    (calls : List OutlineCall) (next : Option Document) (family : String)
    (h : (OutlineView.new config limits).KeepsStamps lib (calls ++ [⟨next, family⟩])) :
    let v := (OutlineView.new config limits).after lib calls
    let answer := (v.update lib next family).value.2
    (next = none → answer = .ok (.empty config))
      ∧ ∀ d, next = some d →
        let afresh := (layoutOutline lib d.ast config limits family).outcome.value
        (∃ asked, OutlineView.Measured lib config limits (calls ++ [⟨some d, family⟩]) d asked
            ∧ answer = (layoutOutline lib d.ast config limits asked).outcome.value)
          ∧ (Document.unchanged v.document (some d) = false → answer = afresh)
          ∧ ((∀ c ∈ calls, c.next = some d → c.family = family) → answer = afresh)
          ∧ ∀ e, answer = .error e ↔ afresh = .error e := by
  intro v answer
  obtain ⟨hcalls, ha⟩ := Document.agreeAlong_append_singleton.1 h
  have hsettled := OutlineView.settled_after hcalls
  refine ⟨?_, ?_⟩
  · rintro rfl
    exact hsettled.update_none family
  · rintro d rfl afresh
    obtain ⟨asked, hasked, hanswer⟩ := hsettled.update ha family
    refine ⟨⟨asked, hasked, hanswer⟩, fun hu => (hsettled.update_of_changed hu family).2,
      fun hsame => ?_, fun e => ?_⟩
    · have hfamily : asked = family := by
        rcases List.mem_append.1 hasked.mem with hc | hc
        · exact hsame _ hc rfl
        · exact congrArg OutlineCall.family (List.mem_singleton.1 hc)
      exact hanswer.trans (hfamily ▸ rfl)
    · have hanswer : answer = OutlineView.layoutIn lib config limits asked d.ast := hanswer
      rw [hanswer, OutlineView.layoutIn_eq_error_iff]
      exact OutlineView.layoutIn_eq_error_iff.symm

/-- A document of one node is shown in one font. -/
def inOneFamily : List OutlineCall :=
  [⟨none, "Oracle Mono"⟩, ⟨some (loopDocument 2), "Oracle Mono"⟩,
    ⟨some (leafDocument 0 "a"), "Oracle Sans"⟩]

/-- Asked for in another font, it comes back in the first one. -/
theorem outlineView_update_after_family :
    let d := leafDocument 0 "a"
    let v := (OutlineView.new {} {}).after .builtIn inOneFamily
    let answer := (v.update .builtIn (some d) "Oracle Mono").value.2
    (OutlineView.new {} {}).KeepsStamps .builtIn (inOneFamily ++ [⟨some d, "Oracle Mono"⟩])
      ∧ (∃ asked, OutlineView.Measured .builtIn {} {}
            (inOneFamily ++ [⟨some d, "Oracle Mono"⟩]) d asked
          ∧ answer = (layoutOutline .builtIn d.ast {} {} asked).outcome.value)
      ∧ ∀ e, answer = .error e
        ↔ (layoutOutline .builtIn d.ast {} {} "Oracle Mono").outcome.value = .error e := by
  intro d v answer
  have h : (OutlineView.new {} {}).KeepsStamps .builtIn
      (inOneFamily ++ [⟨some d, "Oracle Mono"⟩]) :=
    OutlineView.keepsStamps_samples (by simp [inOneFamily, samples, d])
  obtain ⟨-, hnext⟩ :=
    outlineView_update_after .builtIn {} {} inOneFamily (some d) "Oracle Mono" h
  obtain ⟨hasked, -, -, herror⟩ := hnext d rfl
  exact ⟨h, hasked, herror⟩

/-- What comes back is not the outline in the font that was asked for. -/
theorem outlineView_update_other_family :
    let d := leafDocument 0 "a"
    let v := (OutlineView.new {} {}).after .builtIn inOneFamily
    (OutlineView.new {} {}).KeepsStamps .builtIn (inOneFamily ++ [⟨some d, "Oracle Mono"⟩])
      ∧ (v.update .builtIn (some d) "Oracle Mono").value.2
        ≠ (layoutOutline .builtIn d.ast {} {} "Oracle Mono").outcome.value := by
  intro d v
  refine ⟨OutlineView.keepsStamps_samples (by simp [inOneFamily, samples, d]), fun h => ?_⟩
  have hwidth := congrArg (fun r => r.toOption.map fun o => o.rows.toList.map fun row =>
    row.width.toBits) h
  revert hwidth
  decide +kernel

end TreeAtlas
