import TreeAtlas.Proofs.Command.Library
import TreeAtlas.Proofs.Command.Writing

/-!
# Runs do all or nothing

A layout is saved before anything is drawn, so a drawing that failed then would leave it behind.  It
does not fail: the budgets that the layout kept are those of both views, and the page of a tree
without a root has nothing to draw (`exists_text?_ok`).  After the layout is saved the text can be
written where it could be before (`Outcome.writable_receive`), and what was put at one place stays
there when something is put at another (`Outcome.extends_receive`).  So a run fails while there is
nothing but reports, or it gets to its end with everything in its place (`run_all_or_nothing`).
-/

namespace TreeAtlas.Command

/-! ### What can be laid out can be put out -/

section Layouts

variable (lib : FontLibrary) {ast : Ast} (options : RenderOptions) {layout : BubbleLayout}

/-- The budgets of the bubble graph are those of either view. -/
theorem exists_layoutView
    (h : (layoutBubbles ast options.config.layout).outcome.value = .ok layout) :
    ∃ view, (layoutView lib ast options).outcome.value = .ok view := by
  have hbubbles : (layoutView lib ast { options with view := .bubble }).outcome.value
      = .ok (.bubbles layout) := by
    rw [value_layoutView]
    exact congrArg (Except.map ViewLayout.bubbles) h
  obtain ⟨visits, hv, -⟩ := exists_visits_of_layoutView hbubbles
  obtain ⟨view, hview, -⟩ := layoutView_ok lib ast options hv
  exact ⟨view, hview⟩

theorem exists_drawTree
    (h : (layoutBubbles ast options.config.layout).outcome.value = .ok layout) :
    ∃ drawing, (drawTree lib ast options).outcome.value = .ok drawing := by
  obtain ⟨view, hview⟩ := exists_layoutView lib options h
  rw [value_drawTree, hview]
  exact ⟨_, rfl⟩

/-- A tree without a root has a page too, with nothing drawn in it. -/
theorem exists_renderTreePage (tokens : List Token)
    (h : (layoutBubbles ast options.config.layout).outcome.value = .ok layout) :
    ∃ page, (renderTreePage lib ast tokens options).outcome.value = .ok page := by
  cases hroot : ast.isEmpty with
  | true =>
    have hshown : AstPanel.shown? (some ⟨0, ast⟩) = none := by
      simp [AstPanel.shown?, hroot]
    rw [value_renderTreePage, AstPanel.freshCard, hshown]
    exact ⟨_, rfl⟩
  | false =>
    obtain ⟨drawing, hdrawing⟩ := exists_drawTree lib options h
    have hmap := map_unit_renderTreePage lib ast tokens options hroot
    rw [hdrawing] at hmap
    obtain ⟨page, hpage, -⟩ := exists_of_map_eq_ok hmap
    exact ⟨page, hpage⟩

theorem exists_text?_ok {settings : Settings} {loaded : Loaded}
    (hformat : settings.outputFormat ≠ .png)
    (h : (layoutBubbles loaded.ast loaded.config.layout).outcome.value = .ok layout) :
    ∃ text, text? lib settings loaded = some (.ok text) := by
  unfold text?
  cases hf : settings.outputFormat with
  | svg =>
    obtain ⟨drawing, hdrawing⟩ := exists_drawTree lib (settings.options loaded.config) h
    simp only [hdrawing]
    exact ⟨_, rfl⟩
  | html =>
    obtain ⟨page, hpage⟩ :=
      exists_renderTreePage lib (settings.options loaded.config) loaded.tokens h
    simp only [hpage]
    exact ⟨_, rfl⟩
  | png => exact absurd hf hformat

end Layouts

/-! ### What is received -/

namespace Outcome

variable {o : Outcome} {p q : Place} {s t : String}

/-- What was put at a place lies there, or is shown if the place is one that shows it. -/
def Received (o : Outcome) (p : Place) (s : String) : Prop :=
  match p with
  | ["dev", "null"] => True
  | ["dev", "stdout"] => ∃ before after, o.output = before ++ s ++ after
  | ["dev", "stderr"] => s ∈ o.notices
  | _ => o.files.files.lookup p = some (.text s)

/-- The places that keep nothing. -/
def devices : List Place :=
  [["dev", "null"], ["dev", "stdout"], ["dev", "stderr"]]

theorem receive_of_notMem (hp : p ∉ devices) (contents : Contents) :
    o.receive p contents = { o with files := o.files.put p contents } := by
  unfold receive
  split
  · exact absurd (by simp [devices]) hp
  · exact absurd (by simp [devices]) hp
  · exact absurd (by simp [devices]) hp
  · rfl

theorem received_of_notMem (hp : p ∉ devices) :
    o.Received p s ↔ o.files.files.lookup p = some (.text s) := by
  unfold Received
  split
  · exact absurd (by simp [devices]) hp
  · exact absurd (by simp [devices]) hp
  · exact absurd (by simp [devices]) hp
  · rfl

theorem received_receive : (o.receive p (.text s)).Received p s := by
  by_cases hp : p ∈ devices
  · simp only [devices, List.mem_cons, List.not_mem_nil, or_false] at hp
    rcases hp with rfl | rfl | rfl
    · trivial
    · exact ⟨o.output, "", String.append_empty.symm⟩
    · exact List.mem_append_right _ List.mem_cons_self
  · rw [received_of_notMem hp, receive_of_notMem hp]
    exact List.lookup_cons_self

/-- An outcome that shows more and has the same at a place. -/
structure Extends (o o' : Outcome) (p : Place) : Prop where
  output : ∃ more, o'.output = o.output ++ more
  notices : ∃ more, o'.notices = o.notices ++ more
  lookup : o'.files.files.lookup p = o.files.files.lookup p

theorem Received.mono {o' : Outcome} (h : o.Received p s) (hmore : o.Extends o' p) :
    o'.Received p s := by
  by_cases hp : p ∈ devices
  · simp only [devices, List.mem_cons, List.not_mem_nil, or_false] at hp
    rcases hp with rfl | rfl | rfl
    · trivial
    · obtain ⟨before, after, h⟩ := h
      obtain ⟨more, hmore⟩ := hmore.output
      exact ⟨before, after ++ more, by rw [hmore, h, String.append_assoc]⟩
    · obtain ⟨more, hmore⟩ := hmore.notices
      change s ∈ o'.notices
      rw [hmore]
      exact List.mem_append_left _ h
  · rw [received_of_notMem hp] at h ⊢
    rw [hmore.lookup, h]

theorem extends_receive (hne : p ≠ q) : o.Extends (o.receive q (.text t)) p := by
  by_cases hq : q ∈ devices
  · simp only [devices, List.mem_cons, List.not_mem_nil, or_false] at hq
    rcases hq with rfl | rfl | rfl
    · exact ⟨⟨"", String.append_empty.symm⟩, ⟨[], (List.append_nil _).symm⟩, rfl⟩
    · exact ⟨⟨t, rfl⟩, ⟨[], (List.append_nil _).symm⟩, rfl⟩
    · exact ⟨⟨"", String.append_empty.symm⟩, ⟨[t], rfl⟩, rfl⟩
  · rw [receive_of_notMem hq]
    refine ⟨⟨"", String.append_empty.symm⟩, ⟨[], (List.append_nil _).symm⟩, ?_⟩
    exact Directory.lookup_put_of_ne hne

theorem code_receive (contents : Contents) : (o.receive p contents).code = o.code := by
  unfold receive
  split <;> rfl

/-- What could be written can be written after something was received, at the same place. -/
theorem writable_receive {path path' : String} (h : o.files.writable path = .ok p)
    (hq : o.files.writable path' = .ok q) (contents : Contents) :
    (o.receive q contents).files.writable path = .ok p := by
  unfold receive
  split
  · exact h
  · exact h
  · exact h
  · exact Directory.writable_put h hq

end Outcome

/-! ### Whole runs -/

section Runs

variable {lib : FontLibrary} {settings : Settings} {sources : Sources} {files : Directory}
  {loaded : Loaded} {text : String}

/-- The layout that is asked for is at its place, unless something else is put there. -/
def Dumped (files : Directory) (settings : Settings) (loaded : Loaded) (o : Outcome)
    (taken : Place → Prop) : Prop :=
  ∀ path ∈ settings.dumpLayout, ∃ layout,
    (layoutBubbles loaded.ast loaded.config.layout).outcome.value = .ok layout
      ∧ ∀ place, files.writable path = .ok place → ¬ taken place →
        o.Received place (LayoutDump.ofLayout layout).fileText

/-- A run that put out its text and saved the layout that was asked for. -/
structure Completed (files : Directory) (settings : Settings) (loaded : Loaded) (text : String)
    (o : Outcome) : Prop where
  code : o.code = 0
  printed : settings.output = none → ∃ before, o.output = before ++ text
  written : ∀ path ∈ settings.output, ∀ place, files.writable path = .ok place →
    o.Received place text
  dumped : Dumped files settings loaded o fun place =>
    ∃ path ∈ settings.output, files.writable path = .ok place

/-- After the layout was saved all can be written that could be. -/
theorem exists_saved (verbosity : Nat) {saves : List Step} (hdumps : Dumps settings loaded saves)
    (hdump : ∀ path ∈ settings.dumpLayout, ∃ place, files.writable path = .ok place)
    (notices : List String) :
    ∃ o, Outcome.perform verbosity ⟨0, "", notices, files⟩ saves = .ok o ∧ o.code = 0
      ∧ (∀ path place, files.writable path = .ok place → o.files.writable path = .ok place)
      ∧ Dumped files settings loaded o fun _ => False := by
  unfold Dumps at hdumps
  unfold Dumped
  cases hpath : settings.dumpLayout with
  | none =>
    rw [hpath] at hdumps
    rw [hdumps]
    exact ⟨_, rfl, rfl, fun _ _ h => h, nofun⟩
  | some path =>
    rw [hpath] at hdumps
    obtain ⟨layout, hlayout, rfl⟩ := hdumps
    obtain ⟨place, hplace⟩ := hdump path hpath
    let start : Outcome := ⟨0, "", notices, files⟩
    let contents := Contents.text (LayoutDump.ofLayout layout).fileText
    have hperform : Outcome.perform verbosity start [.save path contents]
        = .ok (start.receive place contents) := by
      simp only [Outcome.perform, start, hplace]
    refine ⟨_, hperform, Outcome.code_receive contents,
      fun path' place' h => Outcome.writable_receive (o := start) h hplace contents, ?_⟩
    · rintro _ ⟨⟩
      refine ⟨layout, hlayout, fun place' hplace' _ => ?_⟩
      cases hplace.symm.trans hplace'
      exact Outcome.received_receive

/-- A run that loads and draws puts everything where it belongs. -/
theorem completed_ofPlan (verbosity : Nat)
    (hload : (load settings sources).result = .ok loaded)
    {saves : List Step} (hdumps : Dumps settings loaded saves)
    (htext : text? lib settings loaded = some (.ok text))
    (hdump : ∀ path ∈ settings.dumpLayout, ∃ place, files.writable path = .ok place)
    (houtput : ∀ path ∈ settings.output, ∃ place, files.writable path = .ok place) :
    Completed files settings loaded text
      (Outcome.ofPlan verbosity files (plan lib settings sources)) := by
  obtain ⟨notices, more, hrun⟩ := ofPlan_of_ok verbosity files hload hdumps htext
  obtain ⟨o, hsaved, hcode, hwritable, hdumped⟩ :=
    exists_saved verbosity hdumps hdump notices
  let reported : Outcome := { o with notices := o.notices ++ more }
  have hreported : ∀ place, o.Extends reported place := fun place =>
    ⟨⟨"", String.append_empty.symm⟩, ⟨more, rfl⟩, rfl⟩
  cases hpath : settings.output with
  | none =>
    let printed : Outcome := { reported with output := o.output ++ text }
    have hprinted : ∀ place, o.Extends printed place := fun place =>
      ⟨⟨text, rfl⟩, ⟨more, rfl⟩, rfl⟩
    have hperform : Outcome.perform verbosity reported (putOut settings.output text).steps
        = .ok printed := by
      rw [hpath]
      rfl
    rw [hrun o printed hsaved hperform]
    refine ⟨hcode, fun _ => ⟨o.output, rfl⟩, by simp [hpath], ?_⟩
    rintro path hdumpPath
    obtain ⟨layout, hlayout, hreceived⟩ := hdumped path hdumpPath
    exact ⟨layout, hlayout,
      fun place hplace _ => (hreceived place hplace id).mono (hprinted place)⟩
  | some path =>
    obtain ⟨place, hplace⟩ := houtput path hpath
    have hperform : Outcome.perform verbosity reported (putOut settings.output text).steps
        = .ok (reported.receive place (.text text)) := by
      rw [hpath]
      simp only [putOut, Plan.save, Outcome.perform, reported, hwritable path place hplace]
    rw [hrun o _ hsaved hperform]
    refine ⟨(Outcome.code_receive _).trans hcode, by simp [hpath], ?_, ?_⟩
    · rintro _ hmem place' hplace'
      cases hpath.symm.trans hmem
      cases hplace.symm.trans hplace'
      exact Outcome.received_receive
    · rintro path' hdumpPath
      obtain ⟨layout, hlayout, hreceived⟩ := hdumped path' hdumpPath
      refine ⟨layout, hlayout, fun place' hplace' hfree => ?_⟩
      have hne : place' ≠ place := by
        rintro rfl
        exact hfree ⟨path, hpath, hplace⟩
      exact ((hreceived place' hplace' id).mono (hreported place')).mono
        (Outcome.extends_receive hne)

/-- A run that lays out a tree draws it too. -/
theorem exists_completed (lib : FontLibrary) (verbosity : Nat)
    (hload : (load settings sources).result = .ok loaded) {layout : BubbleLayout}
    (hlayout : (layoutBubbles loaded.ast loaded.config.layout).outcome.value = .ok layout)
    (hformat : settings.outputFormat ≠ .png)
    (hdump : ∀ path ∈ settings.dumpLayout, ∃ place, files.writable path = .ok place)
    (houtput : ∀ path ∈ settings.output, ∃ place, files.writable path = .ok place) :
    ∃ text, text? lib settings loaded = some (.ok text) ∧ Completed files settings loaded text
      (Outcome.ofPlan verbosity files (plan lib settings sources)) := by
  obtain ⟨text, htext⟩ := exists_text?_ok lib hformat hlayout
  obtain ⟨saves, hdumps⟩ : ∃ saves, Dumps settings loaded saves := by
    unfold Dumps
    cases settings.dumpLayout with
    | none => exact ⟨_, rfl⟩
    | some path => exact ⟨_, layout, hlayout, rfl⟩
  exact ⟨text, htext, completed_ofPlan verbosity hload hdumps htext hdump houtput⟩

/-- A run that puts out a text does all it is asked for or nothing.  It fails, with nothing shown
and no file changed, or it loads a tree, draws it and puts the text and the layout where they are
asked for. -/
theorem run_all_or_nothing (lib : FontLibrary) {args : List String} (input : String)
    (hargs : Settings.parse args = .ok settings) (hformat : settings.outputFormat ≠ .png)
    (hdump : ∀ path ∈ settings.dumpLayout, ∃ place, files.writable path = .ok place)
    (houtput : ∀ path ∈ settings.output, ∃ place, files.writable path = .ok place) :
    (run lib files args input).Failed files
      ∨ ∃ loaded text, (load settings (settings.sources files input)).result = .ok loaded
        ∧ text? lib settings loaded = some (.ok text)
        ∧ Completed files settings loaded text (run lib files args input) := by
  rw [run_of_parse hargs]
  cases hload : (load settings (settings.sources files input)).result with
  | error message => exact .inl (failed_of_load hload)
  | ok loaded =>
    cases hpath : settings.dumpLayout with
    | none =>
      obtain ⟨x, hx⟩ := exists_text? lib loaded hformat
      cases x with
      | error e => exact .inl (failed_of_text hload hpath hx)
      | ok text =>
        have hdumps : Dumps settings loaded [] := by
          rw [Dumps, hpath]
        exact .inr ⟨loaded, text, rfl, hx, completed_ofPlan _ hload hdumps hx hdump houtput⟩
    | some path =>
      cases hlayout : (layoutBubbles loaded.ast loaded.config.layout).outcome.value with
      | error e => exact .inl (failed_of_dump hload hpath hlayout)
      | ok layout =>
        obtain ⟨text, htext, hcompleted⟩ :=
          exists_completed lib settings.verbosity hload hlayout hformat hdump houtput
        exact .inr ⟨loaded, text, rfl, htext, hcompleted⟩

end Runs

/-! ### A drawing and its layout -/

def leafText : String := "\x7b\"type\":\"A\"\x7d"

/-- A single node is laid out whatever is asked for beside it. -/
theorem exists_layout_leafText (outputFormat : OutputFormat) (output dumpLayout : Option String) :
    let settings : Settings := { outputFormat, output, dumpLayout }
    ∃ loaded layout, (load settings (settings.sources {} leafText)).result = .ok loaded
      ∧ (layoutBubbles loaded.ast loaded.config.layout).outcome.value = .ok layout := by
  intro settings
  have hok : ((load settings (settings.sources {} leafText)).result.bind fun loaded =>
      (preorder loaded.ast loaded.config.layout.maxDepth
        loaded.config.layout.maxNodes).mapError LayoutError.message).isOk = true := by
    cbv
  cases hvisits : (load settings (settings.sources {} leafText)).result.bind
      fun loaded => (preorder loaded.ast loaded.config.layout.maxDepth
        loaded.config.layout.maxNodes).mapError LayoutError.message with
  | error e =>
    rw [hvisits] at hok
    cases hok
  | ok visits =>
    obtain ⟨loaded, hload, hvisits⟩ := exists_of_bind_eq_ok hvisits
    obtain ⟨layout, hlayout, -⟩ := layoutBubbles_ok (of_mapError_eq_ok hvisits)
    exact ⟨loaded, layout, hload, hlayout⟩

/-- A drawing and a layout for files that are not there yet are both in their files then. -/
theorem run_all_or_nothing_of_files :
    let args := ["--dumpLayout", "layout.json", "-o", "tree.svg"]
    let settings : Settings := { dumpLayout := some "layout.json", output := some "tree.svg" }
    let done := run .builtIn {} args leafText
    Settings.parse args = .ok settings ∧ done.code = 0
      ∧ ∃ loaded text layout, (load settings (settings.sources {} leafText)).result = .ok loaded
        ∧ text? .builtIn settings loaded = some (.ok text)
        ∧ (layoutBubbles loaded.ast loaded.config.layout).outcome.value = .ok layout
        ∧ done.files.files.lookup ["tmp", "work", "tree.svg"] = some (.text text)
        ∧ done.files.files.lookup ["tmp", "work", "layout.json"]
          = some (.text (LayoutDump.ofLayout layout).fileText) := by
  intro args settings done
  have hargs : Settings.parse args = .ok settings := rfl
  have hlayoutPlace : ({} : Directory).writable "layout.json"
      = .ok ["tmp", "work", "layout.json"] := rfl
  have htreePlace : ({} : Directory).writable "tree.svg" = .ok ["tmp", "work", "tree.svg"] := rfl
  have hdump : ∀ path ∈ settings.dumpLayout, ∃ place,
      ({} : Directory).writable path = .ok place := by
    rintro _ ⟨⟩
    exact ⟨_, hlayoutPlace⟩
  have houtput : ∀ path ∈ settings.output, ∃ place,
      ({} : Directory).writable path = .ok place := by
    rintro _ ⟨⟩
    exact ⟨_, htreePlace⟩
  refine ⟨hargs, ?_⟩
  obtain hfailed | ⟨loaded, text, hload, htext, hcompleted⟩ :=
    run_all_or_nothing .builtIn leafText hargs (by decide) hdump houtput
  · -- the tree can be laid out, so the run does not fail
    obtain ⟨loaded, layout, hload, hlayout⟩ :=
      exists_layout_leafText .svg (some "tree.svg") (some "layout.json")
    obtain ⟨text, -, hcompleted⟩ :=
      exists_completed .builtIn 0 hload hlayout (by decide) hdump houtput
    rw [run_of_parse hargs] at hfailed
    exact absurd (hfailed.1.symm.trans hcompleted.code) (by decide)
  · obtain ⟨layout, hlayout, hdumped⟩ := hcompleted.dumped _ rfl
    refine ⟨hcompleted.code, loaded, text, layout, hload, htext, hlayout,
      hcompleted.written _ rfl _ htreePlace, hdumped _ hlayoutPlace ?_⟩
    rintro ⟨_, ⟨⟩, htaken⟩
    exact absurd (Except.ok.inj (htreePlace.symm.trans htaken)) (by decide)

end TreeAtlas.Command
