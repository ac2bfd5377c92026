import TreeAtlas.Proofs.Command.Complete

/-!
# Pictures that are refused

A picture needs a file and a usable size.  Nothing but the settings is asked for that, and yet it is
asked last: a layout that is to be saved beside the picture is saved by then (`ofPlan_saving`).  So
a run that is refused leaves all files as they were but for this one, and it changes none exactly if
it saves no layout, or one that lies there already (`run_of_refused`).
-/

namespace TreeAtlas.Command

/-- A picture without a file, or of a size that is not usable. -/
def Settings.Refused (settings : Settings) : Prop :=
  settings.outputFormat = .png ∧ (settings.output = none
    ∨ ¬ (Image.isUsable settings.width = true ∧ Image.isUsable settings.height = true))

/-- What the user is told about it. -/
def Settings.refusal (settings : Settings) : String :=
  match settings.output with
  | none => "Output path required for png output"
  | some _ => "Invalid PNG size " ++ singleText settings.width ++ "x" ++ singleText settings.height

section Presenting

variable {settings : Settings} {sources : Sources} {loaded : Loaded}

/-- The size of a picture is that of the settings. -/
theorem exists_resize_of_load (h : (load settings sources).result = .ok loaded) :
    ∃ config, loaded.config = settings.resize config := by
  simp only [load, Plan.result_bind] at h
  obtain ⟨config, -, h⟩ := exists_of_bind_eq_ok h
  obtain ⟨text, -, h⟩ := exists_of_bind_eq_ok h
  obtain ⟨document, -, h⟩ := exists_of_bind_eq_ok h
  obtain ⟨ast, -, h⟩ := exists_of_bind_eq_ok h
  obtain ⟨⟨⟩, -, h⟩ := exists_of_bind_eq_ok h
  obtain ⟨tokens, -, h⟩ := exists_of_bind_eq_ok h
  cases h
  exact ⟨config, rfl⟩

/-- A picture is laid out before its size is refused. -/
theorem renderImage_of_unusable (lib : FontLibrary) (ast : Ast) {options : RenderOptions}
    (path : String) (hsize : ¬ (Image.isUsable options.config.render.width = true
      ∧ Image.isUsable options.config.render.height = true)) :
    renderImage lib ast options (some path)
      = Plan.attempt LayoutError.message (layoutView lib ast options) >>= fun _ =>
        Plan.fail ("Invalid PNG size " ++ singleText options.config.render.width ++ "x"
          ++ singleText options.config.render.height) := by
  rw [← Bool.and_eq_true] at hsize
  simp only [renderImage, if_neg hsize]

/-- What is presented are reports up to the refusal, or up to the failure of the layout. -/
theorem present_of_refused (lib : FontLibrary) (h : settings.Refused)
    (hload : (load settings sources).result = .ok loaded) :
    ∃ (lines : List LogLine) (message : String),
      present lib settings loaded = ⟨lines.map .report, .error message⟩
        ∧ ∀ layout, (layoutBubbles loaded.ast loaded.config.layout).outcome.value = .ok layout →
          message = settings.refusal := by
  obtain ⟨hformat, hrefused⟩ := h
  obtain ⟨config, hconfig⟩ := exists_resize_of_load hload
  unfold present
  rw [hformat]
  cases houtput : settings.output with
  | none => exact ⟨[], _, rfl, fun _ _ => by rw [Settings.refusal, houtput]⟩
  | some path =>
    have hsize : ¬ (Image.isUsable (settings.options loaded.config).config.render.width = true
        ∧ Image.isUsable (settings.options loaded.config).config.render.height = true) := by
      rw [Settings.options, hconfig]
      exact hrefused.resolve_left (by simp [houtput])
    simp only []
    rw [renderImage_of_unusable lib loaded.ast path hsize]
    cases hview : (layoutView lib loaded.ast (settings.options loaded.config)).outcome.value with
    | error e =>
      refine ⟨_, _, Plan.attempt_bind_of_error hview, fun layout hlayout => ?_⟩
      obtain ⟨view, hview'⟩ :=
        exists_layoutView lib (settings.options loaded.config) hlayout
      rw [hview] at hview'
      cases hview'
    | ok view =>
      rw [Plan.attempt_bind_of_ok hview, Plan.fail, List.append_nil]
      refine ⟨_, _, rfl, fun _ _ => ?_⟩
      rw [Settings.refusal, houtput, Settings.options, hconfig]
      rfl

/-- What follows the loading are reports, with a layout saved among them if there is one to save. -/
theorem dump_present_of_refused (lib : FontLibrary) (h : settings.Refused)
    (hload : (load settings sources).result = .ok loaded) :
    ∃ (p : Plan Unit) (message : String),
      (dump settings loaded >>= fun _ => present lib settings loaded) = p
        ∧ p.result = .error message
        ∧ (∀ layout, (layoutBubbles loaded.ast loaded.config.layout).outcome.value = .ok layout →
          message = settings.refusal)
        ∧ ((p.Silent ∧ ∀ path layout, settings.dumpLayout = some path →
            (layoutBubbles loaded.ast loaded.config.layout).outcome.value ≠ .ok layout)
          ∨ ∃ (path : String) (layout : BubbleLayout) (before after : List LogLine),
            settings.dumpLayout = some path
              ∧ (layoutBubbles loaded.ast loaded.config.layout).outcome.value = .ok layout
              ∧ p.steps = before.map .report
                ++ .save path (.text (LayoutDump.ofLayout layout).fileText)
                  :: after.map .report) := by
  obtain ⟨lines, message, hpresent, hmessage⟩ := present_of_refused lib h hload
  rw [hpresent]
  cases hpath : settings.dumpLayout with
  | none =>
    have hdump : dump settings loaded = Pure.pure () := by
      rw [dump, hpath]
      rfl
    rw [hdump, pure_bind]
    exact ⟨_, message, rfl, rfl, hmessage, .inl ⟨Plan.silent_reports lines, by simp⟩⟩
  | some path =>
    cases hlayout : (layoutBubbles loaded.ast loaded.config.layout).outcome.value with
    | error e =>
      obtain ⟨laid, hdump⟩ := dump_of_error hpath hlayout
      rw [hdump, Plan.bind_of_error rfl]
      exact ⟨_, e.message, rfl, rfl, by simp, .inl ⟨Plan.silent_reports laid, by simp⟩⟩
    | ok layout =>
      have hdumps : Dumps settings loaded
          [.save path (.text (LayoutDump.ofLayout layout).fileText)] := by
        rw [Dumps, hpath]
        exact ⟨layout, hlayout, rfl⟩
      obtain ⟨laid, dumped, hdump⟩ := dump_of_dumps hdumps
      rw [hdump, Plan.bind_of_ok rfl]
      refine ⟨_, message, rfl, rfl, fun _ _ => hmessage layout hlayout,
        .inr ⟨path, layout, laid, dumped ++ lines, rfl, rfl, ?_⟩⟩
      simp only [List.map_append, List.append_assoc, List.cons_append, List.nil_append]

end Presenting

/-! ### What a failing plan saves -/

namespace Outcome

variable {files : Directory} {o : Outcome}

theorem files_receive_text (place : Place) (s : String) :
    (o.receive place (.text s)).files
      = if place ∈ devices then o.files else o.files.put place (.text s) := by
  by_cases hplace : place ∈ devices
  · rw [if_pos hplace]
    simp only [devices, List.mem_cons, List.not_mem_nil, or_false] at hplace
    rcases hplace with rfl | rfl | rfl <;> rfl
  · rw [if_neg hplace, receive_of_notMem hplace]

/-- A plan that fails after nothing but reports leaves the files. -/
theorem ofPlan_silent (verbosity : Nat) (files : Directory) {p : Plan Unit} {message : String}
    (hp : p.Silent) (hr : p.result = .error message) :
    ∃ o : Outcome, o.files = files ∧ ofPlan verbosity files p = o.fail message := by
  obtain ⟨more, hperform⟩ := perform_silent verbosity hp
  refine ⟨⟨0, "", [] ++ more, files⟩, rfl, ?_⟩
  rw [ofPlan, hperform, hr]

/-- A plan with a text to save among its reports fails at this step or at its end. -/
theorem ofPlan_saving (verbosity : Nat) (files : Directory) {p : Plan Unit}
    {before after : List Step} {path s message : String}
    (hsteps : p.steps = before ++ .save path (.text s) :: after)
    (hbefore : ∀ step ∈ before, ∃ line, step = .report line)
    (hafter : ∀ step ∈ after, ∃ line, step = .report line) (hr : p.result = .error message) :
    (∀ e, files.writable path = .error e →
        ∃ o : Outcome, o.files = files ∧ ofPlan verbosity files p = o.fail e.message)
      ∧ ∀ place, files.writable path = .ok place →
        ∃ o : Outcome, o.files = (if place ∈ devices then files else files.put place (.text s))
          ∧ ofPlan verbosity files p = o.fail message := by
  obtain ⟨notices, hreported⟩ := perform_silent verbosity hbefore
  obtain ⟨more, hmore⟩ := perform_silent verbosity hafter
  let reported : Outcome := ⟨0, "", [] ++ notices, files⟩
  unfold ofPlan
  rw [hsteps, perform_append, hreported, hr]
  simp only [Except.bind]
  refine ⟨fun e he => ⟨reported, rfl, ?_⟩, fun place hplace => ?_⟩
  · simp only [perform, he, reported]
  · let saved := reported.receive place (.text s)
    refine ⟨{ saved with notices := saved.notices ++ more }, files_receive_text place s, ?_⟩
    simp only [perform, hplace, hmore, reported, saved]

theorem files_fail (o : Outcome) (message : String) : (o.fail message).files = o.files := rfl

theorem getLast?_notices_fail (o : Outcome) (message : String) :
    (o.fail message).notices.getLast? = some (errorText message) :=
  List.getLast?_concat

end Outcome

/-! ### Whole runs -/

/-- The layout that a run saves before it presents anything, and where. -/
def Saves (files : Directory) (settings : Settings) (input : String) (place : Place)
    (text : String) : Prop :=
  ∃ path loaded layout, settings.dumpLayout = some path
    ∧ (load settings (settings.sources files input)).result = .ok loaded
    ∧ (layoutBubbles loaded.ast loaded.config.layout).outcome.value = .ok layout
    ∧ files.writable path = .ok place ∧ place ∉ Outcome.devices
    ∧ text = (LayoutDump.ofLayout layout).fileText

section Runs

variable {settings : Settings} {files : Directory} {args : List String} {input : String}

/-- A run saves one layout at most. -/
theorem Saves.unique {place place' : Place} {text text' : String}
    (h : Saves files settings input place text) (h' : Saves files settings input place' text') :
    place' = place ∧ text' = text := by
  obtain ⟨path, loaded, layout, hpath, hload, hlayout, hplace, -, rfl⟩ := h
  obtain ⟨path', loaded', layout', hpath', hload', hlayout', hplace', -, rfl⟩ := h'
  cases hpath.symm.trans hpath'
  cases hload.symm.trans hload'
  cases hlayout.symm.trans hlayout'
  cases hplace.symm.trans hplace'
  exact ⟨rfl, rfl⟩

/-- Elsewhere there is what there was. -/
theorem Saves.entry {place : Place} {text : String} (h : Saves files settings input place text)
    (p : Place) : Directory.entry? (files.put place (.text text)) p
      = if p = place then some (.file (.text text)) else files.entry? p := by
  obtain ⟨path, -, -, -, -, -, hplace, -⟩ := h
  have hroot := Directory.rooted_of_locate (Directory.writable_eq_ok_iff.1 hplace).1
  split_ifs with hp
  · rw [hp, Directory.entry_put_self]
  · exact Directory.entry_put_of_ne hroot hp

/-- What a run needs to get to the refusal. -/
structure ReachesRefusal (files : Directory) (settings : Settings) (input : String) : Prop where
  layout : ∃ loaded layout, (load settings (settings.sources files input)).result = .ok loaded
    ∧ (layoutBubbles loaded.ast loaded.config.layout).outcome.value = .ok layout
  dump : ∀ path ∈ settings.dumpLayout, ∃ place, files.writable path = .ok place

/-- The end of a refused run: it fails, with the refusal if it gets there, and has saved its layout
or nothing. -/
def EndsRefused (files : Directory) (settings : Settings) (input : String) (o' : Outcome) :
    Prop :=
  ∃ (o : Outcome) (message : String), o' = o.fail message
    ∧ (ReachesRefusal files settings input → message = settings.refusal)
    ∧ ((o.files = files ∧ ∀ place text, ¬ Saves files settings input place text)
      ∨ ∃ place text, Saves files settings input place text
        ∧ o.files = files.put place (.text text))

section Ends

variable {p : Plan Unit} {loaded : Loaded} {layout : BubbleLayout} {path message : String}

theorem endsRefused_of_silent (hp : p.Silent) (hr : p.result = .error message)
    (hmessage : ReachesRefusal files settings input → message = settings.refusal)
    (hnone : ∀ place text, ¬ Saves files settings input place text) :
    EndsRefused files settings input (Outcome.ofPlan settings.verbosity files p) := by
  obtain ⟨o, ho, hend⟩ := Outcome.ofPlan_silent settings.verbosity files hp hr
  exact ⟨o, message, hend, hmessage, .inl ⟨ho, hnone⟩⟩

/-- A layout to be saved fails the run where it cannot be written, and goes where it can. -/
theorem endsRefused_of_saving {before after : List Step} (hpath : settings.dumpLayout = some path)
    (hload : (load settings (settings.sources files input)).result = .ok loaded)
    (hlayout : (layoutBubbles loaded.ast loaded.config.layout).outcome.value = .ok layout)
    (hsteps : p.steps
      = before ++ .save path (.text (LayoutDump.ofLayout layout).fileText) :: after)
    (hbefore : ∀ step ∈ before, ∃ line, step = .report line)
    (hafter : ∀ step ∈ after, ∃ line, step = .report line) (hr : p.result = .error message)
    (hmessage : ReachesRefusal files settings input → message = settings.refusal) :
    EndsRefused files settings input (Outcome.ofPlan settings.verbosity files p) := by
  obtain ⟨hfault, hsaved⟩ :=
    Outcome.ofPlan_saving settings.verbosity files hsteps hbefore hafter hr
  -- What is saved elsewhere or not at all contradicts this path.
  have hplaces : ∀ place text, Saves files settings input place text →
      files.writable path = .ok place ∧ place ∉ Outcome.devices := by
    rintro place text ⟨path', -, -, hpath', -, -, hplace, hnot, -⟩
    cases hpath.symm.trans hpath'
    exact ⟨hplace, hnot⟩
  cases hplace : files.writable path with
  | error e =>
    obtain ⟨o, ho, hend⟩ := hfault e hplace
    refine ⟨o, e.message, hend, fun hreaches => ?_, .inl ⟨ho, fun place text hsaves => ?_⟩⟩
    · obtain ⟨place, hplace'⟩ := hreaches.dump path hpath
      cases hplace.symm.trans hplace'
    · cases hplace.symm.trans (hplaces place text hsaves).1
  | ok place =>
    obtain ⟨o, ho, hend⟩ := hsaved place hplace
    refine ⟨o, message, hend, hmessage, ?_⟩
    by_cases hdevice : place ∈ Outcome.devices
    · rw [if_pos hdevice] at ho
      refine .inl ⟨ho, fun place' text hsaves => ?_⟩
      obtain ⟨hplace', hnot⟩ := hplaces place' text hsaves
      cases hplace.symm.trans hplace'
      exact hnot hdevice
    · rw [if_neg hdevice] at ho
      exact .inr ⟨place, _, ⟨path, loaded, layout, hpath, hload, hlayout, hplace, hdevice, rfl⟩, ho⟩

end Ends

theorem endsRefused_run (lib : FontLibrary) (files : Directory) (input : String)
    (hargs : Settings.parse args = .ok settings) (h : settings.Refused) :
    EndsRefused files settings input (run lib files args input) := by
  rw [run_of_parse hargs, plan_eq]
  have hsilent := silent_load settings (settings.sources files input)
  cases hload : (load settings (settings.sources files input)).result with
  | error message =>
    rw [Plan.bind_of_error hload]
    refine endsRefused_of_silent hsilent rfl (fun hreaches => ?_) fun place text hsaves => ?_
    · obtain ⟨loaded, -, hload', -⟩ := hreaches.layout
      cases hload.symm.trans hload'
    · obtain ⟨-, loaded, -, -, hload', -⟩ := hsaves
      cases hload.symm.trans hload'
  | ok loaded =>
    obtain ⟨p, message, hp, hresult, hmessage, hsteps⟩ := dump_present_of_refused lib h hload
    have hreaches : ReachesRefusal files settings input → message = settings.refusal := by
      intro hreaches
      obtain ⟨loaded', layout, hload', hlayout⟩ := hreaches.layout
      cases hload.symm.trans hload'
      exact hmessage layout hlayout
    rw [Plan.bind_of_ok hload, hp]
    rcases hsteps with ⟨hquiet, hnone⟩ | ⟨path, layout, before, after, hpath, hlayout, hsteps⟩
    · refine endsRefused_of_silent (List.forall_mem_append.2 ⟨hsilent, hquiet⟩) hresult hreaches
        fun place text hsaves => ?_
      obtain ⟨path, loaded', layout, hpath, hload', hlayout, -⟩ := hsaves
      cases hload.symm.trans hload'
      exact hnone path layout hpath hlayout
    · rw [hsteps, ← List.append_assoc]
      exact endsRefused_of_saving hpath hload hlayout rfl
        (List.forall_mem_append.2 ⟨hsilent, Plan.silent_reports before⟩)
        (Plan.silent_reports after) hresult hreaches

/-- A run that is refused fails and leaves the files, but for the layout that it saves.  So no file
is changed exactly if no layout is saved, or one that lies there already, and surely if none is
asked for. -/
theorem run_of_refused (lib : FontLibrary) (files : Directory) (input : String)
    (hargs : Settings.parse args = .ok settings) (h : settings.Refused) :
    (run lib files args input).code = 1
      ∧ (ReachesRefusal files settings input →
        (run lib files args input).notices.getLast? = some (errorText settings.refusal))
      ∧ (∀ place text, Saves files settings input place text → ∀ p,
        Directory.entry? (run lib files args input).files p
          = if p = place then some (.file (.text text)) else files.entry? p)
      ∧ ((∀ p, Directory.entry? (run lib files args input).files p = files.entry? p)
        ↔ ∀ place text, Saves files settings input place text →
          files.entry? place = some (.file (.text text)))
      ∧ (settings.dumpLayout = none → (run lib files args input).files = files) := by
  obtain ⟨o, message, hrun, hmessage, hfiles⟩ := endsRefused_run lib files input hargs h
  rw [hrun, Outcome.files_fail, Outcome.getLast?_notices_fail]
  refine ⟨rfl, fun hreaches => by rw [hmessage hreaches], ?_⟩
  rcases hfiles with ⟨ho, hnone⟩ | ⟨place, text, hsaves, ho⟩
  · rw [ho]
    exact ⟨fun place text hsaves => absurd hsaves (hnone place text),
      ⟨fun _ place text hsaves => absurd hsaves (hnone place text), fun _ _ => rfl⟩, fun _ => rfl⟩
  · have hentry : ∀ p, o.files.entry? p
        = if p = place then some (.file (.text text)) else files.entry? p := by
      rw [ho]
      exact hsaves.entry
    refine ⟨fun place' text' hsaves' => ?_,
      ⟨fun hsame place' text' hsaves' => ?_, fun hsame p => ?_⟩, fun hnone => ?_⟩
    · obtain ⟨rfl, rfl⟩ := hsaves.unique hsaves'
      exact hentry
    · obtain ⟨rfl, rfl⟩ := hsaves.unique hsaves'
      rw [← hsame place', hentry, if_pos rfl]
    · rw [hentry]
      split_ifs with hp
      · rw [hp, hsame place text hsaves]
      · rfl
    · obtain ⟨path, -, -, hpath, -⟩ := hsaves
      rw [hnone] at hpath
      cases hpath

end Runs

/-! ### A layout that is left behind -/

/-- A picture without a file, and a layout for a file that is not there yet. -/
def layoutArgs : List String :=
  ["-e", "png", "--dumpLayout", "layout.json"]

def layoutSettings : Settings :=
  { outputFormat := .png, dumpLayout := some "layout.json" }

def layoutPlace : Place :=
  ["tmp", "work", "layout.json"]

theorem parse_layoutArgs : Settings.parse layoutArgs = .ok layoutSettings := rfl

theorem refused_layoutSettings : layoutSettings.Refused :=
  ⟨rfl, .inl rfl⟩

theorem writable_layoutPlace : ({} : Directory).writable "layout.json" = .ok layoutPlace := rfl

theorem reachesRefusal_leafText : ReachesRefusal {} layoutSettings leafText where
  layout := exists_layout_leafText .png none (some "layout.json")
  dump := by
    rintro _ ⟨⟩
    exact ⟨layoutPlace, writable_layoutPlace⟩

/-- The run is told that a file is missing. -/
theorem run_of_refused_leafText :
    Settings.parse layoutArgs = .ok layoutSettings ∧ layoutSettings.Refused
      ∧ ReachesRefusal {} layoutSettings leafText
      ∧ (run .builtIn {} layoutArgs leafText).code = 1
      ∧ (run .builtIn {} layoutArgs leafText).notices.getLast?
        = some (errorText "Output path required for png output") := by
  obtain ⟨hcode, hnotice, -⟩ := run_of_refused .builtIn {} leafText parse_layoutArgs
    refused_layoutSettings
  exact ⟨parse_layoutArgs, refused_layoutSettings, reachesRefusal_leafText, hcode,
    hnotice reachesRefusal_leafText⟩

/-- It fails with a new file left behind. -/
theorem run_leaves_layout :
    (run .builtIn {} layoutArgs leafText).code = 1
      ∧ (run .builtIn {} layoutArgs leafText).notices.getLast?
        = some (errorText "Output path required for png output")
      ∧ Directory.entry? {} layoutPlace = none
      ∧ ∃ text, Directory.entry? (run .builtIn {} layoutArgs leafText).files layoutPlace
        = some (.file (.text text)) := by
  obtain ⟨loaded, layout, hload, hlayout⟩ :=
    exists_layout_leafText .png none (some "layout.json")
  have hsaves : Saves {} layoutSettings leafText layoutPlace
      (LayoutDump.ofLayout layout).fileText :=
    ⟨_, loaded, layout, rfl, hload, hlayout, writable_layoutPlace, by decide, rfl⟩
  obtain ⟨o, message, hrun, hmessage, ⟨-, hnone⟩ | ⟨place, text, hsaves', ho⟩⟩ :=
    endsRefused_run .builtIn {} leafText parse_layoutArgs refused_layoutSettings
  · exact absurd hsaves (hnone _ _)
  · obtain ⟨rfl, rfl⟩ := hsaves.unique hsaves'
    rw [hrun, hmessage reachesRefusal_leafText, Outcome.getLast?_notices_fail,
      Outcome.files_fail, ho, hsaves.entry, if_pos rfl]
    exact ⟨rfl, rfl, by decide, _, rfl⟩

end TreeAtlas.Command
