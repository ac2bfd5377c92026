import TreeAtlas.Proofs.Command.Carrying
import TreeAtlas.Proofs.Json.Nesting
import TreeAtlas.Proofs.Json.Rereading
import TreeAtlas.Proofs.Panel.Page

/-!
# The command and the library

The library reads a document and draws it in one call.  The command reads its sources one by one,
puts the size of a picture into the configuration and reports on the way.  Still the two read the
same (`result_load`), the size is nothing to a text (`run_resize`), and the selection is the one the
arguments give, as no option is given twice (`selected_of_mem`).  So a run that prints a text
answers the call for its document, its failures included (`run_agrees_with_library`).
-/

namespace TreeAtlas.Command

/-! ### The selection -/

namespace Reading

variable {r r' : Reading} {text : String}

/-- The option that selects was given, with this text. -/
def Selects (r : Reading) (text : String) : Prop :=
  .select ∈ r.given ∧ r.settings.selected = some text

theorem selected_assign? {s s' : Settings} {o : OptionName} {value : String} (ho : o ≠ .select)
    (h : s.assign? o value = some s') : s'.selected = s.selected := by
  cases o with
  | select => exact absurd rfl ho
  | verbose | help | version => cases h
  | _ =>
    obtain ⟨_, -, rfl⟩ := Option.map_eq_some_iff.1 h
    rfl

theorem assign_eq_ok {o : OptionName} {value : String} (h : r.assign o value = .ok r') :
    o ∉ r.given ∧ ∃ settings, r.settings.assign? o value = some settings
      ∧ r' = { r with settings, given := o :: r.given, pending := none } := by
  unfold assign at h
  split_ifs at h with ho
  split at h
  · cases h
  · rename_i settings hsettings
    cases h
    exact ⟨ho, settings, hsettings, rfl⟩

/-- No option is given twice, so a selection stays. -/
theorem Selects.assign (h : r.Selects text) {o : OptionName} {value : String}
    (hr : r.assign o value = .ok r') : r'.Selects text := by
  obtain ⟨ho, settings, hsettings, rfl⟩ := assign_eq_ok hr
  have hne : o ≠ .select := by
    rintro rfl
    exact ho h.1
  exact ⟨List.mem_cons_of_mem _ h.1, (selected_assign? hne hsettings).trans h.2⟩

theorem Selects.meet (h : r.Selects text) {o : OptionName} (hr : r.meet o = .ok r') :
    r'.Selects text := by
  unfold Reading.meet at hr
  split at hr
  · cases hr
  · cases hr
  · cases hr
    exact h

theorem Selects.letters {cs : List Char} (h : r.Selects text) (hr : r.letters cs = .ok r') :
    r'.Selects text := by
  induction cs generalizing r with
  | nil =>
    cases hr
    exact h
  | cons c cs ih =>
    rw [Reading.letters.eq_def] at hr
    simp only [] at hr
    split at hr
    · cases hr
    · split_ifs at hr
      · split at hr
        · cases hr
          exact h
        · exact h.assign hr
        · exact h.assign hr
      · obtain ⟨r₁, hmeet, hr⟩ := exists_of_bind_eq_ok hr
        exact ih (h.meet hmeet) hr

theorem Selects.longName {cs : List Char} (h : r.Selects text) (hr : r.longName cs = .ok r') :
    r'.Selects text := by
  unfold Reading.longName at hr
  split at hr
  · cases hr
  · split at hr
    · cases hr
      exact h
    · exact h.assign hr
    · exact h.meet hr
    · cases hr

theorem Selects.step {arg : String} (h : r.Selects text) (hr : r.step arg = .ok r') :
    r'.Selects text := by
  unfold Reading.step at hr
  split_ifs at hr
  split at hr
  · cases hr
    exact h
  · exact h.longName hr
  · exact h.letters hr
  · cases hr
  · exact h.assign hr
  · cases hr

/-- The argument that selects is refused or does so. -/
theorem selects_of_step (hr : r.step ("--select=" ++ text) = .ok r') : r'.Selects text := by
  have hchars : ("--select=" ++ text).toList = '-' :: '-' :: 's' :: 'e' :: 'l' :: 'e' :: 'c' :: 't'
      :: '=' :: text.toList := by
    rw [String.toList_append]
    rfl
  unfold Reading.step at hr
  split_ifs at hr
  rw [hchars] at hr
  cases hp : r.pending with
  | some o =>
    rw [hp] at hr
    cases hr
  | none =>
    rw [hp] at hr
    have hassign : r.assign .select (String.ofList text.toList) = .ok r' := hr
    rw [String.ofList_toList] at hassign
    obtain ⟨-, settings, hsettings, rfl⟩ := assign_eq_ok hassign
    cases hsettings
    exact ⟨List.mem_cons_self, rfl⟩

theorem Selects.foldlM {args : List String} (h : r.Selects text)
    (hr : args.foldlM Reading.step r = .ok r') : r'.Selects text := by
  induction args generalizing r with
  | nil =>
    cases hr
    exact h
  | cons arg args ih =>
    rw [List.foldlM_cons] at hr
    obtain ⟨r₁, hstep, hr⟩ := exists_of_bind_eq_ok hr
    exact ih (h.step hstep) hr

theorem selects_of_mem {args : List String} (hmem : "--select=" ++ text ∈ args)
    (hr : args.foldlM Reading.step r = .ok r') : r'.Selects text := by
  induction args generalizing r with
  | nil => cases hmem
  | cons arg args ih =>
    rw [List.foldlM_cons] at hr
    obtain ⟨r₁, hstep, hrest⟩ := exists_of_bind_eq_ok hr
    rcases List.mem_cons.1 hmem with rfl | hmem
    · exact (selects_of_step hstep).foldlM hrest
    · exact ih hmem hrest

end Reading

/-- A text that is given to be selected is selected. -/
theorem selected_of_mem {args : List String} {settings : Settings} {text : String}
    (hargs : Settings.parse args = .ok settings) (hmem : "--select=" ++ text ∈ args) :
    settings.selected = some text := by
  obtain ⟨r, hr, hargs⟩ := exists_of_bind_eq_ok hargs
  split at hargs
  · cases hargs
  · cases hargs
    exact (Reading.selects_of_mem hmem hr).2

/-! ### Sizes of pictures -/

/-- Only drawings read the settings of the panel that a size belongs to. -/
theorem lines_renderCard (p : AstPanel) (lib : FontLibrary) (render : RenderConfig)
    (document : Option Document) (selected : Option AstNode) (tokens : List Token) :
    ({ p with render }.renderCard lib document selected tokens).lines
      = (p.renderCard lib document selected tokens).lines := by
  unfold AstPanel.renderCard
  cases AstPanel.shown? document with
  | none => rfl
  | some d =>
    cases hmode : p.viewMode <;> simp only [AstPanel.draw, hmode]

section Sizes

variable (lib : FontLibrary) (ast : Ast) (tokens : List Token) (options : RenderOptions)

/-- The page of a tree, by the card that is rendered from scratch. -/
theorem value_renderTreePage :
    (renderTreePage lib ast tokens options).outcome.value
      = (AstPanel.freshCard lib options.config options.view (some ⟨0, ast⟩)
          (selectedNode? ast options.selected) tokens).map fun card =>
            renderPage options.config.theme pageTitle card.write := by
  let p := ((AstPanel.new options.config).setViewMode options.view).value
  have hsettled : p.Settled lib options.config := AstPanel.settled_new.setViewMode options.view
  have hagrees : p.Agrees (some ⟨0, ast⟩) := by rintro (_ | _) d ⟨⟩
  have hcard := (hsettled.renderCard hagrees (selectedNode? ast options.selected) tokens).1
  rw [renderTreePage, Attempt.value_bind, value_renderTreeCard, hcard]
  rfl

theorem lines_renderTreePage :
    (renderTreePage lib ast tokens options).outcome.lines
      = ((AstPanel.new options.config).setViewMode options.view).lines
        ++ ((if options.selected.isSome && (selectedNode? ast options.selected).isNone
            then [noSelectionLine] else [])
          ++ (((AstPanel.new options.config).setViewMode options.view).value.renderCard lib
              (some ⟨0, ast⟩) (selectedNode? ast options.selected) tokens).lines) := by
  have hcard : (renderTreePage lib ast tokens options).outcome.lines
      = (renderTreeCard lib ast tokens options).outcome.lines := by
    rw [renderTreePage, Attempt.lines_bind]
    cases (renderTreeCard lib ast tokens options).outcome.value <;> exact List.append_nil _
  rw [hcard, renderTreeCard, Attempt.lines_bind, Attempt.lines_lift, Attempt.value_lift]
  simp only []
  split
  · simp only [Attempt.lines_bind, Attempt.lines_log, Attempt.value_log, Attempt.lines_lift,
      Attempt.value_lift, Attempt.lines_ofExcept, List.append_nil]
  · simp only [Attempt.lines_bind, Attempt.lines_lift, Attempt.value_lift, Attempt.lines_ofExcept,
      List.append_nil, List.nil_append]

variable (settings : Settings)

theorem drawTree_resize :
    (drawTree lib ast { options with config := settings.resize options.config }).outcome
      = (drawTree lib ast options).outcome := by
  have hlayout : layoutView lib ast { options with config := settings.resize options.config }
      = layoutView lib ast options := rfl
  have hdraw : ∀ layout : ViewLayout,
      layout.draw { options with config := settings.resize options.config }
        = layout.draw options := by
    rintro (_ | _) <;> rfl
  simp only [drawTree, hlayout, hdraw]

theorem renderTreePage_resize :
    (renderTreePage lib ast tokens
        { options with config := settings.resize options.config }).outcome
      = (renderTreePage lib ast tokens options).outcome := by
  have hfresh : ∀ config mode document selected,
      AstPanel.freshCard lib (settings.resize config) mode document selected tokens
        = AstPanel.freshCard lib config mode document selected tokens := by
    rintro config (_ | _) document selected <;> rfl
  have hvalue : (renderTreePage lib ast tokens
        { options with config := settings.resize options.config }).outcome.value
      = (renderTreePage lib ast tokens options).outcome.value := by
    rw [value_renderTreePage, value_renderTreePage]
    simp only [hfresh]
    rfl
  have hlines : (renderTreePage lib ast tokens
        { options with config := settings.resize options.config }).outcome.lines
      = (renderTreePage lib ast tokens options).outcome.lines := by
    have hcard := lines_renderCard ((AstPanel.new options.config).setViewMode options.view).value
      lib (AstPanel.new (settings.resize options.config)).render (some ⟨0, ast⟩)
      (selectedNode? ast options.selected) tokens
    rw [lines_renderTreePage, lines_renderTreePage, ← hcard]
    rfl
  exact congrArg₂ Logged.mk hvalue hlines

/-- The size of a picture is nothing to a text. -/
theorem present_resize (hformat : settings.outputFormat ≠ .png) (settings' : Settings)
    (config : Config) :
    present lib settings ⟨settings'.resize config, ast, tokens⟩
      = present lib settings ⟨config, ast, tokens⟩ := by
  unfold present
  cases h : settings.outputFormat with
  | svg =>
    have hdraw := drawTree_resize lib ast (settings.options config) settings'
    exact congrArg (· >>= _) (Plan.attempt_congr LayoutError.message hdraw)
  | html =>
    have hpage := renderTreePage_resize lib ast tokens (settings.options config) settings'
    exact congrArg (· >>= _) (Plan.attempt_congr LayoutError.message hpage)
  | png => exact absurd h hformat

theorem text?_resize (settings' : Settings) (config : Config) :
    text? lib settings ⟨settings'.resize config, ast, tokens⟩
      = text? lib settings ⟨config, ast, tokens⟩ := by
  have hdraw := drawTree_resize lib ast (settings.options config) settings'
  have hpage := renderTreePage_resize lib ast tokens (settings.options config) settings'
  unfold text?
  cases settings.outputFormat with
  | svg => exact congrArg (fun x => some (x.value.map Markup.write)) hdraw
  | html => exact congrArg (fun x => some x.value) hpage
  | png => rfl

/-- A run that puts out a text does the same for any size of a picture. -/
theorem run_resize {files : Directory} {args args' : List String} {input : String}
    {width height : Float32} (hformat : settings.outputFormat ≠ .png)
    (hargs : Settings.parse args = .ok settings)
    (hargs' : Settings.parse args' = .ok { settings with width, height }) :
    run lib files args input = run lib files args' input := by
  let settings' := { settings with width, height }
  have hpresent : ∀ loaded, present lib settings' loaded = present lib settings loaded :=
    fun _ => rfl
  have hplan : plan lib settings (settings.sources files input)
      = plan lib settings' (settings.sources files input) := by
    simp only [plan_eq, load, bind_assoc, pure_bind, hpresent,
      present_resize lib _ _ settings hformat]
    rfl
  rw [run_of_parse hargs, run_of_parse hargs', hplan]
  rfl

end Sizes

/-! ### What the library reads -/

/-- The configuration for what was read of a file for it, if one was named. -/
def Sources.Configured (sources : Sources) (config : Config) : Prop :=
  match sources.config with
  | none => config = {}
  | some source => ∃ text, source = .ok text ∧ (Config.parse text).outcome.value = .ok config

/-- The tokens of a text, if there is one. -/
def readTokens : Option String → Except TokenError (List Token)
  | none => .ok []
  | some text => Token.parseList text

section Reading

variable (settings : Settings) {sources : Sources} {config : Config} {text : String}
  {tokens : Option String}

theorem result_loadConfig (h : sources.Configured config) :
    (loadConfig sources.config).result = .ok config := by
  unfold Sources.Configured at h
  cases hs : sources.config with
  | none =>
    rw [hs] at h
    rw [h]
    rfl
  | some source =>
    rw [hs] at h
    obtain ⟨text, rfl, hparse⟩ := h
    simp only [loadConfig, Plan.attempt, hparse]
    rfl

theorem loadTokens_alone (path : Option String) :
    loadTokens path (tokens.map .ok) none = (readTokens tokens).mapError TokenError.message := by
  cases tokens <;> rfl

/-- The command loads what the library reads, and fails to where that does. -/
theorem result_load (hconfig : sources.Configured config) (htext : sources.input = .ok text)
    (hunbundled : ∀ v, Json.parse none text = .ok v → Unbundled v)
    (htokens : sources.tokens = tokens.map .ok) :
    match (Ast.ofText defaultNesting text).outcome.value, readTokens tokens with
    | .ok ast, .ok list =>
      (load settings sources).result = .ok ⟨settings.resize config, ast, list⟩
    | _, _ => ∃ message, (load settings sources).result = .error message := by
  have hload := result_loadConfig hconfig
  rw [Ast.ofText, Attempt.value_bind, Attempt.value_ofExcept]
  cases hv : readDocument defaultNesting text with
  | error e =>
    simp only [load, Plan.result_bind, hload, htext, hv, Plan.ofExcept, Except.mapError,
      Except.bind]
    exact ⟨_, rfl⟩
  | ok v =>
    have hplain : Unbundled v := hunbundled v (Json.parse_of_readDocument hv).2
    rw [load_of_document _ _ htext hv, splitBundle_of_unbundled hplain, htokens, loadTokens_alone,
      Plan.bind_of_ok hload]
    simp only [Except.bind]
    cases hast : (Ast.ofJson defaultNesting v).outcome.value with
    | error e => exact ⟨_, by rw [Plan.attempt_bind_of_error hast]⟩
    | ok ast =>
      rw [Plan.attempt_bind_of_ok hast]
      cases hlist : readTokens tokens with
      | error e => exact ⟨_, rfl⟩
      | ok list => rfl

end Reading

/-- A run that does what comes of a call of the library: its text is shown, or the run fails. -/
def Outcome.Answers (o : Outcome) (files : Directory) : Except RenderError String → Prop
  | .ok text => o.code = 0 ∧ o.output = text ∧ o.files = files
  | .error _ => o.Failed files

section Agreement

variable {lib : FontLibrary} {settings : Settings} {sources : Sources} {files : Directory}
  {loaded : Loaded} {text : String}

/-- Where a text is printed, a run is told by what is loaded and by the text. -/
theorem ofPlan_of_text (hdump : settings.dumpLayout = none) (houtput : settings.output = none)
    (hload : (load settings sources).result = .ok loaded)
    (htext : text? lib settings loaded = some (.ok text)) :
    let o := Outcome.ofPlan settings.verbosity files (plan lib settings sources)
    o.code = 0 ∧ o.output = text ∧ o.files = files := by
  have hnothing : Dumps settings loaded [] := by
    rw [Dumps, hdump]
  obtain ⟨notices, more, hrun⟩ := ofPlan_of_ok settings.verbosity files hload hnothing htext
  rw [houtput] at hrun
  simp only [hrun _ _ rfl rfl]
  exact ⟨trivial, String.empty_append, trivial⟩

/-- A run answers a call that reads what is loaded and makes the text that is printed. -/
theorem answers_ofPlan {config : Config} {tokens : Option String} {x : Except RenderError String}
    (hdump : settings.dumpLayout = none) (houtput : settings.output = none)
    (hconfig : sources.Configured config) (htext : sources.input = .ok text)
    (hunbundled : ∀ v, Json.parse none text = .ok v → Unbundled v)
    (htokens : sources.tokens = tokens.map .ok)
    (hx : match (Ast.ofText defaultNesting text).outcome.value, readTokens tokens with
      | .ok ast, .ok list =>
        (text? lib settings ⟨config, ast, list⟩).map (·.mapError .layout) = some x
      | _, _ => ∃ e, x = .error e) :
    (Outcome.ofPlan settings.verbosity files (plan lib settings sources)).Answers files x := by
  have hload := result_load settings hconfig htext hunbundled htokens
  have hfail : (∃ e, x = .error e) → (∃ message, (load settings sources).result = .error message) →
      (Outcome.ofPlan settings.verbosity files (plan lib settings sources)).Answers files x := by
    rintro ⟨e, rfl⟩ ⟨message, hmessage⟩
    exact failed_of_load hmessage
  cases hast : (Ast.ofText defaultNesting text).outcome.value with
  | error e =>
    rw [hast] at hx hload
    exact hfail hx hload
  | ok ast =>
    cases hlist : readTokens tokens with
    | error e =>
      rw [hast, hlist] at hx hload
      exact hfail hx hload
    | ok list =>
      simp only [hast, hlist] at hx hload
      obtain ⟨y, hy, rfl⟩ := Option.map_eq_some_iff.1 hx
      rw [← text?_resize lib ast list settings settings config] at hy
      cases y with
      | ok printed => exact ofPlan_of_text hdump houtput hload hy
      | error e => exact failed_of_text hload hdump hy

end Agreement

section Calls

variable (lib : FontLibrary) (text : String) (tokens : Option String) (options : RenderOptions)

theorem value_renderDocument :
    (renderDocument lib text options).outcome.value
      = ((Ast.ofText defaultNesting text).outcome.value.mapError .document).bind fun ast =>
          ((drawTree lib ast options).outcome.value.map Markup.write).mapError
            RenderError.layout := by
  rw [renderDocument, Attempt.value_bind]
  refine congrArg (Except.bind _) (funext fun ast => ?_)
  rw [Attempt.value_bind]
  change Except.bind ((drawTree lib ast options).outcome.value.mapError RenderError.layout) _ = _
  cases (drawTree lib ast options).outcome.value <;> rfl

theorem value_renderDocumentPage :
    (renderDocumentPage lib text tokens options).outcome.value
      = ((Ast.ofText defaultNesting text).outcome.value.mapError .document).bind fun ast =>
          ((readTokens tokens).mapError .tokens).bind fun list =>
            (renderTreePage lib ast list options).outcome.value.mapError .layout := by
  unfold renderDocumentPage
  rw [Attempt.value_bind]
  refine congrArg (Except.bind _) (funext fun ast => ?_)
  rw [Attempt.value_bind]
  cases tokens <;> rfl

end Calls

section Runs

variable (lib : FontLibrary) (files : Directory) {args : List String} (input : String)
  {settings : Settings}

/-- The command and the library agree.  With the configuration, the view and the selection of its
arguments, a run prints the drawing or the page of its document, and fails where the library does;
tokens only have to be there for a drawing.  The selection is the text that the arguments give, and
the size of a picture changes nothing. -/
theorem run_agrees_with_library (hargs : Settings.parse args = .ok settings) :
    (∀ config text tokens, settings.dumpLayout = none → settings.output = none →
      (settings.sources files input).Configured config →
      (settings.sources files input).input = .ok text →
      (∀ v, Json.parse none text = .ok v → Unbundled v) →
      (settings.sources files input).tokens = tokens.map .ok →
        (settings.outputFormat = .svg → (readTokens tokens).isOk = true →
          (run lib files args input).Answers files
            (renderDocument lib text (settings.options config)).outcome.value)
        ∧ (settings.outputFormat = .html →
          (run lib files args input).Answers files
            (renderDocumentPage lib text tokens (settings.options config)).outcome.value))
      ∧ (∀ selected, "--select=" ++ selected ∈ args → settings.selected = some selected)
      ∧ (settings.outputFormat ≠ .png → ∀ args' width height,
          Settings.parse args' = .ok { settings with width, height } →
            run lib files args' input = run lib files args input) := by
  refine ⟨fun config text tokens hdump houtput hconfig htext hunbundled htokens => ⟨?_, ?_⟩,
    fun selected => selected_of_mem hargs,
    fun hformat args' width height hargs' =>
      (run_resize lib settings hformat hargs hargs').symm⟩
  · intro hformat hread
    rw [run_of_parse hargs]
    refine answers_ofPlan hdump houtput hconfig htext hunbundled htokens ?_
    rw [value_renderDocument]
    cases (Ast.ofText defaultNesting text).outcome.value with
    | error e => exact ⟨_, rfl⟩
    | ok ast =>
      obtain ⟨list, hlist⟩ := exists_of_isOk hread
      simp only [hlist, text?, hformat]
      rfl
  · intro hformat
    rw [run_of_parse hargs]
    refine answers_ofPlan hdump houtput hconfig htext hunbundled htokens ?_
    rw [value_renderDocumentPage]
    cases (Ast.ofText defaultNesting text).outcome.value with
    | error e => exact ⟨_, rfl⟩
    | ok ast =>
      cases readTokens tokens with
      | error e => exact ⟨_, rfl⟩
      | ok list =>
        simp only [text?, hformat]
        rfl

/-- A page with a selected node, and the same run with a width. -/
theorem run_agrees_with_library_of_page :
    let args := ["-e", "html", "--select=leaf"]
    let text := (Json.arr [.str "leaf"]).write
    (run .builtIn {} args text).Answers {}
        (renderDocumentPage .builtIn text none
          { selected := some (NodeId.ofText "leaf") }).outcome.value
      ∧ run .builtIn {} (args ++ ["-w", "90"]) text = run .builtIn {} args text := by
  intro args text
  have hargs : Settings.parse args = .ok { outputFormat := .html, selected := some "leaf" } := rfl
  have hstable : (Json.arr [.str "leaf"]).Stable :=
    ⟨by simp [Json.Ordered, Json.OrderedItems], by simp [Json.numbers, Json.itemsNumbers]⟩
  have hunbundled : ∀ v, Json.parse none text = .ok v → Unbundled v := by
    intro v hv
    rw [Json.parse_write hstable (Json.Room.admits_none _)] at hv
    cases hv
    nofun
  obtain ⟨hcalls, -, hsizes⟩ := run_agrees_with_library .builtIn {} text hargs
  exact ⟨(hcalls {} text none rfl rfl rfl rfl hunbundled rfl).2 rfl,
    hsizes (by decide) (args ++ ["-w", "90"]) _ _ rfl⟩

end Runs

end TreeAtlas.Command
