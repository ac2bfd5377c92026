import TreeAtlas.Proofs.Command.Loading

/-!
# Plans that are carried out

Reports leave code, output and files as they are (`perform_silent`), so a run is told by the other
steps of its plan.  What is presented as a text is laid out and drawn first, which only reports, and
the last step puts the text out (`present_of_ok`), or there is no step but reports and the run fails
(`present_of_error`).
-/

namespace TreeAtlas.Command

/-! ### Steps -/

namespace Outcome

variable {verbosity : Nat} {files : Directory} {o : Outcome}

theorem perform_append (steps more : List Step) :
    perform verbosity o (steps ++ more)
      = (perform verbosity o steps).bind fun o => perform verbosity o more := by
  induction steps generalizing o with
  | nil => rfl
  | cons step steps ih =>
    rw [List.cons_append]
    cases step with
    | report line => simp only [perform, ih]
    | print text => simp only [perform, ih]
    | save path contents =>
      simp only [perform]
      cases o.files.writable path with
      | ok p => exact ih
      | error e => rfl

/-- Reports only add lines for the user. -/
theorem perform_silent (verbosity : Nat) {steps : List Step}
    (h : ∀ step ∈ steps, ∃ line, step = .report line) :
    ∃ more, ∀ o : Outcome,
      perform verbosity o steps = .ok { o with notices := o.notices ++ more } := by
  induction steps with
  | nil => exact ⟨[], fun o => by rw [List.append_nil]; rfl⟩
  | cons step steps ih =>
    rw [List.forall_mem_cons] at h
    obtain ⟨⟨line, rfl⟩, hrest⟩ := h
    obtain ⟨more, hmore⟩ := ih hrest
    by_cases hshown : shown verbosity line.severity = true
    · refine ⟨logText line :: more, fun o => ?_⟩
      rw [perform, if_pos hshown, hmore]
      simp only [List.append_assoc, List.singleton_append]
    · exact ⟨more, fun o => by rw [perform, if_neg hshown, hmore]⟩

/-- A run that failed and put nothing out. -/
def Failed (files : Directory) (o : Outcome) : Prop :=
  o.code = 1 ∧ o.output = "" ∧ o.files = files

/-- A plan that fails after nothing but reports puts nothing out. -/
theorem failed_ofPlan {p : Plan Unit} (hp : p.Silent) {message : String}
    (hr : p.result = .error message) : (ofPlan verbosity files p).Failed files := by
  obtain ⟨more, hperform⟩ := perform_silent verbosity hp
  rw [ofPlan, hperform, hr]
  exact ⟨rfl, rfl, rfl⟩

end Outcome

theorem run_of_parse {lib : FontLibrary} {files : Directory} {args : List String}
    {input : String} {settings : Settings} (h : Settings.parse args = .ok settings) :
    run lib files args input
      = .ofPlan settings.verbosity files (plan lib settings (settings.sources files input)) := by
  rw [run, h]

/-! ### Attempts -/

namespace Plan

variable {ε α β : Type} {message : ε → String} {x : Attempt ε α} {f : α → Plan β}

theorem attempt_bind_of_error {e : ε} (h : x.outcome.value = .error e) :
    attempt message x >>= f = ⟨x.outcome.lines.map .report, .error (message e)⟩ :=
  bind_of_error (by rw [attempt, h]; rfl) f

theorem attempt_bind_of_ok {a : α} (h : x.outcome.value = .ok a) :
    attempt message x >>= f = ⟨x.outcome.lines.map .report ++ (f a).steps, (f a).result⟩ :=
  bind_of_ok (by rw [attempt, h]; rfl) f

/-- An attempt is known by what comes of it. -/
theorem attempt_congr (message : ε → String) {y : Attempt ε α} (h : x.outcome = y.outcome) :
    attempt message x = attempt message y := by
  unfold attempt
  rw [h]

/-- What is made of a success can be made after the reports as well. -/
theorem attempt_map_bind (g : α → β) {γ : Type} (f : β → Plan γ) :
    attempt message (do return g (← x)) >>= f = attempt message x >>= fun a => f (g a) := by
  have hvalue : (do return g (← x) : Attempt ε β).outcome.value = x.outcome.value.map g := by
    rw [Attempt.value_bind]
    rfl
  have hlines : (do return g (← x) : Attempt ε β).outcome.lines = x.outcome.lines := by
    rw [Attempt.lines_bind]
    cases x.outcome.value <;> exact List.append_nil _
  cases hx : x.outcome.value with
  | error e =>
    rw [hx] at hvalue
    rw [attempt_bind_of_error hvalue, attempt_bind_of_error hx, hlines]
  | ok a =>
    rw [hx] at hvalue
    rw [attempt_bind_of_ok hvalue, attempt_bind_of_ok hx, hlines]

theorem silent_reports (lines : List LogLine) :
    ∀ step ∈ lines.map Step.report, ∃ line, step = .report line :=
  List.forall_mem_map.2 fun line _ => ⟨line, rfl⟩

end Plan

/-! ### What is presented -/

/-- The text that is put out, unless that is a picture. -/
def text? (lib : FontLibrary) (settings : Settings) (loaded : Loaded) :
    Option (Except LayoutError String) :=
  let options := settings.options loaded.config
  match settings.outputFormat with
  | .svg => some ((drawTree lib loaded.ast options).outcome.value.map Markup.write)
  | .html => some (renderTreePage lib loaded.ast loaded.tokens options).outcome.value
  | .png => none

section Presenting

variable {lib : FontLibrary} {settings : Settings} {loaded : Loaded} {text : String}
  {e : LayoutError}

/-- A text is attempted and then put out. -/
theorem exists_attempt {x : Except LayoutError String} (h : text? lib settings loaded = some x) :
    ∃ y : Attempt LayoutError String, y.outcome.value = x
      ∧ present lib settings loaded
        = Plan.attempt LayoutError.message y >>= putOut settings.output := by
  unfold text? at h
  unfold present
  cases hformat : settings.outputFormat with
  | svg =>
    rw [hformat] at h
    refine ⟨do return (← drawTree lib loaded.ast (settings.options loaded.config)).write, ?_,
      (Plan.attempt_map_bind _ _).symm⟩
    rw [Attempt.value_bind]
    exact Option.some.inj h
  | html =>
    rw [hformat] at h
    exact ⟨_, Option.some.inj h, rfl⟩
  | png =>
    rw [hformat] at h
    cases h

theorem present_of_error (h : text? lib settings loaded = some (.error e)) :
    ∃ lines : List LogLine, present lib settings loaded
      = ⟨lines.map .report, .error e.message⟩ := by
  obtain ⟨y, hy, hpresent⟩ := exists_attempt h
  rw [hpresent]
  exact ⟨_, Plan.attempt_bind_of_error hy⟩

theorem present_of_ok (h : text? lib settings loaded = some (.ok text)) :
    ∃ lines : List LogLine, present lib settings loaded
      = ⟨lines.map .report ++ (putOut settings.output text).steps, .ok ()⟩ := by
  have hput : (putOut settings.output text).result = .ok () := by
    unfold putOut
    split <;> rfl
  obtain ⟨y, hy, hpresent⟩ := exists_attempt h
  rw [hpresent, ← hput]
  exact ⟨_, Plan.attempt_bind_of_ok hy⟩

theorem exists_text? (lib : FontLibrary) (loaded : Loaded)
    (hformat : settings.outputFormat ≠ .png) : ∃ x, text? lib settings loaded = some x := by
  unfold text?
  cases h : settings.outputFormat with
  | png => exact absurd h hformat
  | _ => exact ⟨_, rfl⟩

/-! ### What is saved beside it -/

/-- The steps that save the layout that is asked for. -/
def Dumps (settings : Settings) (loaded : Loaded) (saves : List Step) : Prop :=
  match settings.dumpLayout with
  | none => saves = []
  | some path => ∃ layout,
    (layoutBubbles loaded.ast loaded.config.layout).outcome.value = .ok layout
      ∧ saves = [.save path (.text (LayoutDump.ofLayout layout).fileText)]

theorem dump_of_dumps {saves : List Step} (h : Dumps settings loaded saves) :
    ∃ lines lines' : List LogLine, dump settings loaded
      = ⟨lines.map .report ++ (saves ++ lines'.map .report), .ok ()⟩ := by
  unfold Dumps at h
  unfold dump
  cases hpath : settings.dumpLayout with
  | none =>
    rw [hpath] at h
    rw [h]
    exact ⟨[], [], rfl⟩
  | some path =>
    rw [hpath] at h
    obtain ⟨layout, hlayout, rfl⟩ := h
    exact ⟨_, [dumpedLine path], Plan.attempt_bind_of_ok hlayout⟩

theorem dump_of_error {path : String} (hpath : settings.dumpLayout = some path)
    (h : (layoutBubbles loaded.ast loaded.config.layout).outcome.value = .error e) :
    ∃ lines : List LogLine, dump settings loaded = ⟨lines.map .report, .error e.message⟩ := by
  rw [dump, hpath]
  exact ⟨_, Plan.attempt_bind_of_error h⟩

variable {sources : Sources} (verbosity : Nat) (files : Directory)

/-- Where nothing fails, a run saves a layout and puts out a text, with reports around them. -/
theorem ofPlan_of_ok {saves : List Step} (hload : (load settings sources).result = .ok loaded)
    (hdump : Dumps settings loaded saves) (htext : text? lib settings loaded = some (.ok text)) :
    ∃ notices more, ∀ o o' : Outcome,
      Outcome.perform verbosity ⟨0, "", notices, files⟩ saves = .ok o →
      Outcome.perform verbosity { o with notices := o.notices ++ more }
          (putOut settings.output text).steps = .ok o' →
        Outcome.ofPlan verbosity files (plan lib settings sources) = o' := by
  obtain ⟨lines, lines', hdump⟩ := dump_of_dumps hdump
  obtain ⟨lines'', hpresent⟩ := present_of_ok htext
  have hreports := fun lines => Outcome.perform_silent verbosity (Plan.silent_reports lines)
  obtain ⟨read, hread⟩ := Outcome.perform_silent verbosity (silent_load settings sources)
  obtain ⟨laid, hlaid⟩ := hreports lines
  obtain ⟨dumped, hdumped⟩ := hreports lines'
  obtain ⟨drawn, hdrawn⟩ := hreports lines''
  refine ⟨[] ++ read ++ laid, dumped ++ drawn, fun o o' ho ho' => ?_⟩
  rw [← List.append_assoc] at ho'
  rw [plan_eq, Plan.bind_of_ok hload, hdump, hpresent, Plan.bind_of_ok rfl, Outcome.ofPlan]
  simp only [Outcome.perform_append, hread, hlaid, hdumped, hdrawn, Except.bind, ho, ho']

variable {verbosity files}

theorem failed_of_load {message : String}
    (hload : (load settings sources).result = .error message) :
    (Outcome.ofPlan verbosity files (plan lib settings sources)).Failed files := by
  rw [plan_eq, Plan.bind_of_error hload]
  exact Outcome.failed_ofPlan (silent_load settings sources) rfl

theorem failed_of_dump {path : String} (hload : (load settings sources).result = .ok loaded)
    (hpath : settings.dumpLayout = some path)
    (h : (layoutBubbles loaded.ast loaded.config.layout).outcome.value = .error e) :
    (Outcome.ofPlan verbosity files (plan lib settings sources)).Failed files := by
  obtain ⟨lines, hdump⟩ := dump_of_error hpath h
  rw [plan_eq, Plan.bind_of_ok hload, hdump, Plan.bind_of_error rfl]
  exact Outcome.failed_ofPlan
    (List.forall_mem_append.2 ⟨silent_load settings sources, Plan.silent_reports lines⟩) rfl

theorem failed_of_text (hload : (load settings sources).result = .ok loaded)
    (hnone : settings.dumpLayout = none) (htext : text? lib settings loaded = some (.error e)) :
    (Outcome.ofPlan verbosity files (plan lib settings sources)).Failed files := by
  obtain ⟨lines, hpresent⟩ := present_of_error htext
  have hdump : dump settings loaded = Pure.pure () := by
    rw [dump, hnone]
    rfl
  rw [plan_eq, Plan.bind_of_ok hload, hdump, pure_bind, hpresent]
  exact Outcome.failed_ofPlan
    (List.forall_mem_append.2 ⟨silent_load settings sources, Plan.silent_reports lines⟩) rfl

end Presenting

end TreeAtlas.Command
