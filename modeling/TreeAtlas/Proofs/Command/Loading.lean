import TreeAtlas.Command.Run

/-!
# A plan loads and then presents

Everything that is read is read before anything is put out, so a plan has two parts: the
configuration, the tree and the tokens are loaded, and what was loaded is presented (`plan_eq`).
The settings that name the sources only matter to the first part, and the first part only reports
(`silent_load`).
-/

namespace TreeAtlas.Command

/-! ### Plans -/

namespace Plan

variable {α β : Type}

theorem bind_of_ok {p : Plan α} {a : α} (h : p.result = .ok a) (f : α → Plan β) :
    p >>= f = ⟨p.steps ++ (f a).steps, (f a).result⟩ := by
  change p.bind f = _
  rw [Plan.bind, h]

theorem bind_of_error {p : Plan α} {message : String} (h : p.result = .error message)
    (f : α → Plan β) : p >>= f = ⟨p.steps, .error message⟩ := by
  change p.bind f = _
  rw [Plan.bind, h]

theorem result_bind (p : Plan α) (f : α → Plan β) :
    (p >>= f).result = p.result.bind fun a => (f a).result := by
  cases hp : p.result with
  | error e => rw [bind_of_error hp]; rfl
  | ok a => rw [bind_of_ok hp]; rfl

instance : LawfulMonad Plan := LawfulMonad.mk' Plan
  (by
    intro α p
    cases hp : p.result with
    | ok a =>
      change p >>= Pure.pure = p
      rw [bind_of_ok hp]
      cases p
      cases hp
      simp [Pure.pure, Plan.pure]
    | error e =>
      change p >>= Pure.pure = p
      rw [bind_of_error hp]
      cases p
      cases hp
      rfl)
  (fun _ _ => rfl)
  (by
    intro α β γ p f g
    cases hp : p.result with
    | error e => rw [bind_of_error hp, bind_of_error rfl, bind_of_error hp]
    | ok a =>
      rw [bind_of_ok hp, bind_of_ok hp]
      cases hf : (f a).result with
      | error e => rw [bind_of_error rfl, bind_of_error hf]
      | ok b => rw [bind_of_ok rfl, bind_of_ok hf, List.append_assoc])

/-- A plan that only reports. -/
def Silent (p : Plan α) : Prop :=
  ∀ step ∈ p.steps, ∃ line, step = .report line

theorem silent_pure (a : α) : Silent (Pure.pure a : Plan α) := nofun

theorem silent_fail (message : String) : (fail message : Plan α).Silent := nofun

theorem silent_ofExcept (x : Except String α) : (ofExcept x).Silent := nofun

theorem silent_report (line : LogLine) : (report line).Silent := by
  rintro step (_ | ⟨_, ⟨⟩⟩)
  exact ⟨line, rfl⟩

theorem silent_attempt {ε : Type} (message : ε → String) (x : Attempt ε α) :
    (attempt message x).Silent := by
  intro step hstep
  obtain ⟨line, -, rfl⟩ := List.mem_map.1 hstep
  exact ⟨line, rfl⟩

theorem Silent.bind {p : Plan α} {f : α → Plan β} (hp : p.Silent) (hf : ∀ a, (f a).Silent) :
    (p >>= f).Silent := by
  cases hr : p.result with
  | error e =>
    rw [bind_of_error hr]
    exact hp
  | ok a =>
    rw [bind_of_ok hr]
    exact List.forall_mem_append.2 ⟨hp, hf a⟩

end Plan

/-! ### Bundles -/

/-- A value that is not taken for a bundle. -/
def Unbundled (v : Json) : Prop :=
  ∀ fields, v = .obj fields → Json.Fields.find? "ast" fields = none

theorem splitBundle_of_unbundled {v : Json} (h : Unbundled v) : splitBundle v = (v, none) := by
  cases v with
  | obj fields => rw [splitBundle, h fields rfl]
  | _ => rfl

/-! ### The two parts -/

/-- What a command loads. -/
structure Loaded where
  config : Config
  ast : Ast
  tokens : List Token

/-- The configuration with the size of a picture. -/
def Settings.resize (settings : Settings) (config : Config) : Config :=
  { config with
    render := { config.render with width := settings.width, height := settings.height } }

/-- The options of the library for what was loaded. -/
def Settings.options (settings : Settings) (config : Config) : RenderOptions :=
  { config, view := settings.view, selected := settings.selected.map NodeId.ofText }

def load (settings : Settings) (sources : Sources) : Plan Loaded := do
  let config ← loadConfig sources.config
  let text ← .ofExcept (sources.input.mapError fun _ => unreadable (settings.input.getD ""))
  let document ← .ofExcept
    ((readDocument defaultNesting text).mapError fun _ => "input is not a loadable AST")
  let ast ← .attempt DocumentError.message (Ast.ofJson defaultNesting (splitBundle document).1)
  .report (loadedLine ast)
  let tokens ← .ofExcept (loadTokens settings.tokens sources.tokens (splitBundle document).2)
  return ⟨settings.resize config, ast, tokens⟩

/-- The layout that is asked for beside what is put out. -/
def dump (settings : Settings) (loaded : Loaded) : Plan Unit :=
  match settings.dumpLayout with
  | some path => dumpLayout loaded.ast loaded.config.layout path
  | none => Plan.pure ()

/-- What is put out. -/
def present (lib : FontLibrary) (settings : Settings) (loaded : Loaded) : Plan Unit :=
  let options := settings.options loaded.config
  match settings.outputFormat with
  | .svg => do
    let drawing ← .attempt LayoutError.message (drawTree lib loaded.ast options)
    putOut settings.output drawing.write
  | .html => do
    let page ← .attempt LayoutError.message (renderTreePage lib loaded.ast loaded.tokens options)
    putOut settings.output page
  | .png => renderImage lib loaded.ast options settings.output

section Parts

variable (lib : FontLibrary) (settings : Settings) (sources : Sources)

theorem plan_eq : plan lib settings sources = load settings sources >>= fun loaded =>
    dump settings loaded >>= fun _ => present lib settings loaded := by
  simp only [plan, load, dump, bind_assoc, pure_bind]
  cases settings.dumpLayout <;> rfl

theorem load_of_document {text : String} {v : Json} (htext : sources.input = .ok text)
    (hv : readDocument defaultNesting text = .ok v) :
    load settings sources = loadConfig sources.config >>= fun config =>
      Plan.attempt DocumentError.message (Ast.ofJson defaultNesting (splitBundle v).1)
        >>= fun ast => Plan.report (loadedLine ast) >>= fun _ =>
          Plan.ofExcept (loadTokens settings.tokens sources.tokens (splitBundle v).2)
            >>= fun tokens => Pure.pure ⟨settings.resize config, ast, tokens⟩ := by
  have hinput : ∀ message : FileError → String,
      Plan.ofExcept (sources.input.mapError message) = Pure.pure text := fun _ => by
    rw [htext]
    rfl
  have hdocument : ∀ message : DocumentError → String,
      Plan.ofExcept ((readDocument defaultNesting text).mapError message) = Pure.pure v :=
    fun _ => by
      rw [hv]
      rfl
  simp only [load, hinput, pure_bind, hdocument]

/-! ### What is loaded -/

theorem silent_loadConfig (source : Option (Except FileError String)) :
    (loadConfig source).Silent := by
  rcases source with _ | e | text
  · exact Plan.silent_pure ({} : Config)
  · exact Plan.silent_fail e.message
  · exact Plan.silent_attempt _ _

/-- Nothing is put out while a command loads. -/
theorem silent_load : (load settings sources).Silent := by
  refine (silent_loadConfig _).bind fun config => ?_
  refine (Plan.silent_ofExcept _).bind fun text => ?_
  refine (Plan.silent_ofExcept _).bind fun document => ?_
  refine (Plan.silent_attempt _ _).bind fun ast => ?_
  refine (Plan.silent_report _).bind fun _ => ?_
  exact (Plan.silent_ofExcept _).bind fun tokens => Plan.silent_pure _

end Parts

end TreeAtlas.Command
