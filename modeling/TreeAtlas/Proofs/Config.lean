import TreeAtlas.Config
import TreeAtlas.Proofs.Decimal.Doubles
import TreeAtlas.Proofs.Record.Given

/-!
# Configurations on top of the defaults

A section of a configuration file is read as a record, and each value of it is told by what the
record gives for its field.  Spelled out by names and places this is a section on top of another
(`LayoutConfig.merge`, `TreeConfig.merge`, `RenderConfig.merge`, `Theme.merge`), and no other
section has a part in it.  The standard lengths pass the check of a layout, so the first setting to
fail it is one that the file gives (`LayoutConfig.find?_eq_of_states`).  Hence a file is refused
exactly for the first of its own lengths that is unfit, and else each part of the configuration
comes from its section and the defaults (`Config.parse_merges`).
-/

namespace TreeAtlas

open Json5 (Node Reader ReadError lookup? present? valueOr valueOr_of_told valueOr_of_rel
  rel_of_told)
open Record (Told)

/-! ### Sections -/

section Sections

variable {node : Node}

/-- The layout settings that a record gives, on top of others. -/
def LayoutConfig.merge (c : LayoutConfig) (record : Option Node) :
    Except ReadError LayoutConfig := do
  let length (name : String) (place : Nat) (standard : Float32) :=
    valueOr standard Json5.format.single (lookup? record name place)
  return {
    columnWidth := ← length "columnWidth" 0 c.columnWidth
    rowHeight := ← length "rowHeight" 1 c.rowHeight
    paddingX := ← length "paddingX" 2 c.paddingX
    paddingY := ← length "paddingY" 3 c.paddingY
    minWidth := ← length "minWidth" 4 c.minWidth
    minHeight := ← length "minHeight" 5 c.minHeight
    overflowSlack := ← length "overflowSlack" 6 c.overflowSlack
    baseRadius := ← length "baseRadius" 7 c.baseRadius
    radiusStep := ← length "radiusStep" 8 c.radiusStep
    maxRadiusGrowth := ← length "maxRadiusGrowth" 9 c.maxRadiusGrowth
    maxDepth := ← valueOr c.maxDepth Json5.format.size (lookup? record "maxDepth" 10)
    maxNodes := ← valueOr c.maxNodes Json5.format.size (lookup? record "maxNodes" 11) }

/-- The measures of the outline that a record gives, on top of others. -/
def TreeConfig.merge (c : TreeConfig) (record : Option Node) :
    Except ReadError TreeConfig := do
  let length (name : String) (place : Nat) (standard : Float32) :=
    valueOr standard Json5.format.single (lookup? record name place)
  return {
    indent := ← length "indent" 0 c.indent
    rowHeight := ← length "rowHeight" 1 c.rowHeight
    padding := ← length "padding" 2 c.padding
    rowPaddingX := ← length "rowPaddingX" 3 c.rowPaddingX
    fontSize := ← length "fontSize" 4 c.fontSize
    minWidth := ← length "minWidth" 5 c.minWidth
    minHeight := ← length "minHeight" 6 c.minHeight
    showIds := ← valueOr c.showIds Json5.format.flag (lookup? record "showIds" 7) }

def RenderConfig.merge (c : RenderConfig) (record : Option Node) :
    Except ReadError RenderConfig := do
  return {
    width := ← valueOr c.width Json5.format.single (lookup? record "width" 0)
    height := ← valueOr c.height Json5.format.single (lookup? record "height" 1)
    fluidWidth := ← valueOr c.fluidWidth Json5.format.flag (lookup? record "fluidWidth" 2) }

/-- The variables that a record gives, on top of those of a theme. -/
def Theme.merge (theme : Theme) (record : Option Node) : Except ReadError Theme := do
  let string (name : String) (place : Nat) (standard : String) :=
    valueOr standard Json5.format.text (present? record name place)
  return { theme with
    fontFamily := ← string "fontFamily" 0 theme.fontFamily
    fontSize := ← valueOr theme.fontSize Json5.format.single (present? record "fontSize" 1)
    background := ← string "background" 2 theme.background
    textColor := ← string "textColor" 3 theme.textColor
    lineColor := ← string "lineColor" 4 theme.lineColor
    nodeFill := ← string "nodeFill" 5 theme.nodeFill
    nodeStroke := ← string "nodeStroke" 6 theme.nodeStroke
    nodeTextColor := ← string "nodeTextColor" 7 theme.nodeTextColor
    selectedFill := ← string "selectedFill" 8 theme.selectedFill
    selectedStroke := ← string "selectedStroke" 9 theme.selectedStroke
    accentColor := ← string "accentColor" 10 theme.accentColor }

/-- The palette of a name, the default one if there is no such palette or no name. -/
def Theme.chosen : Option Node → Except ReadError Theme
  | some name => (Json5.format.text name).map fun name => (Theme.ofName? name).getD .explorer
  | none => .ok .explorer

theorem TreeConfig.merge_of_read {c : TreeConfig} (h : TreeConfig.read Json5.format node = .ok c) :
    TreeConfig.merge {} (some node) = .ok c := by
  obtain ⟨⟨indent, rowHeight, padding, rowPaddingX, fontSize, minWidth, minHeight, showIds, ⟨⟩⟩,
    ⟨h₀, h₁, h₂, h₃, h₄, h₅, h₆, h₇, -⟩, rfl⟩ := Json5.exists_row_of_recordAt (by decide) h
  simp only [merge, lookup?, Option.bind_some, valueOr_of_told h₀, valueOr_of_told h₁,
    valueOr_of_told h₂, valueOr_of_told h₃, valueOr_of_told h₄, valueOr_of_told h₅,
    valueOr_of_told h₆, valueOr_of_told h₇]
  rfl

theorem RenderConfig.merge_of_read {c : RenderConfig}
    (h : RenderConfig.read Json5.format node = .ok c) :
    RenderConfig.merge {} (some node) = .ok c := by
  obtain ⟨⟨width, height, fluidWidth, ⟨⟩⟩, ⟨h₀, h₁, h₂, -⟩, rfl⟩ :=
    Json5.exists_row_of_recordAt (by decide) h
  simp only [merge, lookup?, Option.bind_some, valueOr_of_told h₀, valueOr_of_told h₁,
    valueOr_of_told h₂]
  rfl

theorem Theme.merge_of_read {vars : ThemeVariables}
    (h : ThemeVariables.read Json5.format node = .ok vars) (theme : Theme) :
    theme.merge (some node) = .ok (vars.apply theme) := by
  obtain ⟨⟨fontFamily, fontSize, background, textColor, lineColor, nodeFill, nodeStroke,
      nodeTextColor, selectedFill, selectedStroke, accentColor, ⟨⟩⟩,
    ⟨h₀, h₁, h₂, h₃, h₄, h₅, h₆, h₇, h₈, h₉, h₁₀, -⟩, rfl⟩ :=
    Json5.exists_row_of_recordAt (by decide) h
  simp only [merge, present?, lookup?, Option.bind_some, valueOr_of_rel (rel_of_told h₀),
    valueOr_of_rel (rel_of_told h₁), valueOr_of_rel (rel_of_told h₂),
    valueOr_of_rel (rel_of_told h₃), valueOr_of_rel (rel_of_told h₄),
    valueOr_of_rel (rel_of_told h₅), valueOr_of_rel (rel_of_told h₆),
    valueOr_of_rel (rel_of_told h₇), valueOr_of_rel (rel_of_told h₈),
    valueOr_of_rel (rel_of_told h₉), valueOr_of_rel (rel_of_told h₁₀)]
  rfl

end Sections

/-! ### Lengths -/

namespace LayoutConfig

/-- No number, or an infinite or a negative one. -/
def Unfit (x : Float32) : Prop :=
  x.isNaN = true ∨ x.isInf = true ∨ x < 0

/-- A setting is unfit, and those before it are not. -/
def FirstUnfit (settings : List (String × Float32)) (name : String) (x : Float32) : Prop :=
  ∃ before after, settings = before ++ (name, x) :: after
    ∧ (∀ setting ∈ before, ¬ Unfit setting.2) ∧ Unfit x

def lengthNames : List String :=
  ["columnWidth", "rowHeight", "paddingX", "paddingY", "minWidth", "minHeight", "overflowSlack",
    "baseRadius", "radiusStep", "maxRadiusGrowth"]

/-- The setting that a record gives for a field. -/
def givenLength? (record : Option Node) (field : String × Nat) : Option (String × Float32) :=
  (lookup? record field.1 field.2).bind fun node =>
    (Json5.format.single node).toOption.map fun x => (field.1, x)

/-- The spacing and the radii that a record gives, in the order of their fields. -/
def givenLengths (record : Option Node) : List (String × Float32) :=
  lengthNames.zipIdx.filterMap (givenLength? record)

theorem isLength_eq_false_iff (x : Float32) : isLength x = false ↔ Unfit x := by
  have hfinite : x.isFinite = false ↔ x.isNaN = true ∨ x.isInf = true :=
    Decimal.isFinite_unpacked_eq_false_iff x.toModel.unpack
  rw [isLength, Bool.and_eq_false_iff, hfinite, Unfit, or_assoc]
  simp

theorem isLength_iff (x : Float32) : isLength x = true ↔ ¬ Unfit x := by
  rw [← isLength_eq_false_iff, Bool.not_eq_false]

theorem find?_eq_some_iff {settings : List (String × Float32)} {name : String} {x : Float32} :
    settings.find? (fun setting => !isLength setting.2) = some (name, x)
      ↔ FirstUnfit settings name x := by
  simp only [List.find?_eq_some_iff_append, Bool.not_eq_true', isLength_eq_false_iff,
    Bool.not_not, isLength_iff]
  constructor
  · rintro ⟨hx, before, after, hsettings, hbefore⟩
    exact ⟨before, after, hsettings, hbefore, hx⟩
  · rintro ⟨before, after, hsettings, hbefore, hx⟩
    exact ⟨hx, before, after, hsettings, hbefore⟩

/-- A layout is refused for the first of its settings that is no length. -/
theorem validate_eq_error_iff {c : LayoutConfig} {e : ConfigError} :
    c.validate = .error e ↔ ∃ name x,
      c.lengths.find? (fun setting => !isLength setting.2) = some (name, x)
        ∧ e = .badSetting name x := by
  unfold validate
  split
  · rename_i name x hfound
    rw [hfound]
    simp [eq_comm]
  · rename_i hnone
    simp [hnone]

theorem validate_standard : ({} : LayoutConfig).validate = .ok () := rfl

/-- A setting that is given in a record, or a length that stands for it. -/
def States (record : Option Node) (field : String × Nat) (setting : String × Float32) : Prop :=
  setting.1 = field.1 ∧ ∃ standard, isLength standard = true
    ∧ valueOr standard Json5.format.single (lookup? record field.1 field.2) = .ok setting.2

/-- The first unfit setting is the first among those that are given. -/
theorem find?_eq_of_states {record : Option Node} {fields : List (String × Nat)}
    {settings : List (String × Float32)} (h : List.Forall₂ (States record) fields settings) :
    settings.find? (fun setting => !isLength setting.2)
      = (fields.filterMap (givenLength? record)).find? fun setting => !isLength setting.2 := by
  induction h with
  | nil => rfl
  | @cons field setting fields settings hstates _ ih =>
    obtain ⟨hname, standard, hstandard, hvalue⟩ := hstates
    cases hentry : lookup? record field.1 field.2 with
    -- What stands for a missing setting is a length, so both searches pass it over.
    | none =>
      have hgiven : givenLength? record field = none := by
        rw [givenLength?, hentry, Option.bind_none]
      have hfit : isLength setting.2 = true := by
        rw [hentry] at hvalue
        cases hvalue
        exact hstandard
      rw [List.filterMap_cons_none hgiven, List.find?_cons_of_neg (by simp [hfit]), ih]
    | some node =>
      have hgiven : givenLength? record field = some setting := by
        rw [hentry] at hvalue
        have hread : Json5.format.single node = .ok setting.2 := hvalue
        rw [givenLength?, hentry, Option.bind_some, hread, ← hname]
        rfl
      rw [List.filterMap_cons_some hgiven, List.find?_cons, List.find?_cons, ih]

theorem states_of_told {node : Node} {name : String} {place : Nat} {standard x : Float32}
    (hstandard : isLength standard = true)
    (h : Told (.default standard) Json5.format.single (node.given? [name] place) x) :
    States (some node) (name, place) (name, x) :=
  ⟨rfl, standard, hstandard, valueOr_of_told h⟩

theorem merge_of_read {node : Node} {c : LayoutConfig}
    (h : LayoutConfig.read Json5.format node = .ok c) :
    LayoutConfig.merge {} (some node) = .ok c
      ∧ List.Forall₂ (States (some node)) lengthNames.zipIdx c.lengths := by
  obtain ⟨⟨columnWidth, rowHeight, paddingX, paddingY, minWidth, minHeight, overflowSlack,
      baseRadius, radiusStep, maxRadiusGrowth, maxDepth, maxNodes, ⟨⟩⟩,
    ⟨h₀, h₁, h₂, h₃, h₄, h₅, h₆, h₇, h₈, h₉, h₁₀, h₁₁, -⟩, rfl⟩ :=
    Json5.exists_row_of_recordAt (by decide) h
  constructor
  · simp only [merge, lookup?, Option.bind_some, valueOr_of_told h₀, valueOr_of_told h₁,
      valueOr_of_told h₂, valueOr_of_told h₃, valueOr_of_told h₄, valueOr_of_told h₅,
      valueOr_of_told h₆, valueOr_of_told h₇, valueOr_of_told h₈, valueOr_of_told h₉,
      valueOr_of_told h₁₀, valueOr_of_told h₁₁]
    rfl
  · exact .cons (states_of_told rfl h₀) <| .cons (states_of_told rfl h₁)
      <| .cons (states_of_told rfl h₂) <| .cons (states_of_told rfl h₃)
      <| .cons (states_of_told rfl h₄) <| .cons (states_of_told rfl h₅)
      <| .cons (states_of_told rfl h₆) <| .cons (states_of_told rfl h₇)
      <| .cons (states_of_told rfl h₈) <| .cons (states_of_told rfl h₉) .nil

end LayoutConfig

/-! ### Whole files -/

section Files

variable {node : Node} {file : ConfigFile}

/-- What a file gives, section by section. -/
theorem ConfigFile.rel_of_read (h : ConfigFile.read Json5.format node = .ok file) :
    Option.Rel (fun node name => Json5.format.text node = .ok name)
        (present? (some node) "theme" 0) file.theme
      ∧ Option.Rel (fun node vars => ThemeVariables.read Json5.format node = .ok vars)
        (present? (some node) "themeVariables" 1) file.themeVariables
      ∧ Option.Rel (fun node c => LayoutConfig.read Json5.format node = .ok c)
        (present? (some node) "layout" 2) file.layout
      ∧ Option.Rel (fun node c => TreeConfig.read Json5.format node = .ok c)
        (present? (some node) "tree" 3) file.tree
      ∧ Option.Rel (fun node c => RenderConfig.read Json5.format node = .ok c)
        (present? (some node) "render" 4) file.render := by
  obtain ⟨⟨theme, themeVariables, layout, tree, render, ⟨⟩⟩, ⟨h₀, h₁, h₂, h₃, h₄, -⟩, rfl⟩ :=
    Json5.exists_row_of_recordAt (by decide) h
  exact ⟨rel_of_told h₀, rel_of_told h₁, rel_of_told h₂, rel_of_told h₃, rel_of_told h₄⟩

theorem ConfigFile.value_toConfig (file : ConfigFile) :
    file.toConfig.outcome.value = (file.layout.getD {}).validate.map fun _ =>
      { theme := file.themeVariables.elim id ThemeVariables.apply file.namedTheme.value
        layout := file.layout.getD {}
        tree := file.tree.getD {}
        render := file.render.getD {} } := by
  obtain ⟨theme, themeVariables, layout, tree, render⟩ := file
  cases layout with
  | none =>
    simp only [Option.getD_none, LayoutConfig.validate_standard]
    cases themeVariables <;> rfl
  | some layout =>
    rw [toConfig, Attempt.value_bind, Attempt.value_lift]
    simp only [Except.bind, Attempt.value_bind, Attempt.value_ofExcept, Option.getD_some]
    cases layout.validate with
    | error e => rfl
    | ok u => cases themeVariables <;> rfl

theorem ConfigFile.value_namedTheme (file : ConfigFile) :
    file.namedTheme.value = (file.theme.bind Theme.ofName?).getD .explorer := by
  unfold namedTheme
  split
  · rename_i hnone
    rw [hnone]
    rfl
  · rename_i name hname
    rw [hname, Option.bind_some]
    split <;> rename_i htheme <;> rw [htheme] <;> rfl

section Given

variable {record : Option Node}

theorem Theme.chosen_of_rel
    (h : Option.Rel (fun node name => Json5.format.text node = .ok name) record file.theme) :
    Theme.chosen record = .ok file.namedTheme.value := by
  rw [ConfigFile.value_namedTheme]
  generalize file.theme = name at h
  cases h with
  | none => rfl
  | some htext =>
    rw [Theme.chosen, htext]
    rfl

theorem Theme.merge_of_rel {vars : Option ThemeVariables}
    (h : Option.Rel (fun node vars => ThemeVariables.read Json5.format node = .ok vars) record
      vars) (theme : Theme) :
    theme.merge record = .ok (vars.elim id ThemeVariables.apply theme) := by
  cases h with
  | none => rfl
  | some hread => exact Theme.merge_of_read hread theme

theorem LayoutConfig.merge_of_rel {c : Option LayoutConfig}
    (h : Option.Rel (fun node c => LayoutConfig.read Json5.format node = .ok c) record c) :
    LayoutConfig.merge {} record = .ok (c.getD {})
      ∧ (c.getD {}).lengths.find? (fun setting => !isLength setting.2)
        = (givenLengths record).find? fun setting => !isLength setting.2 := by
  cases h with
  | none => exact ⟨rfl, rfl⟩
  | some hread => exact (merge_of_read hread).imp_right find?_eq_of_states

/-- A section that is missing leaves the standard one. -/
theorem merge_of_rel {α : Type} {merge : Option Node → Except ReadError α} {read : Reader α}
    {standard : α} {v : Option α} (hnone : merge none = .ok standard)
    (hsome : ∀ {node v}, read node = .ok v → merge (some node) = .ok v)
    (h : Option.Rel (fun node v => read node = .ok v) record v) :
    merge record = .ok (v.getD standard) := by
  cases h with
  | none => exact hnone
  | some hread => exact hsome hread

end Given

theorem Config.value_parse {source : String} (hnode : Json5.parse? source = some node)
    (hfile : ConfigFile.read Json5.format node = .ok file) :
    (Config.parse source).outcome.value = file.toConfig.outcome.value := by
  have hread : readFile source = .ok file := by
    rw [readFile, hnode]
    simp only [hfile]
    rfl
  rw [parse, Attempt.value_bind, Attempt.value_ofExcept, hread]
  rfl

/-- A file of the right shape is refused exactly for the first of the given lengths that is none.
Otherwise each part of the configuration is told by its own section, on top of the defaults. -/
theorem Config.parse_merges {source : String} (hnode : Json5.parse? source = some node)
    (hfile : ConfigFile.read Json5.format node = .ok file) :
    (∀ e, (Config.parse source).outcome.value = .error e ↔ ∃ name x,
        LayoutConfig.FirstUnfit (LayoutConfig.givenLengths (present? (some node) "layout" 2)) name x
          ∧ e = .badSetting name x)
      ∧ ∀ config, (Config.parse source).outcome.value = .ok config →
        (Theme.chosen (present? (some node) "theme" 0) >>= fun theme =>
            theme.merge (present? (some node) "themeVariables" 1)) = .ok config.theme
          ∧ LayoutConfig.merge {} (present? (some node) "layout" 2) = .ok config.layout
          ∧ TreeConfig.merge {} (present? (some node) "tree" 3) = .ok config.tree
          ∧ RenderConfig.merge {} (present? (some node) "render" 4) = .ok config.render
          ∧ config.layout.validate = .ok () := by
  obtain ⟨htheme, hvars, hlayout, htree, hrender⟩ := ConfigFile.rel_of_read hfile
  obtain ⟨hmerge, hlengths⟩ := LayoutConfig.merge_of_rel hlayout
  rw [Config.value_parse hnode hfile, ConfigFile.value_toConfig]
  refine ⟨fun e => ?_, fun config hconfig => ?_⟩
  · simp only [← LayoutConfig.find?_eq_some_iff, ← hlengths]
    rw [← LayoutConfig.validate_eq_error_iff]
    cases (file.layout.getD {}).validate with
    | error e' => exact ⟨fun h => by cases h; rfl, fun h => by cases h; rfl⟩
    | ok u => exact iff_of_false nofun nofun
  · obtain ⟨u, hvalid, hconfig⟩ := exists_of_bind_eq_ok (f := fun _ => .ok _) hconfig
    cases hconfig
    refine ⟨?_, hmerge, merge_of_rel rfl TreeConfig.merge_of_read htree,
      merge_of_rel rfl RenderConfig.merge_of_read hrender, hvalid⟩
    rw [Theme.chosen_of_rel htheme]
    exact Theme.merge_of_rel hvars _

end Files

/-- Another palette with one of its colours replaced, and one length of the bubble graph. -/
def overrides : String :=
  "\x7b'theme': 'light', 'themeVariables': \x7b'lineColor': 'red'\x7d, "
    ++ "'layout': \x7b'baseRadius': 9\x7d\x7d"

theorem exists_overrides :
    ∃ node file config, Json5.parse? overrides = some node
      ∧ ConfigFile.read Json5.format node = .ok file
      ∧ (Config.parse overrides).outcome.value = .ok config
      ∧ config.theme.lineColor = "red" ∧ config.theme.background = "#FFFFFF"
      ∧ config.layout.baseRadius = 9 ∧ config.layout.rowHeight = 90 := by
  have hconfig : ((Json5.parse? overrides).bind fun node =>
      (ConfigFile.read Json5.format node).toOption.bind fun file =>
        file.toConfig.outcome.value.toOption.map fun config =>
          (config.theme.lineColor, config.theme.background, config.layout.baseRadius,
            config.layout.rowHeight)) = some ("red", "#FFFFFF", 9, 90) := by
    decide +kernel
  simp only [Option.bind_eq_some_iff, Option.map_eq_some_iff, Prod.mk.injEq] at hconfig
  obtain ⟨node, hnode, file, hfile, config, hconfig, hfields⟩ := hconfig
  have hread := eq_ok_of_toOption hfile
  exact ⟨node, file, config, hnode, hread,
    (Config.value_parse hnode hread).trans (eq_ok_of_toOption hconfig), hfields⟩

theorem Config.parse_merges_overrides :
    ∃ node file config, Json5.parse? overrides = some node
      ∧ ConfigFile.read Json5.format node = .ok file
      ∧ (Config.parse overrides).outcome.value = .ok config
      ∧ (Theme.chosen (present? (some node) "theme" 0) >>= fun theme =>
        theme.merge (present? (some node) "themeVariables" 1)) = .ok config.theme
      ∧ LayoutConfig.merge {} (present? (some node) "layout" 2) = .ok config.layout
      ∧ config.theme.lineColor = "red" ∧ config.theme.background = "#FFFFFF"
      ∧ config.layout.baseRadius = 9 ∧ config.layout.rowHeight = 90
      ∧ config.layout.validate = .ok () := by
  obtain ⟨node, file, config, hnode, hfile, hconfig, hline, hbackground, hradius, hrow⟩ :=
    exists_overrides
  obtain ⟨htheme, hlayout, -, -, hvalid⟩ := (Config.parse_merges hnode hfile).2 config hconfig
  exact ⟨node, file, config, hnode, hfile, hconfig, htheme, hlayout, hline, hbackground, hradius,
    hrow, hvalid⟩

end TreeAtlas
