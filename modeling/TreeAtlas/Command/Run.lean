import TreeAtlas.Command.Directory
import TreeAtlas.Image.Size
import TreeAtlas.Layout.Dump
import TreeAtlas.Markup.Reader
import TreeAtlas.Render

/-!
# The rendering command

Reads a configuration, a document and its tokens and puts out a drawing, a picture or a page. A
document can be a bundle, an object that holds the tree under `ast` and perhaps its tokens under
`tokens`; tokens of their own file come first.
-/

namespace TreeAtlas.Command

/-- The texts that a command needs, so far as its settings ask for them. -/
structure Sources where
  config : Option (Except FileError String)
  input : Except FileError String
  tokens : Option (Except FileError String)

/-- Splits a bundle into its tree and its tokens. -/
def splitBundle (v : Json) : Json × Option Json :=
  match v with
  | .obj fields =>
    match Json.Fields.find? "ast" fields with
    | some tree => (tree, Json.Fields.find? "tokens" fields)
    | none => (v, none)
  | _ => (v, none)

def unreadable (path : String) : String :=
  "failed to read " ++ path

/-- A configuration file that cannot be read is told apart by the reason alone. -/
def loadConfig (source : Option (Except FileError String)) : Plan Config :=
  match source with
  | none => return {}
  | some (.error e) => .fail e.message
  | some (.ok text) => .attempt ConfigError.message (Config.parse text)

def loadTokens (path : Option String) (source : Option (Except FileError String))
    (bundled : Option Json) : Except String (List Token) :=
  match source with
  | some (.error _) => .error (unreadable (path.getD ""))
  | some (.ok text) => (Token.parseList text).mapError TokenError.message
  | none =>
    match bundled with
    | none | some .null => .ok []
    | some v => (Token.parseList v.write).mapError TokenError.message

def loadedLine (ast : Ast) : LogLine :=
  ⟨.info, .command, "loaded AST with " ++ toString ast.size ++ " nodes"⟩

def dumpedLine (path : String) : LogLine :=
  ⟨.info, .command, "wrote layout dump to " ++ path⟩

def dumpLayout (ast : Ast) (config : LayoutConfig) (path : String) : Plan Unit := do
  let layout ← .attempt LayoutError.message (layoutBubbles ast config)
  .save path (.text (LayoutDump.ofLayout layout).fileText)
  .report (dumpedLine path)

def putOut (output : Option String) (text : String) : Plan Unit :=
  match output with
  | some path => .save path (.text text)
  | none => .print text

/-- A picture is made from the text of a drawing, which is read again for it. -/
def picture (render : RenderConfig) (layout : ViewLayout) (drawing : Markup) :
    Except String Contents :=
  match Markup.Reader.complaint? drawing.write with
  | some complaint => .error ("SVG data parsing failed cause " ++ complaint)
  | none =>
    match Image.size? render layout.width layout.height with
    | none => .error "SVG has an invalid size"
    | some (width, height) =>
      if Image.widest < width then .error "Failed to allocate pixmap"
      else .ok (.image width height)

/-- Renders into a picture, which needs a file and a usable size for what has none of its own. -/
def renderImage (lib : FontLibrary) (ast : Ast) (options : RenderOptions)
    (output : Option String) : Plan Unit :=
  match output with
  | none => .fail "Output path required for png output"
  | some path => do
    let layout ← .attempt LayoutError.message (layoutView lib ast options)
    let render := options.config.render
    if Image.isUsable render.width && Image.isUsable render.height then do
      let contents ← .ofExcept (picture render layout (layout.draw options))
      .save path contents
    else .fail ("Invalid PNG size " ++ singleText render.width ++ "x" ++ singleText render.height)

/-- All that a command does. -/
def plan (lib : FontLibrary) (settings : Settings) (sources : Sources) : Plan Unit := do
  let config ← loadConfig sources.config
  let config :=
    { config with
      render := { config.render with width := settings.width, height := settings.height } }
  let text ← .ofExcept (sources.input.mapError fun _ => unreadable (settings.input.getD ""))
  let document ← .ofExcept
    ((readDocument defaultNesting text).mapError fun _ => "input is not a loadable AST")
  let (tree, bundled) := splitBundle document
  let ast ← .attempt DocumentError.message (Ast.ofJson defaultNesting tree)
  .report (loadedLine ast)
  let tokens ← .ofExcept (loadTokens settings.tokens sources.tokens bundled)
  match settings.dumpLayout with
  | some path => dumpLayout ast config.layout path
  | none => Plan.pure ()
  let options : RenderOptions :=
    { config, view := settings.view, selected := settings.selected.map NodeId.ofText }
  match settings.outputFormat with
  | .svg => do
    let drawing ← .attempt LayoutError.message (drawTree lib ast options)
    putOut settings.output drawing.write
  | .html => do
    let page ← .attempt LayoutError.message (renderTreePage lib ast tokens options)
    putOut settings.output page
  | .png => renderImage lib ast options settings.output

/-- The files that settings ask for, and standard input if no file holds the document. Standard
input that is named by a path yields all of its text at each read, as a regular file that stands for
it does; a pipe would be empty after the first read. -/
def Settings.sources (s : Settings) (files : Directory) (standardInput : String) : Sources :=
  let read := (files.withStandardInput standardInput).read
  { config := s.configFile.map read
    input := match s.input with
      | none => .ok standardInput
      | some path => if (Path.ofText path).isStandardInput then .ok standardInput else read path
    tokens := s.tokens.map read }

/-- The command in a directory. Arguments that are misused end it with a code of its own. -/
def run (lib : FontLibrary) (files : Directory) (args : List String) (standardInput : String) :
    Outcome :=
  match Settings.parse args with
  | .error .misuse => { code := 2, notices := [misuseText], files }
  | .error .help => { code := 0, output := helpText, files }
  | .error .version => { code := 0, output := versionText, files }
  | .ok settings =>
    .ofPlan settings.verbosity files (plan lib settings (settings.sources files standardInput))

end TreeAtlas.Command
