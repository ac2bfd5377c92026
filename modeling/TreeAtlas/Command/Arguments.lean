import TreeAtlas.Decimal.Reading
import TreeAtlas.Panel.ViewMode

/-!
# Command line arguments

Options have a long name and most have a letter. A value follows its letter at once, perhaps after
`=`, or its long name after `=`, or is the next argument, which then must not look like an option;
a lone `-` does not. Letters without a value can be written together. Every option but the one that
counts may be given once, and nothing but options is accepted.

Arguments are read one after the other: each takes what was read so far to what is read with it,
or ends the reading (`Reading.step`).
-/

namespace TreeAtlas.Command

inductive OutputFormat where
  | svg
  | png
  | html
  deriving DecidableEq, Repr

def OutputFormat.ofName? : String → Option OutputFormat
  | "svg" => some .svg
  | "png" => some .png
  | "html" => some .html
  | _ => none

structure Settings where
  input : Option String := none
  tokens : Option String := none
  output : Option String := none
  outputFormat : OutputFormat := .svg
  view : ViewMode := .tree
  /-- Text of the identifier to highlight. -/
  selected : Option String := none
  configFile : Option String := none
  dumpLayout : Option String := none
  width : Float32 := 1200
  height : Float32 := 800
  verbosity : Nat := 0

inductive OptionName where
  | input
  | tokens
  | output
  | outputFormat
  | view
  | select
  | configFile
  | dumpLayout
  | width
  | height
  | verbose
  | help
  | version
  deriving DecidableEq, Repr

namespace OptionName

def all : List OptionName :=
  [.input, .tokens, .output, .outputFormat, .view, .select, .configFile, .dumpLayout, .width,
    .height, .verbose, .help, .version]

def letter? : OptionName → Option Char
  | .input => some 'i'
  | .tokens => some 't'
  | .output => some 'o'
  | .outputFormat => some 'e'
  | .view => none
  | .select => some 's'
  | .configFile => some 'c'
  | .dumpLayout => none
  | .width => some 'w'
  | .height => some 'H'
  | .verbose => some 'v'
  | .help => some 'h'
  | .version => some 'V'

def long : OptionName → String
  | .input => "input"
  | .tokens => "tokens"
  | .output => "output"
  | .outputFormat => "outputFormat"
  | .view => "view"
  | .select => "select"
  | .configFile => "configFile"
  | .dumpLayout => "dumpLayout"
  | .width => "width"
  | .height => "height"
  | .verbose => "verbose"
  | .help => "help"
  | .version => "version"

/-- How help texts name the value of an option that takes one. -/
def valueName? : OptionName → Option String
  | .input => some "INPUT"
  | .tokens => some "TOKENS"
  | .output => some "OUTPUT"
  | .outputFormat => some "OUTPUT_FORMAT"
  | .view => some "VIEW"
  | .select => some "SELECT"
  | .configFile => some "CONFIG"
  | .dumpLayout => some "DUMP_LAYOUT"
  | .width => some "WIDTH"
  | .height => some "HEIGHT"
  | .verbose | .help | .version => none

def takesValue (o : OptionName) : Bool :=
  o.valueName?.isSome

def summary : OptionName → String
  | .input =>
    "AST JSON file or '-' for stdin. A `\x7b\"ast\": .., \"tokens\": [..]\x7d` bundle is accepted too"
  | .tokens => "Token list JSON file"
  | .output => "Output file (svg/png/html). Defaults to stdout for SVG and HTML"
  | .outputFormat => "Output format [default: svg] [possible values: svg, png, html]"
  | .view => "Visualization to render [default: tree] [possible values: tree, bubble]"
  | .select => "Highlight the node with this id"
  | .configFile => "Config JSON5 file"
  | .dumpLayout => "Write the bubble layout as JSON"
  | .width => "PNG width [default: 1200]"
  | .height => "PNG height [default: 800]"
  | .verbose => "Increase log verbosity (-v, -vv)"
  | .help => "Print help"
  | .version => "Print version"

def ofLetter? (c : Char) : Option OptionName :=
  all.find? fun o => o.letter? == some c

def ofLong? (name : String) : Option OptionName :=
  all.find? fun o => o.long == name

/-- The line of the help text. -/
def helpLine (o : OptionName) : String :=
  let letter := match o.letter? with
    | some c => String.ofList ['-', c, ',', ' ']
    | none => "    "
  let value := match o.valueName? with
    | some name => " <" ++ name ++ ">"
    | none => if o = .verbose then "..." else ""
  let usage := "  " ++ letter ++ "--" ++ o.long ++ value
  usage ++ String.ofList (List.replicate (39 - usage.length) ' ') ++ o.summary ++ "\n"

end OptionName

def helpText : String :=
  "Render a parsed AST as a tree outline or bubble graph\n\nUsage: astx [OPTIONS]\n\nOptions:\n"
    ++ String.join (OptionName.all.map OptionName.helpLine)

def versionText : String := "astx 0.1.0\n"

def misuseText : String := "error: invalid arguments\n\nUsage: astx [OPTIONS]\n"

/-- Why reading ends before the last argument. -/
inductive Halt where
  | misuse
  | help
  | version
  deriving DecidableEq, Repr

/-- What was read so far. -/
structure Reading where
  settings : Settings := {}
  /-- Options that were given a value. -/
  given : List OptionName := []
  /-- The option whose value is the next argument. -/
  pending : Option OptionName := none
  /-- Whether `--` was met: no option comes after it. -/
  closed : Bool := false

namespace Settings

def path? (value : String) : Option String :=
  if value.isEmpty then none else some value

def length? (value : String) : Option Float32 :=
  (Decimal.Literal.ofChars? value.toList).map Decimal.Literal.toSingle

/-- The settings with a value, unless the option cannot take it. -/
def assign? (s : Settings) (o : OptionName) (value : String) : Option Settings :=
  match o with
  | .input => (path? value).map fun path => { s with input := some path }
  | .tokens => (path? value).map fun path => { s with tokens := some path }
  | .output => (path? value).map fun path => { s with output := some path }
  | .outputFormat =>
    (OutputFormat.ofName? value).map fun outputFormat => { s with outputFormat }
  | .view => (ViewMode.ofToken? value).map fun view => { s with view }
  | .select => some { s with selected := some value }
  | .configFile => (path? value).map fun path => { s with configFile := some path }
  | .dumpLayout => (path? value).map fun path => { s with dumpLayout := some path }
  | .width => (length? value).map fun width => { s with width }
  | .height => (length? value).map fun height => { s with height }
  | .verbose | .help | .version => none

end Settings

namespace Reading

/-- Gives an option its value. -/
def assign (r : Reading) (o : OptionName) (value : String) : Except Halt Reading :=
  if o ∈ r.given then .error .misuse
  else match r.settings.assign? o value with
    | none => .error .misuse
    | some settings => .ok { r with settings, given := o :: r.given, pending := none }

/-- Meets an option that takes no value. -/
def meet (r : Reading) (o : OptionName) : Except Halt Reading :=
  match o with
  | .help => .error .help
  | .version => .error .version
  | _ => .ok { r with settings := { r.settings with verbosity := r.settings.verbosity + 1 } }

/-- Reads letters written together; the rest after one that takes a value is its value. -/
def letters (r : Reading) : List Char → Except Halt Reading
  | [] => .ok r
  | c :: cs =>
    match OptionName.ofLetter? c with
    | none => .error .misuse
    | some o =>
      if o.takesValue then
        match cs with
        | [] => .ok { r with pending := some o }
        | '=' :: value => r.assign o (String.ofList value)
        | value => r.assign o (String.ofList value)
      else do
        let r ← r.meet o
        r.letters cs

/-- Reads a long name, perhaps with a value after `=`. -/
def longName (r : Reading) (cs : List Char) : Except Halt Reading :=
  match OptionName.ofLong? (String.ofList (cs.takeWhile (· != '='))) with
  | none => .error .misuse
  | some o =>
    match o.takesValue, cs.dropWhile (· != '=') with
    | true, [] => .ok { r with pending := some o }
    | true, _ :: value => r.assign o (String.ofList value)
    | false, [] => r.meet o
    | false, _ :: _ => .error .misuse

/-- Reads one argument. -/
def step (r : Reading) (arg : String) : Except Halt Reading :=
  if r.closed then .error .misuse
  else match arg.toList, r.pending with
    | ['-', '-'], _ => .ok { r with closed := true }
    | '-' :: '-' :: name, none => r.longName name
    | '-' :: c :: cs, none => r.letters (c :: cs)
    | '-' :: _ :: _, some _ => .error .misuse
    | _, some o => r.assign o arg
    | _, none => .error .misuse

end Reading

/-- Reads all arguments. -/
def Settings.parse (args : List String) : Except Halt Settings := do
  let r ← args.foldlM Reading.step {}
  match r.pending with
  | some _ => .error .misuse
  | none => .ok r.settings

end TreeAtlas.Command
