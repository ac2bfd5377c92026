import TreeAtlas.Command.Arguments
import TreeAtlas.Log
import TreeAtlas.Text.Controls

/-!
# Plans

What a command does is decided first, from its settings and the texts it was given, and done
afterwards. A plan is the steps in order and perhaps a failure that comes after them; a step that
cannot be carried out ends a run before the steps behind it.
-/

namespace TreeAtlas.Command

/-- What a file holds. -/
inductive Contents where
  | text (s : String)
  /-- A picture, known by its size in pixels. -/
  | image (width height : Nat)
  deriving DecidableEq, Repr

/-- Why a file cannot be read or written. -/
inductive FileError where
  | missing
  | directory
  | notDirectory
  | nameTooLong
  | other (text : String)
  deriving DecidableEq, Repr

def FileError.message : FileError → String
  | .missing => "No such file or directory (os error 2)"
  | .directory => "Is a directory (os error 21)"
  | .notDirectory => "Not a directory (os error 20)"
  | .nameTooLong => "File name too long (os error 36)"
  | .other text => text

inductive Step where
  | report (line : LogLine)
  | save (path : String) (contents : Contents)
  | print (text : String)
  deriving DecidableEq, Repr

/-- Steps, and what comes of them: a value, or the message of a failure. -/
structure Plan (α : Type) where
  steps : List Step
  result : Except String α

namespace Plan

variable {α β ε : Type}

def pure (a : α) : Plan α :=
  ⟨[], .ok a⟩

def bind (p : Plan α) (f : α → Plan β) : Plan β :=
  match p.result with
  | .ok a => ⟨p.steps ++ (f a).steps, (f a).result⟩
  | .error message => ⟨p.steps, .error message⟩

instance : Monad Plan where
  pure := Plan.pure
  bind := Plan.bind

def fail (message : String) : Plan α :=
  ⟨[], .error message⟩

def ofExcept (x : Except String α) : Plan α :=
  ⟨[], x⟩

def report (line : LogLine) : Plan Unit :=
  ⟨[.report line], .ok ()⟩

def save (path : String) (contents : Contents) : Plan Unit :=
  ⟨[.save path contents], .ok ()⟩

def print (text : String) : Plan Unit :=
  ⟨[.print text], .ok ()⟩

/-- Reports what was logged and goes on with the outcome. -/
def attempt (message : ε → String) (x : Attempt ε α) : Plan α :=
  let outcome := x.outcome
  ⟨outcome.lines.map .report, outcome.value.mapError message⟩

end Plan

/-- The severities shown for a number of repetitions of the option that counts. -/
def shown (verbosity : Nat) : Severity → Bool
  | .warn => true
  | .info => 1 ≤ verbosity
  | .debug => 2 ≤ verbosity

def severityText : Severity → String
  | .warn => "WARN "
  | .info => "INFO "
  | .debug => "DEBUG"

/-- The name under which a part logs. -/
def partText : Part → String
  | .document => "ast_explorer::ast"
  | .config => "ast_explorer::config"
  | .fonts => "ast_explorer::text_metrics"
  | .bubbles => "ast_explorer::layout"
  | .outline => "ast_explorer::layout::tree"
  | .panel => "ast_explorer::panel"
  | .render => "ast_explorer"
  | .command => "ast_explorer::cli"

/-- Text whose lines but the first have a margin. -/
def indented (s : String) : List Char :=
  s.toList.flatMap fun c => if c = '\n' then "\n    ".toList else [c]

/-- The form of a line for the user: only what a terminal shows of it. -/
def logText (line : LogLine) : String :=
  let head := "[" ++ severityText line.severity ++ " " ++ partText line.part ++ "] "
  .ofList (Text.withoutControls (head.toList ++ indented line.text ++ ['\n']))

def errorText (message : String) : String :=
  "error: " ++ message ++ "\n"

end TreeAtlas.Command
