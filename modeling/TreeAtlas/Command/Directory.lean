import TreeAtlas.Command.Path
import TreeAtlas.Command.Plan

/-!
# Directories

A directory in memory, in which plans can be carried out. A file lies at a place, and a folder is
there if a file lies in it, if it holds the folder in which one stands, or if it is there always.
-/

namespace TreeAtlas.Command

structure Directory where
  /-- The folder from which relative paths start. -/
  here : Place := ["tmp", "work"]
  files : List (Place × Contents) := []

/-- What lies at a place. -/
inductive Entry where
  | folder
  | file (contents : Contents)
  deriving DecidableEq, Repr

/-- Bytes of the longest name. -/
def longestName : Nat := 255

/-- Bytes of the longest path. -/
def longestPath : Nat := 4095

/-- Why nothing lies at a place. -/
def Place.absence (p : Place) : FileError :=
  if p.any fun name => longestName < name.utf8ByteSize then .nameTooLong else .missing

namespace Directory

def ofFiles (files : List (String × String)) : Directory :=
  let d : Directory := {}
  { d with files := files.map fun (path, text) => ((Path.ofText path).place d.here, .text text) }

/-- Folders that are there in every directory. -/
def lastingFolders : List Place :=
  [["dev"], ["etc"], ["home"], ["proc"], ["root"], ["tmp"], ["usr"], ["var"]]

def hasFolder (d : Directory) (p : Place) : Bool :=
  p.isPrefixOf d.here || lastingFolders.contains p || d.files.any fun (file, _) =>
    p.isPrefixOf file && p ≠ file

def entry? (d : Directory) (p : Place) : Option Entry :=
  match d.files.lookup p with
  | some contents => some (.file contents)
  | none => if d.hasFolder p then some .folder else none

/-- Goes from a folder into the next one. -/
def enter (d : Directory) (folder : Place) (name : String) : Except FileError Place :=
  let p := folder.follow name
  match d.entry? p with
  | some .folder => .ok p
  | some (.file _) => .error .notDirectory
  | none => .error p.absence

/-- The place of a path. All but its last name have to be folders. -/
def locate (d : Directory) (path : String) : Except FileError Place := do
  if path = "" then throw .missing
  if longestPath < path.utf8ByteSize then throw .nameTooLong
  let p := Path.ofText path
  let folder ← p.names.dropLast.foldlM d.enter (p.start d.here)
  return match p.names.getLast? with
    | some name => folder.follow name
    | none => folder

def find? (d : Directory) (path : String) : Option Contents :=
  match d.locate path with
  | .ok p => d.files.lookup p
  | .error _ => none

/-- Puts contents at a place, over what lies there. -/
def put (d : Directory) (p : Place) (contents : Contents) : Directory :=
  { d with files := (p, contents) :: d.files }

def read (d : Directory) (path : String) : Except FileError String := do
  let p ← d.locate path
  match d.entry? p with
  | none => .error p.absence
  | some .folder => .error .directory
  | some (.file contents) =>
    if (Path.ofText path).asksFolder then .error .notDirectory
    else match contents with
      | .text s => .ok s
      | .image _ _ => .error (.other "stream did not contain valid UTF-8")

/-- The place under which a path can be written. -/
def writable (d : Directory) (path : String) : Except FileError Place := do
  let p ← d.locate path
  if (Path.ofText path).asksFolder then throw .directory
  match d.entry? p with
  | some .folder => .error .directory
  | some (.file _) => .ok p
  | none => if p.absence = .missing then .ok p else .error p.absence

/-- The directory with the files that stand for nothing and for standard input. -/
def withStandardInput (d : Directory) (text : String) : Directory :=
  (d.put ["dev", "null"] (.text "")).put ["dev", "stdin"] (.text text)

end Directory

/-- What a run shows and leaves. -/
structure Outcome where
  code : Nat
  output : String := ""
  /-- Lines for the user, each with its end. -/
  notices : List String := []
  files : Directory

namespace Outcome

def fail (o : Outcome) (message : String) : Outcome :=
  { o with code := 1, notices := o.notices ++ [errorText message] }

/-- Contents at a place, some of which are shown and kept nowhere. -/
def receive (o : Outcome) (p : Place) (contents : Contents) : Outcome :=
  match p, contents with
  | ["dev", "null"], _ => o
  | ["dev", "stdout"], .text s => { o with output := o.output ++ s }
  | ["dev", "stderr"], .text s => { o with notices := o.notices ++ [s] }
  | _, _ => { o with files := o.files.put p contents }

/-- Carries out steps up to the first that cannot be. -/
def perform (verbosity : Nat) (o : Outcome) : List Step → Except Outcome Outcome
  | [] => .ok o
  | .report line :: steps =>
    perform verbosity
      (if shown verbosity line.severity then { o with notices := o.notices ++ [logText line] }
        else o) steps
  | .print text :: steps => perform verbosity { o with output := o.output ++ text } steps
  | .save path contents :: steps =>
    match o.files.writable path with
    | .ok p => perform verbosity (o.receive p contents) steps
    | .error e => .error (o.fail e.message)

/-- Carries out a plan. -/
def ofPlan (verbosity : Nat) (files : Directory) (p : Plan Unit) : Outcome :=
  match perform verbosity ⟨0, "", [], files⟩ p.steps with
  | .error o => o
  | .ok o =>
    match p.result with
    | .ok () => o
    | .error message => o.fail message

end Outcome

end TreeAtlas.Command
