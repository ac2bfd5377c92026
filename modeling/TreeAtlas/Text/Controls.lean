/-!
# Text without control sequences

Text that goes to a terminal can hold commands to it: sequences that start with the escape
character, and control characters. What is left of a text without them is what a reader sees.

A scan goes through the text with the state of the sequence it is in. As long as characters are
shown, they are judged as outside of every sequence, and only the first one that is not shown takes
the state on: a line break inside a sequence therefore shows what follows it.
-/

namespace TreeAtlas.Text

inductive ControlState where
  /-- Outside of every sequence. -/
  | ground
  | escape
  | escapeIntermediate
  /-- A sequence with parameters, which one letter ends. -/
  | parameters
  | deviceEntry
  | deviceParameters
  | deviceIntermediate
  /-- Text for a device, up to its terminator. -/
  | deviceText
  /-- A command to the system, up to the bell. -/
  | command
  deriving DecidableEq, Repr

/-- Whether a character lies between two others, both included. -/
def between (first last c : Char) : Bool :=
  first ≤ c && c ≤ last

/-- Whether a character moves on the page without leaving a mark. -/
def isLayout (c : Char) : Bool :=
  c == '\t' || c == '\n' || c == '\x0c' || c == '\r'

/-- Whether a character holds the terminator of device texts among its bytes. -/
def holdsTerminator (c : Char) : Bool :=
  (String.utf8EncodeChar c).contains 0x9C

namespace ControlState

/-- Whether a character met in a state is shown. -/
def shows (s : ControlState) (c : Char) : Bool :=
  match s with
  | ground => isLayout c || between ' ' '~' c || 0x80 ≤ c.toNat
  | escape | escapeIntermediate | parameters => isLayout c
  | _ => false

def next (s : ControlState) (c : Char) : ControlState :=
  if c = '\x18' ∨ c = '\x1a' then ground
  else if c = '\x1b' then escape
  else match s with
    | ground => ground
    | escape =>
      if between ' ' '/' c then escapeIntermediate
      else if c = '[' then parameters
      else if c = ']' then command
      else if c = 'P' then deviceEntry
      else if c = 'X' ∨ c = '^' ∨ c = '_' then deviceText
      else if between '0' '~' c then ground
      else escape
    | escapeIntermediate => if between '0' '~' c then ground else s
    | parameters => if between '@' '~' c then ground else s
    | deviceEntry =>
      if between ' ' '/' c then deviceIntermediate
      else if between '0' '?' c then deviceParameters
      else if between '@' '~' c then deviceText
      else s
    | deviceParameters =>
      if between ' ' '/' c then deviceIntermediate
      else if between '<' '~' c then deviceText
      else s
    | deviceIntermediate => if between '0' '~' c then deviceText else s
    | deviceText => if holdsTerminator c then ground else s
    | command => if c = '\x07' then ground else s

end ControlState

structure ControlScan where
  state : ControlState := .ground
  /-- Whether the character before is shown. -/
  showing : Bool := true

/-- The scan behind a character, and whether the character is shown. -/
def ControlScan.step (s : ControlScan) (c : Char) : ControlScan × Bool :=
  if s.showing && ControlState.ground.shows c then
    (if c.toNat < 0x80 then s else ⟨.ground, true⟩, true)
  else
    (⟨s.state.next c, s.state.shows c⟩, s.state.shows c)

def ControlScan.shown (s : ControlScan) : List Char → List Char
  | [] => []
  | c :: cs =>
    let (s, visible) := s.step c
    if visible then c :: s.shown cs else s.shown cs

/-- What a terminal shows of a text. -/
def withoutControls (cs : List Char) : List Char :=
  ControlScan.shown {} cs

end TreeAtlas.Text
