/-!
# Faults in a data text

A reader that finds a fault knows what is left to read. From the number of bytes left the place is
found once, at the end: a fault is laid to the last byte read or to the byte ahead of it, and its
column counts bytes since the last line end.
-/

namespace TreeAtlas.Json

inductive Complaint where
  | endInValue
  | endInList
  | endInObject
  | endInString
  | expectedColon
  | expectedListEnd
  | expectedObjectEnd
  | expectedWord
  | expectedValue
  | keyNotString
  | trailingComma
  | trailingCharacters
  | controlCharacter
  | invalidEscape
  | invalidNumber
  | numberOutOfRange
  | loneSurrogate
  | unfinishedSurrogate
  | nestedTooDeep
  deriving DecidableEq, Repr

def Complaint.message : Complaint → String
  | .endInValue => "EOF while parsing a value"
  | .endInList => "EOF while parsing a list"
  | .endInObject => "EOF while parsing an object"
  | .endInString => "EOF while parsing a string"
  | .expectedColon => "expected `:`"
  | .expectedListEnd => "expected `,` or `]`"
  | .expectedObjectEnd => "expected `,` or `\x7d`"
  | .expectedWord => "expected ident"
  | .expectedValue => "expected value"
  | .keyNotString => "key must be a string"
  | .trailingComma => "trailing comma"
  | .trailingCharacters => "trailing characters"
  | .controlCharacter => "control character (\\u0000-\\u001F) found while parsing a string"
  | .invalidEscape => "invalid escape"
  | .invalidNumber => "invalid number"
  | .numberOutOfRange => "number out of range"
  | .loneSurrogate => "lone leading surrogate in hex escape"
  | .unfinishedSurrogate => "unexpected end of hex escape"
  | .nestedTooDeep => "recursion limit exceeded"

def byteCount (cs : List Char) : Nat :=
  cs.foldl (fun n c => n + c.utf8Size) 0

structure Fault where
  complaint : Complaint
  /-- Bytes not yet read. -/
  unread : Nat
  /-- Whether the fault is laid to the first byte not yet read. -/
  ahead : Bool
  deriving DecidableEq, Repr

namespace Fault

/-- A fault in what was just read, with `rest` still to come. -/
def behind (complaint : Complaint) (rest : List Char) : Fault :=
  ⟨complaint, byteCount rest, false⟩

/-- A fault in the next byte, or in the end of the text. -/
def next (complaint : Complaint) (rest : List Char) : Fault :=
  ⟨complaint, byteCount rest, true⟩

/-- A fault in the first `n` bytes of `rest`, which have been read as bytes. -/
def within (complaint : Complaint) (rest : List Char) (n : Nat) : Fault :=
  ⟨complaint, byteCount rest - n, false⟩

end Fault

/-- Line and column after `n` more bytes. -/
def locate : List Char → Nat → Nat × Nat → Nat × Nat
  | [], _, place => place
  | c :: cs, n, (line, column) =>
    if n = 0 then (line, column)
    else if c = '\n' then locate cs (n - 1) (line + 1, 0)
    else locate cs (n - c.utf8Size) (line, column + min n c.utf8Size)

structure SyntaxError where
  complaint : Complaint
  line : Nat
  column : Nat
  deriving DecidableEq, Repr

namespace SyntaxError

def message (e : SyntaxError) : String :=
  e.complaint.message ++ " at line " ++ toString e.line ++ " column " ++ toString e.column

end SyntaxError

/-- The fault with its place in the text it was found in. -/
def Fault.located (fault : Fault) (text : List Char) : SyntaxError :=
  let total := byteCount text
  let read := total - fault.unread
  let (line, column) := locate text (if fault.ahead then min (read + 1) total else read) (1, 0)
  ⟨fault.complaint, line, column⟩

end TreeAtlas.Json
