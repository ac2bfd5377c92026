import TreeAtlas.Text.Quoted

/-!
# Faults in markup

A reader that finds a fault keeps what it has not read. The place of the fault is counted from that
once, at the end: its line, and the character of the line at which it stands.
-/

namespace TreeAtlas.Markup

inductive Complaint where
  | noCharacter (c : Char)
  /-- Another character than the only one that can stand here. -/
  | expected (mark found : Char)
  /-- A character outside of the kind that can stand here. -/
  | expectedKind (kind : String) (found : Char)
  | expectedText (text : String)
  | invalidName
  | malformedReference
  | unknownReference (name : String)
  | sectionEndInText
  | dashesInComment
  | lateDeclaration
  | unknownToken
  | repeatedAttribute (name : String)
  | repeatedQualifier (name : String)
  | unknownQualifier (name : String)
  | reservedQualifier
  | unexpectedClose (opened closed : String)
  | noRoot
  | openRoot
  | endOfText
  deriving DecidableEq, Repr

/-- The first byte of a character, shown as a character. -/
def firstByte (c : Char) : Char :=
  match String.utf8EncodeChar c with
  | byte :: _ => Char.ofNat byte.toNat
  | [] => c

def Complaint.message (place : String) : Complaint → String
  | noCharacter c =>
    "a non-XML character '" ++ .ofList (Text.quotedChar c) ++ "' found at " ++ place
  | expected mark found =>
    "expected '" ++ mark.toString ++ "' not '" ++ (firstByte found).toString ++ "' at " ++ place
  | expectedKind kind found =>
    "expected " ++ kind ++ " not '" ++ (firstByte found).toString ++ "' at " ++ place
  | expectedText text => "expected '" ++ text ++ "' at " ++ place
  | invalidName => "invalid name token at " ++ place
  | malformedReference => "malformed entity reference at " ++ place
  | unknownReference name => "unknown entity reference '" ++ name ++ "' at " ++ place
  | sectionEndInText => "']]>' at " ++ place ++ " is not allowed inside a character data"
  | dashesInComment => "comment at " ++ place ++ " contains '--'"
  | lateDeclaration => "unexpected XML declaration at " ++ place
  | unknownToken => "unknown token at " ++ place
  | repeatedAttribute name => "attribute '" ++ name ++ "' at " ++ place ++ " is already defined"
  | repeatedQualifier name => "namespace '" ++ name ++ "' at " ++ place ++ " is already defined"
  | unknownQualifier name => "an unknown namespace prefix '" ++ name ++ "' at " ++ place
  | reservedQualifier => "the 'xmlns' prefix is used at " ++ place ++ ", but it must not be"
  | unexpectedClose opened closed =>
    "expected '" ++ opened ++ "' tag, not '" ++ closed ++ "' at " ++ place
  | noRoot => "the document does not have a root node"
  | openRoot => "the root node was opened but never closed"
  | endOfText => "unexpected end of stream"

structure Fault where
  complaint : Complaint
  unread : List Char

namespace Fault

/-- Line and character of the place behind some text. -/
def place (read : List Char) : Nat × Nat :=
  read.foldl (fun (line, column) c => if c = '\n' then (line + 1, 1) else (line, column + 1)) (1, 1)

/-- The message for a fault met in a text. -/
def message (fault : Fault) (text : List Char) : String :=
  let (line, column) := place (text.take (text.length - fault.unread.length))
  fault.complaint.message (toString line ++ ":" ++ toString column)

end Fault

end TreeAtlas.Markup
