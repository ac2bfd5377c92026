import TreeAtlas.Json.Parser
import TreeAtlas.Record.OfJson
import TreeAtlas.Record.Written

/-!
# Tokens

The tokens that a lexer found, as listed beside a tree. A list of tokens is an array, or an object
with an array `tokens`. Fields have several names, and each may be left out.
-/

namespace TreeAtlas

structure Token where
  kind : String
  value : Option Json := none
  line : Option Nat := none
  column : Option Nat := none

inductive TokenError where
  | malformed (e : Json.SyntaxError)
  | unreadable (m : Record.Mismatch)
  | shape

def TokenError.message : TokenError → String
  | .malformed e => "invalid token JSON: " ++ e.message
  | .unreadable m => "invalid token JSON: " ++ m.message .data
  | .shape => "expected a token array or an object with a `tokens` array"

namespace Token

def ofText (kind value : String) : Token :=
  { kind, value := some (.str value) }

open Record in
def read {R : Type → Type} (f : DataFormat R) : R Token :=
  f.record "Token"
    (.cons "kind" ["type"] (.default "") f.text
      <| .cons "value" ["text", "lexeme"] (.default none) (f.optional f.any)
      <| .cons "line" [] (.default none) (f.optional f.word)
      <| .cons "column" ["col"] (.default none) (f.optional f.word) .nil)
    fun (kind, value, line, column, ()) => { kind, value, line, column }

def written (t : Token) : Written :=
  .record
    [("kind", .text t.kind), ("value", .optional .data t.value), ("line", .optional .whole t.line),
      ("column", .optional .whole t.column)]

/-- A string as it is, any other value as its text. -/
def valueText (t : Token) : String :=
  match t.value with
  | none => ""
  | some (.str s) => s
  | some v => v.write

def position (t : Token) : Option String :=
  match t.line, t.column with
  | some line, some column => some (toString line ++ ":" ++ toString column)
  | some line, none => some (toString line)
  | none, _ => none

/-- The tokens of a list, up to the first that cannot be read. -/
def ofItems (items : List Json) : Except TokenError (List Token) :=
  items.mapM fun v => (read Record.ofJson v).mapError .unreadable

def ofJson : Json → Except TokenError (List Token)
  | .arr items => ofItems items
  | .obj fields =>
    match Json.Fields.find? "tokens" fields with
    | some (.arr items) => ofItems items
    | _ => .error .shape
  | _ => .error .shape

/-- Reads a list of tokens. -/
def parseList (text : String) : Except TokenError (List Token) := do
  let v ← (Json.parse Json.strictRoom text).mapError .malformed
  ofJson v

end Token

end TreeAtlas
