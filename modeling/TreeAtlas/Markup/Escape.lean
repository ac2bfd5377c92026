/-!
# Escaping character data

The five characters with a meaning in markup are replaced by entities, one after another over the
whole text. The ampersand goes first, so no later replacement meets an entity's ampersand as text.
-/

namespace TreeAtlas.Markup

/-- Every `c` replaced by the characters of `entity`. -/
def replaceChar (c : Char) (entity : List Char) (cs : List Char) : List Char :=
  cs.flatMap fun d => if d = c then entity else [d]

def escapeChars (cs : List Char) : List Char :=
  cs |> replaceChar '&' "&amp;".toList
    |> replaceChar '<' "&lt;".toList
    |> replaceChar '>' "&gt;".toList
    |> replaceChar '"' "&quot;".toList
    |> replaceChar '\x27' "&apos;".toList

def escape (s : String) : String :=
  String.ofList (escapeChars s.toList)

end TreeAtlas.Markup
