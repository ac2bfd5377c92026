import TreeAtlas.Ast.Basic
import TreeAtlas.Markup.Element
import TreeAtlas.Theme
import TreeAtlas.Token

/-!
# The side pane

What is known about the selected node, and the list of tokens. Long values are cut, containers are
only counted.
-/

namespace TreeAtlas

namespace Inspector

/-- Characters of a value that are shown at most. -/
def maxValueLength : Nat := 80

/-- Cuts a text that is too long and marks the cut. -/
def truncate (length : Nat) (s : String) : String :=
  if s.toList.length ≤ length then s
  else String.ofList (s.toList.take (length - 1) ++ ['…'])

/-- Scalars in full, containers by their size. -/
def preview (v : Json) : String :=
  truncate maxValueLength <| match v with
    | .str s => s
    | .arr items => "[" ++ toString items.length ++ " item(s)]"
    | .obj fields => "\x7b" ++ toString fields.length ++ " field(s)\x7d"
    | v => v.write

def row (theme : Theme) (key value : String) : Markup :=
  .element "tr" []
    [.element "th"
        [("style", "text-align:left;color:" ++ theme.mutedTextColor
          ++ ";font-weight:500;padding:2px 8px 2px 0")]
        [.text key],
      .element "td" [("style", "font-family:monospace")] [.text value]]

/-- The properties of a node: its label, its identifier, its container, its attributes. -/
def properties (node : AstNode) : List (String × String) :=
  [("type", node.label)]
    ++ (node.id.map fun id => ("id", id.display)).toList
    ++ (node.shape.containerName.map fun name =>
        (name, toString node.children.length ++ " child node(s)")).toList
    ++ node.attributes.map fun (key, value) => (key, preview value)

def heading (text : String) : Markup :=
  .element "h3" [("style", "margin:0 0 8px;font-size:13px")] [.data text]

def muted (theme : Theme) (text : String) : Markup :=
  .element "div" [("class", "muted"), ("style", "color:" ++ theme.mutedTextColor)] [.data text]

def render (theme : Theme) (node : Option AstNode) : Markup :=
  .element "div"
    [("class", "inspector"),
      ("style", "border:1px solid " ++ theme.surfaceBorder
        ++ ";border-radius:10px;padding:10px;margin-bottom:12px")]
    [heading "Node",
      match node with
      | none => muted theme "Select a node to inspect it."
      | some node =>
        .element "table" [("style", "width:100%;border-collapse:collapse;font-size:12px")]
          ((properties node).map fun (key, value) => row theme key value)]

end Inspector

namespace TokenList

def position (theme : Theme) (text : String) : List Markup :=
  [.data " ",
    .element "span" [("style", "color:" ++ theme.mutedTextColor)] [.data "@", .text text]]

def item (theme : Theme) (token : Token) : Markup :=
  .element "li" [] <|
    [.element "b" [] [.text token.kind], .data " ",
      .text (Inspector.truncate Inspector.maxValueLength token.valueText)]
    ++ match token.position with
      | some text => position theme text
      | none => []

def render (theme : Theme) (tokens : List Token) : Markup :=
  .element "div"
    [("class", "tokens"),
      ("style", "border:1px solid " ++ theme.surfaceBorder ++ ";border-radius:10px;padding:10px")]
    [Inspector.heading ("Tokens (" ++ toString tokens.length ++ ")"),
      if tokens.isEmpty then Inspector.muted theme "No tokens."
      else
        .element "ol"
          [("style", "margin:0;padding-left:20px;font-size:12px;font-family:monospace")]
          (tokens.map (item theme))]

end TokenList

end TreeAtlas
