import TreeAtlas.Embedding
import TreeAtlas.Main
import TreeAtlas.Proofs.Json.Nesting
import TreeAtlas.Proofs.Ast.Identity
import TreeAtlas.Proofs.Ast.Numbering
import TreeAtlas.Proofs.Ast.Contents
import TreeAtlas.Proofs.Layout.Agreement
import TreeAtlas.Proofs.Layout.OfDocument
import TreeAtlas.Proofs.Layout.Folding
import TreeAtlas.Proofs.Panel.Runs
import TreeAtlas.Proofs.Panel.Clicks
import TreeAtlas.Proofs.Panel.Updates
import TreeAtlas.Proofs.Panel.Written
import TreeAtlas.Proofs.Panel.Warnings
import TreeAtlas.Proofs.Panel.Page
import TreeAtlas.Proofs.Panel.Selection
import TreeAtlas.Proofs.Command.Bundle
import TreeAtlas.Proofs.Command.Complete
import TreeAtlas.Proofs.Layout.Columns
import TreeAtlas.Proofs.Layout.Keys
import TreeAtlas.Proofs.Markup.Values
import TreeAtlas.Proofs.Panel.Themes
import TreeAtlas.Proofs.Decimal.Nearest
import TreeAtlas.Proofs.Decimal.Shortest
import TreeAtlas.Proofs.Decimal.Rereading
import TreeAtlas.Proofs.Panel.Naming
import TreeAtlas.Proofs.Layout.Levels
import TreeAtlas.Proofs.Layout.Radii
import TreeAtlas.Proofs.Layout.Blame
import TreeAtlas.Proofs.Json.Retelling
import TreeAtlas.Proofs.Ast.Budget
import TreeAtlas.Proofs.Font.Advances
import TreeAtlas.Proofs.Font.Measuring
import TreeAtlas.Proofs.Record.Sources
import TreeAtlas.Proofs.Token.Rereading
import TreeAtlas.Proofs.Command.Refusing
import TreeAtlas.Proofs.Config
import TreeAtlas.Proofs.Layout.Steps
