import TreeAtlas.Proofs.Command.Loading
import TreeAtlas.Proofs.Json.Nesting
import TreeAtlas.Proofs.Json.Rereading

/-!
# Bundles

A bundle is the text of an object that holds a tree and its tokens.  It is parsed once, and the
tokens in it are written again and read as a text of their own is, with the bound on nesting that
such a text has.  A tree in a text of its own has fewer brackets around it, so it is let through
where the bundle is.  Both texts come back as the values they were written from (`parse_write`), so
the same tree and the same tokens are loaded (`load_bundle`), and with the same configuration all
that a run does is the same.
-/

namespace TreeAtlas.Command

open Json

/-- The object that holds a tree and its tokens. -/
def bundle (tree tokens : Json) : Json :=
  .obj [("ast", tree), ("tokens", tokens)]

section Splitting

variable {tree tokens : Json}

theorem splitBundle_bundle : splitBundle (bundle tree tokens) = (tree, some tokens) := rfl

theorem depth_lt_bundle : tree.depth < (bundle tree tokens).depth := by
  simp only [bundle, depth, fieldsDepth]
  omega

theorem stable_bundle (htree : tree.Stable) (htokens : tokens.Stable) :
    (bundle tree tokens).Stable where
  ordered := by
    have hkeys : ["ast", "tokens"].Pairwise (· < ·) := by decide
    simp only [bundle, Ordered, OrderedFields]
    exact ⟨hkeys, htree.ordered, htokens.ordered, trivial⟩
  floats x hx hmem := by
    simp only [bundle, numbers, fieldsNumbers, List.append_nil, List.mem_append] at hmem
    exact hmem.elim (htree.floats x hx) (htokens.floats x hx)

/-- A document that is not too deep is read from its text. -/
theorem readDocument_write {limit : Nat} {v : Json} (h : v.Stable)
    (hdepth : v.depth ≤ min (2 * limit + 64) wordLimit) : readDocument limit v.write = .ok v := by
  rw [readDocument_of_le (by rwa [nesting_write]), parse_write h (Room.admits_none _)]
  rfl

end Splitting

/-! ### What is loaded -/

section Loading

variable {settings settings' : Settings} {sources sources' : Sources} {tree tokens : Json}

/-- Tokens of a bundle are read as if they stood in a text of their own. -/
theorem loadTokens_bundled (path path' : Option String) (h : tokens ≠ .null) :
    loadTokens path none (some tokens) = loadTokens path' (some (.ok tokens.write)) none := by
  cases tokens with
  | null => exact absurd rfl h
  | _ => rfl

/-- The same is loaded from a bundle and from the texts of its parts. -/
theorem load_bundle (hbundle : sources.input = .ok (bundle tree tokens).write)
    (hnone : sources.tokens = none) (htree : sources'.input = .ok tree.write)
    (htokens : sources'.tokens = some (.ok tokens.write))
    (hconfig : sources'.config = sources.config)
    (hsize : settings'.resize = settings.resize)
    (htreeStable : tree.Stable) (htokensStable : tokens.Stable) (hnull : tokens ≠ .null)
    (hunbundled : Unbundled tree)
    (hdepth : (bundle tree tokens).depth ≤ 2 * defaultNesting + 64) :
    load settings sources = load settings' sources' := by
  have hword : 2 * defaultNesting + 64 ≤ wordLimit := by decide
  have hlt : tree.depth < (bundle tree tokens).depth := depth_lt_bundle
  have hread : readDocument defaultNesting (bundle tree tokens).write
      = .ok (bundle tree tokens) :=
    readDocument_write (stable_bundle htreeStable htokensStable) (by omega)
  have hread' : readDocument defaultNesting tree.write = .ok tree :=
    readDocument_write htreeStable (by omega)
  rw [load_of_document _ _ hbundle hread, load_of_document _ _ htree hread', splitBundle_bundle,
    splitBundle_of_unbundled hunbundled, hconfig, hnone, htokens, hsize,
    loadTokens_bundled settings.tokens settings'.tokens hnull]

end Loading

/-! ### What is run -/

section Running

variable (lib : FontLibrary) {files : Directory} {args args' : List String}
  {input input' : String} {settings settings' : Settings} {tree tokens : Json}

/-- A run on a bundle does what a run with the same other settings does on the texts of its parts:
the same code, output, lines for the user and files.  Either may take its document from standard
input.  If that is a regular file, which can be read again, a configuration may come from it too,
and has to be the same for both. -/
theorem run_bundle (hargs : Settings.parse args = .ok settings)
    (hargs' : Settings.parse args' = .ok settings')
    (hsame : settings' = { settings with input := settings'.input, tokens := settings'.tokens })
    (hconfig : (settings'.sources files input').config = (settings.sources files input).config)
    (hbundle : (settings.sources files input).input = .ok (bundle tree tokens).write)
    (hnone : settings.tokens = none)
    (htree : (settings'.sources files input').input = .ok tree.write)
    (htokens : (settings'.sources files input').tokens = some (.ok tokens.write))
    (htreeStable : tree.Stable) (htokensStable : tokens.Stable) (hnull : tokens ≠ .null)
    (hunbundled : Unbundled tree)
    (hdepth : nesting (bundle tree tokens).write.toList ≤ 2 * defaultNesting + 64) :
    run lib files args input = run lib files args' input' := by
  have hload : load settings (settings.sources files input)
      = load settings' (settings'.sources files input') := by
    refine load_bundle hbundle ?_ htree htokens hconfig ?_ htreeStable htokensStable hnull
      hunbundled ?_
    · rw [Settings.sources, hnone]
      rfl
    · rw [hsame]
      rfl
    · rwa [nesting_write] at hdepth
  have hplan : plan lib settings (settings.sources files input)
      = plan lib settings' (settings'.sources files input') := by
    rw [plan_eq, plan_eq, hload, hsame]
    rfl
  unfold run
  simp only [hargs, hargs', hplan]
  rw [hsame]

/-- A tree with a node in it and an object around its tokens, in two texts and in one. -/
theorem run_bundle_of_input :
    let tree : Json := .arr [.str "leaf"]
    let tokens : Json := .obj [("tokens", .arr [])]
    let files := Directory.ofFiles [("tokens", tokens.write)]
    run .builtIn files [] (bundle tree tokens).write
      = run .builtIn files ["-t", "tokens"] tree.write := by
  intro tree tokens files
  have htree : tree.Stable := ⟨by simp [tree, Ordered, OrderedItems],
    by simp [tree, numbers, itemsNumbers]⟩
  have htokens : tokens.Stable := ⟨by simp [tokens, Ordered, OrderedFields, OrderedItems],
    by simp [tokens, numbers, fieldsNumbers, itemsNumbers]⟩
  have hdepth : nesting (bundle tree tokens).write.toList ≤ 2 * defaultNesting + 64 := by
    rw [nesting_write]
    decide
  have hargs : Settings.parse [] = .ok {} := rfl
  have hargs' : Settings.parse ["-t", "tokens"] = .ok { tokens := some "tokens" } := rfl
  exact run_bundle .builtIn hargs hargs' rfl rfl rfl rfl rfl rfl htree htokens nofun nofun hdepth

end Running

end TreeAtlas.Command
