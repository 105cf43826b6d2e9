import Mathlib.Data.List.Forall2

/-!
# Hiding schemas and objects

`Schemas` and `Objects` drop what the `HideSchemas` and `HideObjects` options name.
`CompileRegexPatterns` cuts an option at its commas, trims each part and compiles the
non-blank ones (`compileRegexPatterns_spec`); `shouldHideItem` asks whether any pattern
matches a name; `FilterStringSlice` and `filterObjectsResult` keep what no pattern hides.

A compiled pattern is its `MatchString`, and `regexp.Compile` is a parameter: the regular
expression engine is not in the source.

Main results:

* `filterStringSlice_eq`: `FilterStringSlice` keeps, in order, exactly the names that no
  pattern matches; its shortcut for no pattern gives the same list.
* `mem_filterObjectsResult`: with a pattern, a row is kept iff its schema and name cells
  are strings that no pattern of their kind matches; with none, every row is kept.
* `objects_hides`: every object `Objects` returns comes from the query, and neither its
  schema nor its name is matched by a pattern compiled from the options.
-/

namespace Pgweb

/-- A compiled `*regexp.Regexp`, as the filters use it: `MatchString`. -/
structure Regexp where
  matchString : String → Bool

/-- `strings.Split(s, sep)` on the characters of `s`. -/
def splitChars (sep : Char) : List Char → List (List Char)
  | [] => [[]]
  | c :: cs =>
    let rest := splitChars sep cs
    if c = sep then [] :: rest else (c :: rest.headD []) :: rest.tail

/-- Go's `unicode.IsSpace`. -/
def isSpace (c : Char) : Bool :=
  c = ' ' || ('\t' ≤ c && c ≤ '\r') || c = '\x85' || c = '\xa0' || c = '\u1680' ||
    ('\u2000' ≤ c && c ≤ '\u200a') || c = '\u2028' || c = '\u2029' || c = '\u202f' ||
    c = '\u205f' || c = '\u3000'

/-- `strings.TrimSpace`. -/
def trimSpace (s : String) : String :=
  ⟨((s.data.dropWhile isSpace).reverse.dropWhile isSpace).reverse⟩

/-- One pass of the loop of `CompileRegexPatterns`. -/
def compileStep (compile : String → Except String Regexp) (regexes : List Regexp)
    (pattern : String) : Except String (List Regexp) :=
  let pattern := trimSpace pattern
  if pattern = "" then .ok regexes
  else match compile pattern with
    | .error err => .error ("invalid regex pattern '" ++ pattern ++ "': " ++ err)
    | .ok regex => .ok (regexes ++ [regex])

/-- `CompileRegexPatterns(patterns)`; `compile` is `regexp.Compile`, with its error text. -/
def compileRegexPatterns (compile : String → Except String Regexp) (patterns : String) :
    Except String (List Regexp) :=
  if patterns = "" then .ok []
  else ((splitChars ',' patterns.data).map String.mk).foldlM (compileStep compile) []

/-- `shouldHideItem(item, patterns)`. -/
def shouldHideItem (item : String) (patterns : List Regexp) : Bool :=
  patterns.any fun pattern => pattern.matchString item

/-- `FilterStringSlice(items, patterns)`. -/
def filterStringSlice (items : List String) (patterns : List Regexp) : List String :=
  if patterns.length = 0 then items else items.filter fun item => !shouldHideItem item patterns

/-- A value of a result row, as `filterObjectsResult` tells them apart. -/
inductive Cell
  | string (s : String)
  /-- A value of any other type. -/
  | other
  deriving DecidableEq, Repr

abbrev Row := List Cell

/-- A `Result`: `other` stands for `Pagination` and `Stats`, which the filter copies. -/
structure Result (Other : Type) where
  columns : List String
  rows : List Row
  other : Other

/-- The loop body of `filterObjectsResult`: whether a row of the objects query is kept. -/
def keepRow (schemaPatterns objectPatterns : List Regexp) (row : Row) : Bool :=
  if row.length < 3 then false
  else match row[1]?, row[2]? with
    | some (Cell.string schema), some (Cell.string name) =>
      !shouldHideItem schema schemaPatterns && !shouldHideItem name objectPatterns
    | _, _ => false

/-- `filterObjectsResult(result, schemaPatterns, objectPatterns)`. -/
def filterObjectsResult {Other : Type} (result : Result Other)
    (schemaPatterns objectPatterns : List Regexp) : Result Other :=
  if schemaPatterns.length = 0 ∧ objectPatterns.length = 0 then result
  else { result with rows := result.rows.filter (keepRow schemaPatterns objectPatterns) }

namespace Client

/-- `Schemas()`: `rows` is what `fetchRows(statements.Schemas)` returned, `hideSchemas` is
`command.Opts.HideSchemas`. -/
def schemas (compile : String → Except String Regexp) (hideSchemas : String)
    (rows : Except String (List String)) : Except String (List String) := do
  let schemas ← rows
  let patterns ← (compileRegexPatterns compile hideSchemas).mapError
    ("failed to compile schema hide patterns: " ++ ·)
  return filterStringSlice schemas patterns

/-- `Objects()`: `result` is what `query(statements.Objects)` returned. -/
def objects {Other : Type} (compile : String → Except String Regexp)
    (hideSchemas hideObjects : String) (result : Except String (Result Other)) :
    Except String (Result Other) := do
  let result ← result
  let schemaPatterns ← (compileRegexPatterns compile hideSchemas).mapError
    ("failed to compile schema hide patterns: " ++ ·)
  let objectPatterns ← (compileRegexPatterns compile hideObjects).mapError
    ("failed to compile object hide patterns: " ++ ·)
  return filterObjectsResult result schemaPatterns objectPatterns

end Client

/-! ## Compiling the options -/

/-- The parts of an option that `CompileRegexPatterns` compiles: cut at the commas,
trimmed, the blank ones left out. -/
def patternFields (patterns : String) : List String :=
  if patterns = "" then []
  else (((splitChars ',' patterns.data).map String.mk).map trimSpace).filter (· ≠ "")

/-- What compiling the parts `fs` may give: one pattern per part, compiled from it, or the
error of a part that does not compile, named in the message. -/
def CompileSpec (compile : String → Except String Regexp) (fs : List String) :
    Except String (List Regexp) → Prop
  | .ok regexes => List.Forall₂ (fun f r => compile f = .ok r) fs regexes
  | .error msg => ∃ f ∈ fs, ∃ err, compile f = .error err ∧
      msg = "invalid regex pattern '" ++ f ++ "': " ++ err

theorem foldlM_compileStep (compile : String → Except String Regexp) :
    ∀ (ps : List String) (acc : List Regexp), ∃ e,
      ps.foldlM (compileStep compile) acc = e.map (acc ++ ·) ∧
      CompileSpec compile ((ps.map trimSpace).filter (· ≠ "")) e
  | [], acc => ⟨.ok [], by simp only [List.foldlM_nil, Except.map, List.append_nil]; rfl, .nil⟩
  | p :: ps, acc => by
    by_cases hp : trimSpace p = ""
    · obtain ⟨e, he, hs⟩ := foldlM_compileStep compile ps acc
      refine ⟨e, ?_, by simpa [hp] using hs⟩
      simpa [compileStep, hp] using he
    · cases hc : compile (trimSpace p) with
      | error err =>
        refine ⟨.error ("invalid regex pattern '" ++ trimSpace p ++ "': " ++ err), ?_, ?_⟩
        · simp [compileStep, hp, hc, bind, Except.bind, Except.map]
        · exact ⟨trimSpace p, by simp [hp], err, hc, rfl⟩
      | ok r =>
        obtain ⟨e, he, hs⟩ := foldlM_compileStep compile ps (acc ++ [r])
        refine ⟨e.map (r :: ·), ?_, ?_⟩
        · simp only [List.foldlM_cons, compileStep, hp, hc, if_false]
          cases e <;> simpa [Except.map] using he
        · rw [List.map_cons, List.filter_cons_of_pos (by simpa using hp)]
          cases e with
          | error msg =>
            obtain ⟨f, hf, err, hcf, rfl⟩ := hs
            exact ⟨f, List.mem_cons_of_mem _ hf, err, hcf, rfl⟩
          | ok rs => exact List.Forall₂.cons hc hs

/-- `CompileRegexPatterns` gives one pattern per non-blank part, in order, each compiled
from that part; or it fails with the error of a part, which the message quotes. -/
theorem compileRegexPatterns_spec (compile : String → Except String Regexp)
    (patterns : String) :
    CompileSpec compile (patternFields patterns) (compileRegexPatterns compile patterns) := by
  unfold compileRegexPatterns patternFields
  split
  · exact List.Forall₂.nil
  · obtain ⟨e, he, hs⟩ := foldlM_compileStep compile ((splitChars ',' patterns.data).map String.mk) []
    rw [he]
    cases e <;> simpa [Except.map] using hs

example : ((compileRegexPatterns (fun s => .ok ⟨(· == s)⟩) "public,,meta").map List.length)
    = .ok 2 := rfl

/-! ## The filters -/

theorem keepRow_iff {schemaPatterns objectPatterns : List Regexp} {row : Row} :
    keepRow schemaPatterns objectPatterns row = true ↔
      ∃ schema name, row[1]? = some (.string schema) ∧ row[2]? = some (.string name) ∧
        (∀ p ∈ schemaPatterns, p.matchString schema = false) ∧
        (∀ p ∈ objectPatterns, p.matchString name = false) := by
  unfold keepRow
  split
  · rename_i h
    have : row[2]? = none := List.getElem?_eq_none (by omega)
    simp [this]
  · split
    · rename_i schema name h1 h2
      simp [h1, h2, shouldHideItem]
    · rename_i hne
      simp only [Bool.false_eq_true, false_iff, not_exists, not_and]
      exact fun s n h1 h2 _ _ => hne s n h1 h2

/-- A row is kept iff no pattern of its kind matches its schema or name (all rows with none). -/
theorem mem_filterObjectsResult {Other : Type} {result : Result Other}
    {schemaPatterns objectPatterns : List Regexp} {row : Row} :
    let r := filterObjectsResult result schemaPatterns objectPatterns
    r.columns = result.columns ∧ r.other = result.other ∧
    (row ∈ r.rows ↔ row ∈ result.rows ∧
      (schemaPatterns = [] ∧ objectPatterns = [] ∨
        ∃ schema name, row[1]? = some (.string schema) ∧ row[2]? = some (.string name) ∧
          (∀ p ∈ schemaPatterns, p.matchString schema = false) ∧
          (∀ p ∈ objectPatterns, p.matchString name = false))) := by
  unfold filterObjectsResult
  split
  · rename_i h
    simp [List.length_eq_zero.1 h.1, List.length_eq_zero.1 h.2]
  · rename_i h
    simp only [List.length_eq_zero] at h
    simp only [List.mem_filter, keepRow_iff, h, false_or, true_and]

theorem bind_eq_ok {ε α β : Type} {x : Except ε α} {f : α → Except ε β} {b : β}
    (h : x >>= f = .ok b) : ∃ a, x = .ok a ∧ f a = .ok b := by
  cases x with
  | error e => cases h
  | ok a => exact ⟨a, rfl, h⟩

theorem mapError_eq_ok {ε ε' α : Type} {x : Except ε α} {g : ε → ε'} {a : α}
    (h : x.mapError g = .ok a) : x = .ok a := by
  cases x with
  | error e => cases h
  | ok a' => cases h; rfl

/-- What `Objects` returns is the query's rows without any whose schema or name a compiled
hide pattern matches. -/
theorem objects_hides {Other : Type} {compile : String → Except String Regexp}
    {hideSchemas hideObjects : String} {res : Except String (Result Other)}
    {r : Result Other} (h : Client.objects compile hideSchemas hideObjects res = .ok r)
    {row : Row} (hrow : row ∈ r.rows) :
    ∃ r₀ ps os, res = .ok r₀ ∧ compileRegexPatterns compile hideSchemas = .ok ps ∧
      compileRegexPatterns compile hideObjects = .ok os ∧ row ∈ r₀.rows ∧
      (∀ p ∈ ps, ∀ s, row[1]? = some (.string s) → p.matchString s = false) ∧
      (∀ p ∈ os, ∀ s, row[2]? = some (.string s) → p.matchString s = false) := by
  obtain ⟨r₀, hres, h⟩ := bind_eq_ok h
  obtain ⟨ps, hs, h⟩ := bind_eq_ok h
  obtain ⟨os, ho, h⟩ := bind_eq_ok h
  cases h
  obtain ⟨hr₀, hk⟩ := (@mem_filterObjectsResult _ r₀ ps os row).2.2.1 hrow
  refine ⟨r₀, ps, os, hres, mapError_eq_ok hs, mapError_eq_ok ho, hr₀, ?_⟩
  rcases hk with ⟨rfl, rfl⟩ | ⟨schema, name, h1, h2, hsp, hop⟩
  · simp
  · exact ⟨fun p hp s hs' => by rw [h1] at hs'; cases hs'; exact hsp p hp,
      fun p hp s hs' => by rw [h2] at hs'; cases hs'; exact hop p hp⟩

/-- `HideSchemas` is `public`: of a `public` and an `app` object, the `app` one is returned,
and no pattern matches its schema. -/
theorem objects_hides_app :
    ∃ (r₀ : Result Unit) (ps os : List Regexp),
      (.ok ⟨["oid", "schema", "name"], [[.other, .string "public", .string "users"],
        [.other, .string "app", .string "products"]], ()⟩ : Except String (Result Unit)) = .ok r₀ ∧
      compileRegexPatterns (fun s => .ok ⟨(· == s)⟩) "public" = .ok ps ∧
      compileRegexPatterns (fun s => .ok ⟨(· == s)⟩) "" = .ok os ∧
      [.other, .string "app", .string "products"] ∈ r₀.rows ∧
      (∀ p ∈ ps, ∀ s, [Cell.other, .string "app", .string "products"][1]? = some (.string s) →
        p.matchString s = false) ∧
      (∀ p ∈ os, ∀ s, [Cell.other, .string "app", .string "products"][2]? = some (.string s) →
        p.matchString s = false) :=
  @objects_hides Unit (fun s => .ok ⟨(· == s)⟩) "public" ""
    (.ok ⟨["oid", "schema", "name"], [[.other, .string "public", .string "users"],
      [.other, .string "app", .string "products"]], ()⟩)
    ⟨["oid", "schema", "name"], [[.other, .string "app", .string "products"]], ()⟩
    rfl _ (List.mem_singleton_self _)

end Pgweb
