import PostgresSync.Shapes.Backend

namespace PostgresSync.Shapes

def internalKeySeparator : String := "\x1f"

def relationHeader (relation : Relation) : List String :=
  [relation.schema, relation.table]

/-- `strings.ReplaceAll(value, "\"", by) ` between two quotes. -/
def quoteWith (escape : List Char) (value : String) : String :=
  String.ofList ('"' ::
    value.toList.flatMap (fun char => if char = '"' then escape else [char]) ++
      ['"'])

def quoteIdentifier (value : String) : String := quoteWith ['"', '"'] value

def quoteKeyValue (value : String) : String := quoteWith ['\\', '"'] value

def quoteQualifiedRelation (relation : Relation) : String :=
  quoteIdentifier relation.schema ++ "." ++ quoteIdentifier relation.table

/-- The text of a column value in a key: `fmt.Sprint` of the value, and the
empty text for a missing or NULL one. -/
def keyText (row : Row) (name : String) : String :=
  match row[name]? with
  | some (some text) => text
  | _ => ""

/-- The primary-key columns with their index, ordered by index.  The source
sorts the pairs it collects from a map iteration; the order of two columns
with one index is unspecified there and by name here. -/
def primaryKeyNames (schema : Schema) : List String :=
  let pairs := schema.toList.filterMap fun entry =>
    entry.2.pkIndex.map fun index => (index, entry.1)
  (pairs.insertionSort fun left right => left.1 ≤ right.1).map (·.2)

def primaryKeyValues (schema : Schema) (row : Row) : List String :=
  (primaryKeyNames schema).map (keyText row)

def messageKey (relation : Relation) (schema : Schema) (row : Row) : String :=
  let values := primaryKeyValues schema row
  if values.isEmpty then
    ""
  else
    "/".intercalate (quoteQualifiedRelation relation :: values.map quoteKeyValue)

def primaryKeySignature (schema : Schema) (row : Row) : String :=
  internalKeySeparator.intercalate (primaryKeyValues schema row)

end PostgresSync.Shapes
