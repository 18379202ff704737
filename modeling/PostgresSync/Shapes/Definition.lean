import PostgresSync.Shapes.Backend
import PostgresSync.SqlInspect.Inspect

namespace PostgresSync.Shapes

open PostgresSync.Data
open PostgresSync.SqlInspect

structure Subset where
  whereClause : String := ""
  params : Dict String := ∅
  limit : Option Int := none
  offset : Option Int := none
  orderBy : String := ""
  whereExpr : String := ""
  orderByExpr : String := ""
deriving DecidableEq

structure Definition where
  relation : Relation
  whereClause : String := ""
  params : Dict String := ∅
  columns : List String := []
  replica : String := ""
  log : String := ""
  subset : Option Subset := none
deriving DecidableEq

structure CanonicalSubset where
  whereClause : String
  params : List (String × String)
  limit : Option Int
  offset : Option Int
  orderBy : String
  whereExpr : String
  orderByExpr : String
deriving DecidableEq

structure CanonicalDefinition where
  relation : Relation
  whereClause : String
  params : List (String × String)
  columns : List String
  replica : String
  log : String
  subset : Option CanonicalSubset
deriving DecidableEq

def canonicalizeMap (values : Dict String) : List (String × String) :=
  values.toList

def canonicalizeStrings (values : List String) : List String :=
  values.insertionSort (· ≤ ·)

def canonicalDefinition (definition : Definition) : CanonicalDefinition where
  relation := definition.relation
  whereClause := definition.whereClause
  params := canonicalizeMap definition.params
  columns := canonicalizeStrings definition.columns
  replica := definition.replica
  log := definition.log
  subset := definition.subset.map fun subset => {
    whereClause := subset.whereClause
    params := canonicalizeMap subset.params
    limit := subset.limit
    offset := subset.offset
    orderBy := subset.orderBy
    whereExpr := subset.whereExpr
    orderByExpr := subset.orderByExpr }

/-- The digests of Go's standard library: `sha256Hex` is the hex SHA-256 of
the JSON text of a canonical definition, `md5Hex` the hex MD5 of a text. -/
class Digest where
  sha256Hex : CanonicalDefinition → String
  md5Hex : String → String

/-- A whole table of two columns, which the worked runs of this development
use. -/
def itemsDefinition : Definition where
  relation := ⟨"public", "items"⟩

def itemsSchema : Schema :=
  Dict.ofPairs [("id", ⟨"text", true, some 0⟩), ("name", ⟨"text", false, none⟩)]

def itemRow (id name : String) : Row :=
  Dict.ofPairs [("id", some id), ("name", some name)]

@[reducible] def tabulatedDigest : Digest where
  sha256Hex canonical :=
    if canonical = canonicalDefinition itemsDefinition then
      "fa19db76c4bcdbd2859a929d94533866f390f6485d0b6763d0592a8c4e410bd3"
    else
      ""
  md5Hex _ := ""

def oneItemDefinition : Definition where
  relation := ⟨"public", "items"⟩
  whereClause := "name = 'one'"

@[reducible] def twoShapesDigest : Digest where
  sha256Hex canonical :=
    if canonical = canonicalDefinition oneItemDefinition then
      "6dc4c190f9c1cb108c2455efe12d6e99043340fe6c104764f488ca73a56e1016"
    else
      tabulatedDigest.sha256Hex canonical
  md5Hex _ := ""

def canonicalHash [Digest] (definition : Definition) : String :=
  Digest.sha256Hex (canonicalDefinition definition)

structure SnapshotRequest where
  definition : Definition
  mode : SnapshotMode
  metadata : Bool := false

/-- The `Backend` interface at one moment.  A validate-only request describes the
relation and reads no rows. -/
structure Backend where
  snapshot : SnapshotRequest → Except SnapshotError SnapshotResult
  validateOnly : ∀ {request result}, request.mode = .validateOnly →
    snapshot request = .ok result → result.rows = []

def definitionHasDependencyKeyword (definition : Definition) : Bool :=
  containsDependencyKeyword definition.whereClause ||
    definition.subset.any fun subset =>
      containsDependencyKeyword subset.whereClause ||
      containsDependencyKeyword subset.whereExpr ||
      containsDependencyKeyword subset.orderBy ||
      containsDependencyKeyword subset.orderByExpr

end PostgresSync.Shapes
