import PostgresSync.Pg.DependencyScan
import PostgresSync.Shapes.Definition

namespace PostgresSync.Pg

open PostgresSync.Data
open PostgresSync.Shapes
open PostgresSync.SqlInspect

/-! Which relations a definition reads, and how its shapes follow them. -/

def definitionDependencyClauses (definition : Definition) : List String :=
  definition.whereClause :: match definition.subset with
    | none => []
    | some subset => [subset.whereClause, subset.whereExpr, subset.orderByExpr]

def definitionSupportsTargetedRefresh (definition : Definition) : Bool :=
  definition.subset.isNone &&
    !(definitionDependencyClauses definition).any containsDependencyKeyword

structure LiveDependencySet where
  unsupported : Bool := false
  wildcard : Bool := false
  relations : List Relation := []
deriving DecidableEq

/-- What the loop of `liveDependenciesForDefinition` has found so far. -/
structure DependencyFindings where
  relations : Dict Relation := ∅
  unsupported : Bool := false
  wildcard : Bool := false

def addClauseDependencies (schema : String) (findings : DependencyFindings)
    (clause : String) : DependencyFindings :=
  let sanitized := sanitizeClause clause
  if isBlank sanitized || !containsDependencyKeyword sanitized then
    findings
  else
    let scan := scanDependencyRelations sanitized schema
    { relations := scan.relations.foldl
        (fun relations relation =>
          relations.insert (dependencyRelationKey relation) relation)
        findings.relations
      unsupported := true
      wildcard := findings.wildcard || scan.wildcard || scan.relations.isEmpty }

def liveDependenciesForDefinition (definition : Definition) : LiveDependencySet :=
  if definition.subset.isSome then
    { unsupported := true
      relations := [definition.relation] }
  else
    let findings := (definitionDependencyClauses definition).foldl
      (addClauseDependencies definition.relation.schema) {}
    if findings.unsupported then
      { unsupported := true
        wildcard := findings.wildcard
        relations := (findings.relations.insert
          (dependencyRelationKey definition.relation) definition.relation).values }
    else
      {}

def definitionRequiresInvalidationForRelation (definition : Definition)
    (relation rootRelation : Relation) : Bool :=
  let dependencies := liveDependenciesForDefinition definition
  dependencies.unsupported &&
    (dependencies.wildcard || dependencies.relations.any fun candidate =>
      candidate = relation || candidate = rootRelation)

/-- The words that make a subquery more than one plain `SELECT`. -/
def invalidatingWords : List String :=
  ["not", "exists", "with", "join", "lateral", "union", "intersect", "except"]

def dependencyClauseRequiresInvalidation (clause : String) : Bool :=
  let sanitized := sanitizeClause clause
  let tokens := tokenizeDependencyClause sanitized
  containsDependencyKeyword sanitized &&
    (tokens.any (fun token => invalidatingWords.any (dependencyTokenKeyword token)) ||
      tokens.countP (dependencyTokenKeyword · "select") ≠ 1)

def definitionSupportsDependentRefresh (definition : Definition) : Bool :=
  let dependencies := liveDependenciesForDefinition definition
  dependencies.unsupported && !dependencies.wildcard &&
    dependencies.relations.countP (· ≠ definition.relation) = 1 &&
    !(definitionDependencyClauses definition).any dependencyClauseRequiresInvalidation

end PostgresSync.Pg
