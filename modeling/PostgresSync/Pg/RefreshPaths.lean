import PostgresSync.Pg.Dependencies
import PostgresSync.SqlInspect.Outside

namespace PostgresSync.Pg

open PostgresSync.Data
open PostgresSync.Shapes
open PostgresSync.SqlInspect

/-! The two ways in which the shapes of a changed relation are brought up to date. -/

theorem addClauseDependencies_unsupported (schema : String) (findings : DependencyFindings)
    (clause : String) :
    (addClauseDependencies schema findings clause).unsupported =
      (findings.unsupported || containsDependencyKeyword clause) := by
  unfold addClauseDependencies
  dsimp only
  rw [containsDependencyKeyword_sanitizeClause]
  cases keyword : containsDependencyKeyword clause with
  | false => simp
  | true =>
      have shown : isBlank (sanitizeClause clause) = false := by
        simp only [containsDependencyKeyword, Bool.and_eq_true, Bool.not_eq_true'] at keyword
        exact keyword.1
      simp [shown]

theorem foldl_addClauseDependencies_unsupported (schema : String) (clauses : List String)
    (findings : DependencyFindings) :
    (clauses.foldl (addClauseDependencies schema) findings).unsupported =
      (findings.unsupported || clauses.any containsDependencyKeyword) := by
  induction clauses generalizing findings with
  | nil => simp
  | cons clause rest hypothesis =>
      rw [List.foldl_cons, hypothesis, addClauseDependencies_unsupported, List.any_cons,
        Bool.or_assoc]

theorem liveDependencies_unsupported (definition : Definition) :
    (liveDependenciesForDefinition definition).unsupported =
      !definitionSupportsTargetedRefresh definition := by
  unfold liveDependenciesForDefinition definitionSupportsTargetedRefresh
  cases subset : definition.subset with
  | some subset => rfl
  | none =>
      have found := foldl_addClauseDependencies_unsupported definition.relation.schema
        (definitionDependencyClauses definition) {}
      dsimp only [Option.isSome_none, Option.isNone_none]
      rw [Bool.true_and, Bool.not_not, if_neg Bool.false_ne_true, found, Bool.false_or]
      split
      · next keyword => exact keyword.symm
      · next plain => exact (Bool.eq_false_iff.mpr plain).symm

theorem relation_mem_liveDependencies {definition : Definition}
    (unsupported : (liveDependenciesForDefinition definition).unsupported = true) :
    definition.relation ∈ (liveDependenciesForDefinition definition).relations := by
  unfold liveDependenciesForDefinition at unsupported ⊢
  split
  · exact List.mem_singleton_self _
  · next whole =>
      rw [if_neg whole] at unsupported
      dsimp only at unsupported ⊢
      split
      · exact Dict.mem_values.mpr ⟨dependencyRelationKey definition.relation, by simp⟩
      · next supported =>
          rw [if_neg supported] at unsupported
          cases unsupported

theorem requiresInvalidation_own {definition : Definition}
    (untargeted : definitionSupportsTargetedRefresh definition = false)
    {relation root : Relation}
    (own : definition.relation = relation ∨ definition.relation = root) :
    definitionRequiresInvalidationForRelation definition relation root = true := by
  have unsupported := liveDependencies_unsupported definition
  rw [untargeted] at unsupported
  have listed := relation_mem_liveDependencies unsupported
  have named : (liveDependenciesForDefinition definition).relations.any (fun candidate =>
      candidate = relation || candidate = root) = true := by
    refine List.any_eq_true.mpr ⟨definition.relation, listed, ?_⟩
    simpa using own
  simp [definitionRequiresInvalidationForRelation, unsupported, named]

/-- No definition falls between the refresh paths. -/
theorem refreshPaths_partition (definition : Definition) :
    (definitionSupportsTargetedRefresh definition = true ↔
        (liveDependenciesForDefinition definition).unsupported = false) ∧
      ((liveDependenciesForDefinition definition).unsupported = true →
        definition.relation ∈ (liveDependenciesForDefinition definition).relations ∨
          (liveDependenciesForDefinition definition).wildcard = true) ∧
      (definition.subset = none → (definitionSupportsTargetedRefresh definition = true ↔
        definitionHasDependencyKeyword definition = false)) ∧
      ∀ relation root, definition.relation = relation ∨ definition.relation = root →
        (definitionSupportsTargetedRefresh definition = true ↔
          ¬ definitionRequiresInvalidationForRelation definition relation root = true) := by
  have unsupported := liveDependencies_unsupported definition
  refine ⟨by simp [unsupported], fun dependent => .inl (relation_mem_liveDependencies dependent),
    fun whole => ?_, fun relation root own => ?_⟩
  · simp [definitionSupportsTargetedRefresh, definitionDependencyClauses,
      definitionHasDependencyKeyword, whole]
  · cases targeted : definitionSupportsTargetedRefresh definition with
    | true =>
        rw [targeted] at unsupported
        simp [definitionRequiresInvalidationForRelation, unsupported]
    | false => simp [requiresInvalidation_own targeted own]

end PostgresSync.Pg
