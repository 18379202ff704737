import PostgresSync.Pg.Dependencies
import PostgresSync.Protocol.Service
import PostgresSync.SqlInspect.Outside

namespace PostgresSync.Protocol

open PostgresSync.Data
open PostgresSync.Pg
open PostgresSync.Shapes
open PostgresSync.SqlInspect
open PostgresSync.Storage

/-! What a request passes before it is served: authorization, parsing, its
validations, the feature flags and admission.  The parser itself is not modelled,
only what it returns. -/

def featureAllowSubqueries : String := "allow_subqueries"

structure ServiceConfig where
  secret : String := ""
  insecure : Bool := false
  featureFlags : List String := []
  allowShapeDeletion : Bool := false
  maxInitial : Nat
  maxExisting : Nat

def ServiceConfig.enabled (config : ServiceConfig) (flag : String) : Bool :=
  config.featureFlags.any (· = flag)

abbrev ValidationErrors := Dict (List String)

def ValidationErrors.add (errors : ValidationErrors) (field message : String) :
    ValidationErrors :=
  errors.insert field (errors[field]?.getD [] ++ [message])

structure ParsedRequest extends ShapeRequest where
  tableRaw : String
  tableParseError : String := ""
  columnsRaw : String := ""
  columnsParseError : String := ""
  subsetErrors : ValidationErrors := ∅

structure HttpRequest where
  method : String := "GET"
  secret : String := ""
  apiSecret : String := ""
  /-- What `ParseShapeRequest` returns; a parse error has a status. -/
  parsed : Except Nat ParsedRequest

def authorized (config : ServiceConfig) (http : HttpRequest) : Bool :=
  if config.insecure || config.secret = "" then
    true
  else
    (if http.secret = "" then http.apiSecret else http.secret) = config.secret

def matchesOffsetPattern (offset : String) : Bool :=
  let digits (text : List Char) : Bool := !text.isEmpty && text.all Char.isDigit
  offset = "-1" || offset = "now" ||
    match offset.toList.span Char.isDigit with
    | (lsn, '_' :: position) =>
        !lsn.isEmpty && (digits position || position = "inf".toList)
    | _ => false

def validateShapeRequest (request : ParsedRequest) : ValidationErrors :=
  let check (condition : Bool) (field message : String) (errors : ValidationErrors) :=
    if condition then errors.add field message else errors
  (∅ : ValidationErrors)
    |> (fun errors =>
        if isBlank request.tableRaw then
          errors.add "table" "can't be blank"
        else
          check (request.tableParseError ≠ "") "table" request.tableParseError errors)
    |> (fun errors =>
        if isBlank request.offset then
          errors.add "offset" "can't be blank"
        else
          check (!matchesOffsetPattern request.offset) "offset" "has invalid format" errors)
    |> check (request.columnsRaw ≠ "" && request.columnsParseError ≠ "") "columns"
        request.columnsParseError
    |> check (request.offset ≠ "" && request.offset ≠ "-1" && request.offset ≠ "now" &&
        isBlank request.handle) "handle" "can't be blank when offset != -1"
    |> check (request.live && request.offset = "-1") "live"
        "can't be true when offset == -1"
    |> check (request.liveSSE && !request.live) "live_sse"
        "can't be true unless live is also true"

def subsetContainsDependencyKeyword (subset : Subset) : Bool :=
  containsDependencyKeyword subset.whereClause ||
    containsDependencyKeyword subset.whereExpr ||
    containsDependencyKeyword subset.orderBy ||
    containsDependencyKeyword subset.orderByExpr

def validateSubsetRequest (request : ParsedRequest) : ValidationErrors :=
  let check (condition : Bool) (field message : String) (errors : ValidationErrors) :=
    if condition then errors.add field message else errors
  match request.subset with
  | none => request.subsetErrors
  | some subset =>
      request.subsetErrors
        |> check (subset.limit.any (· ≤ 0)) "limit" "must be greater than 0"
        |> check (subset.offset.any (· < 0)) "offset" "must be greater than or equal to 0"
        |> check ((subset.limit.isSome || subset.offset.isSome) && isBlank subset.orderBy)
            "order_by" "order_by is required when limit or offset is present"
        |> check (subsetContainsDependencyKeyword subset) "where"
            "Subqueries are not allowed in subsets"

def validateDeleteRequest (request : ParsedRequest) : ValidationErrors :=
  if request.handle = "" ∧ request.tableRaw = "" then
    ValidationErrors.add ∅ "handle" "can't be blank when shape definition is missing"
  else if request.tableRaw ≠ "" ∧ request.tableParseError ≠ "" then
    ValidationErrors.add ∅ "table" request.tableParseError
  else
    ∅

def requestContainsDependencyKeyword (request : ParsedRequest) : Bool :=
  containsDependencyKeyword request.whereClause

def validateFeatureFlags (config : ServiceConfig) (request : ParsedRequest) :
    ValidationErrors :=
  if config.enabled featureAllowSubqueries then
    ∅
  else if requestContainsDependencyKeyword request then
    ValidationErrors.add ∅ "where" "Subqueries are not supported"
  else
    ∅

inductive AdmissionKind where
  | initial
  | existing
deriving DecidableEq

def ServiceConfig.admits (config : ServiceConfig) (inFlight : AdmissionKind → Nat) :
    AdmissionKind → Bool
  | .initial => inFlight .initial < config.maxInitial
  | .existing => inFlight .existing < config.maxExisting

inductive Reply where
  | unauthorized
  | parseError (status : Nat)
  | invalidRequest (errors : ValidationErrors)
  | invalidSubset (errors : ValidationErrors)
  | overloaded (kind : AdmissionKind)
  | served (progress : Progress)

/-- The request is turned away by one of the checks before it is served. -/
def Reply.Rejects : Reply → Prop
  | .unauthorized | .parseError _ | .invalidRequest _ | .invalidSubset _ => True
  | .overloaded _ | .served _ => False

section

variable {σ : Type} [Digest] [Store σ]

def admissionKind (request : ShapeRequest) (definition : Definition)
    (manager : Manager σ) : AdmissionKind :=
  if request.handle ≠ "" ∧
      (manager.lookupByHandle request.handle).any (sameShapeDefinition · definition) then
    .existing
  else if (manager.lookupByDefinition definition).isSome then
    .existing
  else
    .initial

/-- `HandleShape`, up to where `handleShape` takes over. -/
def handleShapeRequest (config : ServiceConfig) (backend : Backend)
    (inFlight : AdmissionKind → Nat) (http : HttpRequest) (manager : Manager σ)
    (now : Time) : Reply × Manager σ :=
  if authorized config http = false then
    (.unauthorized, manager)
  else
    match http.parsed with
    | .error status => (.parseError status, manager)
    | .ok request =>
        let definition := shapeDefinitionFromRequest request.toShapeRequest
        if http.method = "DELETE" then
          if !(validateDeleteRequest request).isEmpty then
            (.invalidRequest (validateDeleteRequest request), manager)
          else
            let answer := deleteShape config.allowShapeDeletion request.toShapeRequest
              definition manager now
            (.served (.answered answer.1), answer.2)
        else if !(validateShapeRequest request).isEmpty then
          (.invalidRequest (validateShapeRequest request), manager)
        else if !(validateSubsetRequest request).isEmpty then
          (.invalidSubset (validateSubsetRequest request), manager)
        else if !(validateFeatureFlags config request).isEmpty then
          (.invalidRequest (validateFeatureFlags config request), manager)
        else
          let kind := admissionKind request.toShapeRequest definition manager
          -- a subset is served without admission
          if request.subset.isNone && !config.admits inFlight kind then
            (.overloaded kind, manager)
          else
            let progress := handleShape backend request.toShapeRequest manager now
            (.served progress.1, progress.2)

/-- A reply that depends neither on the backend nor on the shapes, and leaves them
as they were. -/
def TurnedAway (σ : Type) [Store σ] (config : ServiceConfig) (http : HttpRequest) : Prop :=
  ∃ reply : Reply, reply.Rejects ∧ ∀ backend inFlight (manager : Manager σ) now,
    handleShapeRequest config backend inFlight http manager now = (reply, manager)

theorem turnedAway_of_keyword {config : ServiceConfig} {http : HttpRequest}
    {request : ParsedRequest} (parsed : http.parsed = .ok request)
    (reads : http.method ≠ "DELETE")
    (flag : config.enabled featureAllowSubqueries = false)
    (keyword : containsDependencyKeyword request.whereClause = true) :
    TurnedAway σ config http := by
  have errors : (validateFeatureFlags config request).isEmpty = false := by
    simp [validateFeatureFlags, flag, requestContainsDependencyKeyword, keyword,
      ValidationErrors.add]
  by_cases known : authorized config http = false
  · exact ⟨.unauthorized, trivial, fun _ _ _ _ => if_pos known⟩
  simp only [TurnedAway, handleShapeRequest, parsed, if_neg known, if_neg reads]
  cases shape : (validateShapeRequest request).isEmpty with
  | false => exact ⟨.invalidRequest _, trivial, fun _ _ _ _ => rfl⟩
  | true =>
      cases subset : (validateSubsetRequest request).isEmpty with
      | false => exact ⟨.invalidSubset _, trivial, fun _ _ _ _ => rfl⟩
      | true =>
          refine ⟨.invalidRequest (validateFeatureFlags config request), trivial, ?_⟩
          intro backend inFlight manager now
          rw [errors]
          rfl

end

/-- A subquery in this clause gets no further: the inspector reports it, without the
flag every reading request with it is turned away, and no definition with it is
refreshed by its changed keys alone. -/
def GateShut (clause : String) : Prop :=
  containsDependencyKeyword clause = true ∧
  (∀ (σ : Type) [Digest] [Store σ] config http request,
    http.parsed = .ok request → request.whereClause = clause →
    http.method ≠ "DELETE" → ServiceConfig.enabled config featureAllowSubqueries = false →
    TurnedAway σ config http) ∧
  ∀ definition : Definition, definition.whereClause = clause →
    definitionSupportsTargetedRefresh definition = false

theorem gateShut_iff (clause : String) :
    GateShut clause ↔ containsDependencyKeyword clause = true := by
  refine ⟨And.left, fun keyword => ⟨keyword, ?_, ?_⟩⟩
  · rintro σ _ _ config http request parsed rfl reads flag
    exact turnedAway_of_keyword parsed reads flag keyword
  · rintro definition rfl
    simp [definitionSupportsTargetedRefresh, definitionDependencyClauses, keyword]

theorem keyword_shuts_gate_iff (clause : String) :
    (keywordOutside clause → GateShut clause) ↔
      (¬ keywordOutside clause ∨ keywordOutsideUnquoted clause) := by
  rw [gateShut_iff, containsDependencyKeyword_iff, imp_iff_not_or]

def quotedColumnClause : String := "\"it's\" = 1 OR id IN (select 1)"

theorem quotedColumnClause_keywordOutside : keywordOutside quotedColumnClause := by
  have text : quotedColumnClause.toList =
      '"' :: (doubled '"' "it's".toList ++ '"' :: (" = 1 OR id IN (".toList ++
        ("select".toList ++ " 1)".toList))) := by
    decide
  refine ⟨false, "select".toList, " 1)".toList, "select".toList, by decide, ?_,
    by rw [spelledInSql]; decide,
    by decide, by decide⟩
  rw [text]
  refine .head (.identifier false _ _ rfl (by decide)) ?_
  exact Reader.reaches_plain (by simp) false _

/-- The apostrophe in the column's name hides the subquery: without the flag the
request reaches the backend, and the shape counts as one that is refreshed by its
changed keys. -/
theorem quotedColumn_hides_subquery :
    letI := tabulatedDigest
    keywordOutside quotedColumnClause ∧
    containsDependencyKeyword quotedColumnClause = false ∧
    handleShapeRequest { maxInitial := 1, maxExisting := 1 }
        ⟨fun _ => .error (.other "connection refused"), nofun⟩ (fun _ => 0)
        { parsed := .ok { tableRaw := "items", relation := ⟨"public", "items"⟩, offset := "-1"
                          whereClause := quotedColumnClause } }
        ({ store := newMemoryStore } : Manager MemoryStore) 1000 =
      (.served (.answered (.unavailable "connection refused")), { store := newMemoryStore }) ∧
    definitionSupportsTargetedRefresh
      { itemsDefinition with whereClause := quotedColumnClause } = true := by
  refine ⟨quotedColumnClause_keywordOutside, by decide +kernel, rfl,
    by decide +kernel⟩

end PostgresSync.Protocol
