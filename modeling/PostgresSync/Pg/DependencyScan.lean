import PostgresSync.Data.ByteRunes
import PostgresSync.Shapes.Backend

namespace PostgresSync.Pg

open PostgresSync.Data
open PostgresSync.Shapes

/-! The scanner that looks for the relations a clause reads.  Outside quotes every
byte the source tests for is ASCII, so characters take the same branches. -/

structure DependencyToken where
  value : String
  quoted : Bool := false
  symbol : Bool := false
deriving DecidableEq, Repr

section Tokens

def isDependencySpace (char : Char) : Bool :=
  char ∈ [' ', '\t', '\n', '\r', '\x0c']

def isDependencyWordStart (char : Char) : Bool :=
  ('a' ≤ char && char ≤ 'z') || ('A' ≤ char && char ≤ 'Z') || char = '_' || char = '$'

def isDependencyWordPart (char : Char) : Bool :=
  isDependencyWordStart char || ('0' ≤ char && char ≤ '9')

def isDependencySymbol (char : Char) : Bool := char ∈ ['(', ')', ',', '.']

/-- What follows the opening quote: the name, and the rest of the clause. -/
def readQuotedDependencyIdentifier : List Char → Option (List Char × List Char)
  | [] => none
  | '"' :: '"' :: rest =>
      (readQuotedDependencyIdentifier rest).map fun read => ('"' :: read.1, read.2)
  | '"' :: rest => some ([], rest)
  | char :: rest =>
      (readQuotedDependencyIdentifier rest).map fun read => (char :: read.1, read.2)

theorem readQuotedDependencyIdentifier_length {text name rest : List Char}
    (read : readQuotedDependencyIdentifier text = some (name, rest)) :
    rest.length < text.length := by
  fun_induction readQuotedDependencyIdentifier text generalizing name with
  | case1 => cases read
  | case2 tail hypothesis =>
      obtain ⟨⟨inner, after⟩, found, same⟩ := Option.map_eq_some_iff.mp read
      simp only [Prod.mk.injEq] at same
      obtain ⟨-, rfl⟩ := same
      have shorter := hypothesis found
      simp only [List.length_cons]
      omega
  | case3 tail _ =>
      obtain ⟨-, rfl⟩ := Prod.mk.inj (Option.some.inj read)
      simp
  | case4 char tail _ _ hypothesis =>
      obtain ⟨⟨inner, after⟩, found, same⟩ := Option.map_eq_some_iff.mp read
      simp only [Prod.mk.injEq] at same
      obtain ⟨-, rfl⟩ := same
      have shorter := hypothesis found
      simp only [List.length_cons]
      omega

def tokenizeDependencyText : List Char → List DependencyToken
  | [] => []
  | char :: rest =>
      if isDependencySpace char then
        tokenizeDependencyText rest
      else if char = '"' then
        match _read : readQuotedDependencyIdentifier rest with
        | none => ⟨"\"", false, true⟩ :: tokenizeDependencyText rest
        | some (name, after) =>
            ⟨String.ofList name, true, false⟩ :: tokenizeDependencyText after
      else if isDependencyWordStart char then
        ⟨String.ofList (char :: rest.takeWhile isDependencyWordPart), false, false⟩ ::
          tokenizeDependencyText (rest.dropWhile isDependencyWordPart)
      else if isDependencySymbol char then
        ⟨String.ofList [char], false, true⟩ :: tokenizeDependencyText rest
      else
        tokenizeDependencyText rest
termination_by text => text.length
decreasing_by
  · simp
  · simp
  · have shorter := readQuotedDependencyIdentifier_length _read
    simp only [List.length_cons]
    omega
  · have shorter := List.length_dropWhile_le isDependencyWordPart rest
    simp only [List.length_cons]
    omega
  · simp
  · simp

def tokenizeDependencyClause (clause : String) : List DependencyToken :=
  tokenizeDependencyText clause.toList

def dependencyTokenIdentifier (token : DependencyToken) : Bool :=
  !token.symbol && token.value != ""

/-- `strings.ToLower`, as far as it matters to a comparison with an ASCII word. -/
def lowerWord (word : String) : String := String.ofList (word.toList.map lowerChar)

def dependencyTokenKeyword (token : DependencyToken) (keyword : String) : Bool :=
  dependencyTokenIdentifier token && !token.quoted && lowerWord token.value = keyword

def dependencyTokenValue (token : DependencyToken) (value : String) : Bool :=
  token.symbol && token.value = value

def dependencyTokenName (token : DependencyToken) : String :=
  if token.quoted then token.value else lowerWord token.value

def fromEnds : List String :=
  ["where", "group", "having", "order", "limit", "offset", "union", "intersect", "except",
    "window", "returning", "qualify"]

def dependencyFromBoundary (token : DependencyToken) : Bool :=
  dependencyTokenIdentifier token && !token.quoted && lowerWord token.value ∈ fromEnds

def aliasEnds : List String :=
  ["on", "using", "where", "join", "inner", "left", "right", "full", "cross", "natural", "group",
    "having", "order", "limit", "offset", "union", "intersect", "except", "window", "returning",
    "qualify"]

def dependencyAliasBoundary (token : DependencyToken) : Bool :=
  if token.symbol then
    token.value ∈ [",", ")", "."]
  else
    lowerWord token.value ∈ aliasEnds

end Tokens

section Positions

/-! Tests of the token at a position, which fail beyond the end. -/

variable (tokens : List DependencyToken) (index : Nat)

def keywordAt (keyword : String) : Bool :=
  tokens[index]?.any (dependencyTokenKeyword · keyword)

def valueAt (value : String) : Bool :=
  tokens[index]?.any (dependencyTokenValue · value)

def identifierAt : Bool := tokens[index]?.any dependencyTokenIdentifier

/-- The loop of `findDependencyBalancedClose`, from a cursor on. -/
def balancedCloseFrom : List DependencyToken → Nat → Nat → Option Nat
  | [], _, _ => none
  | token :: rest, depth, cursor =>
      if dependencyTokenValue token "(" then
        balancedCloseFrom rest (depth + 1) (cursor + 1)
      else if dependencyTokenValue token ")" then
        if depth - 1 = 0 then
          some cursor
        else
          balancedCloseFrom rest (depth - 1) (cursor + 1)
      else
        balancedCloseFrom rest depth (cursor + 1)

def findDependencyBalancedClose : Option Nat :=
  if valueAt tokens index "(" then
    balancedCloseFrom (tokens.drop index) 0 index
  else
    none

def skipDependencyBalanced : Nat :=
  match findDependencyBalancedClose tokens index with
  | none => index + 1
  | some close => close + 1

def skipOptionalList : Nat :=
  if valueAt tokens index "(" then skipDependencyBalanced tokens index else index

def skipDependencyAlias : Nat :=
  if keywordAt tokens index "as" then
    skipOptionalList tokens
      (if identifierAt tokens (index + 1) then index + 2 else index + 1)
  else if tokens[index]?.any fun token =>
      dependencyTokenIdentifier token && !dependencyAliasBoundary token then
    skipOptionalList tokens (index + 1)
  else
    index

variable {tokens} {index}

theorem balancedCloseFrom_le {rest : List DependencyToken} {depth cursor close : Nat}
    (found : balancedCloseFrom rest depth cursor = some close) : cursor ≤ close := by
  induction rest generalizing depth cursor with
  | nil => cases found
  | cons token rest hypothesis =>
      rw [balancedCloseFrom] at found
      split at found
      · exact Nat.le_of_succ_le (hypothesis found)
      · split at found
        · split at found
          · exact Nat.le_of_eq (Option.some.inj found)
          · exact Nat.le_of_succ_le (hypothesis found)
        · exact Nat.le_of_succ_le (hypothesis found)

theorem lt_skipDependencyBalanced : index < skipDependencyBalanced tokens index := by
  unfold skipDependencyBalanced
  split
  · exact Nat.lt_succ_self index
  · next close found =>
      unfold findDependencyBalancedClose at found
      split at found
      · exact Nat.lt_succ_of_le (balancedCloseFrom_le found)
      · cases found

theorem le_skipOptionalList : index ≤ skipOptionalList tokens index := by
  unfold skipOptionalList
  split
  · exact lt_skipDependencyBalanced.le
  · exact le_rfl

end Positions

section CommonTables

variable (tokens : List DependencyToken)

/-- The position after the optional column list, `AS` and body of a common table
expression whose name stands before `index`. -/
def afterCommonTable (index : Nat) : Nat :=
  let body := skipOptionalList tokens index
  skipOptionalList tokens (if keywordAt tokens body "as" then body + 1 else body)

theorem le_afterCommonTable (index : Nat) : index ≤ afterCommonTable tokens index := by
  unfold afterCommonTable
  refine le_trans ?_ le_skipOptionalList
  have columns : index ≤ skipOptionalList tokens index := le_skipOptionalList
  split <;> omega

/-- The names of one `WITH` list, and the position after it. -/
def readCommonTables (ctes : StringSet) (index : Nat) : StringSet × Nat :=
  match found : tokens[index]? with
  | none => (ctes, index)
  | some token =>
      if dependencyTokenIdentifier token then
        let ctes := ctes.insert (dependencyTokenName token)
        let next := afterCommonTable tokens (index + 1)
        if valueAt tokens next "," then
          readCommonTables ctes (next + 1)
        else
          (ctes, next)
      else
        (ctes, index)
termination_by tokens.length - index
decreasing_by
  have inside := (List.getElem?_eq_some_iff.mp found).1
  have forward := le_afterCommonTable tokens (index + 1)
  omega

theorem le_readCommonTables (ctes : StringSet) (index : Nat) :
    index ≤ (readCommonTables tokens ctes index).2 := by
  fun_induction readCommonTables tokens ctes index with
  | case1 => exact le_rfl
  | case2 ctes index token found identifier named next more hypothesis =>
      have forward := le_afterCommonTable tokens (index + 1)
      omega
  | case3 ctes index token found identifier named next done =>
      have forward := le_afterCommonTable tokens (index + 1)
      show index ≤ next
      omega
  | case4 => exact le_rfl

def commonTablesStart (index : Nat) : Nat :=
  if keywordAt tokens (index + 1) "recursive" then index + 2 else index + 1

theorem lt_commonTablesStart (index : Nat) : index < commonTablesStart tokens index := by
  unfold commonTablesStart
  split <;> omega

def collectFrom (ctes : StringSet) (index : Nat) : StringSet :=
  if index < tokens.length then
    if keywordAt tokens index "with" then
      let listed := readCommonTables tokens ctes (commonTablesStart tokens index)
      collectFrom listed.1 (listed.2 + 1)
    else
      collectFrom ctes (index + 1)
  else
    ctes
termination_by tokens.length - index
decreasing_by
  · have forward := le_readCommonTables tokens ctes (commonTablesStart tokens index)
    have started := lt_commonTablesStart tokens index
    omega
  · omega

def collectDependencyCTENames : StringSet := collectFrom tokens ∅ 0

end CommonTables

section References

def dependencyRelationKey (relation : Relation) : String :=
  relation.schema ++ "." ++ relation.table

variable (tokens : List DependencyToken) (defaultSchema : String) (ctes : StringSet)

/-- A possibly qualified name at a position, with the position after it.  The name
of a common table is the empty relation. -/
def readDependencyRelationReference (index : Nat) : Option (Relation × Nat) :=
  match tokens[index]?.filter dependencyTokenIdentifier with
  | none => none
  | some token =>
      let first := dependencyTokenName token
      match (if valueAt tokens (index + 1) "." then
          tokens[index + 2]?.filter dependencyTokenIdentifier else none) with
      | some second => some (⟨first, dependencyTokenName second⟩, index + 3)
      | none =>
          if first ∈ ctes then
            some (.empty, index + 1)
          else
            some (⟨defaultSchema, first⟩, index + 1)

def dependencyRelationFromTokens : Option Relation :=
  match readDependencyRelationReference tokens defaultSchema ctes 0 with
  | none => none
  | some (relation, next) =>
      if relation ≠ .empty ∧ next = tokens.length then some relation else none

def tokensBetween (start stop : Nat) : List DependencyToken :=
  (tokens.take stop).drop start

/-- Skip the words that may precede a table. -/
def skipTableModifiers (index : Nat) : Nat :=
  if index < tokens.length ∧
      (keywordAt tokens index "only" ∨ keywordAt tokens index "lateral") then
    skipTableModifiers (index + 1)
  else
    index
termination_by tokens.length - index

theorem le_skipTableModifiers (index : Nat) : index ≤ skipTableModifiers tokens index := by
  fun_induction skipTableModifiers tokens index with
  | case1 index _ hypothesis => omega
  | case2 index _ => exact le_rfl

theorem valueAt_lt {tokens : List DependencyToken} {index : Nat} {value : String}
    (found : valueAt tokens index value = true) : index < tokens.length := by
  by_contra beyond
  rw [valueAt, List.getElem?_eq_none (Nat.le_of_not_lt beyond)] at found
  cases found

theorem tokensBetween_length_lt {tokens : List DependencyToken} {index stop : Nat}
    (inside : index < tokens.length) :
    (tokensBetween tokens (index + 1) stop).length < tokens.length := by
  simp only [tokensBetween, List.length_drop, List.length_take]
  omega

end References

section Scan

/-- The variables of `scanDependencyTokens`. -/
structure ScanState where
  relations : Dict Relation
  wildcard : Bool := false
  depth : Nat := 0
  inFromList : Bool := false
  fromDepth : Nat := 0
  expectRelation : Bool := false

/-- What `consumeDependencyRelation` returns, with the relations it has added. -/
structure Consumed where
  next : Nat
  unknown : Bool
  relations : Dict Relation

/-- One token outside a table position. -/
def scanToken (state : ScanState) (token : DependencyToken) : ScanState :=
  if dependencyTokenValue token "(" then
    { state with depth := state.depth + 1 }
  else if dependencyTokenValue token ")" then
    { state with
      inFromList := state.inFromList && !(state.depth ≤ state.fromDepth)
      depth := state.depth - 1 }
  else
    let inFromList := state.inFromList &&
      !(state.depth ≤ state.fromDepth && dependencyFromBoundary token)
    if dependencyTokenKeyword token "from" then
      { state with
        inFromList := true
        fromDepth := state.depth
        expectRelation := true }
    else
      { state with
        inFromList := inFromList
        expectRelation := dependencyTokenKeyword token "join" ||
          (inFromList && state.depth = state.fromDepth &&
            dependencyTokenValue token ",") }

variable (defaultSchema : String) (ctes : StringSet)

mutual

/-- The loop of `scanDependencyTokens` from a position on. -/
def scanDependencyFrom (tokens : List DependencyToken) (state : ScanState)
    (index : Nat) : ScanState :=
  match _found : tokens[index]? with
  | none => state
  | some token =>
      if state.expectRelation then
        let consumed := consumeDependencyRelation tokens index state.relations
        scanDependencyFrom tokens
          { state with
            relations := consumed.relations
            wildcard := state.wildcard || consumed.unknown
            expectRelation := false }
          (max consumed.next (index + 1))
      else
        scanDependencyFrom tokens (scanToken state token) (index + 1)
termination_by (tokens.length, tokens.length - index, 1)
decreasing_by
  · exact .right _ (.right _ Nat.one_pos)
  · have inside := (List.getElem?_eq_some_iff.mp _found).1
    refine .right _ (.left _ _ ?_)
    omega
  · have inside := (List.getElem?_eq_some_iff.mp _found).1
    refine .right _ (.left _ _ ?_)
    omega

def consumeDependencyRelation (tokens : List DependencyToken) (start : Nat)
    (relations : Dict Relation) : Consumed :=
  let index := skipTableModifiers tokens start
  if tokens.length ≤ index then
    ⟨index, true, relations⟩
  else if valueAt tokens index "(" then
    match findDependencyBalancedClose tokens index with
    | none => ⟨index + 1, true, relations⟩
    | some close =>
        let inner := tokensBetween tokens (index + 1) close
        match dependencyRelationFromTokens inner defaultSchema ctes with
        | some relation =>
            ⟨skipDependencyAlias tokens (close + 1), false,
              relations.insert (dependencyRelationKey relation) relation⟩
        | none =>
            let scanned := scanDependencyFrom inner { relations := relations } 0
            ⟨skipDependencyAlias tokens (close + 1), scanned.wildcard, scanned.relations⟩
  else
    match readDependencyRelationReference tokens defaultSchema ctes index with
    | none => ⟨index + 1, true, relations⟩
    | some (relation, next) =>
        if valueAt tokens next "(" then
          match findDependencyBalancedClose tokens next with
          | none => ⟨next + 1, true, relations⟩
          | some close =>
              let scanned := scanDependencyFrom (tokensBetween tokens (next + 1) close)
                { relations := relations } 0
              ⟨skipDependencyAlias tokens (close + 1), scanned.wildcard, scanned.relations⟩
        else
          ⟨skipDependencyAlias tokens next, false,
            if relation = .empty then
              relations
            else
              relations.insert (dependencyRelationKey relation) relation⟩
termination_by (tokens.length, tokens.length - start, 0)
decreasing_by
  · exact .left _ _ (tokensBetween_length_lt (valueAt_lt (by assumption)))
  · exact .left _ _ (tokensBetween_length_lt (valueAt_lt (by assumption)))

end

def scanDependencyTokens (tokens : List DependencyToken) (relations : Dict Relation) :
    Dict Relation × Bool :=
  let scanned := scanDependencyFrom defaultSchema ctes tokens { relations := relations } 0
  (scanned.relations, scanned.wildcard)

structure DependencyRelationScan where
  relations : List Relation
  wildcard : Bool
deriving DecidableEq

def scanDependencyRelations (clause defaultSchema : String) : DependencyRelationScan :=
  let tokens := tokenizeDependencyClause clause
  let scanned := scanDependencyTokens defaultSchema (collectDependencyCTENames tokens)
    tokens ∅
  ⟨scanned.1.values, scanned.2⟩

end Scan

end PostgresSync.Pg
