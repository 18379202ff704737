import PostgresSync.Pg.ScanGrammar

namespace PostgresSync.Pg

open PostgresSync.Data
open PostgresSync.Shapes

/-! The scan of a clause, tree by tree: which relations it records, and what it leaves of the
list of items it is in. -/

namespace ScanState

/-- The list of items is one further out. -/
def Clear (state : ScanState) : Prop :=
  state.inFromList = true → state.fromDepth < state.depth

def Within (state : ScanState) : Prop :=
  state.inFromList = true → state.fromDepth ≤ state.depth

/-- The scan is between the items of a list. -/
def Listed (state : ScanState) : Prop :=
  state.inFromList = true ∧ state.fromDepth = state.depth

variable {state : ScanState}

theorem Clear.within (clear : state.Clear) : state.Within :=
  fun listed => (clear listed).le

theorem Listed.within (listed : state.Listed) : state.Within :=
  fun _ => listed.2.le

theorem Within.deeper (within : state.Within) :
    { state with depth := state.depth + 1 }.Clear :=
  fun listed => Nat.lt_succ_of_le (within listed)

end ScanState

section Steps

variable (state : ScanState)

theorem scanToken_open :
    scanToken state openMark = { state with depth := state.depth + 1 } :=
  rfl

theorem scanToken_close :
    scanToken state closeMark =
      { state with
        inFromList := state.inFromList && !(state.depth ≤ state.fromDepth)
        depth := state.depth - 1 } :=
  rfl

theorem scanToken_comma :
    scanToken state commaMark =
      { state with expectRelation := state.inFromList && state.depth = state.fromDepth } := by
  have boundary : dependencyFromBoundary commaMark = false := rfl
  have comma : dependencyTokenValue commaMark "," = true := rfl
  have word : dependencyTokenKeyword commaMark "join" = false := rfl
  rw [scanToken, if_neg (by decide), if_neg (by decide), if_neg (by decide), boundary, comma, word]
  simp

variable {token : DependencyToken}

theorem scanToken_from (keyword : Keyword "from") :
    scanToken state keyword.token =
      { state with inFromList := true, fromDepth := state.depth, expectRelation := true } := by
  have found : dependencyTokenKeyword keyword.token "from" = true := by
    rw [keyword.isKeyword (by decide), decide_eq_true rfl]
  have word : keyword.token.symbol = false := rfl
  rw [scanToken, if_neg (by simp [dependencyTokenValue_of_word word]),
    if_neg (by simp [dependencyTokenValue_of_word word]), if_pos found]

theorem scanToken_join (keyword : Keyword "join") :
    scanToken state keyword.token = { state with expectRelation := true } := by
  have other : dependencyTokenKeyword keyword.token "from" = false := by
    rw [keyword.isKeyword (by decide)]
    rfl
  have joins : dependencyTokenKeyword keyword.token "join" = true := by
    rw [keyword.isKeyword (by decide), decide_eq_true rfl]
  have boundary : dependencyFromBoundary keyword.token = false := by
    rw [keyword.isBoundary (by decide)]
    rfl
  have word : keyword.token.symbol = false := rfl
  rw [scanToken, if_neg (by simp [dependencyTokenValue_of_word word]),
    if_neg (by simp [dependencyTokenValue_of_word word]), if_neg (by simp [other]), joins, boundary]
  simp

/-- A token that means nothing to the scanner where no item of a list can stand. -/
structure Harmless (token : DependencyToken) : Prop where
  opens : dependencyTokenValue token "(" = false
  closes : dependencyTokenValue token ")" = false
  introduces : dependencyTokenKeyword token "from" = false
  joins : dependencyTokenKeyword token "join" = false

theorem Harmless.of_word (word : token.symbol = false)
    (introduces : dependencyTokenKeyword token "from" = false)
    (joins : dependencyTokenKeyword token "join" = false) : Harmless token :=
  ⟨dependencyTokenValue_of_word word "(", dependencyTokenValue_of_word word ")", introduces, joins⟩

theorem Name.harmless (name : Name) : Harmless name.token :=
  .of_word rfl (name.notKeyword (by decide)) (name.notKeyword (by decide))

theorem Atom.harmless (atom : Atom) : Harmless atom.token := by
  cases atom with
  | term term => exact .of_word rfl (term.notKeyword (by decide)) (term.notKeyword (by decide))
  | dot => exact ⟨rfl, rfl, rfl, rfl⟩

theorem Harmless.scanToken (harmless : Harmless token)
    (unlisted : dependencyTokenValue token "," = false) :
    scanToken state token =
      { state with
        inFromList := state.inFromList &&
          !(state.depth ≤ state.fromDepth && dependencyFromBoundary token)
        expectRelation := false } := by
  rw [PostgresSync.Pg.scanToken, if_neg (by simp [harmless.opens]),
    if_neg (by simp [harmless.closes]), if_neg (by simp [harmless.introduces]), harmless.joins,
    unlisted, Bool.and_false, Bool.or_false]

variable {state} in
theorem Harmless.scanToken_of_clear (harmless : Harmless token) (clear : state.Clear)
    (outside : state.expectRelation = false) : PostgresSync.Pg.scanToken state token = state := by
  obtain ⟨relations, wildcard, depth, inFromList, fromDepth, expectRelation⟩ := state
  have opens : ¬ dependencyTokenValue token "(" = true := by simp [harmless.opens]
  have close : ¬ dependencyTokenValue token ")" = true := by simp [harmless.closes]
  have other : ¬ dependencyTokenKeyword token "from" = true := by simp [harmless.introduces]
  rw [PostgresSync.Pg.scanToken, if_neg opens, if_neg close, if_neg other, harmless.joins]
  cases inFromList with
  | false => simp_all
  | true =>
      have deeper : fromDepth < depth := clear rfl
      simp_all [Nat.not_le.mpr deeper, deeper.ne']

end Steps

section Passing

variable (schema : String) (ctes : StringSet)

def TableName.found (name : TableName) : Option Relation :=
  name.relation? schema (· ∈ ctes)

def recordRead (relations : Dict Relation) (name : TableName) : Dict Relation :=
  match name.found schema ctes with
  | none => relations
  | some relation => relations.insert (dependencyRelationKey relation) relation

/-- Scanning these tokens, followed by what `stop` allows, leads from one state to another: it
records the tables that are read and leaves the list of items open if `keep` says so. -/
structure Passes (stop : List DependencyToken → Prop) (tokens : List DependencyToken)
    (before after : ScanState) (keep : Bool) (reads : List TableName) : Prop where
  leads : ∀ rest, stop rest →
    scanRest schema ctes before (tokens ++ rest) = scanRest schema ctes after rest
  relations : after.relations = reads.foldl (recordRead schema ctes) before.relations
  wildcard : after.wildcard = before.wildcard
  depth : after.depth = before.depth
  outside : after.expectRelation = false
  list : after.inFromList = (before.inFromList && keep)
  mark : after.inFromList = true → after.fromDepth = before.fromDepth

def anywhere (_rest : List DependencyToken) : Prop := True

namespace Passes

variable {schema ctes} {stop further : List DependencyToken → Prop}
variable {first second : List DependencyToken} {before middle after : ScanState}
variable {keep keeps : Bool} {reads others : List TableName}

theorem refl (outside : before.expectRelation = false) :
    Passes schema ctes stop [] before before true [] where
  leads _ _ := rfl
  relations := rfl
  wildcard := rfl
  depth := rfl
  outside := outside
  list := (Bool.and_true _).symm
  mark _ := rfl

theorem earlier (passes : Passes schema ctes stop first before after keep reads)
    (listed : after.inFromList = true) : before.inFromList = true := by
  rw [passes.list, Bool.and_eq_true] at listed
  exact listed.1

theorem append (left : Passes schema ctes stop first before middle keep reads)
    (right : Passes schema ctes further second middle after keeps others)
    (follows : ∀ rest, further rest → stop (second ++ rest)) :
    Passes schema ctes further (first ++ second) before after (keep && keeps)
      (reads ++ others) where
  leads rest allowed := by
    rw [List.append_assoc, left.leads _ (follows rest allowed), right.leads rest allowed]
  relations := by rw [right.relations, left.relations, List.foldl_append]
  wildcard := right.wildcard.trans left.wildcard
  depth := right.depth.trans left.depth
  outside := right.outside
  list := by rw [right.list, left.list, Bool.and_assoc]
  mark listed := (right.mark listed).trans (left.mark (right.earlier listed))

theorem weaken (passes : Passes schema ctes anywhere first before after keep reads) :
    Passes schema ctes stop first before after keep reads :=
  { passes with leads := fun rest _ => passes.leads rest trivial }

theorem keep_congr (passes : Passes schema ctes stop first before after keep reads)
    (same : before.inFromList = true → keep = keeps) :
    Passes schema ctes stop first before after keeps reads := by
  refine { passes with list := ?_ }
  rw [passes.list]
  cases listed : before.inFromList with
  | false => rfl
  | true => rw [same listed]

theorem within (passes : Passes schema ctes stop first before after keep reads)
    (inside : before.Within) : after.Within := by
  intro listed
  rw [passes.mark listed, passes.depth]
  exact inside (passes.earlier listed)

theorem clear (passes : Passes schema ctes stop first before after keep reads)
    (inside : before.Clear) : after.Clear := by
  intro listed
  rw [passes.mark listed, passes.depth]
  exact inside (passes.earlier listed)

theorem listed (passes : Passes schema ctes stop first before after true reads)
    (inside : before.Listed) : after.Listed := by
  have kept : after.inFromList = true := by rw [passes.list, inside.1, Bool.and_true]
  exact ⟨kept, by rw [passes.mark kept, passes.depth, inside.2]⟩

theorem closed (passes : Passes schema ctes stop first before after false reads) :
    after.Clear := by
  intro listed
  rw [passes.list, Bool.and_false] at listed
  cases listed

theorem other {token : DependencyToken} (harmless : Harmless token)
    (unlisted : dependencyTokenValue token "," = false) (outside : before.expectRelation = false) :
    Passes schema ctes anywhere [token] before (scanToken before token)
      (!(before.depth ≤ before.fromDepth && dependencyFromBoundary token)) [] := by
  constructor
  · intro rest _
    exact scanRest_cons schema ctes outside token rest
  all_goals rw [harmless.scanToken before unlisted]
  · rfl
  · exact fun _ => rfl

theorem expect {token : DependencyToken} (outside : before.expectRelation = false)
    (expects : scanToken before token = { before with expectRelation := true })
    (passes : Passes schema ctes stop first { before with expectRelation := true } after keep
      reads) : Passes schema ctes stop (token :: first) before after keep reads := by
  refine { passes with leads := ?_ }
  intro rest allowed
  rw [List.cons_append, scanRest_cons schema ctes outside, expects, passes.leads rest allowed]

theorem harmless {tokens : List DependencyToken} (clear : before.Clear)
    (outside : before.expectRelation = false) (quiet : ∀ token ∈ tokens, Harmless token) :
    Passes schema ctes anywhere tokens before before true [] := by
  induction tokens with
  | nil => exact refl outside
  | cons token tokens hypothesis =>
      have later := hypothesis fun other member => quiet other (List.mem_cons_of_mem _ member)
      refine { later with leads := ?_ }
      intro rest allowed
      rw [List.cons_append, scanRest_cons schema ctes outside,
        (quiet token List.mem_cons_self).scanToken_of_clear clear outside,
        later.leads rest allowed]

theorem parens {inner : List DependencyToken} (inside : before.Within)
    (outside : before.expectRelation = false)
    (passes : Passes schema ctes stop inner { before with depth := before.depth + 1 } middle
      keep reads)
    (closes : ∀ rest, stop (closeMark :: rest)) :
    Passes schema ctes anywhere (inParens inner) before
      (scanToken middle closeMark) keep reads := by
  have depth : middle.depth = before.depth + 1 := passes.depth
  have stays : (middle.inFromList && !(middle.depth ≤ middle.fromDepth)) =
      (before.inFromList && keep) := by
    cases listed : middle.inFromList with
    | false => rw [← passes.list, listed]; rfl
    | true =>
        have mark : middle.fromDepth = before.fromDepth := passes.mark listed
        have deeper : ¬ middle.depth ≤ middle.fromDepth := by
          have around := inside (passes.earlier listed)
          omega
        rw [← show middle.inFromList = (before.inFromList && keep) from passes.list, listed]
        simp [deeper]
  constructor
  · intro rest _
    rw [parens_append, scanRest_cons schema ctes outside, scanToken_open,
      passes.leads _ (closes _), scanRest_cons schema ctes passes.outside]
  all_goals rw [scanToken_close]
  · exact passes.relations
  · exact passes.wildcard
  · exact Nat.sub_eq_of_eq_add depth
  · exact passes.outside
  · exact stays
  · intro listed
    exact passes.mark (Bool.and_eq_true _ _ ▸ listed).1

end Passes

end Passing

section Aliases

structure StopToken (token : DependencyToken) : Prop where
  opens : dependencyTokenValue token "(" = false
  dots : dependencyTokenValue token "." = false
  renames : dependencyTokenKeyword token "as" = false
  names : (dependencyTokenIdentifier token && !dependencyAliasBoundary token) = false

def Stops (rest : List DependencyToken) : Prop :=
  ∀ token ∈ rest.head?, StopToken token

theorem stops_nil : Stops [] := by
  intro token member
  cases member

theorem StopToken.stops {token : DependencyToken} (stop : StopToken token)
    (rest : List DependencyToken) : Stops (token :: rest) := by
  intro other member
  obtain rfl := Option.some.inj member
  exact stop

theorem stops_close (rest : List DependencyToken) : Stops (closeMark :: rest) :=
  StopToken.stops ⟨rfl, rfl, rfl, rfl⟩ rest

theorem stops_comma (rest : List DependencyToken) : Stops (commaMark :: rest) :=
  StopToken.stops ⟨rfl, rfl, rfl, rfl⟩ rest

theorem Keyword.stopToken {word : String} (keyword : Keyword word)
    (listed : word ∈ ["on", "where", "join", "inner", "left", "right", "full"]) :
    StopToken keyword.token := by
  have known : ∀ word ∈ ["on", "where", "join", "inner", "left", "right", "full"],
      word ≠ "" ∧ "as" ≠ word ∧ word ∈ aliasEnds := by
    decide
  obtain ⟨some, other, ends⟩ := known word listed
  refine ⟨rfl, rfl, ?_, ?_⟩
  · rw [keyword.isKeyword some, decide_eq_false other.symm]
  · rw [keyword.isAliasBoundary, decide_eq_true ends, Bool.not_true, Bool.and_false]

variable {rest : List DependencyToken}

theorem Stops.skipDependencyAlias (stops : Stops rest) :
    skipDependencyAlias rest 0 = 0 := by
  cases rest with
  | nil => rfl
  | cons token rest =>
      have stop := stops token rfl
      rw [PostgresSync.Pg.skipDependencyAlias, keywordAt_zero, stop.renames,
        if_neg Bool.false_ne_true]
      exact if_neg (Bool.eq_false_iff.mp stop.names)

theorem Stops.valueAt (stops : Stops rest) :
    valueAt rest 0 "(" = false ∧ valueAt rest 0 "." = false := by
  cases rest with
  | nil => exact ⟨rfl, rfl⟩
  | cons token rest => exact ⟨(stops token rfl).opens, (stops token rfl).dots⟩

theorem skipDependencyAlias_aliasTokens (called : Option Alias) (stops : Stops rest) :
    skipDependencyAlias (aliasTokens called ++ rest) 0 = (aliasTokens called).length := by
  cases called with
  | none => exact stops.skipDependencyAlias
  | some called =>
      obtain ⟨keyword, name, plain⟩ := called
      cases keyword with
      | some keyword =>
          have introduced : keywordAt (keyword.token :: name.token :: rest) 0 "as" = true := by
            rw [keywordAt_zero, keyword.isKeyword (by decide), decide_eq_true rfl]
          have named : identifierAt (keyword.token :: name.token :: rest) (0 + 1) = true :=
            name.isIdentifier
          have unlisted : valueAt (keyword.token :: name.token :: rest) (0 + 2) "(" = false :=
            stops.valueAt.1
          show skipDependencyAlias (keyword.token :: name.token :: rest) 0 = 2
          rw [skipDependencyAlias, if_pos introduced, if_pos named, skipOptionalList,
            if_neg (Bool.eq_false_iff.mp unlisted)]
      | none =>
          have introduced : keywordAt (name.token :: rest) 0 "as" = false :=
            name.notKeyword (by decide)
          have unlisted : valueAt (name.token :: rest) (0 + 1) "(" = false := stops.valueAt.1
          have first : (name.token :: rest)[0]? = some name.token := rfl
          show skipDependencyAlias (name.token :: rest) 0 = 1
          rw [skipDependencyAlias, if_neg (Bool.eq_false_iff.mp introduced), first,
            Option.any_some, name.isIdentifier, plain rfl, Bool.not_false, Bool.true_and,
            if_pos rfl, skipOptionalList, if_neg (Bool.eq_false_iff.mp unlisted)]

theorem aliasTokens_harmless (called : Option Alias) :
    ∀ token ∈ aliasTokens called, Harmless token := by
  cases called with
  | none => exact List.forall_mem_nil _
  | some called =>
      obtain ⟨keyword, name, plain⟩ := called
      cases keyword with
      | none => exact List.forall_mem_singleton.mpr name.harmless
      | some keyword =>
          refine List.forall_mem_cons.mpr ⟨?_, List.forall_mem_singleton.mpr name.harmless⟩
          exact .of_word rfl (keyword.isKeyword (by decide) "from")
            (keyword.isKeyword (by decide) "join")

theorem aliasTokens_valueAt (called : Option Alias) {value : String}
    (other : valueAt rest 0 value = false) :
    valueAt (aliasTokens called ++ rest) 0 value = false := by
  cases called with
  | none => exact other
  | some called =>
      obtain ⟨keyword, name, plain⟩ := called
      cases keyword with
      | none => rfl
      | some keyword => rfl

end Aliases

section Consuming

variable (schema : String) (ctes : StringSet)

theorem skipTableModifiers_of_other {token : DependencyToken}
    (only : dependencyTokenKeyword token "only" = false)
    (beside : dependencyTokenKeyword token "lateral" = false) (rest : List DependencyToken) :
    skipTableModifiers (token :: rest) 0 = 0 := by
  rw [skipTableModifiers, keywordAt_zero, keywordAt_zero, only, beside]
  exact if_neg (by simp)

theorem TableName.read (name : TableName) {more : List DependencyToken}
    (ended : valueAt more 0 "." = false) :
    readDependencyRelationReference (name.tokens ++ more) schema ctes 0 =
      some ((name.found schema ctes).getD .empty, name.tokens.length) := by
  cases name with
  | plain name =>
      have found : (TableName.plain name).tokens ++ more = name.token :: more := rfl
      have dot : valueAt (name.token :: more) (0 + 1) "." = false := by
        rw [← ended]
        exact valueAt_shift [name.token] more 0 "."
      rw [readDependencyRelationReference, found]
      simp only [List.getElem?_cons_zero, Option.filter_some, name.isIdentifier, if_true, dot,
        Bool.false_eq_true, if_false, Label.name_eq, TableName.found, TableName.relation?,
        decide_eq_true_eq]
      split
      · next listed => exact if_pos listed
      · next other => exact if_neg other
  | qualified owner table =>
      have found : (TableName.qualified owner table).tokens ++ more =
        owner.token :: dotMark :: table.token :: more := rfl
      have dot : valueAt (owner.token :: dotMark :: table.token :: more) (0 + 1) "." = true := rfl
      rw [readDependencyRelationReference, found, dot, if_pos rfl]
      simp only [List.getElem?_cons_zero, Option.filter_some, owner.isIdentifier, if_true,
        Nat.zero_add, List.getElem?_cons_succ, table.isIdentifier, Label.name_eq]
      rfl

theorem TableName.found_ne {name : TableName} {relation : Relation}
    (found : name.found schema ctes = some relation) : relation ≠ .empty := by
  rintro rfl
  cases name with
  | plain name =>
      rw [TableName.found, TableName.relation?] at found
      split at found
      · cases found
      · exact name.folded_ne (Relation.mk.inj (Option.some.inj found)).2
  | qualified owner table =>
      exact owner.folded_ne (Relation.mk.inj (Option.some.inj found)).1

theorem TableName.notModifier (name : TableName) (more : List DependencyToken) :
    skipTableModifiers (name.tokens ++ more) 0 = 0 := by
  cases name with
  | plain name =>
      exact skipTableModifiers_of_other (name.notKeyword (by decide))
        (name.notKeyword (by decide)) more
  | qualified owner table =>
      exact skipTableModifiers_of_other (owner.notKeyword (by decide))
        (owner.notKeyword (by decide)) _

theorem TableName.consumed (name : TableName) {more : List DependencyToken}
    (relations : Dict Relation) (opens : valueAt more 0 "(" = false)
    (dots : valueAt more 0 "." = false) :
    consumeDependencyRelation schema ctes (name.tokens ++ more) 0 relations =
      ⟨name.tokens.length + skipDependencyAlias more 0, false,
        recordRead schema ctes relations name⟩ := by
  have started : valueAt (name.tokens ++ more) 0 "(" = false := by
    cases name <;> rfl
  have inside : ¬ (name.tokens ++ more).length ≤ 0 := by
    cases name <;> simp [TableName.tokens]
  have called : valueAt (name.tokens ++ more) name.tokens.length "(" = false := by
    rw [← opens]
    exact valueAt_shift name.tokens more 0 "("
  have skipped := skipDependencyAlias_shift name.tokens more 0
  rw [Nat.add_zero] at skipped
  rw [consumeDependencyRelation]
  simp only [name.notModifier, inside, if_false, started, Bool.false_eq_true,
    name.read schema ctes dots, called, skipped]
  congr 1
  rw [recordRead]
  cases found : name.found schema ctes with
  | none => exact if_pos rfl
  | some relation => exact if_neg (name.found_ne schema ctes found)

theorem consumeDependencyRelation_parens {inner : List DependencyToken} (balanced : Balanced inner)
    (query : dependencyRelationFromTokens inner schema ctes = none)
    (more : List DependencyToken) (relations : Dict Relation) :
    let scanned := scanRest schema ctes { relations := relations } inner
    consumeDependencyRelation schema ctes (inParens inner ++ more) 0 relations =
      ⟨(inParens inner).length + skipDependencyAlias more 0, scanned.wildcard,
        scanned.relations⟩ := by
  have inside : ¬ (openMark :: (inner ++ closeMark :: more)).length ≤ 0 := by simp
  have opened : valueAt (openMark :: (inner ++ closeMark :: more)) 0 "(" = true := rfl
  have closed : findDependencyBalancedClose (openMark :: (inner ++ closeMark :: more)) 0 =
    some (inner.length + 1) := balanced.close rfl rfl more
  have unmodified : skipTableModifiers (openMark :: (inner ++ closeMark :: more)) 0 = 0 :=
    skipTableModifiers_of_other rfl rfl _
  have between : tokensBetween (openMark :: (inner ++ closeMark :: more)) (0 + 1)
      (inner.length + 1) = inner := by
    simp [tokensBetween]
  have length : (inParens inner).length = inner.length + 1 + 1 := by simp [inParens]
  have skipped := skipDependencyAlias_shift (inParens inner) more 0
  rw [Nat.add_zero, parens_append, length] at skipped
  rw [parens_append, consumeDependencyRelation]
  simp only [unmodified, inside, if_false, opened, if_true, closed, between, query]
  rw [skipped, length]
  rfl

end Consuming

end PostgresSync.Pg
