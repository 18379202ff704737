import PostgresSync.Pg.ScanClause

namespace PostgresSync.Pg

open PostgresSync.Data
open PostgresSync.Shapes

section Following

/-! What can follow an item, and what a list in parentheses is not. -/

theorem Item.tokens_ne_nil (item : Item) : item.tokens ≠ [] := by
  cases item with
  | table name called => cases name <;> exact List.cons_ne_nil _ _
  | subselect query called => exact List.cons_ne_nil _ _
  | nested first join rest called => exact List.cons_ne_nil _ _

theorem Items.length_tokens_pos (items : Items) : 0 < items.tokens.length := by
  cases items with
  | one first joins =>
      exact List.length_pos_of_ne_nil (List.append_ne_nil_of_left_ne_nil first.tokens_ne_nil _)
  | more first joins rest =>
      exact List.length_pos_of_ne_nil (List.append_ne_nil_of_left_ne_nil
        (List.append_ne_nil_of_left_ne_nil first.tokens_ne_nil _) _)

variable {rest : List DependencyToken}

theorem JoinKind.stops (kind : JoinKind) (stops : Stops rest) :
    Stops (kind.tokens ++ rest) := by
  obtain ⟨words, known⟩ := kind
  cases words with
  | nil => exact stops
  | cons word words =>
      have kinds : ∀ listed ∈ joinKinds, ∀ first ∈ listed.head?,
          first ∈ ["inner", "left", "right", "full"] := by
        decide
      have included : ∀ first ∈ ["inner", "left", "right", "full"],
          first ∈ ["on", "where", "join", "inner", "left", "right", "full"] := by
        decide
      have first := included _ (kinds _ known (lowerWord word) rfl)
      exact ((Keyword.mk word rfl).stopToken first).stops _

theorem Join.stops (join : Join) (rest : List DependencyToken) : Stops (join.tokens ++ rest) := by
  cases join with
  | on kind keyword item on condition =>
      rw [Join.tokens, List.append_assoc]
      exact kind.stops ((keyword.stopToken (by decide)).stops _)

theorem Joins.stops (joins : Joins) (stops : Stops rest) :
    Stops (joins.tokens ++ rest) := by
  cases joins with
  | done => exact stops
  | more join others =>
      rw [Joins.tokens, List.append_assoc]
      exact join.stops _

theorem Filter.stops (filter : Filter) (stops : Stops rest) :
    Stops (filter.tokens ++ rest) := by
  cases filter with
  | absent => exact stops
  | holds keyword condition => exact (keyword.stopToken (by decide)).stops _

variable (schema : String) (ctes : StringSet)

theorem readDependencyRelationReference_short {tokens : List DependencyToken}
    {relation : Relation} {next : Nat}
    (read : readDependencyRelationReference tokens schema ctes 0 = some (relation, next)) :
    next = 1 ∨ next = 3 ∧ valueAt tokens 1 "." = true := by
  have last {first second : Relation} {position : Nat}
      (same : some (first, position) = some (second, next)) : next = position :=
    (Prod.mk.inj (Option.some.inj same)).2.symm
  rw [readDependencyRelationReference] at read
  split at read
  · cases read
  · cases dotted : valueAt tokens (0 + 1) "." with
    | false =>
        simp only [dotted, Bool.false_eq_true, if_false] at read
        left
        split at read <;> exact last read
    | true =>
        simp only [dotted, if_true] at read
        split at read
        · exact .inr ⟨last read, rfl⟩
        · left
          split at read <;> exact last read

theorem dependencyRelationFromTokens_of_length {tokens : List DependencyToken}
    (several : tokens.length ≠ 1)
    (longer : tokens.length = 3 → valueAt tokens 1 "." = false) :
    dependencyRelationFromTokens tokens schema ctes = none := by
  rw [dependencyRelationFromTokens]
  split
  · rfl
  · next relation next read =>
      refine if_neg fun both => ?_
      rcases readDependencyRelationReference_short schema ctes read with one | ⟨three, dotted⟩
      · exact several (both.2.symm.trans one)
      · rw [longer (both.2.symm.trans three)] at dotted
        cases dotted

theorem Subselect.notRelation (query : Subselect) :
    dependencyRelationFromTokens query.tokens schema ctes = none := by
  cases query with
  | select list select columns keyword items filter =>
      have some := items.length_tokens_pos
      apply dependencyRelationFromTokens_of_length
      · simp only [Subselect.tokens, List.length_append, List.length_cons]
        omega
      · intro three
        simp only [Subselect.tokens, List.length_append, List.length_cons] at three
        have none : list.tokens = [] := List.length_eq_zero_iff.mp (by omega)
        have bare : columns.tokens = [] := List.length_eq_zero_iff.mp (by omega)
        rw [Subselect.tokens, none, bare]
        rfl

theorem Join.notRelation (first : Item) (join : Join) (rest : Joins) :
    dependencyRelationFromTokens (first.tokens ++ (join.tokens ++ rest.tokens)) schema ctes =
      none := by
  cases join with
  | on kind keyword item on condition =>
      have some := List.length_pos_of_ne_nil first.tokens_ne_nil
      have joined := List.length_pos_of_ne_nil item.tokens_ne_nil
      have long : 4 ≤ (first.tokens ++
          ((Join.on kind keyword item on condition).tokens ++ rest.tokens)).length := by
        simp only [Join.tokens, List.length_append, List.length_cons]
        omega
      apply dependencyRelationFromTokens_of_length
      · omega
      · omega

end Following

section Fragments

variable (schema : String) (ctes : StringSet)

/-- Tokens that the scanner passes over one by one, in whatever list it is.  `listed` says
whether a list of this depth stays open, `clear` whether one further out does. -/
def Free (tokens : List DependencyToken) (listed clear : Bool) (reads : List TableName) : Prop :=
  ∀ before : ScanState, before.Within → before.expectRelation = false →
    ∃ after, Passes schema ctes anywhere tokens before after
      (bif before.depth ≤ before.fromDepth then listed else clear) reads

def Deep (tokens : List DependencyToken) (clear : Bool) (reads : List TableName) : Prop :=
  ∀ before : ScanState, before.Clear → before.expectRelation = false →
    ∃ after, Passes schema ctes anywhere tokens before after clear reads

def Consumed.Item (tokens : List DependencyToken) (reads : List TableName) : Prop :=
  ∀ before : ScanState, before.expectRelation = true →
    ∃ after, Passes schema ctes Stops tokens before after true reads

/-- Items of a list: where the first of them is expected the list is open. -/
def Listing (expected : Bool) (tokens : List DependencyToken) (keeps : Bool)
    (reads : List TableName) : Prop :=
  ∀ before : ScanState, before.expectRelation = expected → (expected = true → before.Listed) →
    (expected = false → before.Clear) →
    ∃ after keep, Passes schema ctes Stops tokens before after keep reads ∧
      (expected = true → keep = keeps)

def Lists (expected : Bool) (tokens : List DependencyToken) (reads : List TableName) : Prop :=
  ∀ before : ScanState, before.expectRelation = expected → (expected = true → before.Listed) →
    (expected = false → before.Clear) →
    ∃ after keep, Passes schema ctes Stops tokens before after keep reads

def Selects (tokens : List DependencyToken) (reads : List TableName) : Prop :=
  ∀ before : ScanState, before.Clear → before.expectRelation = false → ∃ after : ScanState,
    (∀ rest, Stops rest →
      scanRest schema ctes before (tokens ++ rest) = scanRest schema ctes after rest) ∧
    after.relations = reads.foldl (recordRead schema ctes) before.relations ∧
    after.wildcard = before.wildcard ∧ after.depth = before.depth ∧
    after.expectRelation = false ∧ (after.inFromList = true → after.fromDepth = after.depth)

def Fresh (tokens : List DependencyToken) (reads : List TableName) : Prop :=
  ∀ relations : Dict Relation, ∃ after : ScanState,
    scanRest schema ctes { relations := relations } tokens = after ∧ after.wildcard = false ∧
      after.relations = reads.foldl (recordRead schema ctes) relations

variable {schema ctes} {first second : List DependencyToken} {listed clear more further : Bool}
variable {reads others : List TableName}

theorem Free.nil : Free schema ctes [] true true [] :=
  fun before _ outside => ⟨before, (Passes.refl outside).keep_congr fun _ =>
    (Bool.cond_self ..).symm⟩

theorem Deep.nil : Deep schema ctes [] true [] :=
  fun before _ outside => ⟨before, .refl outside⟩

theorem Passes.append_levels {stop : List DependencyToken → Prop} {before middle after : ScanState}
    (left : Passes schema ctes stop first before middle
      (bif before.depth ≤ before.fromDepth then listed else clear) reads)
    (right : Passes schema ctes anywhere second middle after
      (bif middle.depth ≤ middle.fromDepth then more else further) others)
    (follows : ∀ rest, stop (second ++ rest)) :
    Passes schema ctes anywhere (first ++ second) before after
      (bif before.depth ≤ before.fromDepth then listed && more else clear && further)
      (reads ++ others) := by
  refine (left.append right fun rest _ => follows rest).keep_congr fun inside => ?_
  cases kept : bif decide (before.depth ≤ before.fromDepth) then listed else clear with
  | false =>
      cases level : decide (before.depth ≤ before.fromDepth) <;> rw [level] at kept <;> simp_all
  | true =>
      have still : middle.inFromList = true := by rw [left.list, inside, kept]; rfl
      rw [left.mark still, left.depth]
      cases level : decide (before.depth ≤ before.fromDepth) <;> rw [level] at kept <;> simp_all

theorem Free.append (left : Free schema ctes first listed clear reads)
    (right : Free schema ctes second more further others) :
    Free schema ctes (first ++ second) (listed && more) (clear && further) (reads ++ others) := by
  intro before within outside
  obtain ⟨middle, passes⟩ := left before within outside
  obtain ⟨after, later⟩ := right middle (passes.within within) passes.outside
  exact ⟨after, passes.append_levels later fun _ => trivial⟩

theorem Deep.append (left : Deep schema ctes first clear reads)
    (right : Deep schema ctes second further others) :
    Deep schema ctes (first ++ second) (clear && further) (reads ++ others) := by
  intro before inside outside
  obtain ⟨middle, passes⟩ := left before inside outside
  obtain ⟨after, later⟩ := right middle (passes.clear inside) passes.outside
  exact ⟨after, passes.append later fun _ _ => trivial⟩

theorem Free.deep (free : Free schema ctes first listed clear reads) :
    Deep schema ctes first clear reads := by
  intro before inside outside
  obtain ⟨after, passes⟩ := free before inside.within outside
  refine ⟨after, passes.keep_congr fun within => ?_⟩
  rw [decide_eq_false (Nat.not_le.mpr (inside within)), cond_false]

theorem Deep.harmless {tokens : List DependencyToken} (quiet : ∀ token ∈ tokens, Harmless token) :
    Deep schema ctes tokens true [] :=
  fun before inside outside => ⟨before, .harmless inside outside quiet⟩

theorem Deep.name (name : Name) : Deep schema ctes [name.token] true [] :=
  .harmless (List.forall_mem_singleton.mpr name.harmless)

theorem Deep.comma : Deep schema ctes [commaMark] true [] :=
  .harmless (List.forall_mem_singleton.mpr ⟨rfl, rfl, rfl, rfl⟩)

theorem Free.token {token : DependencyToken} (harmless : Harmless token)
    (unlisted : dependencyTokenValue token "," = false) :
    Free schema ctes [token] (!dependencyFromBoundary token) true [] := by
  intro before _ outside
  refine ⟨_, (Passes.other harmless unlisted outside).keep_congr fun _ => ?_⟩
  cases decide (before.depth ≤ before.fromDepth) <;> rfl

theorem Free.keyword {word : String} (keyword : Keyword word)
    (known : word ∈ ["on", "as", "select", "with", "recursive"]) :
    Free schema ctes [keyword.token] true true [] := by
  have words : ∀ word ∈ ["on", "as", "select", "with", "recursive"], word ≠ "" ∧
      word ≠ "from" ∧ word ≠ "join" ∧ word ∉ fromEnds := by
    decide
  obtain ⟨some, introduces, joins, boundary⟩ := words word known
  have harmless : Harmless keyword.token := by
    refine .of_word rfl ?_ ?_
    · rw [keyword.isKeyword some, decide_eq_false introduces]
    · rw [keyword.isKeyword some, decide_eq_false joins]
  have free : Free schema ctes [keyword.token] _ true [] := .token harmless rfl
  rwa [keyword.isBoundary some, decide_eq_false boundary] at free

theorem Free.kind (kind : JoinKind) : Free schema ctes kind.tokens true true [] := by
  have quiet : ∀ token ∈ kind.tokens, Harmless token ∧ dependencyTokenValue token "," = false ∧
      dependencyFromBoundary token = false := by
    intro token member
    have word := (kind.notKeyword member (by decide : "with" ∉ _)).1
    refine ⟨.of_word word (kind.notKeyword member (by decide)).2
      (kind.notKeyword member (by decide)).2, dependencyTokenValue_of_word word ",", ?_⟩
    rw [dependencyFromBoundary, Bool.and_eq_false_iff]
    right
    obtain ⟨spelled, among, rfl⟩ := List.mem_map.mp member
    have kinds : ∀ words ∈ joinKinds, ∀ word ∈ words, word ∉ fromEnds := by
      decide
    exact decide_eq_false (kinds _ kind.known (lowerWord spelled) (List.mem_map_of_mem among))
  generalize kind.tokens = tokens at quiet
  induction tokens with
  | nil => exact .nil
  | cons token tokens hypothesis =>
      obtain ⟨harmless, unlisted, inner⟩ := quiet token List.mem_cons_self
      have free : Free schema ctes [token] _ true [] := .token harmless unlisted
      rw [inner] at free
      exact free.append (hypothesis fun _ member => quiet _ (List.mem_cons_of_mem _ member))

theorem Deep.parens (inner : Deep schema ctes first clear reads) :
    Free schema ctes (inParens first) clear clear reads := by
  intro before within outside
  obtain ⟨_, passes⟩ := inner _ within.deeper outside
  exact ⟨_, (passes.parens within outside fun _ => trivial).keep_congr fun _ =>
    (Bool.cond_self ..).symm⟩

theorem Selects.parens (selects : Selects schema ctes first reads) :
    Free schema ctes (inParens first) false false reads := by
  intro before within outside
  obtain ⟨middle, leads, relations, wildcard, depth, expects, closes⟩ :=
    selects _ within.deeper outside
  have ended : (middle.inFromList && !(middle.depth ≤ middle.fromDepth)) = false := by
    cases listed : middle.inFromList with
    | false => rfl
    | true => simp [closes listed]
  refine ⟨scanToken middle closeMark, ?_⟩
  rw [Bool.cond_self]
  constructor
  · intro rest _
    rw [parens_append, scanRest_cons schema ctes outside, scanToken_open, leads _ (stops_close _),
      scanRest_cons schema ctes expects]
  all_goals rw [scanToken_close]
  · exact relations
  · exact wildcard
  · exact Nat.sub_eq_of_eq_add depth
  · exact expects
  · rw [Bool.and_false]
    exact ended
  · intro listed
    rw [ended] at listed
    cases listed

theorem Deep.alias (called : Option Alias) (item : Deep schema ctes first clear reads) :
    Deep schema ctes (first ++ aliasTokens called) clear reads := by
  have whole := item.append (Deep.harmless (aliasTokens_harmless called))
  rwa [Bool.and_true, List.append_nil] at whole

theorem Consumed.Item.alias {head : List DependencyToken} (called : Option Alias)
    (present : head ≠ [])
    (consumed : ∀ relations more, valueAt more 0 "(" = false → valueAt more 0 "." = false →
      consumeDependencyRelation schema ctes (head ++ more) 0 relations =
        ⟨head.length + skipDependencyAlias more 0, false,
          reads.foldl (recordRead schema ctes) relations⟩) :
    Consumed.Item schema ctes (head ++ aliasTokens called) reads := by
  intro before expected
  refine ⟨{ before with
    relations := reads.foldl (recordRead schema ctes) before.relations
    wildcard := before.wildcard || false
    expectRelation := false }, ?_, rfl, Bool.or_false _, rfl, rfl, (Bool.and_true _).symm,
    fun _ => rfl⟩
  · intro rest stops
    obtain ⟨token, tokens, same⟩ := List.exists_cons_of_ne_nil present
    have read := consumed before.relations (aliasTokens called ++ rest)
      (aliasTokens_valueAt called stops.valueAt.1) (aliasTokens_valueAt called stops.valueAt.2)
    have step := scanRest_consume schema ctes expected token
      (tokens ++ (aliasTokens called ++ rest))
    rw [← List.cons_append, ← same, read] at step
    rw [skipDependencyAlias_aliasTokens called stops] at step
    have forward : max (head.length + (aliasTokens called).length) 1 =
        (head ++ aliasTokens called).length := by
      have some := List.length_pos_of_ne_nil present
      rw [List.length_append]
      omega
    simp only [forward] at step
    rw [List.append_assoc, step, ← List.append_assoc, List.drop_left]

theorem Consumed.Item.parens {inner : List DependencyToken} (called : Option Alias)
    (balanced : Balanced inner) (query : dependencyRelationFromTokens inner schema ctes = none)
    (scan : Fresh schema ctes inner reads) :
    Consumed.Item schema ctes (inParens inner ++ aliasTokens called) reads := by
  refine Consumed.Item.alias called (List.cons_ne_nil _ _) fun relations more _ _ => ?_
  obtain ⟨_, rfl, known, recorded⟩ := scan relations
  have consumed := consumeDependencyRelation_parens schema ctes balanced query more relations
  simp only [known, recorded] at consumed
  exact consumed

theorem Consumed.Item.join (item : Consumed.Item schema ctes first reads)
    (keyword : Keyword "join") (after : Free schema ctes second more further others)
    (follows : ∀ rest, Stops (second ++ rest)) :
    Free schema ctes (keyword.token :: (first ++ second)) more further (reads ++ others) := by
  intro before within outside
  obtain ⟨middle, consumed⟩ := item { before with expectRelation := true } rfl
  have joined : Passes schema ctes Stops (keyword.token :: first) before middle
      (bif before.depth ≤ before.fromDepth then true else true) reads :=
    (Passes.expect outside (scanToken_join before keyword) consumed).keep_congr fun _ =>
      (Bool.cond_self ..).symm
  obtain ⟨last, later⟩ := after middle (joined.within within) joined.outside
  exact ⟨last, joined.append_levels later follows⟩

variable {expected : Bool}

theorem Listing.of_item (reads : Bool → List TableName)
    (item : Consumed.Item schema ctes first (reads true))
    (passed : ∃ clear, Deep schema ctes first clear (reads false)) :
    Listing schema ctes expected first true (reads expected) := by
  intro before expects inside outside
  cases expected with
  | true =>
      obtain ⟨after, passes⟩ := item before expects
      exact ⟨after, true, passes, fun _ => rfl⟩
  | false =>
      obtain ⟨clear, passed⟩ := passed
      obtain ⟨after, passes⟩ := passed before (outside rfl) expects
      exact ⟨after, clear, passes.weaken, nofun⟩

theorem Listing.joins (items : Listing schema ctes expected first listed reads)
    (joins : Free schema ctes second more further others)
    (follows : ∀ rest, Stops rest → Stops (second ++ rest)) :
    Listing schema ctes expected (first ++ second) (listed && more) (reads ++ others) := by
  intro before expects inside outside
  obtain ⟨middle, keep, passes, kept⟩ := items before expects inside outside
  have within : before.Within := by
    cases expected with
    | true => exact (inside rfl).within
    | false => exact (outside rfl).within
  obtain ⟨after, later⟩ := joins middle (passes.within within) passes.outside
  refine ⟨after, _, passes.append later.weaken follows, fun expected => ?_⟩
  obtain rfl := kept expected
  cases keep with
  | false => rfl
  | true => rw [decide_eq_true (passes.listed (inside expected)).2.ge, cond_true]

theorem Listing.lists (items : Listing schema ctes expected first listed reads) :
    Lists schema ctes expected first reads := by
  intro before expects inside outside
  obtain ⟨after, keep, passes, _⟩ := items before expects inside outside
  exact ⟨after, keep, passes⟩

theorem Listing.comma {others : Bool → List TableName}
    (items : Listing schema ctes expected first listed reads)
    (rest : ∀ expected, Lists schema ctes expected second (others expected)) :
    Lists schema ctes expected (first ++ commaMark :: second)
      (reads ++ others (expected && listed)) := by
  intro before expects inside outside
  obtain ⟨middle, keep, passes, kept⟩ := items before expects inside outside
  have still : ((expected && listed) = true → middle.Listed) ∧
      ((expected && listed) = false → middle.Clear) := by
    cases expected with
    | false => exact ⟨nofun, fun _ => passes.clear (outside rfl)⟩
    | true =>
        obtain rfl := kept rfl
        cases keep with
        | false => exact ⟨nofun, fun _ => passes.closed⟩
        | true => exact ⟨fun _ => passes.listed (inside rfl), nofun⟩
  have comma : ∃ after keep, Passes schema ctes Stops (commaMark :: second) middle after keep
      (others (expected && listed)) := by
    cases listing : (expected && listed) with
    | true =>
        have listed := still.1 listing
        have expects : scanToken middle commaMark = { middle with expectRelation := true } := by
          rw [scanToken_comma, listed.1, listed.2, decide_eq_true rfl]
          rfl
        obtain ⟨after, keep, later⟩ :=
          rest true { middle with expectRelation := true } rfl (fun _ => listed) nofun
        exact ⟨after, keep, .expect passes.outside expects later⟩
    | false =>
        obtain ⟨between, mark⟩ := Deep.comma middle (still.2 listing) passes.outside
        obtain ⟨after, keep, later⟩ := rest false between mark.outside nofun
          fun _ => mark.clear (still.2 listing)
        exact ⟨after, _, mark.append later fun _ _ => trivial⟩
  obtain ⟨after, further, later⟩ := comma
  exact ⟨after, _, passes.append later fun _ _ => stops_comma _⟩

theorem Selects.of {list columns items filter : List DependencyToken} {chosen : Bool}
    {listReads columnReads itemReads filterReads : List TableName}
    (lists : ∃ clear, Deep schema ctes list clear listReads) (select : Keyword "select")
    (chooses : Deep schema ctes columns chosen columnReads) (keyword : Keyword "from")
    (itemsToo : Lists schema ctes true items itemReads)
    (holds : ∃ listed clear, Free schema ctes filter listed clear filterReads)
    (follows : ∀ rest, Stops rest → Stops (filter ++ rest)) :
    Selects schema ctes (list ++ select.token :: (columns ++ keyword.token :: (items ++ filter)))
      (listReads ++ (columnReads ++ (itemReads ++ filterReads))) := by
  intro before clear outside
  obtain ⟨_, lists⟩ := lists
  obtain ⟨_, _, holds⟩ := holds
  have selected : Free schema ctes [select.token] true true [] := .keyword select (by decide)
  obtain ⟨chosen, head⟩ := (lists.append (selected.deep.append chooses)) before clear outside
  -- `FROM` opens a list at this depth, which the parentheses around the query end
  have opened := scanToken_from chosen keyword
  have listed : (scanToken chosen keyword.token).Listed := by
    rw [opened]
    exact ⟨rfl, rfl⟩
  obtain ⟨middle, _, itemsPass⟩ := itemsToo (scanToken chosen keyword.token) (by rw [opened])
    (fun _ => listed) nofun
  obtain ⟨after, filterPass⟩ := holds middle (itemsPass.within listed.within) itemsPass.outside
  have body := itemsPass.append filterPass.weaken follows
  refine ⟨after, fun rest stops => ?_, ?_, ?_, ?_, body.outside, fun kept => ?_⟩
  · have reached := head.leads (keyword.token :: ((items ++ filter) ++ rest)) trivial
    rw [scanRest_cons schema ctes head.outside, body.leads rest stops] at reached
    rw [← reached]
    simp
  · have whole : listReads ++ (columnReads ++ (itemReads ++ filterReads)) =
        (listReads ++ ([] ++ columnReads)) ++ (itemReads ++ filterReads) := by
      simp
    rw [whole, List.foldl_append, ← head.relations, body.relations, opened]
  · rw [body.wildcard, opened]
    exact head.wildcard
  · rw [body.depth, opened]
    exact head.depth
  · rw [body.mark kept, body.depth, opened]

theorem Deep.fresh (inner : Deep schema ctes first clear reads) :
    Fresh schema ctes first reads := by
  intro relations
  obtain ⟨after, passes⟩ := inner { relations := relations } nofun rfl
  have scan := passes.leads [] trivial
  rw [List.append_nil, scanRest_nil] at scan
  exact ⟨after, scan, passes.wildcard, passes.relations⟩

theorem Selects.fresh (selects : Selects schema ctes first reads) :
    Fresh schema ctes first reads := by
  intro relations
  obtain ⟨after, leads, recorded, known, _⟩ := selects { relations := relations } nofun rfl
  have scan := leads [] stops_nil
  rw [List.append_nil, scanRest_nil] at scan
  exact ⟨after, scan, known, recorded⟩

end Fragments

section Trees

variable {schema : String} {ctes : StringSet}

theorem TableName.harmless (name : TableName) : ∀ token ∈ name.tokens, Harmless token := by
  cases name with
  | plain name => exact List.forall_mem_singleton.mpr name.harmless
  | qualified owner table =>
      exact List.forall_mem_cons.mpr ⟨owner.harmless, List.forall_mem_cons.mpr
        ⟨⟨rfl, rfl, rfl, rfl⟩, List.forall_mem_singleton.mpr (Atom.term table).harmless⟩⟩

mutual

theorem Condition.free : (condition : Condition) →
    Free schema ctes condition.tokens condition.keeps condition.plain condition.reads
  | .done => .nil
  | .atom atom rest => (Free.token atom.harmless (by cases atom <;> rfl)).append rest.free
  | .group inner rest => inner.deep.parens.append rest.free
  | .subquery query rest => query.selects.parens.append rest.free

theorem Conditions.deep : (conditions : Conditions) →
    Deep schema ctes conditions.tokens conditions.plain conditions.reads
  | .one condition => condition.free.deep
  | .more condition rest => condition.free.deep.append (Deep.comma.append rest.deep)

theorem Subselect.selects : (query : Subselect) → Selects schema ctes query.tokens query.reads
  | .select ctes select columns keyword items filter =>
      .of ctes.deep select columns.deep keyword (items.lists true) filter.free
        fun _ stops => filter.stops stops

theorem Filter.free : (filter : Filter) →
    ∃ listed clear, Free schema ctes filter.tokens listed clear filter.reads
  | .absent => ⟨_, _, .nil⟩
  | .holds keyword condition =>
      ⟨_, _, (Free.token (.of_word rfl (keyword.isKeyword (by decide) "from")
        (keyword.isKeyword (by decide) "join")) rfl).append condition.free⟩

theorem Ctes.deep : (list : Ctes) → ∃ clear, Deep schema ctes list.tokens clear list.reads
  | .absent => ⟨_, .nil⟩
  | .listed keyword none list =>
      ⟨_, (Free.keyword keyword (by decide)).deep.append list.deep⟩
  | .listed keyword (some recursive) list =>
      ⟨_, (Free.keyword keyword (by decide)).deep.append
        ((Free.keyword recursive (by decide)).deep.append list.deep)⟩

theorem CteList.deep : (list : CteList) → Deep schema ctes list.tokens false list.reads
  | .one name keyword query =>
      (Deep.name name.toName).append
        ((Free.keyword keyword (by decide)).deep.append query.selects.parens.deep)
  | .more name keyword query rest =>
      ((Deep.name name.toName).append
        ((Free.keyword keyword (by decide)).deep.append query.selects.parens.deep)).append
        (Deep.comma.append rest.deep)

theorem Items.lists : (items : Items) → (expected : Bool) →
    Lists schema ctes expected items.tokens (items.reads expected)
  | .one first joins, expected =>
      ((first.listing expected).joins joins.free fun _ stops => joins.stops stops).lists
  | .more first joins rest, expected =>
      ((first.listing expected).joins joins.free fun _ stops => joins.stops stops).comma rest.lists

theorem Joins.free : (joins : Joins) →
    Free schema ctes joins.tokens joins.keeps joins.plain joins.reads
  | .done => .nil
  | .more join rest => join.free.append rest.free

theorem Join.free : (join : Join) →
    Free schema ctes join.tokens join.keeps join.plain join.reads
  | .on kind join item keyword condition =>
      (Free.kind kind).append (item.consumed.join join
        ((Free.keyword keyword (by decide)).append condition.free)
        fun _ => (keyword.stopToken (by decide)).stops _)

theorem Item.listing : (item : Item) → (expected : Bool) →
    Listing schema ctes expected item.tokens true (item.reads expected)
  | item, _ => Listing.of_item (fun expected => item.reads expected) item.consumed item.deep

theorem Item.consumed : (item : Item) →
    Consumed.Item schema ctes item.tokens (item.reads true)
  | .table name called =>
      .alias called (by cases name <;> exact List.cons_ne_nil _ _)
        fun relations _ opens dots => name.consumed schema ctes relations opens dots
  | .subselect query called =>
      .parens (some called) query.neutral.balanced (query.notRelation schema ctes)
        query.selects.fresh
  | .nested first join rest called => by
      obtain ⟨_, passed⟩ := first.deep
      exact .parens called (first.neutral.append (join.neutral.append rest.neutral)).balanced
        (join.notRelation schema ctes first rest)
        (passed.append (join.free.append rest.free).deep).fresh

theorem Item.deep : (item : Item) →
    ∃ clear, Deep schema ctes item.tokens clear (item.reads false)
  | .table name called => ⟨_, (Deep.harmless name.harmless).alias called⟩
  | .subselect query called => ⟨_, query.selects.parens.deep.alias (some called)⟩
  | .nested first join rest called => by
      obtain ⟨_, passed⟩ := first.deep
      exact ⟨_, (passed.append (join.free.append rest.free).deep).parens.deep.alias called⟩

end

end Trees

end PostgresSync.Pg
