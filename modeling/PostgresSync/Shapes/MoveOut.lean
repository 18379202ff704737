import PostgresSync.Shapes.ClientView

namespace PostgresSync.Shapes

open PostgresSync.Data

/-! The tags by which a client of a dependent shape learns which rows have left. -/

structure TaggedRow where
  row : Row
  tags : List String
deriving DecidableEq

def Message.tags (message : Message) : List String :=
  match message.headers["tags"]? with
  | some (.strings tags) => tags
  | _ => []

def Message.movedOut (message : Message) : List String :=
  match message.headers["event"]?, message.headers["patterns"]? with
  | some (.string "move-out"), some (.patterns patterns) => patterns.map (·.value)
  | _, _ => []

/-- What a change message does to the row of its key and to the row's tags. -/
def Message.retag (message : Message) (entry : Option TaggedRow) : Option TaggedRow :=
  if message.operation ∈ ["insert", "update", "delete"] then
    (message.effect (entry.map (·.row))).map fun row => ⟨row, message.tags⟩
  else
    entry

/-- What the client has under a key once a message has reached it. -/
def Message.place (message : Message) (key : String) (entry : Option TaggedRow) :
    Option TaggedRow :=
  let kept := entry.filter fun entry => entry.tags.all (· ∉ message.movedOut)
  if message.key = key then message.retag kept else kept

def applyTagged (view : Dict TaggedRow) (message : Message) : Dict TaggedRow :=
  (view.filter fun _ entry => entry.tags.all (· ∉ message.movedOut)).alter message.key
    message.retag

theorem getElem?_foldl_applyTagged (messages : List Message) (view : Dict TaggedRow)
    (key : String) :
    (messages.foldl applyTagged view)[key]? =
      messages.foldl (fun entry message => message.place key entry) view[key]? := by
  induction messages generalizing view with
  | nil => rfl
  | cons message rest hypothesis =>
      rw [List.foldl_cons, List.foldl_cons, hypothesis]
      congr 1
      rw [applyTagged, Dict.getElem?_alter, Message.place]
      split
      · next same => rw [same, Dict.getElem?_filter]
      · rw [Dict.getElem?_filter]

section Changes

variable {definition : Definition} {schema : Schema} {relation : Relation} {key : String}
  {old new : Option Row} {message : Message}

structure Message.Untagged (message : Message) : Prop where
  tags : message.headers["tags"]? = none
  event : message.headers["event"]? = none

theorem diffRow_untagged
    (sent : diffRow definition schema relation key old new = some message) :
    message.Untagged := by
  constructor
  · rw [(diffRow_sent sent).1]
    rfl
  · rw [(diffRow_sent sent).1]
    rfl

end Changes

section Decoration

variable [Digest] {handle : String}

theorem decorateDependentRefreshMessages_eq {definition : Definition}
    (dependent : definitionHasDependencyKeyword definition = true) (messages : List Message)
    (metadata : ChangeMetadata) :
    ∃ related : Bool, (related = true ↔ metadata.keyRelation ≠ .empty ∧
        metadata.keyRelation ≠ definition.relation) ∧
      decorateDependentRefreshMessages handle definition messages metadata =
        messages.map (decorateMessage handle related) ++
          if related && messages.any fun message => message.operation = "insert" then
            [snapshotEndMessage]
          else
            [] := by
  refine ⟨decide (metadata.keyRelation ≠ .empty ∧ metadata.keyRelation ≠ definition.relation),
    decide_eq_true_iff, ?_⟩
  unfold decorateDependentRefreshMessages
  rw [if_pos dependent]
  dsimp only
  split
  · rfl
  · rw [List.append_nil]

def tagsOf (handle key : String) : List String :=
  if key = "" then [] else [dependentTag handle key]

def snapshotTags (handle : String) (definition : Definition) (key : String) : List String :=
  (decorateDependentSnapshotMessages handle definition
    [{ headers := operationHeaders "insert" definition.relation, internalKey := key }]).flatMap
    Message.tags

theorem snapshotTags_eq {definition : Definition}
    (dependent : definitionHasDependencyKeyword definition = true) (key : String) :
    snapshotTags handle definition key = tagsOf handle key := by
  rw [snapshotTags, decorateDependentSnapshotMessages, if_pos dependent, tagsOf, List.map_singleton,
    List.flatMap_singleton, addDependentTag]
  dsimp only
  split
  · rfl
  · simp [Message.tags]

theorem Message.Untagged.decorated {related : Bool} {message : Message}
    (untagged : message.Untagged) (stays : ¬(related = true ∧ message.operation = "delete")) :
    let decorated := decorateMessage handle related message
    decorated.key = message.key ∧ decorated.internalKey = message.internalKey ∧
      decorated.value = message.value ∧ decorated.operation = message.operation ∧
      decorated.movedOut = [] ∧ decorated.tags = tagsOf handle message.internalKey := by
  have kept : decorateMessage handle related message =
      let tagged := addDependentTag handle message
      if related && message.operation = "insert" then
        { tagged with headers := tagged.headers.insert "is_move_in" (.bool true) }
      else
        tagged := by
    rw [decorateMessage, if_neg]
    simpa using stays
  rw [kept]
  unfold addDependentTag tagsOf
  dsimp only
  split <;> split <;>
    simp only [Message.tags, Message.movedOut, Message.operation, Dict.getElem?_insert,
      untagged.tags, untagged.event, String.reduceEq, if_false, if_true, and_self]

end Decoration

theorem place_of_movedOut_eq_nil {message : Message} (quiet : message.movedOut = [])
    (key : String) (entry : Option TaggedRow) :
    message.place key entry = if message.key = key then message.retag entry else entry := by
  have kept : (entry.filter fun entry => entry.tags.all (· ∉ message.movedOut)) = entry := by
    cases entry with
    | none => rfl
    | some entry => simp [quiet]
  rw [Message.place, kept]

theorem snapshotEndMessage_place (key : String) (entry : Option TaggedRow) :
    snapshotEndMessage.place key entry = entry := by
  rw [place_of_movedOut_eq_nil rfl, Message.retag, ite_eq_right_iff, if_neg]
  · exact fun _ => rfl
  decide

/-- No row that stays or comes can be taken for one that has left. -/
def TagsSeparate (previous current : Dict Row) : Prop :=
  ∀ gone ∈ previous, gone ∉ current → gone ≠ "" ∧
    ∀ key ∈ current, key ≠ "" → dependentTagValue key = dependentTagValue gone →
      key ∉ previous ∧ gone < key

section Turns

variable [Digest] (handle : String) (definition : Definition) (schema : Schema)
  (previous current : Dict Row) (related : Bool)

/-- What the messages of a turn of `diffRows` do to the entry of a client key. -/
def turn (shown : String) (entry : Option TaggedRow) (key : String) : Option TaggedRow :=
  match diffRow definition schema definition.relation key previous[key]? current[key]? with
  | none => entry
  | some message => (decorateMessage handle related message).place shown entry

/-- No move-out event for one of the keys names one of the tags. -/
def Survives (keys tags : List String) : Prop :=
  related = true → ∀ key ∈ keys, key ∈ previous → key ∉ current →
    dependentTag handle key ∉ tags

instance (keys tags : List String) :
    Decidable (Survives handle previous current related keys tags) :=
  inferInstanceAs (Decidable (_ → ∀ _ ∈ _, _))

def tagged (rows : Dict Row) (key : String) : Option TaggedRow :=
  rows[key]?.map fun row => ⟨row, tagsOf handle key⟩

variable {handle definition schema previous current related}

theorem dependentMoveOutMessage_place (key shown : String) (entry : Option TaggedRow) :
    (dependentMoveOutMessage handle key).place shown entry =
      entry.filter fun entry => dependentTag handle key ∉ entry.tags := by
  have values : (dependentMoveOutMessage handle key).movedOut = [dependentTag handle key] := rfl
  have silent : ∀ entry, (dependentMoveOutMessage handle key).retag entry = entry := by
    intro entry
    rw [Message.retag, if_neg]
    change "" ∉ _
    decide
  rw [Message.place, silent, ite_self, values]
  congr 1
  funext entry
  rw [Bool.eq_iff_iff]
  simp only [List.mem_singleton, List.all_eq_true, decide_eq_true_iff]
  constructor
  · intro others member
    exact others _ member rfl
  · intro absent tag member same
    exact absent (same ▸ member)

variable {shown key : String}

theorem turn_of_stays (stays : ¬(related = true ∧ key ∈ previous ∧ key ∉ current))
    (entry : Option TaggedRow) :
    turn handle definition schema previous current related shown entry key =
      match diffRow definition schema definition.relation key previous[key]? current[key]? with
      | none => entry
      | some message =>
          if message.key = shown then
            (message.effect (entry.map (·.row))).map fun row => ⟨row, tagsOf handle key⟩
          else
            entry := by
  unfold turn
  cases sent : diffRow definition schema definition.relation key previous[key]?
      current[key]? with
  | none => rfl
  | some message =>
      have operation := diffRow_operation sent
      rw [← changeOperation_eq_delete, ← operation] at stays
      obtain ⟨sameKey, -, value, sameOperation, quiet, tags⟩ :=
        (diffRow_untagged sent).decorated stays
      dsimp only
      rw [place_of_movedOut_eq_nil quiet, sameKey, Message.retag, sameOperation, operation,
        if_pos (changeOperation_mem _ _), tags, (diffRow_sent sent).2.1]
      have effect : ∀ row, (decorateMessage handle related message).effect row =
          message.effect row := by
        intro row
        rw [Message.effect, Message.effect, sameOperation, value]
      rw [effect]

theorem turn_of_leaves (held : key ∈ previous) (gone : key ∉ current) (entry : Option TaggedRow) :
    turn handle definition schema previous current true shown entry key =
      entry.filter fun entry => dependentTag handle key ∉ entry.tags := by
  unfold turn
  cases sent : diffRow definition schema definition.relation key previous[key]?
      current[key]? with
  | none =>
      obtain ⟨row, found⟩ := Dict.mem_iff_exists.mp held
      rw [found, Std.ExtTreeMap.getElem?_eq_none gone] at sent
      cases sent
  | some message =>
      have deletes : message.operation = "delete" := by
        rw [diffRow_operation sent, changeOperation_eq_delete]
        exact ⟨held, gone⟩
      dsimp only
      rw [decorateMessage, deletes, (diffRow_sent sent).2.1]
      exact dependentMoveOutMessage_place key shown entry

theorem turn_of_ne
    (other : ∀ message, diffRow definition schema definition.relation key previous[key]?
      current[key]? = some message → message.key ≠ shown) (entry : Option TaggedRow) :
    turn handle definition schema previous current related shown entry key =
      entry.filter fun entry => Survives handle previous current related [key] entry.tags := by
  by_cases leaves : related = true ∧ key ∈ previous ∧ key ∉ current
  · obtain ⟨rfl, held, gone⟩ := leaves
    rw [turn_of_leaves held gone]
    congr 1
    funext entry
    simp [Survives, held, gone]
  · have stays : ∀ tags, Survives handle previous current related [key] tags := by
      intro tags isRelated only member held gone
      obtain rfl := List.mem_singleton.mp member
      exact absurd ⟨isRelated, held, gone⟩ leaves
    have kept : (entry.filter fun entry =>
        Survives handle previous current related [key] entry.tags) = entry := by
      cases entry with
      | none => rfl
      | some entry => simp [stays]
    rw [turn_of_stays leaves, kept]
    split
    · rfl
    · next message sent => rw [if_neg (other message sent)]

theorem survives_nil (tags : List String) :
    Survives handle previous current related [] tags := by
  intro _ key member
  cases member

theorem survives_cons {rest tags : List String} :
    Survives handle previous current related (key :: rest) tags ↔
      Survives handle previous current related [key] tags ∧
        Survives handle previous current related rest tags := by
  simp only [Survives, List.forall_mem_cons, List.not_mem_nil, false_implies, implies_true,
    and_true, forall_and]

theorem foldl_turn_of_ne {keys : List String}
    (others : ∀ key ∈ keys, ∀ message, diffRow definition schema definition.relation key
      previous[key]? current[key]? = some message → message.key ≠ shown)
    (entry : Option TaggedRow) :
    keys.foldl (turn handle definition schema previous current related shown) entry =
      entry.filter fun entry => Survives handle previous current related keys entry.tags := by
  induction keys generalizing entry with
  | nil =>
      cases entry with
      | none => rfl
      | some entry => rw [List.foldl_nil, Option.filter_some, if_pos (by simp [survives_nil])]
  | cons key rest hypothesis =>
      rw [List.foldl_cons, turn_of_ne (others key List.mem_cons_self),
        hypothesis fun other member => others other (List.mem_cons_of_mem key member),
        Option.filter_filter]
      congr 1
      funext entry
      rw [← Bool.decide_and, decide_eq_decide, @survives_cons _ _ _ _ _ key rest, and_comm]

theorem tagged_filter (keep : TaggedRow → Bool) (rows : Dict Row) (key : String)
    {holds : Prop} [Decidable holds]
    (kept : ∀ row, keep ⟨row, tagsOf handle key⟩ = true ↔ holds) :
    (tagged handle rows key).filter keep = if holds then tagged handle rows key else none := by
  unfold tagged
  cases rows[key]? with
  | none => simp
  | some row => simp [Option.filter_some, kept row]

theorem turn_none
    (held : ∀ message, diffRow definition schema definition.relation key previous[key]?
      current[key]? = some message → message.key = shown → key ∈ previous) :
    turn handle definition schema previous current related shown none key = none := by
  by_cases leaves : related = true ∧ key ∈ previous ∧ key ∉ current
  · obtain ⟨rfl, before, gone⟩ := leaves
    rw [turn_of_leaves before gone, Option.filter_none]
  · rw [turn_of_stays leaves]
    split
    · rfl
    · next message sent =>
        split
        · next same =>
            obtain ⟨old, before⟩ := Dict.mem_iff_exists.mp (held message sent same)
            have operation := diffRow_operation sent
            rw [before] at operation
            cases found : current[key]? <;> rw [found] at operation <;>
              rw [Message.effect, operation] <;> rfl
        · rfl

section Own

variable (own : ∀ message, diffRow definition schema definition.relation key previous[key]?
    current[key]? = some message → message.key = shown)

include own

theorem turn_tagged (alike : AlikeColumns previous current)
    (stays : ¬(related = true ∧ key ∈ previous ∧ key ∉ current)) :
    turn handle definition schema previous current related shown
        (tagged handle previous key) key = tagged handle current key := by
  rw [turn_of_stays stays]
  split
  · next silent =>
      rw [tagged, tagged, entry_eq_of_diffRow_eq_none alike silent]
  · next message sent =>
      have rows : (tagged handle previous key).map (·.row) = previous[key]? := by
        rw [tagged, Option.map_map]
        exact Option.map_id'
      rw [if_pos (own message sent), rows, diffRow_effect alike sent, tagged]

end Own

theorem mem_tagsOf {tag key : String} :
    tag ∈ tagsOf handle key ↔ key ≠ "" ∧ tag = dependentTag handle key := by
  unfold tagsOf
  split
  · next empty => simp [empty]
  · next shown => simp [shown]

section Entry

variable {earlier later : List String}

/-- The entry of a key once its own turn and those of the other keys have been taken. -/
def entryAfter (handle : String) (definition : Definition) (schema : Schema)
    (previous current : Dict Row) (related : Bool) (shown : String)
    (earlier : List String) (key : String) (later : List String) : Option TaggedRow :=
  (turn handle definition schema previous current related shown
    ((tagged handle previous key).filter fun entry =>
      Survives handle previous current related earlier entry.tags) key).filter fun entry =>
        Survives handle previous current related later entry.tags

variable (own : ∀ message, diffRow definition schema definition.relation key previous[key]?
    current[key]? = some message → message.key = shown)
  (alike : AlikeColumns previous current)

include own alike

theorem entryAfter_of_mem (found : key ∈ current) :
    entryAfter handle definition schema previous current related shown earlier key later =
        tagged handle current key ↔
      (key ∈ previous → Survives handle previous current related earlier (tagsOf handle key)) ∧
        Survives handle previous current related later (tagsOf handle key) := by
  have some : tagged handle current key ≠ none := by
    obtain ⟨row, held⟩ := Dict.mem_iff_exists.mp found
    simp [tagged, held]
  have turned := @turn_tagged _ handle _ _ _ _ related _ _ own alike fun leaves =>
    leaves.2.2 found
  have kept : ∀ keys (rows : Dict Row), (tagged handle rows key).filter (fun entry =>
      Survives handle previous current related keys entry.tags) =
        if Survives handle previous current related keys (tagsOf handle key) then
          tagged handle rows key else none :=
    fun keys rows => tagged_filter _ rows key fun row => decide_eq_true_iff
  unfold entryAfter
  rw [kept]
  by_cases survives : Survives handle previous current related earlier (tagsOf handle key)
  · rw [if_pos survives, turned, kept]
    simp [survives, some.symm]
  · rw [if_neg survives]
    by_cases held : key ∈ previous
    · rw [turn_none fun _ _ _ => held]
      simp [held, survives, some.symm]
    · have absent : tagged handle previous key = none := by
        rw [tagged, Std.ExtTreeMap.getElem?_eq_none held]
        rfl
      rw [← absent, turned, kept]
      simp [held, some.symm]

omit own alike in
theorem entryAfter_of_leaves (held : key ∈ previous) (gone : key ∉ current) :
    entryAfter handle definition schema previous current true shown earlier key later =
        tagged handle current key ↔ key ≠ "" := by
  have absent : tagged handle current key = none := by
    rw [tagged, Std.ExtTreeMap.getElem?_eq_none gone]
    rfl
  obtain ⟨row, found⟩ := Dict.mem_iff_exists.mp held
  unfold entryAfter
  rw [turn_of_leaves held gone, absent, tagged, found]
  by_cases empty : key = ""
  · have survives : ∀ keys, Survives handle previous current true keys [] :=
      fun keys _ other _ _ _ member => nomatch member
    simp [empty, tagsOf, Option.filter_some, survives]
  · have own : dependentTag handle key ∈ tagsOf handle key := mem_tagsOf.mpr ⟨empty, rfl⟩
    simp only [ne_eq, empty, not_false_eq_true, iff_true, Option.map_some, Option.filter_filter]
    rw [Option.filter_some, if_neg]
    simp [own]

theorem entryAfter_of_not_related :
    entryAfter handle definition schema previous current false shown earlier key later =
      tagged handle current key := by
  have survives : ∀ keys tags, Survives handle previous current false keys tags :=
    fun _ _ related => nomatch related
  have all : ∀ keys (entry : Option TaggedRow), (entry.filter fun entry =>
      Survives handle previous current false keys entry.tags) = entry := by
    intro keys entry
    cases entry with
    | none => rfl
    | some entry => simp [Option.filter_some, survives]
  unfold entryAfter
  rw [all, all]
  apply turn_tagged own alike
  simp

end Entry

end Turns

section Patches

variable [Digest] {handle : String} {definition : Definition} {schema : Schema}
  {previous current : Dict Row}

def taggedView (handle : String) (definition : Definition) (schema : Schema)
    (rows : Dict Row) : Dict TaggedRow :=
  viewOf definition.relation schema
    (fun key row => ⟨row, snapshotTags handle definition key⟩) rows

/-- The digest keeps the tag values of the keys apart. -/
def TagsCollisionFree (handle : String) (keys : List String) : Prop :=
  ∀ left ∈ keys, ∀ right ∈ keys, dependentTag handle left = dependentTag handle right →
    dependentTagValue left = dependentTagValue right

instance (keys : List String) : Decidable (TagsCollisionFree handle keys) :=
  inferInstanceAs (Decidable (∀ _ ∈ _, ∀ _ ∈ _, _))

variable {related : Bool}

theorem foldl_place_decorated (shown : String) (entry : Option TaggedRow) (closing : Bool) :
    ((diffRows definition schema previous current definition.relation).map
        (decorateMessage handle related) ++ if closing then [snapshotEndMessage] else []).foldl
      (fun entry message => message.place shown entry) entry =
    (diffKeys previous current).foldl
      (turn handle definition schema previous current related shown) entry := by
  have ending : ∀ entry, (if closing then [snapshotEndMessage] else []).foldl
      (fun entry message => message.place shown entry) entry = entry := by
    intro entry
    cases closing with
    | false => rfl
    | true => exact snapshotEndMessage_place shown entry
  rw [List.foldl_append, ending, List.foldl_map, diffRows, List.foldl_filterMap]
  congr 1
  funext entry key
  unfold turn
  cases diffRow definition schema definition.relation key previous[key]? current[key]? <;> rfl

theorem taggedView_eq (dependent : definitionHasDependencyKeyword definition = true)
    (rows : Dict Row) :
    taggedView handle definition schema rows =
      viewOf definition.relation schema (fun key row => ⟨row, tagsOf handle key⟩) rows := by
  unfold taggedView
  congr 1
  funext key row
  rw [snapshotTags_eq dependent]

theorem RowChange.foldl_turn (change : RowChange schema previous current) {key : String}
    {row : Row} {earlier later : List String}
    (held : previous[key]? = some row ∨ current[key]? = some row)
    (split : diffKeys previous current = earlier ++ key :: later)
    (distinct : key ∉ earlier ++ later) :
    (diffKeys previous current).foldl (turn handle definition schema previous current related
        (messageKey definition.relation schema row)) (tagged handle previous key) =
      entryAfter handle definition schema previous current related
        (messageKey definition.relation schema row) earlier key later := by
  have others : ∀ other ∈ earlier ++ later, ∀ message,
      diffRow definition schema definition.relation other previous[other]? current[other]? =
        some message → message.key ≠ messageKey definition.relation schema row := by
    intro other member message sent same
    exact distinct ((change.diffRow_key_eq_iff sent held).mp same ▸ member)
  rw [split, List.foldl_append, List.foldl_cons,
    foldl_turn_of_ne fun other member => others other (List.mem_append_left _ member),
    foldl_turn_of_ne fun other member => others other (List.mem_append_right _ member)]
  rfl

theorem KeysKept.of_patched (keyed : primaryKeyNames schema ≠ [])
    (before : SignedRows schema previous)
    (after : SignedRows schema current)
    (patched : ∀ shown : String, (diffKeys previous current).foldl
        (turn handle definition schema previous current related shown)
        (taggedView handle definition schema previous)[shown]? =
      (taggedView handle definition schema current)[shown]?) :
    KeysKept schema previous current := by
  intro key old new held found
  by_contra differs
  have absent : (taggedView handle definition schema previous)[
      messageKey definition.relation schema new]? = none := by
    apply before.getElem?_viewOf_eq_none keyed
    intro own row known same
    obtain rfl := before.key_eq keyed after known found same
    obtain rfl := Option.some.inj (known.symm.trans held)
    exact differs (primaryKeyValues_eq_of_messageKey keyed same)
  have never : ∀ keys : List String, keys.foldl (turn handle definition schema previous current
      related (messageKey definition.relation schema new)) none = none := by
    intro keys
    induction keys with
    | nil => rfl
    | cons other rest hypothesis =>
        rw [List.foldl_cons, turn_none, hypothesis]
        intro message sent same
        obtain ⟨-, -, row, known, shown⟩ := diffRow_sent sent
        rcases Option.or_eq_some_iff.mp known with known | ⟨-, known⟩
        · obtain rfl := after.key_eq keyed after known found (shown.symm.trans same)
          exact Dict.mem_iff_exists.mpr ⟨old, held⟩
        · exact Dict.mem_iff_exists.mpr ⟨row, known⟩
  have reached := patched (messageKey definition.relation schema new)
  rw [absent, never] at reached
  have expected : (taggedView handle definition schema current)[
      messageKey definition.relation schema new]? =
        some ⟨new, snapshotTags handle definition key⟩ :=
    (after.getElem?_viewOf keyed).mpr ⟨key, new, found, rfl, rfl⟩
  rw [← reached] at expected
  cases expected

theorem RowChange.patched_at_iff
    (dependent : definitionHasDependencyKeyword definition = true)
    (change : RowChange schema previous current) (related : Bool) {key : String} {row : Row}
    (held : previous[key]? = some row ∨ current[key]? = some row) :
    ∃ earlier later, diffKeys previous current = earlier ++ key :: later ∧
      (∀ other ∈ earlier, other < key) ∧ (∀ other ∈ later, key < other) ∧
      ((diffKeys previous current).foldl
          (turn handle definition schema previous current related
            (messageKey definition.relation schema row))
          (taggedView handle definition schema previous)[
            messageKey definition.relation schema row]? =
        (taggedView handle definition schema current)[
            messageKey definition.relation schema row]? ↔
      entryAfter handle definition schema previous current related
        (messageKey definition.relation schema row) earlier key later =
          tagged handle current key) := by
  have member : key ∈ diffKeys previous current := by
    rw [mem_diffKeys, Dict.mem_iff_exists, Dict.mem_iff_exists]
    exact held.imp (⟨row, ·⟩) (⟨row, ·⟩)
  obtain ⟨earlier, later, split, below, above⟩ := diffKeys_split member
  have distinct : key ∉ earlier ++ later := by
    intro listed
    rcases List.mem_append.mp listed with listed | listed
    · exact lt_irrefl key (below key listed)
    · exact lt_irrefl key (above key listed)
  refine ⟨earlier, later, split, below, above, ?_⟩
  rw [taggedView_eq dependent, taggedView_eq dependent,
    change.getElem?_viewOf (.inl rfl) held, change.getElem?_viewOf (.inr rfl) held,
    ← change.foldl_turn held split distinct]
  rfl

theorem RowChange.patched_iff (dependent : definitionHasDependencyKeyword definition = true)
    (change : RowChange schema previous current) (alike : AlikeColumns previous current)
    (free : TagsCollisionFree handle (diffKeys previous current)) (related : Bool) :
    (∀ shown : String, (diffKeys previous current).foldl
        (turn handle definition schema previous current related shown)
        (taggedView handle definition schema previous)[shown]? =
      (taggedView handle definition schema current)[shown]?) ↔
    (related = true → TagsSeparate previous current) := by
  have own : ∀ {key : String} {row : Row},
      (previous[key]? = some row ∨ current[key]? = some row) → ∀ message,
        diffRow definition schema definition.relation key previous[key]? current[key]? =
          some message → message.key = messageKey definition.relation schema row :=
    fun held message sent => (change.diffRow_key_eq_iff sent held).mpr rfl
  constructor
  · rintro patched rfl gone was left
    obtain ⟨row, held⟩ := Dict.mem_iff_exists.mp was
    obtain ⟨_, _, -, -, -, result⟩ := change.patched_at_iff dependent true (.inl held)
    refine ⟨(entryAfter_of_leaves was left).mp (result.mp (patched _)), ?_⟩
    intro key found shown same
    obtain ⟨new, known⟩ := Dict.mem_iff_exists.mp found
    obtain ⟨earlier, later, split, below, above, result⟩ :=
      change.patched_at_iff dependent true (.inr known)
    have survives := (entryAfter_of_mem (own (.inr known)) alike found).mp
      (result.mp (patched _))
    have tag : dependentTag handle gone ∈ tagsOf handle key :=
      mem_tagsOf.mpr ⟨shown, by rw [dependentTag, dependentTag, same]⟩
    have member : gone ∈ diffKeys previous current := mem_diffKeys.mpr (.inl was)
    rw [split] at member
    rcases List.mem_append.mp member with earlier | member
    · exact ⟨fun also => survives.1 also rfl gone earlier was left tag, below gone earlier⟩
    · rcases List.mem_cons.mp member with rfl | later
      · exact absurd found left
      · exact absurd tag (survives.2 rfl gone later was left)
  · intro separate shown
    by_cases known : ∃ (key : String) (row : Row),
        (previous[key]? = some row ∨ current[key]? = some row) ∧
          messageKey definition.relation schema row = shown
    · obtain ⟨key, row, held, rfl⟩ := known
      obtain ⟨earlier, later, split, below, above, result⟩ :=
        change.patched_at_iff dependent related held
      apply result.mpr
      cases related with
      | false => exact entryAfter_of_not_related (own held) alike
      | true =>
          have listed : ∀ other, other ∈ earlier ∨ other = key ∨ other ∈ later →
              other ∈ diffKeys previous current := by
            intro other member
            rw [split]
            simpa using member
          by_cases found : key ∈ current
          · refine (entryAfter_of_mem (own held) alike found).mpr ⟨?_, ?_⟩
            · intro also _ gone member was left tag
              obtain ⟨shown, same⟩ := mem_tagsOf.mp tag
              have equal := free key (listed key (.inr (.inl rfl))) gone
                (listed gone (.inl member)) same.symm
              exact ((separate rfl gone was left).2 key found shown equal).1 also
            · intro _ gone member was left tag
              obtain ⟨shown, same⟩ := mem_tagsOf.mp tag
              have equal := free key (listed key (.inr (.inl rfl))) gone
                (listed gone (.inr (.inr member))) same.symm
              exact lt_asymm (above gone member)
                ((separate rfl gone was left).2 key found shown equal).2
          · have was : key ∈ previous := by
              have member := listed key (.inr (.inl rfl))
              exact (mem_diffKeys.mp member).resolve_right found
            exact (entryAfter_of_leaves was found).mpr (separate rfl key was found).1
    · -- a key of no row is in neither view, and no message is about it
      have unknown : ∀ (key : String) (row : Row),
          previous[key]? = some row ∨ current[key]? = some row →
            messageKey definition.relation schema row ≠ shown :=
        fun key row held same => known ⟨key, row, held, same⟩
      rw [taggedView, taggedView,
        change.before.getElem?_viewOf_eq_none change.keyed fun key row held =>
          unknown key row (.inl held),
        change.after.getElem?_viewOf_eq_none change.keyed fun key row held =>
          unknown key row (.inr held),
        foldl_turn_of_ne, Option.filter_none]
      intro key _ message sent
      obtain ⟨-, -, row, held, same⟩ := diffRow_sent sent
      rw [same]
      exact unknown key row ((Option.or_eq_some_iff.mp held).symm.imp (·.2) id)

/-- The decorated messages of a refresh turn the client's rows and tags into those of a
fresh snapshot exactly when rows with one signature have one key and, for a change in
another relation, the tags keep the rows that have left apart from the others. -/
theorem decorated_messages_patch_iff
    (dependent : definitionHasDependencyKeyword definition = true)
    (keyed : primaryKeyNames schema ≠ []) (before : SignedRows schema previous)
    (after : SignedRows schema current) (alike : AlikeColumns previous current)
    (free : TagsCollisionFree handle (diffKeys previous current)) (metadata : ChangeMetadata) :
    (decorateDependentRefreshMessages handle definition
        (diffRows definition schema previous current definition.relation) metadata).foldl
        applyTagged (taggedView handle definition schema previous) =
      taggedView handle definition schema current ↔
    KeysKept schema previous current ∧
      (metadata.keyRelation ≠ .empty → metadata.keyRelation ≠ definition.relation →
        TagsSeparate previous current) := by
  obtain ⟨related, other, decorated⟩ := @decorateDependentRefreshMessages_eq _ handle _ dependent
    (diffRows definition schema previous current definition.relation) metadata
  have pointwise : (decorateDependentRefreshMessages handle definition
        (diffRows definition schema previous current definition.relation) metadata).foldl
        applyTagged (taggedView handle definition schema previous) =
      taggedView handle definition schema current ↔
      ∀ shown : String, (diffKeys previous current).foldl
        (turn handle definition schema previous current related shown)
        (taggedView handle definition schema previous)[shown]? =
      (taggedView handle definition schema current)[shown]? := by
    rw [Std.ExtTreeMap.ext_getElem?_iff]
    refine forall_congr' fun shown => ?_
    rw [getElem?_foldl_applyTagged, decorated, foldl_place_decorated]
  rw [pointwise, ← and_imp, ← other]
  constructor
  · intro patched
    have kept := KeysKept.of_patched keyed before after patched
    exact ⟨kept, (RowChange.patched_iff dependent ⟨keyed, before, after, kept⟩ alike free
      related).mp patched⟩
  · intro ⟨kept, separate⟩
    exact (RowChange.patched_iff dependent ⟨keyed, before, after, kept⟩ alike free
      related).mpr separate

end Patches

section Parts

def partItemsDefinition : Definition where
  relation := ⟨"public", "items"⟩
  whereClause := "id IN (SELECT item FROM parts)"

@[reducible] def itemTagsDigest : Digest where
  sha256Hex := tabulatedDigest.sha256Hex
  md5Hex
    | "ab12-1v:1" => "c9d04944f1a8a7fbfe67f07ad804d5fd"
    | "ab12-1v:2" => "28aaab0bc3f15a7a98fb6b5f3a1a6900"
    | "ab12-1v:3" => "e1d6736f93e8cdd62465c8138136174e"
    | "ab12-1v:x" => "c9a740d100c1765d341893bbbefaa5d2"
    | _ => ""

def partsMetadata : ChangeMetadata where
  keyRelation := ⟨"public", "parts"⟩
  commitLSN := 100
  dependentRefresh := true

def partItemsMessages (previous current : List Row) : List Message :=
  letI := itemTagsDigest
  decorateDependentRefreshMessages "ab12-1" partItemsDefinition
    (diffRows partItemsDefinition itemsSchema (materializedRows itemsSchema previous)
      (materializedRows itemsSchema current) ⟨"public", "items"⟩) partsMetadata

def partItemsView (rows : List Row) : Dict TaggedRow :=
  letI := itemTagsDigest
  taggedView "ab12-1" partItemsDefinition itemsSchema (materializedRows itemsSchema rows)

theorem kept_of_entries {schema : Schema} {previous current : Dict Row}
    (entries : ∀ entry ∈ previous.toList, ∀ next ∈ current.toList, entry.1 = next.1 →
      entry.2.keys = next.2.keys ∧
        primaryKeyValues schema entry.2 = primaryKeyValues schema next.2) :
    AlikeColumns previous current ∧ KeysKept schema previous current := by
  have both : ∀ (key : String) (old new : Row), previous[key]? = some old →
      current[key]? = some new →
        old.keys = new.keys ∧ primaryKeyValues schema old = primaryKeyValues schema new := by
    intro key old new held found
    exact entries (key, old) (Std.ExtTreeMap.mem_toList_iff_getElem?_eq_some.mpr held)
      (key, new) (Std.ExtTreeMap.mem_toList_iff_getElem?_eq_some.mpr found) rfl
  refine ⟨fun key old new held found name => ?_, fun key old new held found =>
    (both key old new held found).2⟩
  rw [← Std.ExtTreeMap.mem_keys, (both key old new held found).1, Std.ExtTreeMap.mem_keys]

theorem TagsSeparate.of_keys {previous current : Dict Row}
    (keys : ∀ gone ∈ previous.keys, gone ∉ current → gone ≠ "" ∧
      ∀ key ∈ current.keys, key ≠ "" → dependentTagValue key = dependentTagValue gone →
        key ∉ previous ∧ gone < key) : TagsSeparate previous current := by
  intro gone was left
  obtain ⟨shown, others⟩ := keys gone (Std.ExtTreeMap.mem_keys.mpr was) left
  refine ⟨shown, fun key found => ?_⟩
  exact others key (Std.ExtTreeMap.mem_keys.mpr found)

theorem decorated_messages_patch_items :
    (partItemsMessages [itemRow "1" "one", itemRow "2" "two"]
        [itemRow "2" "dos", itemRow "3" "three"]).foldl applyTagged
        (partItemsView [itemRow "1" "one", itemRow "2" "two"]) =
      partItemsView [itemRow "2" "dos", itemRow "3" "three"] :=
  have kept := @kept_of_entries itemsSchema
    (materializedRows itemsSchema [itemRow "1" "one", itemRow "2" "two"])
    (materializedRows itemsSchema [itemRow "2" "dos", itemRow "3" "three"]) (by decide +kernel)
  (@decorated_messages_patch_iff itemTagsDigest "ab12-1" partItemsDefinition itemsSchema _ _
    (by decide +kernel) (by decide +kernel) (.of_entries (by decide +kernel))
    (.of_entries (by decide +kernel)) kept.1 (by decide +kernel) partsMetadata).mpr
    ⟨kept.2, fun _ _ => .of_keys (by decide +kernel)⟩

/-- One of two items leaves; the other has the same tag and leaves the client with it. -/
theorem moveOut_takes_another_row :
    definitionHasDependencyKeyword partItemsDefinition = true ∧
    partsMetadata.keyRelation ≠ partItemsDefinition.relation ∧
    (partItemsMessages [itemRow "a=x" "one", itemRow "b=x" "two"]
        [itemRow "b=x" "two"]).map (fun message => (message.internalKey, message.movedOut)) =
      [("a=x", ["c9a740d100c1765d341893bbbefaa5d2"])] ∧
    (partItemsMessages [itemRow "a=x" "one", itemRow "b=x" "two"]
        [itemRow "b=x" "two"]).foldl applyTagged
        (partItemsView [itemRow "a=x" "one", itemRow "b=x" "two"]) ≠
      partItemsView [itemRow "b=x" "two"] := by
  refine ⟨by decide +kernel, by decide +kernel, by decide +kernel, fun same => ?_⟩
  have lost : ((partItemsMessages [itemRow "a=x" "one", itemRow "b=x" "two"]
      [itemRow "b=x" "two"]).foldl applyTagged
      (partItemsView [itemRow "a=x" "one", itemRow "b=x" "two"])).keys = [] := by
    decide +kernel
  rw [same] at lost
  exact absurd lost (by decide +kernel)

end Parts

end PostgresSync.Shapes
