import PostgresSync.Data.ByteRunes
import PostgresSync.Data.Quoted
import PostgresSync.Shapes.Keys
import PostgresSync.SqlInspect.Inspect

namespace PostgresSync.Protocol

open PostgresSync.Data
open PostgresSync.Shapes
open PostgresSync.SqlInspect

/-! The table and column names of a request. -/

inductive IdentifierError where
  | zeroLength
  | specialCharacters (ch : Char)
  | unterminated
  | qualified (input : String)
deriving DecidableEq

/-- The text of an error, with `%q` as `quoted`. -/
def IdentifierError.text (quoted : String → String) : IdentifierError → String
  | .zeroLength => "Invalid zero-length delimited identifier"
  | .specialCharacters ch => "Invalid unquoted identifier contains special characters: " ++
      quoted (String.ofList [ch])
  | .unterminated => "Unterminated quoted identifier"
  | .qualified input => "Invalid qualified identifier: " ++ quoted input

/-- `unicode.IsLetter` and `unicode.IsDigit` of a byte. -/
def isLetterOrDigit (ch : Char) : Bool :=
  ch.isAlphanum || ch ∈ ['ª', 'µ', 'º'] ||
    'À' ≤ ch && ch ≠ '×' && ch ≠ '÷'

def lowerByte (ch : Char) : Char :=
  if 'À' ≤ ch ∧ ch ≤ 'Þ' ∧ ch ≠ '×' then Char.ofNat (ch.toNat + 32)
  else ch.toLower

/-- The variables of the loop in `parseSeparatedIdentifiers`. -/
structure Scanner where
  parts : List String := []
  buf : List Char := []
  inQuotes : Bool := false
  quotedToken : Bool := false
deriving DecidableEq

namespace Scanner

def flush (scanner : Scanner) : Except IdentifierError Scanner :=
  let token := trim isSpace scanner.buf
  if token = [] then
    .error .zeroLength
  else
    let token := if scanner.quotedToken then token else token.map lowerByte
    .ok { scanner with
      parts := scanner.parts ++ [String.ofList token]
      buf := []
      quotedToken := false }

/-- One turn of the loop, unless it takes two quotes at once. -/
def accept (separator : Char) (scanner : Scanner) (ch : Char) :
    Except IdentifierError Scanner :=
  if ch = '"' then
    .ok { scanner with
      quotedToken := scanner.quotedToken ||
        !scanner.inQuotes && (trim isSpace scanner.buf).isEmpty
      inQuotes := !scanner.inQuotes }
  else if ch = separator ∧ scanner.inQuotes = false then
    scanner.flush
  else if scanner.inQuotes = false ∧ ch ≠ '_' ∧ ch ≠ '$' ∧ isLetterOrDigit ch = false ∧
      isSpace ch = false then
    .error (.specialCharacters ch)
  else
    .ok { scanner with buf := scanner.buf ++ [ch] }

def scan (separator : Char) (scanner : Scanner) : List Char → Except IdentifierError Scanner
  | [] => .ok scanner
  | [ch] => scanner.accept separator ch
  | ch :: next :: rest =>
      if ch = '"' ∧ scanner.inQuotes = true ∧ next = '"' then
        scan separator { scanner with buf := scanner.buf ++ ['"'] } rest
      else
        match scanner.accept separator ch with
        | .error error => .error error
        | .ok scanner => scan separator scanner (next :: rest)

def finish (scanner : Scanner) : Except IdentifierError (List String) :=
  if scanner.inQuotes then
    .error .unterminated
  else
    match scanner.flush with
    | .error error => .error error
    | .ok scanner => .ok scanner.parts

end Scanner

def parseSeparatedIdentifiers (input : String) (separator : Char) :
    Except IdentifierError (List String) :=
  if isBlank input then
    .error .zeroLength
  else
    match Scanner.scan separator {} (readByBytes input.toList) with
    | .error error => .error error
    | .ok scanner => scanner.finish

def parseRelation (input : String) : Except IdentifierError Relation :=
  match parseSeparatedIdentifiers input '.' with
  | .error error => .error error
  | .ok [table] => .ok ⟨"public", table⟩
  | .ok [schema, table] => .ok ⟨schema, table⟩
  | .ok _ => .error (.qualified input)

def parseColumns (input : String) : Except IdentifierError (List String) :=
  parseSeparatedIdentifiers input ','

/-! Parsing what has been quoted. -/

namespace Scanner

variable {separator : Char} {scanner : Scanner}

theorem scan_cons (separator : Char) (scanner : Scanner) (ch : Char) (rest : List Char) :
    scan separator scanner (ch :: rest) =
      if ch = '"' ∧ scanner.inQuotes = true ∧ rest.head? = some '"' then
        scan separator { scanner with buf := scanner.buf ++ ['"'] } rest.tail
      else
        (scanner.accept separator ch).bind fun scanner => scan separator scanner rest := by
  cases rest with
  | nil =>
      simp only [scan, List.head?_nil, reduceCtorEq, and_false, if_false]
      cases scanner.accept separator ch <;> rfl
  | cons next rest =>
      simp only [scan, List.head?_cons, Option.some.injEq, List.tail_cons]
      split
      · rfl
      · cases scanner.accept separator ch <;> rfl

theorem scan_unquoted (quoted : scanner.inQuotes = true) {runes : List Char}
    (clean : '"' ∉ runes) (rest : List Char) :
    scan separator scanner (runes ++ rest) =
      scan separator { scanner with buf := scanner.buf ++ runes } rest := by
  induction runes generalizing scanner with
  | nil => simp
  | cons rune runes hypothesis =>
      have other : rune ≠ '"' := fun same => clean (same ▸ List.mem_cons_self)
      have taken : scanner.accept separator rune =
          .ok { scanner with buf := scanner.buf ++ [rune] } := by
        simp [accept, other, quoted]
      rw [List.cons_append, scan_cons, if_neg fun both => other both.1, taken]
      refine (hypothesis (by exact quoted) fun member =>
        clean (List.mem_cons_of_mem rune member)).trans ?_
      simp

theorem scan_doubled (quoted : scanner.inQuotes = true) (name rest : List Char) :
    scan separator scanner (readByBytes (replaceQuotes ['"', '"'] name) ++ rest) =
      scan separator { scanner with buf := scanner.buf ++ readByBytes name } rest := by
  induction name generalizing scanner with
  | nil => simp
  | cons char name hypothesis =>
      rw [replaceQuotes_cons, readByBytes_append, readByBytes_cons, List.append_assoc]
      by_cases quote : char = '"'
      · subst quote
        have single : byteRunes '"' = ['"'] := by decide
        have twice : readByBytes ['"', '"'] = ['"', '"'] := by decide
        rw [if_pos rfl, twice, single, List.cons_append, scan_cons, if_pos ⟨rfl, quoted, rfl⟩]
        refine (hypothesis (by exact quoted)).trans ?_
        simp
      · have clean : '"' ∉ byteRunes char := fun member =>
          quote (mem_byteRunes_ascii member (by decide)).symm
        rw [if_neg quote, readByBytes_cons, readByBytes_nil, List.append_nil,
          scan_unquoted quoted clean]
        refine (hypothesis (by exact quoted)).trans ?_
        simp

theorem scan_quoteIdentifier (parts : List String) (name : String) {rest : List Char}
    (closed : rest.head? ≠ some '"') :
    scan separator { parts := parts } (readByBytes (quoteIdentifier name).toList ++ rest) =
      scan separator { parts := parts, buf := readByBytes name.toList, quotedToken := true }
        rest := by
  have single : byteRunes '"' = ['"'] := by decide
  have text : readByBytes (quoteIdentifier name).toList =
      '"' :: (readByBytes (replaceQuotes ['"', '"'] name.toList) ++ ['"']) := by
    have quoted : (quoteIdentifier name).toList =
        '"' :: (replaceQuotes ['"', '"'] name.toList ++ ['"']) := by
      simp [quoteIdentifier, quoteWith, replaceQuotes]
    rw [quoted, readByBytes_cons, readByBytes_append, readByBytes_cons, single, readByBytes_nil]
    rfl
  have opened : accept separator { parts := parts } '"' =
      .ok { parts := parts, inQuotes := true, quotedToken := true } := by
    simp [accept, trim]
  rw [text, List.cons_append, List.append_assoc, scan_cons,
    if_neg fun both => Bool.false_ne_true both.2.1, opened]
  refine (scan_doubled rfl _ _).trans ?_
  rw [List.singleton_append, scan_cons, if_neg fun both => closed both.2.2]
  simp [accept, Except.bind]

end Scanner

/-- What is left of a name that has been read by bytes and trimmed. -/
def readName (name : String) : List Char := trim isSpace (readByBytes name.toList)

def joinQuoted (separator : Char) (names : List String) : String :=
  (String.ofList [separator]).intercalate (names.map quoteIdentifier)

theorem readByBytes_joinQuoted {separator : Char} (ascii : separator.toNat < 128) (name : String)
    {rest : List String} (more : rest ≠ []) :
    readByBytes (joinQuoted separator (name :: rest)).toList =
      readByBytes (quoteIdentifier name).toList ++
        separator :: readByBytes (joinQuoted separator rest).toList := by
  have some : (rest.map quoteIdentifier).map String.toList ≠ [] := by simpa using more
  unfold joinQuoted
  rw [String.toList_intercalate, String.toList_intercalate, List.map_cons, List.map_cons,
    String.toList_ofList, intercalate_cons some, readByBytes_append, readByBytes_cons,
    byteRunes_ascii ascii]
  rfl

namespace Scanner

theorem flush_quoted (parts : List String) (name : String) :
    flush { parts := parts, buf := readByBytes name.toList, quotedToken := true } =
      if readName name = [] then .error .zeroLength
      else .ok { parts := parts ++ [String.ofList (readName name)] } := by
  unfold flush readName
  rfl

theorem scan_joinQuoted {separator : Char} (ascii : separator.toNat < 128)
    (other : separator ≠ '"') {names : List String} (some : names ≠ []) (parts : List String) :
    (scan separator { parts := parts }
        (readByBytes (joinQuoted separator names).toList)).bind finish =
      if ∀ name ∈ names, readName name ≠ [] then
        .ok (parts ++ names.map fun name => String.ofList (readName name))
      else
        .error .zeroLength := by
  induction names generalizing parts with
  | nil => exact absurd rfl some
  | cons name rest hypothesis =>
      cases rest with
      | nil =>
          have alone : (joinQuoted separator [name]).toList =
              (quoteIdentifier name).toList ++ [] := by
            simp [joinQuoted]
          rw [alone, readByBytes_append, readByBytes_nil, scan_quoteIdentifier _ _ (by simp)]
          simp only [scan, Except.bind, finish, Bool.false_eq_true, if_false, flush_quoted]
          by_cases blank : readName name = [] <;> simp [blank]
      | cons next rest =>
          have closed : (separator :: readByBytes
              (joinQuoted separator (next :: rest)).toList).head? ≠ Option.some '"' := by
            simpa using other
          have flushed : accept separator
              { parts := parts, buf := readByBytes name.toList, quotedToken := true } separator =
                if readName name = [] then .error .zeroLength
                else .ok { parts := parts ++ [String.ofList (readName name)] } := by
            rw [← flush_quoted]
            simp [accept, other]
          rw [readByBytes_joinQuoted ascii name (by simp), scan_quoteIdentifier _ _ closed,
            scan_cons, if_neg fun both => other both.1, flushed]
          by_cases blank : readName name = []
          · rw [if_pos blank, if_neg fun all => all name List.mem_cons_self blank]
            rfl
          · rw [if_neg blank]
            refine (hypothesis (by simp) _).trans ?_
            simp only [List.forall_mem_cons, ne_eq, blank, not_false_eq_true, true_and,
              List.map_cons, List.append_assoc, List.singleton_append]

end Scanner

theorem parseSeparatedIdentifiers_joinQuoted {separator : Char} (ascii : separator.toNat < 128)
    (other : separator ≠ '"') {names : List String} (some : names ≠ []) :
    parseSeparatedIdentifiers (joinQuoted separator names) separator =
      if ∀ name ∈ names, readName name ≠ [] then
        .ok (names.map fun name => String.ofList (readName name))
      else
        .error .zeroLength := by
  have shown : isBlank (joinQuoted separator names) = false := by
    cases names with
    | nil => exact absurd rfl some
    | cons name rest =>
        have quote : '"' ∈ (joinQuoted separator (name :: rest)).toList := by
          rw [joinQuoted, String.toList_intercalate, String.toList_ofList,
            mem_intercalate other.symm]
          refine ⟨(quoteIdentifier name).toList, by simp, ?_⟩
          simp [quoteIdentifier, quoteWith]
        rw [isBlank, List.all_eq_false]
        exact ⟨'"', quote, by decide⟩
  have scanned := Scanner.scan_joinQuoted ascii other some []
  rw [List.nil_append] at scanned
  rw [← scanned, parseSeparatedIdentifiers, shown, if_neg Bool.false_ne_true]
  cases Scanner.scan separator {} (readByBytes (joinQuoted separator names).toList) <;> rfl

theorem isSpace_marks : Marks isSpace where
  lead char large small := by
    have listed : ∀ n < 256, 192 ≤ n → isSpace (Char.ofNat n) = false := by decide +kernel
    have dark := listed char.toNat small large
    rwa [Char.ofNat_toNat] at dark
  follower := by decide

/-- The name is ASCII, and no space stands at either end of it. -/
def PlainName (name : String) : Prop :=
  (∀ char ∈ name.toList, char.toNat < 128) ∧ (∀ char ∈ name.toList.head?, isSpace char = false) ∧
    ∀ char ∈ name.toList.getLast?, isSpace char = false

instance (name : String) : Decidable (PlainName name) :=
  -- over the characters of the name, not over all there are
  @instDecidableAnd _ _ (List.decidableBAll _ _)
    (@instDecidableAnd _ _ (Option.decidableForallMem _) (Option.decidableForallMem _))

theorem readName_eq_iff (name : String) :
    String.ofList (readName name) = name ↔ PlainName name := by
  have texts : String.ofList (readName name) = name ↔ readName name = name.toList := by
    rw [← String.toList_inj, String.toList_ofList]
  rw [texts, readName, isSpace_marks.trim_readByBytes_iff]
  exact ⟨fun ⟨ascii, trimmed⟩ => ⟨ascii, trimmed.first, trimmed.last⟩,
    fun ⟨ascii, first, last⟩ => ⟨ascii, first, last⟩⟩

theorem parseSeparatedIdentifiers_eq_iff {separator : Char} (ascii : separator.toNat < 128)
    (other : separator ≠ '"') {names : List String} (some : names ≠ [])
    (named : ∀ name ∈ names, name ≠ "") :
    parseSeparatedIdentifiers (joinQuoted separator names) separator = .ok names ↔
      ∀ name ∈ names, PlainName name := by
  rw [parseSeparatedIdentifiers_joinQuoted ascii other some]
  have pointwise : (names.map fun name => String.ofList (readName name)) = names ↔
      ∀ name ∈ names, PlainName name := by
    have each := @List.map_inj_left _ _ names (fun name => String.ofList (readName name)) id
    rw [List.map_id] at each
    simpa only [← readName_eq_iff, id] using each
  constructor
  · intro parsed
    split at parsed
    · exact pointwise.mp (Except.ok.inj parsed)
    · cases parsed
  · intro plain
    have left : ∀ name ∈ names, readName name ≠ [] := by
      intro name member empty
      have same := (readName_eq_iff name).mpr (plain name member)
      rw [empty] at same
      exact named name member same.symm
    rw [if_pos left, pointwise.mpr plain]

/-- Parsing gives back the names that have been quoted exactly when they are plain ones: for
any separator, for a relation and for the columns of a request. -/
theorem quoted_names_parsed_iff (separator : Char) (names : List String) (relation : Relation)
    (ascii : separator.toNat < 128) (other : separator ≠ '"') (some : names ≠ [])
    (named : ∀ name ∈ names, name ≠ "") (schema : relation.schema ≠ "")
    (table : relation.table ≠ "") :
    (parseSeparatedIdentifiers (joinQuoted separator names) separator = .ok names ↔
      ∀ name ∈ names, PlainName name) ∧
    (parseRelation (quoteQualifiedRelation relation) = .ok relation ↔
      PlainName relation.schema ∧ PlainName relation.table) ∧
    (parseColumns (joinQuoted ',' names) = .ok names ↔ ∀ name ∈ names, PlainName name) := by
  refine ⟨parseSeparatedIdentifiers_eq_iff ascii other some named, ?_,
    parseSeparatedIdentifiers_eq_iff (by decide) (by decide) some named⟩
  have text : quoteQualifiedRelation relation =
      joinQuoted '.' [relation.schema, relation.table] := by
    rw [← String.toList_inj, joinQuoted, String.toList_intercalate]
    simp [quoteQualifiedRelation]
  have parsed := @parseSeparatedIdentifiers_eq_iff '.' (by decide) (by decide)
    [relation.schema, relation.table] (by simp) (by simp [schema, table])
  rw [List.forall_mem_cons, List.forall_mem_singleton] at parsed
  rw [← parsed, parseRelation, text,
    parseSeparatedIdentifiers_joinQuoted (by decide) (by decide) (by simp)]
  obtain ⟨schemaName, tableName⟩ := relation
  split_ifs <;> simp

theorem quoted_names_parsed_mixed :
    parseSeparatedIdentifiers (joinQuoted '.' ["My Table", "a.b,c", "say \"x\""]) '.' =
        .ok ["My Table", "a.b,c", "say \"x\""] ∧
      parseRelation (quoteQualifiedRelation ⟨"Sales", "order.items"⟩) =
        .ok ⟨"Sales", "order.items"⟩ ∧
      parseColumns (joinQuoted ',' ["My Table", "a.b,c", "say \"x\""]) =
        .ok ["My Table", "a.b,c", "say \"x\""] := by
  obtain ⟨lists, relations, columns⟩ := quoted_names_parsed_iff '.'
    ["My Table", "a.b,c", "say \"x\""] ⟨"Sales", "order.items"⟩ (by decide) (by decide)
    (by decide) (by decide) (by decide) (by decide)
  refine ⟨lists.mpr ?_, relations.mpr ?_, columns.mpr ?_⟩ <;> decide +kernel

/-- The bytes of a letter beyond ASCII become letters of their own, and a quoted space at the
end of a name is trimmed away. -/
theorem quoted_names_misread :
    parseRelation (quoteQualifiedRelation ⟨"public", "café"⟩) = .ok ⟨"public", "cafÃ©"⟩ ∧
      parseColumns (joinQuoted ',' ["id", "name "]) = .ok ["id", "name"] ∧
      parseColumns (joinQuoted ',' [" "]) = .error .zeroLength := by
  decide +kernel

end PostgresSync.Protocol
