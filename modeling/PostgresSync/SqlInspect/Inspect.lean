import Mathlib

namespace PostgresSync.SqlInspect

/-! The clause sanitiser and the keyword pattern.  The source walks bytes; the
characters it looks at are ASCII, so walking characters (or bytes read as
characters) takes the same branches. -/

inductive SanitizeMode where
  | plain
  | singleQuoted
  | lineComment
  | blockComment
deriving DecidableEq, Repr

def sanitizeFrom : SanitizeMode → List Char → List Char
  | _, [] => []
  | .lineComment, '\n' :: rest => ' ' :: sanitizeFrom .plain rest
  | .lineComment, _ :: rest => sanitizeFrom .lineComment rest
  | .blockComment, '*' :: '/' :: rest => ' ' :: sanitizeFrom .plain rest
  | .blockComment, _ :: rest => sanitizeFrom .blockComment rest
  | .singleQuoted, '\x27' :: '\x27' :: rest => sanitizeFrom .singleQuoted rest
  | .singleQuoted, '\x27' :: rest => ' ' :: sanitizeFrom .plain rest
  | .singleQuoted, _ :: rest => sanitizeFrom .singleQuoted rest
  | .plain, '\x27' :: rest => ' ' :: sanitizeFrom .singleQuoted rest
  | .plain, '-' :: '-' :: rest => ' ' :: sanitizeFrom .lineComment rest
  | .plain, '/' :: '*' :: rest => ' ' :: sanitizeFrom .blockComment rest
  | .plain, char :: rest => char :: sanitizeFrom .plain rest

def sanitizeClause (value : String) : String :=
  String.ofList (sanitizeFrom .plain value.toList)

/-- `unicode.IsSpace`. -/
def isSpace (char : Char) : Bool :=
  char ∈ ['\t', '\n', '\x0b', '\x0c', '\r', ' ', '\u0085', '\u00a0', '\u1680',
    '\u2028', '\u2029', '\u202f', '\u205f', '\u3000'] ||
  ('\u2000' ≤ char && char ≤ '\u200a')

/-- `strings.TrimSpace(value) == ""`. -/
def isBlank (value : String) : Bool := value.toList.all isSpace

def dependencyKeywords : List (List Char) :=
  ["select", "join", "exists", "with", "union", "intersect", "except"].map
    String.toList

/-- A word character of the regular expression's `\b`. -/
def isWordChar (char : Char) : Bool := char.isAlphanum || char = '_'

/-- Case folding of the pattern's `(?i)`; the long s folds to `s`. -/
def foldsTo (letter char : Char) : Bool :=
  char.toLower = letter || (letter = 's' && char = '\u017f')

/-- Match one keyword; the result says whether the last character matched is a
word character, and what follows. -/
def matchWord : List Char → Bool → List Char → Option (Bool × List Char)
  | [], previous, rest => some (previous, rest)
  | _ :: _, _, [] => none
  | letter :: letters, _, char :: rest =>
      if foldsTo letter char then
        matchWord letters (isWordChar char) rest
      else
        none

def boundary (previous : Bool) (rest : List Char) : Bool :=
  previous != (rest.head?.any isWordChar)

def keywordAt (previous : Bool) (text word : List Char) : Bool :=
  boundary previous text &&
    (matchWord word previous text).any fun found => boundary found.1 found.2

/-- Whether `dependencyKeywordPattern` matches somewhere in the text. -/
def matchesKeyword (previous : Bool) : List Char → Bool
  | [] => false
  | char :: rest =>
      dependencyKeywords.any (keywordAt previous (char :: rest)) ||
        matchesKeyword (isWordChar char) rest

def containsDependencyKeyword (value : String) : Bool :=
  let sanitized := sanitizeClause value
  !isBlank sanitized && matchesKeyword false sanitized.toList

end PostgresSync.SqlInspect
