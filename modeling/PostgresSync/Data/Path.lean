import Mathlib

namespace PostgresSync.Data

/-! File paths as text: the names between the slashes, and `filepath.Clean` on them. -/

def dot : List Char := ['.']

def dotDot : List Char := ['.', '.']

/-- The names of a path, up to the last of them, innermost first. -/
abbrev Names := List (List Char)

/-- The directory above, in `filepath.Clean`. -/
def climb (rooted : Bool) : Names → Names
  | [] => if rooted then [] else [dotDot]
  | last :: rest => if last = dotDot then dotDot :: last :: rest else rest

/-- One more name of a path, in `filepath.Clean`. -/
def pushName (rooted : Bool) (names : Names) (name : List Char) : Names :=
  if name = [] ∨ name = dot then
    names
  else if name = dotDot then
    climb rooted names
  else
    name :: names

def renderPath (rooted : Bool) (names : Names) : List Char :=
  let text := List.intercalate ['/'] names.reverse
  if rooted then '/' :: text else if names = [] then dot else text

def isRooted (text : List Char) : Bool := text.head? = some '/'

def pathNames (text : List Char) : Names :=
  (text.splitOn '/').foldl (pushName (isRooted text)) []

def cleanText (text : List Char) : List Char :=
  renderPath (isRooted text) (pathNames text)

/-- `filepath.Clean`. -/
def cleanPath (path : String) : String := String.ofList (cleanText path.toList)

/-- `filepath.Join` of two elements. -/
def joinPath (dir name : String) : String :=
  if dir = "" then
    if name = "" then "" else cleanPath name
  else if name = "" then
    cleanPath dir
  else
    cleanPath (dir ++ "/" ++ name)

/-! Names that `filepath.Clean` keeps. -/

def PlainName (name : List Char) : Prop :=
  name ≠ [] ∧ name ≠ dot ∧ name ≠ dotDot ∧ '/' ∉ name

instance (name : List Char) : Decidable (PlainName name) :=
  inferInstanceAs (Decidable (_ ∧ _))

/-- A file beneath a directory: the names of the directories on the way to it, and its
own. -/
def PlainPath (path : List Char) : Prop :=
  ∀ name ∈ path.splitOn '/', PlainName name

instance (path : List Char) : Decidable (PlainPath path) :=
  inferInstanceAs (Decidable (∀ name ∈ path.splitOn '/', PlainName name))

/-- The names that `filepath.Clean` arrives at: those that lead out of the directory,
and then plain ones. -/
inductive CleanNames (rooted : Bool) : Names → Prop
  | nil : CleanNames rooted []
  | up {names : Names} (outward : ∀ name ∈ names, name = dotDot) (relative : rooted = false)
      (clean : CleanNames rooted names) : CleanNames rooted (dotDot :: names)
  | plain {names : Names} {name : List Char} (isPlain : PlainName name)
      (clean : CleanNames rooted names) : CleanNames rooted (name :: names)

theorem splitOn_slash (front back : List Char) :
    (front ++ '/' :: back).splitOn '/' = front.splitOn '/' ++ back.splitOn '/' :=
  List.splitOnP_append_cons front back (by simp)

theorem slash_not_mem_splitOn {text name : List Char} (member : name ∈ text.splitOn '/') :
    '/' ∉ name := by
  induction text generalizing name with
  | nil =>
      rw [List.splitOn_nil, List.mem_singleton] at member
      rw [member]
      exact List.not_mem_nil
  | cons char rest hypothesis =>
      rw [List.splitOn_cons_eq_if_modifyHead] at member
      split at member
      next =>
        rcases List.mem_cons.mp member with rfl | later
        · exact List.not_mem_nil
        · exact hypothesis later
      next other =>
        obtain ⟨first, others, names⟩ := List.exists_cons_of_ne_nil
          (List.splitOn_ne_nil '/' rest)
        rw [names, List.modifyHead_cons] at member
        rcases List.mem_cons.mp member with rfl | later
        · have absent := hypothesis (names ▸ List.mem_cons_self)
          intro slash
          rcases List.mem_cons.mp slash with same | inside
          · exact other (by simp [← same])
          · exact absent inside
        · exact hypothesis (names ▸ List.mem_cons_of_mem first later)

theorem intercalate_append {front back : Names} (before : front ≠ []) (after : back ≠ []) :
    List.intercalate ['/'] (front ++ back) =
      List.intercalate ['/'] front ++ '/' :: List.intercalate ['/'] back := by
  induction front with
  | nil => exact absurd rfl before
  | cons first rest hypothesis =>
      cases rest with
      | nil =>
          rw [List.singleton_append, List.intercalate_cons_of_ne_nil after,
            List.intercalate_singleton, List.append_assoc, List.singleton_append]
      | cons second rest =>
          rw [List.cons_append, List.intercalate_cons_of_ne_nil (by simp),
            hypothesis (List.cons_ne_nil second rest), List.intercalate_cons_cons]
          simp

section Clean

variable {rooted : Bool} {names : Names} {name : List Char}

theorem pushName_plain (plain : PlainName name) :
    pushName rooted names name = name :: names := by
  obtain ⟨nonempty, single, double, _⟩ := plain
  rw [pushName, if_neg (by simp [nonempty, single]), if_neg double]

theorem foldl_pushName_plain {added : Names} (plain : ∀ name ∈ added, PlainName name) :
    added.foldl (pushName rooted) names = added.reverse ++ names := by
  induction added generalizing names with
  | nil => rfl
  | cons first rest hypothesis =>
      have own := plain first List.mem_cons_self
      have others : ∀ name ∈ rest, PlainName name := fun name member =>
        plain name (List.mem_cons_of_mem first member)
      rw [List.foldl_cons, pushName_plain own, hypothesis others]
      simp

theorem CleanNames.tail {last : List Char} (clean : CleanNames rooted (last :: names)) :
    CleanNames rooted names := by
  cases clean with
  | up _ _ rest => exact rest
  | plain _ rest => exact rest

theorem CleanNames.outward (clean : CleanNames rooted (dotDot :: names)) :
    rooted = false ∧ ∀ name ∈ names, name = dotDot := by
  cases clean with
  | up outward relative _ => exact ⟨relative, outward⟩
  | plain isPlain _ => exact absurd rfl isPlain.2.2.1

theorem CleanNames.climb (clean : CleanNames rooted names) :
    CleanNames rooted (climb rooted names) := by
  cases names with
  | nil =>
      cases rooted with
      | true => exact .nil
      | false => exact .up (by simp) rfl .nil
  | cons last rest =>
      rw [Data.climb]
      split
      next up =>
        subst up
        obtain ⟨relative, outward⟩ := clean.outward
        exact .up (by simpa using outward) relative clean
      next => exact clean.tail

theorem CleanNames.pushName (clean : CleanNames rooted names) (plain : '/' ∉ name) :
    CleanNames rooted (pushName rooted names name) := by
  rw [Data.pushName]
  split
  next => exact clean
  next kept =>
    split
    next => exact clean.climb
    next down =>
      rw [not_or] at kept
      exact .plain ⟨kept.1, kept.2, down, plain⟩ clean

theorem CleanNames.foldl {added : Names} (clean : CleanNames rooted names)
    (plain : ∀ name ∈ added, '/' ∉ name) :
    CleanNames rooted (added.foldl (Data.pushName rooted) names) := by
  induction added generalizing names with
  | nil => exact clean
  | cons first rest hypothesis =>
      apply hypothesis (clean.pushName (plain first List.mem_cons_self))
      exact fun name member => plain name (List.mem_cons_of_mem first member)

theorem cleanNames_pathNames (text : List Char) : CleanNames (isRooted text) (pathNames text) :=
  CleanNames.foldl .nil fun _ => slash_not_mem_splitOn

theorem CleanNames.foldl_reverse (clean : CleanNames rooted names) :
    names.reverse.foldl (Data.pushName rooted) [] = names := by
  induction clean with
  | nil => rfl
  | @up names outward relative _ hypothesis =>
      rw [List.reverse_cons, List.foldl_append, hypothesis, List.foldl_cons, List.foldl_nil,
        Data.pushName, if_neg (by decide), if_pos rfl]
      cases names with
      | nil =>
          rw [relative]
          rfl
      | cons last rest => rw [Data.climb, if_pos (outward last List.mem_cons_self)]
  | plain isPlain _ hypothesis =>
      rw [List.reverse_cons, List.foldl_append, hypothesis, List.foldl_cons, List.foldl_nil,
        pushName_plain isPlain]

theorem CleanNames.proper (clean : CleanNames rooted names) :
    ∀ name ∈ names, name ≠ [] ∧ '/' ∉ name := by
  induction clean with
  | nil => simp
  | up _ _ _ hypothesis =>
      rintro name (_ | ⟨_, member⟩)
      · exact ⟨by decide, by decide⟩
      · exact hypothesis name member
  | plain isPlain _ hypothesis =>
      rintro name (_ | ⟨_, member⟩)
      · exact ⟨isPlain.1, isPlain.2.2.2⟩
      · exact hypothesis name member

/-! Rendering clean names and reading them again. -/

theorem renderPath_append {added : Names} (before : names ≠ []) (after : added ≠ []) :
    renderPath rooted (added.reverse ++ names) =
      renderPath rooted names ++ '/' :: List.intercalate ['/'] added := by
  have text : List.intercalate ['/'] (added.reverse ++ names).reverse =
      List.intercalate ['/'] names.reverse ++ '/' :: List.intercalate ['/'] added := by
    rw [List.reverse_append, List.reverse_reverse]
    exact intercalate_append (by simpa using before) after
  unfold renderPath
  rw [text]
  cases rooted with
  | true => rfl
  | false => simp [before]

variable (clean : CleanNames rooted names) (some : names ≠ [])
include clean some

theorem CleanNames.splitOn_render :
    (renderPath rooted names).splitOn '/' =
      if rooted then [] :: names.reverse else names.reverse := by
  have split : (List.intercalate ['/'] names.reverse).splitOn '/' = names.reverse := by
    apply List.splitOn_intercalate
    · exact fun name member => (clean.proper name (List.mem_reverse.mp member)).2
    · simpa using some
  cases rooted with
  | true =>
      have slashed := splitOn_slash [] (List.intercalate ['/'] names.reverse)
      rw [split] at slashed
      exact slashed
  | false =>
      rw [renderPath]
      simpa [some] using split

theorem CleanNames.isRooted_render (after : List Char) :
    isRooted (renderPath rooted names ++ after) = rooted := by
  cases rooted with
  | true => rfl
  | false =>
      obtain ⟨first, rest, order⟩ := List.exists_cons_of_ne_nil (List.reverse_ne_nil_iff.mpr some)
      have member : first ∈ names := List.mem_reverse.mp (order ▸ List.mem_cons_self)
      obtain ⟨nonempty, plain⟩ := clean.proper first member
      obtain ⟨char, others, rfl⟩ := List.exists_cons_of_ne_nil nonempty
      have different : char ≠ '/' := fun same => plain (same ▸ List.mem_cons_self)
      simp [renderPath, isRooted, some, order, List.intercalate_cons_cons_left, different]

theorem CleanNames.cleanText_beneath {path : List Char} (plain : PlainPath path) :
    cleanText (renderPath rooted names ++ '/' :: path) =
      renderPath rooted names ++ '/' :: path := by
  have read : ((renderPath rooted names).splitOn '/').foldl (Data.pushName rooted) [] = names := by
    rw [clean.splitOn_render some]
    cases rooted with
    | true => exact clean.foldl_reverse
    | false => exact clean.foldl_reverse
  have reached : pathNames (renderPath rooted names ++ '/' :: path) =
      (path.splitOn '/').reverse ++ names := by
    rw [pathNames, clean.isRooted_render some, splitOn_slash, List.foldl_append, read,
      foldl_pushName_plain plain]
  rw [cleanText, reached, clean.isRooted_render some,
    renderPath_append some (List.splitOn_ne_nil '/' path), List.intercalate_splitOn]

end Clean

theorem pathNames_ne_nil {text : List Char} {earlier : Names} {name : List Char}
    (split : text.splitOn '/' = earlier ++ [name]) (plain : PlainName name) :
    pathNames text ≠ [] := by
  rw [pathNames, split, List.foldl_append, List.foldl_cons, List.foldl_nil, pushName_plain plain]
  exact List.cons_ne_nil _ _

theorem joinPath_clean (dir : String) {name : String} (plain : PlainName name.toList) :
    ∃ rooted names, CleanNames rooted names ∧ names ≠ [] ∧
      (joinPath dir name).toList = renderPath rooted names := by
  have single : name.toList.splitOn '/' = [name.toList] :=
    List.splitOn_eq_singleton plain.2.2.2
  have nonempty : name ≠ "" := fun same => plain.1 (by rw [same]; rfl)
  have rendered : ∀ text : List Char, ∀ earlier, text.splitOn '/' = earlier ++ [name.toList] →
      ∃ rooted names, CleanNames rooted names ∧ names ≠ [] ∧
        cleanText text = renderPath rooted names := by
    intro text earlier split
    exact ⟨_, _, cleanNames_pathNames text, pathNames_ne_nil split plain, rfl⟩
  unfold joinPath
  split
  next =>
    rw [cleanPath, String.toList_ofList]
    exact rendered name.toList [] single
  next =>
    rw [cleanPath, String.toList_ofList]
    apply rendered _ (dir.toList.splitOn '/')
    rw [← single, ← splitOn_slash]
    simp

theorem cleanPath_beneath {dir name path : String} (named : PlainName name.toList)
    (plain : PlainPath path.toList) :
    cleanPath (joinPath dir name ++ "/" ++ path) = joinPath dir name ++ "/" ++ path := by
  obtain ⟨rooted, names, clean, some, text⟩ := joinPath_clean dir named
  have beneath : (joinPath dir name ++ "/" ++ path).toList =
      renderPath rooted names ++ '/' :: path.toList := by
    simp [text]
  rw [cleanPath, beneath, clean.cleanText_beneath some plain, ← beneath, String.ofList_toList]

end PostgresSync.Data
