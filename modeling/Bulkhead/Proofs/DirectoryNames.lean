/-
Names of directories, spelled as constants and back.

A constant is a normal form: spelling as a constant is a projection onto the names that `IsConstant`
describes.  In the other direction, a directory's name is got back from its constant unless two of
its words run together.  The name is a row of words with a joint between any two, and each step of
the two spellings keeps the row: it changes how the words are written and what stands at the joints.
So every step is one equation about `following`, and `toDirectory_toConstant` puts them together: a
low line is lost exactly where `Merges` holds of the words around it.
-/
import Bulkhead.Proofs.Spelling
import Bulkhead.Proofs.Splitting

namespace Bulkhead
namespace Naming

/-! ## Constants as a normal form -/

/-- Spelling as a constant leaves no marks, changes nothing the second time, and changes nothing at
all just where the name is the spelling of a constant already. -/
theorem toConstant_projection (name : String) :
    (∀ c ∈ (toConstant name).toList, c ≠ '_' ∧ c ≠ '/') ∧
      toConstant (toConstant name) = toConstant name ∧
      (toConstant name = name ↔ IsConstant name.toList) := by
  have hnormal : IsConstant (toConstant name).toList := by
    rw [toConstant, String.toList_ofList]
    exact isConstant_constantChars name.toList
  refine ⟨hnormal.plain, toConstant_toConstant name, ?_, ?_⟩
  · intro hsame
    rwa [hsame] at hnormal
  · intro hname
    rw [toConstant, constantChars_of_isConstant hname, String.ofList_toList]

/-! ## Words and rows of words -/

/-- A word of a directory's name: a small letter, and then small letters and digits. -/
structure Word where
  initial : Char
  rest : List Char
  isLower_initial : isLowerLetter initial = true
  isPlain_rest : ∀ c ∈ rest, isLowerLetter c = true ∨ c.isDigit = true

/-- What stands between two words. -/
inductive Joint where
  | lowLine
  | slash

/-- One or more words with a joint between any two. -/
structure DirectoryName where
  first : Word
  more : List (Joint × Word)

namespace Word

def chars (w : Word) : List Char :=
  w.initial :: w.rest

/-- The word with a capital at its start. -/
def raised (w : Word) : List Char :=
  upperChar w.initial :: w.rest

/-- A constant does not show where one word ends and the other begins: the first is a single letter,
and the second is one too or has a digit after its letter. -/
def Merges (left right : Word) : Prop :=
  left.rest = [] ∧ (right.rest = [] ∨ ∃ c ∈ right.rest.head?, c.isDigit = true)

instance (left right : Word) : Decidable (left.Merges right) :=
  inferInstanceAs (Decidable (_ ∧ (_ ∨ _)))

end Word

/-- The words after the first of a row, each after what is written at its joint. -/
def following (word : Word → List Char) (joint : Word → Joint → Word → List Char) :
    Word → List (Joint × Word) → List Char
  | _, [] => []
  | w, (j, v) :: more => joint w j v ++ (word v ++ following word joint v more)

/-- The neighbours in a row, with their joint. -/
def neighbours : Word → List (Joint × Word) → List (Word × Joint × Word)
  | _, [] => []
  | w, (j, v) :: more => (w, j, v) :: neighbours v more

namespace DirectoryName

/-- The row of words, given how a word is written and what is written at the joint of two. -/
def written (word : Word → List Char) (joint : Word → Joint → Word → List Char)
    (n : DirectoryName) : List Char :=
  word n.first ++ following word joint n.first n.more

def mark : Word → Joint → Word → List Char
  | _, .lowLine, _ => ['_']
  | _, .slash, _ => ['/']

def text (n : DirectoryName) : String :=
  String.ofList (n.written Word.chars mark)

/-- The two words stand side by side with a low line between them. -/
def Joins (n : DirectoryName) (left right : Word) : Prop :=
  (left, Joint.lowLine, right) ∈ neighbours n.first n.more

end DirectoryName

open DirectoryName (mark)

/-! ## The characters of words -/

/-- How the spellings treat the letter of a word and its capital. -/
structure LetterFacts (c : Char) : Prop where
  isName : isNameChar c = true
  notMark : c ≠ '_' ∧ c ≠ '/'
  isName_upper : isNameChar (upperChar c) = true
  isUpper_upper : isUpperLetter (upperChar c) = true
  notSmall_upper : (isLowerLetter (upperChar c) || Text.isDigit (upperChar c)) = false
  notMark_upper : upperChar c ≠ '_' ∧ upperChar c ≠ '/' ∧ upperChar c ≠ ':' ∧ upperChar c ≠ '-'
  toLower_upper : (upperChar c).toLower = c
  ascii_upper : (upperChar c).toNat < 128

/-- How the spellings treat the other characters of a word. -/
structure RestFacts (c : Char) : Prop where
  isName : isNameChar c = true
  notUpper : isUpperLetter c = false
  isSmall : (isLowerLetter c || Text.isDigit c) = true
  isLower_eq : isLowerLetter c = !c.isDigit
  notMark : c ≠ '_' ∧ c ≠ '/' ∧ c ≠ ':' ∧ c ≠ '-'
  toLower_eq : c.toLower = c
  ascii : c.toNat < 128

theorem letterFacts {c : Char} (h : isLowerLetter c = true) : LetterFacts c := by
  have hfacts := Text.forall_ascii (P := fun c => isLowerLetter c = true →
    isNameChar c = true ∧ (c ≠ '_' ∧ c ≠ '/') ∧ isNameChar (upperChar c) = true ∧
      isUpperLetter (upperChar c) = true ∧
      (isLowerLetter (upperChar c) || Text.isDigit (upperChar c)) = false ∧
      (upperChar c ≠ '_' ∧ upperChar c ≠ '/' ∧ upperChar c ≠ ':' ∧ upperChar c ≠ '-') ∧
      (upperChar c).toLower = c ∧ (upperChar c).toNat < 128)
    (by decide +kernel) (toNat_lt_of_isLowerLetter h) h
  obtain ⟨h₁, h₂, h₃, h₄, h₅, h₆, h₇, h₈⟩ := hfacts
  exact ⟨h₁, h₂, h₃, h₄, h₅, h₆, h₇, h₈⟩

theorem toNat_lt_of_isDigit {c : Char} (h : c.isDigit = true) : c.toNat < 128 := by
  simp only [Char.isDigit, Bool.and_eq_true, decide_eq_true_eq] at h
  have hlast : c.toNat ≤ 57 := h.2
  omega

theorem restFacts {c : Char} (h : isLowerLetter c = true ∨ c.isDigit = true) : RestFacts c := by
  have hascii : c.toNat < 128 := by
    rcases h with hlower | hdigit
    · exact toNat_lt_of_isLowerLetter hlower
    · exact toNat_lt_of_isDigit hdigit
  have hfacts := Text.forall_ascii (P := fun c => isLowerLetter c = true ∨ c.isDigit = true →
    isNameChar c = true ∧ isUpperLetter c = false ∧ (isLowerLetter c || Text.isDigit c) = true ∧
      isLowerLetter c = !c.isDigit ∧ (c ≠ '_' ∧ c ≠ '/' ∧ c ≠ ':' ∧ c ≠ '-') ∧ c.toLower = c)
    (by decide +kernel) hascii h
  obtain ⟨h₁, h₂, h₃, h₄, h₅, h₆⟩ := hfacts
  exact ⟨h₁, h₂, h₃, h₄, h₅, h₆, hascii⟩

namespace Word

theorem letter (w : Word) : LetterFacts w.initial :=
  letterFacts w.isLower_initial

theorem restAt {w : Word} {c : Char} (h : c ∈ w.rest) : RestFacts c :=
  restFacts (w.isPlain_rest c h)

end Word

/-! ## Spelling a row as a constant -/

/-- At a joint a constant shows the separator, or nothing. -/
def separation : Word → Joint → Word → List Char
  | _, .lowLine, _ => []
  | _, .slash, _ => [':', ':']

theorem joinWords_rest {place : Place} (hplace : place ≠ .atWord) {cs : List Char}
    (h : ∀ c ∈ cs, isLowerLetter c = true ∨ c.isDigit = true) (tail : List Char) :
    joinWords place (cs ++ tail) = cs ++ joinWords place tail := by
  induction cs with
  | nil => rfl
  | cons c cs ih =>
    have hc := restFacts (h c List.mem_cons_self)
    obtain ⟨hlow, hslash, -⟩ := hc.notMark
    have hrest := ih fun d hd => h d (List.mem_cons_of_mem c hd)
    cases place with
    | outside =>
      rw [List.cons_append, joinWords, if_neg hlow, if_neg hslash, if_pos hc.isName]
      exact congrArg (c :: ·) hrest
    | atWord => exact absurd rfl hplace
    | inWord =>
      have hsame : Text.lowerChar c = [c] := by
        rw [Text.lowerChar, if_pos hc.ascii, hc.toLower_eq]
      rw [List.cons_append, joinWords, if_neg hlow, if_neg hslash, if_pos hc.isName]
      show Text.lowerChar c ++ joinWords .inWord (cs ++ tail) = _
      rw [hsame, hrest]
      rfl

theorem joinWords_word (w : Word) (tail : List Char) :
    joinWords .atWord (w.chars ++ tail) = w.raised ++ joinWords .inWord tail := by
  obtain ⟨hlow, hslash⟩ := w.letter.notMark
  rw [Word.chars, List.cons_append, joinWords, if_neg hlow, if_neg hslash, if_pos w.letter.isName]
  show upperChar w.initial :: joinWords .inWord (w.rest ++ tail) = _
  rw [joinWords_rest (by decide) w.isPlain_rest]
  rfl

/-- A mark starts a word wherever it stands. -/
theorem joinWords_mark (place : Place) (w v : Word) (j : Joint) (tail : List Char) :
    joinWords place (mark w j v ++ tail) = separation w j v ++ joinWords .atWord tail := by
  cases j with
  | lowLine => rfl
  | slash => rfl

theorem joinWords_following (place : Place) (w : Word) (more : List (Joint × Word)) :
    joinWords place (following Word.chars mark w more) =
      following Word.raised separation w more := by
  induction more generalizing place w with
  | nil => cases place <;> rfl
  | cons next more ih =>
    obtain ⟨j, v⟩ := next
    rw [following, following, joinWords_mark, joinWords_word, ih]

theorem constantChars_written (n : DirectoryName) :
    constantChars (n.written Word.chars mark) = n.written Word.raised separation := by
  obtain ⟨hlow, hslash, -⟩ := n.first.letter.notMark_upper
  rw [constantChars, DirectoryName.written, Word.chars, List.cons_append, raiseFirst,
    if_pos n.first.isLower_initial, joinWords, if_neg hlow, if_neg hslash,
    if_pos n.first.letter.isName_upper]
  show upperChar n.first.initial :: joinWords .outside (n.first.rest ++ _) = _
  rw [joinWords_rest (by decide) n.first.isPlain_rest, joinWords_following]
  rfl

/-! ## The separator as a slash -/

def slashes : Word → Joint → Word → List Char
  | _, .lowLine, _ => []
  | _, .slash, _ => ['/']

theorem colon_notMem_raised (w : Word) : ':' ∉ w.raised := by
  intro hmem
  rcases List.mem_cons.mp hmem with hfirst | hrest
  · exact w.letter.notMark_upper.2.2.1 hfirst.symm
  · exact (Word.restAt hrest).notMark.2.2.1 rfl

theorem replaceAll_following (w : Word) (more : List (Joint × Word)) :
    Text.replaceAll [':', ':'] ['/'] (following Word.raised separation w more) =
      following Word.raised slashes w more := by
  induction more generalizing w with
  | nil => rfl
  | cons next more ih =>
    obtain ⟨j, v⟩ := next
    rw [following, following, ← ih v, ← Text.replaceAll_append (colon_notMem_raised v)]
    cases j with
    | lowLine => rfl
    | slash => exact Text.replaceAll_old (List.cons_ne_nil _ _) _ _

theorem replaceAll_written (n : DirectoryName) :
    Text.replaceAll [':', ':'] ['/'] (n.written Word.raised separation) =
      n.written Word.raised slashes := by
  rw [DirectoryName.written, Text.replaceAll_append (colon_notMem_raised n.first),
    replaceAll_following]
  rfl

/-! ## Parting acronyms -/

/-- The character after the letter of the word is a small letter. -/
def Word.isSmallNext (w : Word) : Bool :=
  w.rest.head?.any isLowerLetter

/-- The word, raised, ends in its capital or in a digit. -/
def Word.endsRun (w : Word) : Bool :=
  w.rest.foldl (fun _ c => Text.isDigit c) true

/-- The low lines that are set where an acronym is parted from a word. -/
def acronymEnds : Word → Joint → Word → List Char
  | left, .lowLine, right => if left.endsRun && right.isSmallNext then ['_'] else []
  | _, .slash, _ => ['/']

theorem partAcronyms_cons (run : Bool) (c : Char) (cs : List Char) :
    partAcronyms run (c :: cs) =
      (if run && isUpperLetter c && cs.head?.any isLowerLetter then ['_', c] else [c]) ++
        partAcronyms (isUpperLetter c || Text.isDigit c) cs := by
  cases cs with
  | nil =>
    rw [List.head?_nil, Option.any_none, Bool.and_false]
    rfl
  | cons d cs => rfl

theorem partAcronyms_slash (run : Bool) (cs : List Char) :
    partAcronyms run ('/' :: cs) = '/' :: partAcronyms false cs := by
  have hslash : isUpperLetter '/' = false := by decide
  rw [partAcronyms_cons, hslash, Bool.and_false, Bool.false_and]
  rfl

theorem partAcronyms_rest (run : Bool) {cs : List Char}
    (h : ∀ c ∈ cs, isLowerLetter c = true ∨ c.isDigit = true) (tail : List Char) :
    partAcronyms run (cs ++ tail) =
      cs ++ partAcronyms (cs.foldl (fun _ c => Text.isDigit c) run) tail := by
  induction cs generalizing run with
  | nil => rfl
  | cons c cs ih =>
    have hc := restFacts (h c List.mem_cons_self)
    rw [List.cons_append, partAcronyms_cons, hc.notUpper, Bool.and_false, Bool.false_and,
      Bool.false_or, ih _ fun d hd => h d (List.mem_cons_of_mem c hd)]
    rfl

/-- A raised word, where no small letter stands after it, is parted from the run before it if its
second character is a small letter, and is not changed otherwise. -/
theorem partAcronyms_raised (run : Bool) (w : Word) {tail : List Char}
    (htail : tail.head?.any isLowerLetter = false) :
    partAcronyms run (w.raised ++ tail) =
      (if run && w.isSmallNext then ['_'] else []) ++
        (w.raised ++ partAcronyms w.endsRun tail) := by
  have hnext : (w.rest ++ tail).head?.any isLowerLetter = w.isSmallNext := by
    rw [Word.isSmallNext, List.head?_append]
    cases w.rest with
    | nil => exact htail
    | cons c cs => rfl
  rw [Word.raised, List.cons_append, partAcronyms_cons, hnext, w.letter.isUpper_upper,
    Bool.and_true, Bool.true_or, partAcronyms_rest true w.isPlain_rest]
  split <;> rfl

theorem head_following (w : Word) (more : List (Joint × Word)) :
    (following Word.raised slashes w more).head?.any isLowerLetter = false := by
  cases more with
  | nil => rfl
  | cons next more =>
    obtain ⟨j, v⟩ := next
    cases j with
    | lowLine => exact not_isLowerLetter_upperChar v.initial
    | slash => rfl

theorem partAcronyms_following (w : Word) (more : List (Joint × Word)) :
    partAcronyms w.endsRun (following Word.raised slashes w more) =
      following Word.raised acronymEnds w more := by
  induction more generalizing w with
  | nil => rfl
  | cons next more ih =>
    obtain ⟨j, v⟩ := next
    have hword (run : Bool) := partAcronyms_raised run v (head_following v more)
    rw [following, following, ← ih v]
    cases j with
    | lowLine => exact hword w.endsRun
    | slash => exact (partAcronyms_slash _ _).trans (congrArg ('/' :: ·) (hword false))

theorem partAcronyms_written (n : DirectoryName) :
    partAcronyms false (n.written Word.raised slashes) = n.written Word.raised acronymEnds := by
  rw [DirectoryName.written, partAcronyms_raised false n.first (head_following _ _),
    partAcronyms_following]
  rfl

/-! ## Parting words -/

/-- The low lines that are left in the end. -/
def keptMarks : Word → Joint → Word → List Char
  | left, .lowLine, right => if left.Merges right then [] else ['_']
  | _, .slash, _ => ['/']

theorem partWords_rest (small : Bool) {cs : List Char}
    (h : ∀ c ∈ cs, isLowerLetter c = true ∨ c.isDigit = true) (tail : List Char) :
    partWords small (cs ++ tail) = cs ++ partWords (small || !cs.isEmpty) tail := by
  induction cs generalizing small with
  | nil => rw [List.isEmpty_nil, Bool.not_true, Bool.or_false]; rfl
  | cons c cs ih =>
    have hc := restFacts (h c List.mem_cons_self)
    rw [List.cons_append, partWords, hc.notUpper, hc.isSmall, Bool.and_false,
      ih _ fun d hd => h d (List.mem_cons_of_mem c hd), Bool.true_or, List.isEmpty_cons,
      Bool.not_false, Bool.or_true]
    rfl

theorem partWords_raised (small : Bool) (w : Word) (tail : List Char) :
    partWords small (w.raised ++ tail) =
      (if small then ['_'] else []) ++ (w.raised ++ partWords (!w.rest.isEmpty) tail) := by
  rw [Word.raised, List.cons_append, partWords, w.letter.isUpper_upper, w.letter.notSmall_upper,
    Bool.and_true, partWords_rest false w.isPlain_rest, Bool.false_or]
  split <;> rfl

theorem merges_iff (left right : Word) :
    left.Merges right ↔ left.rest = [] ∧ right.isSmallNext = false := by
  refine and_congr_right fun _ => ?_
  rw [Word.isSmallNext]
  cases hrest : right.rest with
  | nil => simp
  | cons c cs =>
    have hc : RestFacts c := Word.restAt (hrest ▸ List.mem_cons_self)
    simp [hc.isLower_eq]

/-- The two steps together set a low line unless the words merge. -/
theorem kept_of_parted (left right : Word) :
    (if left.endsRun && right.isSmallNext then ['_']
      else if !left.rest.isEmpty then ['_'] else []) = keptMarks left .lowLine right := by
  simp only [keptMarks, merges_iff]
  cases hleft : left.rest with
  | nil =>
    have hrun : left.endsRun = true := by rw [Word.endsRun, hleft]; rfl
    cases right.isSmallNext <;> simp [hrun]
  | cons c cs => simp

/-- Where a low line has been set already, none is added. -/
theorem partWords_following (w : Word) (more : List (Joint × Word)) :
    partWords (!w.rest.isEmpty) (following Word.raised acronymEnds w more) =
      following Word.raised keptMarks w more := by
  induction more generalizing w with
  | nil => rfl
  | cons next more ih =>
    obtain ⟨j, v⟩ := next
    have hword (small : Bool) :=
      partWords_raised small v (following Word.raised acronymEnds v more)
    have hmark (small : Bool) (c : Char) (hc : isUpperLetter c = false)
        (hsmall : (isLowerLetter c || Text.isDigit c) = false) (cs : List Char) :
        partWords small (c :: cs) = c :: partWords false cs := by
      rw [partWords, hc, hsmall, Bool.and_false]
      rfl
    rw [following, following, ← ih v]
    cases j with
    | lowLine =>
      rw [← kept_of_parted, acronymEnds]
      split
      · exact (hmark _ '_' (by decide) (by decide) _).trans (congrArg ('_' :: ·) (hword false))
      · exact hword _
    | slash =>
      exact (hmark _ '/' (by decide) (by decide) _).trans (congrArg ('/' :: ·) (hword false))

theorem partWords_written (n : DirectoryName) :
    partWords false (n.written Word.raised acronymEnds) = n.written Word.raised keptMarks := by
  rw [DirectoryName.written, partWords_raised, partWords_following]
  rfl

/-! ## Small letters -/

theorem lower_of_ascii {cs : List Char} (h : ∀ c ∈ cs, c.toNat < 128) :
    Text.lower cs = cs.map Char.toLower := by
  have hafter (before : List Char) : Text.lowerAfter before cs = cs.map Char.toLower := by
    induction cs generalizing before with
    | nil => rfl
    | cons c cs ih =>
      have hc := h c List.mem_cons_self
      have hsigma : (decide (c.toNat = 0x3a3)) = false := decide_eq_false (by omega)
      rw [Text.lowerAfter, hsigma, Bool.false_and, Bool.false_and, Text.lowerChar, if_pos hc,
        ih fun d hd => h d (List.mem_cons_of_mem c hd)]
      rfl
  exact hafter []

theorem map_following (f : Char → Char) (word : Word → List Char)
    (joint : Word → Joint → Word → List Char) (w : Word) (more : List (Joint × Word)) :
    (following word joint w more).map f =
      following (fun w => (word w).map f) (fun l j r => (joint l j r).map f) w more := by
  induction more generalizing w with
  | nil => rfl
  | cons next more ih =>
    obtain ⟨j, v⟩ := next
    rw [following, following, List.map_append, List.map_append, ih]

theorem mem_following {word : Word → List Char} {joint : Word → Joint → Word → List Char}
    {w : Word} {more : List (Joint × Word)} {c : Char} (h : c ∈ following word joint w more) :
    (∃ left j right, c ∈ joint left j right) ∨ ∃ v, c ∈ word v := by
  induction more generalizing w with
  | nil => cases h
  | cons next more ih =>
    obtain ⟨j, v⟩ := next
    rw [following, List.mem_append, List.mem_append] at h
    rcases h with hjoint | hword | hmore
    · exact .inl ⟨w, j, v, hjoint⟩
    · exact .inr ⟨v, hword⟩
    · exact ih hmore

theorem of_mem_raised {w : Word} {c : Char} (h : c ∈ w.raised) : c.toNat < 128 ∧ c ≠ '-' := by
  rcases List.mem_cons.mp h with rfl | hrest
  · exact ⟨w.letter.ascii_upper, w.letter.notMark_upper.2.2.2⟩
  · exact ⟨(Word.restAt hrest).ascii, (Word.restAt hrest).notMark.2.2.2⟩

theorem of_mem_kept {n : DirectoryName} {c : Char} (h : c ∈ n.written Word.raised keptMarks) :
    c.toNat < 128 ∧ c ≠ '-' := by
  rcases List.mem_append.mp h with hfirst | hmore
  · exact of_mem_raised hfirst
  · rcases mem_following hmore with ⟨left, j, right, hjoint⟩ | ⟨v, hword⟩
    · have hmark : c = '_' ∨ c = '/' := by
        cases j with
        | lowLine =>
          rw [keptMarks] at hjoint
          split at hjoint
          · cases hjoint
          · exact .inl (List.mem_singleton.mp hjoint)
        | slash => exact .inr (List.mem_singleton.mp hjoint)
      rcases hmark with rfl | rfl <;> decide
    · exact of_mem_raised hword

theorem map_toLower_raised (w : Word) : w.raised.map Char.toLower = w.chars := by
  have hrest : w.rest.map Char.toLower = w.rest :=
    (List.map_congr_left fun c hc => (Word.restAt hc).toLower_eq).trans (List.map_id _)
  rw [Word.raised, List.map_cons, hrest, w.letter.toLower_upper]
  rfl

theorem map_toLower_kept (left : Word) (j : Joint) (right : Word) :
    (keptMarks left j right).map Char.toLower = keptMarks left j right := by
  cases j with
  | lowLine =>
    rw [keptMarks]
    split <;> rfl
  | slash => rfl

/-! ## There and back -/

/-- A directory's name, spelled as a constant and back, has all its words and slashes, and the low
lines between words that do not merge. -/
theorem toDirectory_toConstant (n : DirectoryName) :
    toDirectory (toConstant n.text) = String.ofList (n.written Word.chars keptMarks) := by
  have hdash : (n.written Word.raised keptMarks).map (fun c => if c = '-' then '_' else c) =
      n.written Word.raised keptMarks := by
    refine (List.map_congr_left fun c hc => ?_).trans (List.map_id _)
    exact if_neg (of_mem_kept hc).2
  have hsmall : (n.written Word.raised keptMarks).map Char.toLower =
      n.written Word.chars keptMarks := by
    rw [DirectoryName.written, List.map_append, map_following]
    simp only [map_toLower_raised, map_toLower_kept]
    rfl
  rw [toDirectory, toConstant, DirectoryName.text, String.toList_ofList, String.toList_ofList,
    constantChars_written, directoryChars, replaceAll_written, partAcronyms_written,
    partWords_written, hdash, lower_of_ascii fun c hc => (of_mem_kept hc).1, hsmall]

theorem following_kept_iff (w : Word) (more : List (Joint × Word)) :
    following Word.chars keptMarks w more = following Word.chars mark w more ↔
      ∀ left right, (left, Joint.lowLine, right) ∈ neighbours w more → ¬ left.Merges right := by
  induction more generalizing w with
  | nil => simp [following, neighbours]
  | cons next more ih =>
    obtain ⟨j, v⟩ := next
    rw [following, following, neighbours]
    cases j with
    | slash => simp [keptMarks, mark, ih]
    | lowLine =>
      by_cases hmerges : w.Merges v
      · -- without the low line the next character is the letter of the second word
        simp only [keptMarks, mark, if_pos hmerges, Word.chars]
        constructor
        · intro hsame
          exact absurd (List.cons.inj hsame).1 v.letter.notMark.1
        · intro hnone
          exact absurd hmerges (hnone w v List.mem_cons_self)
      · simp only [keptMarks, mark, if_neg hmerges, List.append_cancel_left_eq, ih]
        constructor
        · intro hnone left right hmem
          rcases List.mem_cons.mp hmem with heq | hmem
          · cases heq
            exact hmerges
          · exact hnone left right hmem
        · intro hnone left right hmem
          exact hnone left right (List.mem_cons_of_mem _ hmem)

/-- A directory's name is got back from its constant unless a low line stands between words that
merge. -/
theorem directory_recovered_iff (n : DirectoryName) :
    toDirectory (toConstant n.text) = n.text ↔
      ¬ ∃ left right, n.Joins left right ∧ left.Merges right := by
  have hlists : String.ofList (n.written Word.chars keptMarks) = n.text ↔
      following Word.chars keptMarks n.first n.more = following Word.chars mark n.first n.more := by
    rw [DirectoryName.text, String.ofList_inj, DirectoryName.written, DirectoryName.written,
      List.append_cancel_left_eq]
  rw [toDirectory_toConstant, hlists, following_kept_iff]
  simp only [DirectoryName.Joins, not_exists, not_and]

end Naming
end Bulkhead
