/-
Files in the shape in which lists are published, and what is read from them.

A `Layout` is everything that such a file holds: what stands before the declaration, the path of the
module, the list with the blanks and comments between its tokens, and what follows the list.  Its
types admit the published shape only, so `entries_text` has no condition: whatever the layout, the
entries of the list are read back, in order.
-/
import Bulkhead.PublicApi.Listing
import Mathlib.Data.List.Basic

namespace Bulkhead

/-! ## Characters -/

namespace Text

theorem CharSet.not_contains_of_apart {s t : CharSet} {c : Char}
    (happart : ∀ run ∈ s.runs, ∀ run' ∈ t.runs, run.2 < run'.1 ∨ run'.2 < run.1)
    (h : s.contains c = true) : t.contains c = false := by
  simp only [contains, List.any_eq_true, Bool.and_eq_true, decide_eq_true_eq] at h
  obtain ⟨run, hrun, hfirst, hlast⟩ := h
  rw [contains, List.any_eq_false]
  intro run' hrun'
  have := happart run hrun run' hrun'
  simp only [Bool.and_eq_true, decide_eq_true_eq]
  omega

theorem forall_ascii {P : Char → Prop} (h : ∀ n < 128, P (Char.ofNat n)) {c : Char}
    (hc : c.toNat < 128) : P c := by
  have hn := h c.toNat hc
  rwa [Char.ofNat_toNat] at hn

theorem not_isWord_of_isBlank {c : Char} (h : isBlank c = true) : isWord c = false := by
  by_cases hascii : c.toNat < 128
  · exact forall_ascii (P := fun c => isBlank c = true → isWord c = false) (by decide +kernel)
      hascii h
  · rw [isWord, if_neg hascii]
    exact CharSet.not_contains_of_apart (by decide +kernel) h

end Text

/-- A capital letter starts no token other than a path of constants. -/
theorem Constant.of_isCapital {c : Char} (h : isCapital c = true) :
    Text.isWord c = true ∧ Text.isBlank c = false ∧ c ∉ [':', '#', ']', ',', '"', '\''] := by
  have hbounds : 'A'.toNat ≤ c.toNat ∧ c.toNat ≤ 'Z'.toNat := by simpa [isCapital] using h
  have hascii : c.toNat < 128 := Nat.lt_of_le_of_lt hbounds.2 (by decide)
  exact Text.forall_ascii (P := fun c => isCapital c = true →
    Text.isWord c = true ∧ Text.isBlank c = false ∧ c ∉ [':', '#', ']', ',', '"', '\''])
    (by decide +kernel) hascii h

namespace PublicApi

/-! ## Layouts -/

/-- A segment of a path of constants. -/
abbrev Segment : Type :=
  { cs : List Char // Constant.isSegment cs = true }

def further (segments : List Segment) : List Char :=
  segments.flatMap fun segment => Constant.separator ++ segment.1

structure ConstantPath where
  first : Segment
  others : List Segment

def ConstantPath.text (path : ConstantPath) : List Char :=
  path.first.1 ++ further path.others

inductive Quote where
  | single
  | double

def Quote.char : Quote → Char
  | .single => '\''
  | .double => '"'

/-- An item of a list: a path of constants, or a text in quotes. -/
inductive Item where
  | constant (rooted : Bool) (path : ConstantPath)
  | quoted (quote : Quote) (content : List Char) (plain : '\\' ∉ content ∧ quote.char ∉ content)

namespace Item

def text : Item → List Char
  | .constant rooted path => (if rooted then Constant.separator else []) ++ path.text
  | .quoted quote content _ => quote.char :: content ++ [quote.char]

/-- What the item stands for: paths are taken as they are, and texts without their quotes. -/
def value : Item → List Char
  | .constant rooted path => (if rooted then Constant.separator else []) ++ path.text
  | .quoted _ content _ => content

end Item

/-- What may stand between two tokens, any number of times. -/
inductive Filler where
  | blank (c : Char) (isBlank : Text.isBlank c = true)
  | comment (note : List Char) (oneLine : '\n' ∉ note)

def Filler.text : Filler → List Char
  | .blank c _ => [c]
  | .comment note _ => '#' :: note ++ ['\n']

abbrev Gap : Type :=
  List Filler

def Gap.text (gap : Gap) : List Char :=
  gap.flatMap Filler.text

/-- The items of a list.  If nothing follows the comma after an item, it is a trailing comma. -/
inductive Items where
  | none (gap : Gap)
  | last (before : Gap) (item : Item) (after : Gap)
  | cons (before : Gap) (item : Item) (after : Gap) (others : Items)

namespace Items

def text : Items → List Char
  | .none gap => gap.text
  | .last before item after => before.text ++ item.text ++ after.text
  | .cons before item after others => before.text ++ item.text ++ after.text ++ ',' :: others.text

def values : Items → List String
  | .none _ => []
  | .last _ item _ => [String.ofList item.value]
  | .cons _ item _ others => String.ofList item.value :: others.values

end Items

structure Layout where
  /-- Blank lines and lines of comment, and the indentation of the declaration. -/
  preamble : Gap
  path : ConstantPath
  indent : List { c : Char // Text.isBlank c = true }
  items : Items
  ending : List Char

namespace Layout

/-- What follows the declaration. -/
def assignment (file : Layout) (listing : Listing) : List Char :=
  '\n' :: (file.indent.map Subtype.val ++ (listing.constantName.toList ++ (" = [".toList ++
    (file.items.text ++ ']' :: file.ending))))

def declaration (file : Layout) (listing : Listing) : List Char :=
  "module ".toList ++ (file.path.text ++ Constant.separator ++
    ("Api::".toList ++ listing.moduleName.toList ++ file.assignment listing))

def text (file : Layout) (listing : Listing) : String :=
  String.ofList (file.preamble.text ++ file.declaration listing)

end Layout

/-! ## Gaps and ends -/

/-- A path of constants does not go on here. -/
def Stops (cs : List Char) : Prop :=
  ∀ c ∈ cs.head?, Text.isWord c = false ∧ c ≠ ':'

theorem stops_cons {c : Char} (h : Text.isWord c = false ∧ c ≠ ':') (cs : List Char) :
    Stops (c :: cs) := by
  intro c' hc'
  rw [← Option.some.inj hc']
  exact h

theorem text_blank (c : Char) (h : Text.isBlank c = true) (gap : Gap) (cs : List Char) :
    Gap.text (.blank c h :: gap) ++ cs = c :: (gap.text ++ cs) := by
  simp [Gap.text, Filler.text]

theorem text_comment (note : List Char) (h : '\n' ∉ note) (gap : Gap) (cs : List Char) :
    Gap.text (.comment note h :: gap) ++ cs = '#' :: (note ++ '\n' :: (gap.text ++ cs)) := by
  simp [Gap.text, Filler.text]

theorem stops_gap (gap : Gap) {cs : List Char} (h : Stops cs) : Stops (gap.text ++ cs) := by
  cases gap with
  | nil => exact h
  | cons filler gap =>
    cases filler with
    | blank c hblank =>
      refine stops_cons ⟨Text.not_isWord_of_isBlank hblank, ?_⟩ _
      rintro rfl
      exact absurd hblank (by decide)
    | comment note _ => exact stops_cons (by decide) _

theorem dropWhile_comment {note : List Char} (h : '\n' ∉ note) (cs : List Char) :
    (note ++ '\n' :: cs).dropWhile (· != '\n') = '\n' :: cs := by
  rw [List.dropWhile_append_of_pos]
  · rfl
  · intro c hc
    rw [bne_iff_ne]
    rintro rfl
    exact h hc

theorem skipBlanks_append {blanks : List Char} (h : ∀ c ∈ blanks, Text.isBlank c = true)
    (cs : List Char) : skipBlanks (blanks ++ cs) = skipBlanks cs :=
  List.dropWhile_append_of_pos h

theorem skipBlanks_of_not_blank {c : Char} (h : Text.isBlank c = false) (cs : List Char) :
    skipBlanks (c :: cs) = c :: cs :=
  List.dropWhile_cons_of_neg (by simp [h])

theorem scanEntries_gap (expecting : Bool) (gap : Gap) (cs : List Char) :
    scanEntries expecting (gap.text ++ cs) = scanEntries expecting cs := by
  induction gap with
  | nil => rfl
  | cons filler gap ih =>
    cases filler with
    | blank c hblank =>
      rw [text_blank, scanEntries, if_pos hblank]
      exact ih
    | comment note hnote =>
      -- The line feed is left behind as a blank.
      rw [text_comment, scanEntries, if_neg (by decide), if_pos rfl, dropWhile_comment hnote,
        scanEntries, if_pos (by decide)]
      exact ih

/-! ## Items -/

theorem Segment.eq_cons (segment : Segment) :
    ∃ c cs, segment.1 = c :: cs ∧ Constant.isCapital c = true ∧
      ∀ c ∈ cs, Text.isWord c = true := by
  obtain ⟨cs, hcs⟩ := segment
  cases cs with
  | nil => cases hcs
  | cons c cs =>
    rw [Constant.isSegment, Bool.and_eq_true, List.all_eq_true] at hcs
    exact ⟨c, cs, rfl, hcs.1, hcs.2⟩

theorem ne_colon_of_isWord {c : Char} (h : Text.isWord c = true) : c ≠ ':' := by
  rintro rfl
  exact absurd h (by decide)

theorem constantRest_words {word : List Char} (h : ∀ c ∈ word, Text.isWord c = true)
    (cs : List Char) :
    constantRest (word ++ cs) = (word ++ (constantRest cs).1, (constantRest cs).2) := by
  induction word with
  | nil => rfl
  | cons c word ih =>
    have hc := h c List.mem_cons_self
    rw [List.cons_append, constantRest, if_pos hc, ih fun c hc => h c (List.mem_cons_of_mem _ hc)]
    · rfl
    · intro _ _ hcolon
      exact absurd hcolon (ne_colon_of_isWord hc)

theorem constantRest_of_stops {cs : List Char} (h : Stops cs) : constantRest cs = ([], cs) := by
  cases cs with
  | nil => rfl
  | cons c cs =>
    obtain ⟨hword, hcolon⟩ := h c rfl
    rw [constantRest, if_neg (by simp [hword])]
    intro _ _ hcolon'
    exact absurd hcolon' hcolon

theorem constantRest_further (segments : List Segment) {cs : List Char} (h : Stops cs) :
    constantRest (further segments ++ cs) = (further segments, cs) := by
  induction segments with
  | nil => exact constantRest_of_stops h
  | cons segment segments ih =>
    obtain ⟨c, word, hsegment, hcapital, hword⟩ := segment.eq_cons
    have hfurther : further (segment :: segments) =
        ':' :: ':' :: c :: (word ++ further segments) := by
      rw [further, List.flatMap_cons, hsegment]
      rfl
    rw [hfurther]
    simp only [List.cons_append, List.append_assoc]
    rw [constantRest, if_pos hcapital, constantRest_words hword, ih]

theorem ConstantPath.text_eq_cons (path : ConstantPath) :
    ∃ c word, path.text = c :: (word ++ further path.others) ∧ Constant.isCapital c = true ∧
      ∀ c ∈ word, Text.isWord c = true := by
  obtain ⟨c, word, hsegment, hcapital, hword⟩ := path.first.eq_cons
  refine ⟨c, word, ?_, hcapital, hword⟩
  rw [text, hsegment]
  rfl

theorem constantEntry_path (rooted : Bool) (path : ConstantPath) {cs : List Char} (h : Stops cs) :
    constantEntry ((if rooted then Constant.separator else []) ++ path.text ++ cs) =
      some ((if rooted then Constant.separator else []) ++ path.text, cs) := by
  obtain ⟨c, word, htext, hcapital, hword⟩ := path.text_eq_cons
  rw [htext]
  cases rooted with
  | true =>
    simp only [if_true, Constant.separator, List.cons_append, List.nil_append, List.append_assoc]
    rw [constantEntry, if_pos hcapital, constantRest_words hword, constantRest_further _ h]
  | false =>
    simp only [Bool.false_eq_true, if_false, List.cons_append, List.nil_append, List.append_assoc]
    rw [constantEntry, if_pos hcapital, constantRest_words hword, constantRest_further _ h]
    intro _ _ hcolon
    exact absurd hcolon (ne_colon_of_isWord (Constant.of_isCapital hcapital).1)

theorem quotedEntry_content {quote : Char} (hquote : quote ≠ '\\') {content : List Char}
    (h : '\\' ∉ content ∧ quote ∉ content) (cs : List Char) :
    quotedEntry quote (content ++ quote :: cs) = some (content, cs) := by
  induction content with
  | nil =>
    rw [List.nil_append, quotedEntry, if_pos rfl]
    exact hquote
  | cons c content ih =>
    simp only [List.mem_cons, not_or] at h
    rw [List.cons_append, quotedEntry, if_neg (Ne.symm h.2.1), ih ⟨h.1.2, h.2.2⟩]
    · rfl
    · exact Ne.symm h.1.1

/-- No item starts like another token, and a path of constants does not start like a text. -/
theorem Item.text_eq_cons (item : Item) :
    ∃ c cs, item.text = c :: cs ∧ Text.isBlank c = false ∧ c ∉ ['#', ']', ','] ∧
      ((∃ rooted path, item = .constant rooted path) → c ∉ ['"', '\'']) := by
  cases item with
  | quoted quote content plain =>
    refine ⟨quote.char, content ++ [quote.char], rfl, ?_, ?_, nofun⟩
    · cases quote <;> decide
    · cases quote <;> decide
  | constant rooted path =>
    cases rooted with
    | true => exact ⟨':', ':' :: path.text, rfl, by decide, by decide, fun _ => by decide⟩
    | false =>
      obtain ⟨c, word, htext, hcapital, -⟩ := path.text_eq_cons
      obtain ⟨-, hblank, hother⟩ := Constant.of_isCapital hcapital
      simp only [List.mem_cons, List.not_mem_nil, or_false, not_or] at hother
      exact ⟨c, _, htext, hblank, by simp [hother], fun _ => by simp [hother]⟩

theorem entryAt_item (item : Item) {cs : List Char} (h : Stops cs) :
    entryAt (item.text ++ cs) = some (item.value, cs) := by
  cases hitem : item with
  | quoted quote content plain =>
    rw [Item.text, List.cons_append, List.cons_append, List.append_assoc, List.singleton_append]
    cases quote with
    | single => exact quotedEntry_content (by decide) plain cs
    | double => exact quotedEntry_content (by decide) plain cs
  | constant rooted path =>
    obtain ⟨c, text, htext, -, -, hquotes⟩ := item.text_eq_cons
    have hunquoted := hquotes ⟨rooted, path, hitem⟩
    simp only [List.mem_cons, List.not_mem_nil, or_false, not_or] at hunquoted
    rw [hitem] at htext
    have hconstant : entryAt (c :: (text ++ cs)) = constantEntry (c :: (text ++ cs)) := by
      rw [entryAt]
      · rintro _ ⟨⟩
        exact hunquoted.1 rfl
      · rintro _ ⟨⟩
        exact hunquoted.2 rfl
    rw [htext, List.cons_append, hconstant, ← List.cons_append, ← htext]
    exact constantEntry_path rooted path h

/-- At a character that starts no other token there has to be an entry. -/
theorem scanEntries_token {c : Char} (hblank : Text.isBlank c = false)
    (hother : c ∉ ['#', ']', ',']) (expecting : Bool) (cs : List Char) :
    scanEntries expecting (c :: cs) = (entryAt (c :: cs)).bind fun found =>
      if expecting then (scanEntries false found.2).map (String.ofList found.1 :: ·) else none := by
  simp only [List.mem_cons, List.not_mem_nil, or_false, not_or] at hother
  rw [scanEntries, if_neg (by simp [hblank]), if_neg hother.1, if_neg hother.2.1,
    if_neg hother.2.2]
  split
  · next hnone => rw [hnone, Option.bind_none]
  · next hsome => rw [hsome, Option.bind_some]

theorem scanEntries_item (item : Item) {cs : List Char} (h : Stops cs) :
    scanEntries true (item.text ++ cs) =
      (scanEntries false cs).map (String.ofList item.value :: ·) := by
  obtain ⟨c, text, htext, hblank, hother, -⟩ := item.text_eq_cons
  have hentry := entryAt_item item h
  rw [htext, List.cons_append] at hentry ⊢
  rw [scanEntries_token hblank hother, hentry]
  rfl

theorem scanEntries_close (expecting : Bool) (cs : List Char) :
    scanEntries expecting (']' :: cs) = some [] := by
  rw [scanEntries, if_neg (by decide), if_neg (by decide), if_pos rfl]

theorem scanEntries_comma (cs : List Char) :
    scanEntries false (',' :: cs) = scanEntries true cs := by
  rw [scanEntries, if_neg (by decide), if_neg (by decide), if_neg (by decide), if_pos rfl]
  rfl

theorem scanEntries_items (items : Items) (cs : List Char) :
    scanEntries true (items.text ++ ']' :: cs) = some items.values := by
  induction items with
  | none gap =>
    rw [Items.text, scanEntries_gap, scanEntries_close]
    rfl
  | last before item after =>
    have hstops : Stops (after.text ++ ']' :: cs) := stops_gap after (stops_cons (by decide) _)
    rw [Items.text, List.append_assoc, List.append_assoc, scanEntries_gap,
      scanEntries_item item hstops, scanEntries_gap, scanEntries_close]
    rfl
  | cons before item after others ih =>
    have hstops : Stops (after.text ++ ',' :: (others.text ++ ']' :: cs)) :=
      stops_gap after (stops_cons (by decide) _)
    rw [Items.text]
    simp only [List.append_assoc, List.cons_append]
    rw [scanEntries_gap, scanEntries_item item hstops, scanEntries_gap, scanEntries_comma, ih]
    rfl

/-! ## The declaration -/

theorem isPrefixOf?_append (front cs : List Char) : front.isPrefixOf? (front ++ cs) = some cs :=
  List.isPrefixOf?_eq_some_iff_append_eq.mpr rfl

theorem afterModulePath_words {target word : List Char} (h : ∀ c ∈ word, Text.isWord c = true)
    (cs : List Char) :
    afterModulePath target false (word ++ cs) = afterModulePath target false cs := by
  induction word with
  | nil => rfl
  | cons c word ih =>
    have hc := h c List.mem_cons_self
    rw [List.cons_append, afterModulePath, if_pos hc,
      ih fun c hc => h c (List.mem_cons_of_mem _ hc)]
    intro _ hcolon
    exact absurd hcolon (ne_colon_of_isWord hc)

theorem afterModulePath_segment {target cs rest : List Char} (segment : Segment)
    (h : afterModulePath target true cs = some rest) :
    afterModulePath target true (segment.1 ++ Constant.separator ++ cs) = some rest := by
  obtain ⟨c, word, hsegment, hcapital, hword⟩ := segment.eq_cons
  have hskip : afterModulePath target false (word ++ ':' :: ':' :: cs) = some rest := by
    rw [afterModulePath_words hword]
    exact h
  rw [hsegment, Constant.separator]
  simp only [List.cons_append, List.nil_append, List.append_assoc]
  rw [afterModulePath, if_pos hcapital, hskip]

theorem afterModulePath_path {target cs rest : List Char} (path : ConstantPath)
    (h : afterModulePath target true cs = some rest) :
    afterModulePath target true (path.text ++ Constant.separator ++ cs) = some rest := by
  obtain ⟨first, others⟩ := path
  induction others generalizing first with
  | nil =>
    rw [ConstantPath.text, further, List.flatMap_nil, List.append_nil]
    exact afterModulePath_segment first h
  | cons second others ih =>
    have hsecond := afterModulePath_segment first (ih second)
    rw [ConstantPath.text, further, List.flatMap_cons, ← further]
    simpa only [ConstantPath.text, List.append_assoc] using hsecond

theorem afterModulePath_of_stops (target : List Char) {cs : List Char} (h : Stops cs) :
    afterModulePath target false cs = none := by
  cases cs with
  | nil => rfl
  | cons c cs =>
    obtain ⟨hword, hcolon⟩ := h c rfl
    rw [afterModulePath, if_neg (by simp [hword])]
    intro _ hcolon'
    exact absurd hcolon' hcolon

theorem afterModulePath_name (listing : Listing) {cs : List Char} (h : Stops cs) :
    afterModulePath ("Api::".toList ++ listing.moduleName.toList) true
      (listing.moduleName.toList ++ cs) = none := by
  have hsegment : Constant.isSegment listing.moduleName.toList = true := by
    cases listing <;> decide
  obtain ⟨c, word, hname, hcapital, hword⟩ := Segment.eq_cons ⟨_, hsegment⟩
  have hfurther := (afterModulePath_words hword cs).trans
    (afterModulePath_of_stops ("Api::".toList ++ listing.moduleName.toList) h)
  have hhere : afterTarget ("Api::".toList ++ listing.moduleName.toList)
      (listing.moduleName.toList ++ cs) = none := by
    cases listing <;> rfl
  replace hname : listing.moduleName.toList = c :: word := hname
  rw [hname] at hfurther hhere ⊢
  rw [List.cons_append, afterModulePath, if_pos hcapital, hfurther]
  exact hhere

/-- A target that ends the path is the last one. -/
theorem afterModulePath_target (listing : Listing) {cs : List Char} (h : Stops cs) :
    afterModulePath ("Api::".toList ++ listing.moduleName.toList) true
      ("Api::".toList ++ listing.moduleName.toList ++ cs) = some cs := by
  have hfurther : afterModulePath ("Api::".toList ++ listing.moduleName.toList) false
      ("pi::".toList ++ listing.moduleName.toList ++ cs) = none :=
    afterModulePath_name listing h
  have hends : endsWord cs = true := by
    cases cs with
    | nil => rfl
    | cons c cs => simp [endsWord, (h c rfl).1]
  have hhere : afterTarget ("Api::".toList ++ listing.moduleName.toList)
      ("Api::".toList ++ listing.moduleName.toList ++ cs) = some cs := by
    rw [afterTarget, isPrefixOf?_append]
    exact if_pos hends
  show afterModulePath _ true ('A' :: ("pi::".toList ++ listing.moduleName.toList ++ cs)) = some cs
  rw [afterModulePath, if_pos (by decide), hfurther]
  exact hhere

theorem declarationAt_module (target : List Char) {blanks : List Char}
    (h : ∀ c ∈ blanks, Text.isBlank c = true) {c : Char} (hcapital : Constant.isCapital c = true)
    {name cs : List Char} (hname : name = c :: cs) :
    declarationAt target (blanks ++ ("module ".toList ++ name)) =
      afterModulePath target true name := by
  obtain ⟨-, hblank, hother⟩ := Constant.of_isCapital hcapital
  rw [declarationAt, skipBlanks_append h]
  show afterModulePath target true (skipSeparator (skipBlanks name)) = _
  rw [hname]
  rw [skipBlanks_of_not_blank hblank, skipSeparator]
  intro _ hcolons
  exact hother (by simp [(List.cons.inj hcolons).1])

theorem declarationAt_path (path : ConstantPath) (listing : Listing) {cs : List Char}
    (hstops : Stops cs) {blanks : List Char} (h : ∀ c ∈ blanks, Text.isBlank c = true) :
    declarationAt ("Api::".toList ++ listing.moduleName.toList)
      (blanks ++ ("module ".toList ++ (path.text ++ Constant.separator ++
        ("Api::".toList ++ listing.moduleName.toList ++ cs)))) = some cs := by
  have hpath := afterModulePath_path path (afterModulePath_target listing hstops)
  obtain ⟨c, word, htext, hcapital, -⟩ := path.text_eq_cons
  have hstart (cs : List Char) : path.text ++ Constant.separator ++ cs =
      c :: (word ++ further path.others ++ Constant.separator ++ cs) := by
    rw [htext]
    rfl
  exact (declarationAt_module _ h hcapital (hstart _)).trans hpath

theorem declarationAt_declaration (file : Layout) (listing : Listing) {blanks : List Char}
    (h : ∀ c ∈ blanks, Text.isBlank c = true) :
    declarationAt ("Api::".toList ++ listing.moduleName.toList)
      (blanks ++ file.declaration listing) = some (file.assignment listing) :=
  declarationAt_path file.path listing (stops_cons (by decide) _) h

theorem declarationAt_comment (target : List Char) {blanks : List Char}
    (h : ∀ c ∈ blanks, Text.isBlank c = true) (cs : List Char) :
    declarationAt target (blanks ++ '#' :: cs) = none := by
  rw [declarationAt, skipBlanks_append h, skipBlanks_of_not_blank (by decide)]
  rfl

theorem findDeclaration_line (target : List Char) {line : List Char} (h : '\n' ∉ line)
    (cs : List Char) :
    findDeclaration target false (line ++ '\n' :: cs) = findDeclaration target true cs := by
  induction line with
  | nil => rfl
  | cons c line ih =>
    rw [List.mem_cons, not_or] at h
    rw [List.cons_append, findDeclaration, if_neg (by decide), beq_false_of_ne (Ne.symm h.1)]
    exact ih h.2

theorem findDeclaration_comment (target : List Char) (lineStart : Bool) {blanks note : List Char}
    (h : ∀ c ∈ blanks, Text.isBlank c = true) (hnote : '\n' ∉ note) (cs : List Char) :
    findDeclaration target lineStart (blanks ++ '#' :: (note ++ '\n' :: cs)) =
      findDeclaration target true cs := by
  have hcomment := declarationAt_comment target h (note ++ '\n' :: cs)
  induction blanks generalizing lineStart with
  | nil =>
    rw [List.nil_append] at hcomment ⊢
    rw [findDeclaration, hcomment, ite_self]
    exact findDeclaration_line target hnote cs
  | cons c blanks ih =>
    have hrest : ∀ c ∈ blanks, Text.isBlank c = true := fun c hc => h c (List.mem_cons_of_mem _ hc)
    rw [List.cons_append] at hcomment ⊢
    rw [findDeclaration, hcomment, ite_self]
    exact ih _ hrest (declarationAt_comment target hrest _)

theorem findDeclaration_of_here {target cs rest : List Char}
    (h : declarationAt target cs = some rest) : findDeclaration target true cs = some rest := by
  cases cs with
  | nil => cases h
  | cons c cs => rw [findDeclaration, if_pos rfl, h]

/-- Blanks before a declaration belong to it, and comments are passed over.  The blanks that were
met since the line before go through the induction. -/
theorem findDeclaration_gap {target cs rest : List Char}
    (h : ∀ blanks : List Char, (∀ c ∈ blanks, Text.isBlank c = true) →
      declarationAt target (blanks ++ cs) = some rest)
    (gap : Gap) (blanks : List Char) (hblanks : ∀ c ∈ blanks, Text.isBlank c = true) :
    findDeclaration target true (blanks ++ (gap.text ++ cs)) = some rest := by
  induction gap generalizing blanks with
  | nil => exact findDeclaration_of_here (h blanks hblanks)
  | cons filler gap ih =>
    cases filler with
    | blank c hblank =>
      have hmore := ih (blanks ++ [c])
      rw [List.append_assoc, List.singleton_append] at hmore
      rw [text_blank]
      apply hmore
      intro c' hc'
      rcases List.mem_append.mp hc' with hold | hnew
      · exact hblanks c' hold
      · rw [List.mem_singleton.mp hnew]
        exact hblank
    | comment note hnote =>
      rw [text_comment, findDeclaration_comment target true hblanks hnote]
      exact ih [] nofun

/-! ## The assignment -/

theorem assignmentAt_blank (listing : Listing) {c : Char} (h : Text.isBlank c = true)
    (cs : List Char) : assignmentAt listing.constantName.toList (c :: cs) = none := by
  obtain ⟨n, name, hname, hn⟩ : ∃ n name, listing.constantName.toList = n :: name ∧
      Text.isBlank n = false := by
    cases listing <;> exact ⟨_, _, rfl, by decide⟩
  have hne : n ≠ c := by
    rintro rfl
    rw [hn] at h
    cases h
  rw [hname, assignmentAt, List.isPrefixOf?, if_neg (by simpa using hne)]

theorem findAssignment_indent (listing : Listing) (cs : List Char)
    (indent : List { c : Char // Text.isBlank c = true }) :
    findAssignment listing.constantName.toList false (indent.map Subtype.val ++ cs) =
      findAssignment listing.constantName.toList false cs := by
  induction indent with
  | nil => rfl
  | cons c indent ih =>
    rw [List.map_cons, List.cons_append, findAssignment, assignmentAt_blank listing c.2, ite_self,
      Text.not_isWord_of_isBlank c.2]
    exact ih

theorem findAssignment_named (listing : Listing)
    (indent : List { c : Char // Text.isBlank c = true }) (list : List Char) :
    findAssignment listing.constantName.toList true ('\n' :: (indent.map Subtype.val ++
      (listing.constantName.toList ++ (" = [".toList ++ list)))) = some list := by
  have hhere : assignmentAt listing.constantName.toList
      (listing.constantName.toList ++ (" = [".toList ++ list)) = some list := by
    rw [assignmentAt, isPrefixOf?_append]
    rfl
  obtain ⟨n, name, hname⟩ : ∃ n name, listing.constantName.toList = n :: name := by
    cases listing <;> exact ⟨_, _, rfl⟩
  rw [findAssignment, if_pos rfl]
  show findAssignment listing.constantName.toList false _ = _
  rw [findAssignment_indent]
  rw [hname] at hhere ⊢
  rw [List.cons_append] at hhere ⊢
  rw [findAssignment, if_neg (by decide), hhere]

theorem findAssignment_assignment (file : Layout) (listing : Listing) :
    findAssignment listing.constantName.toList true (file.assignment listing) =
      some (file.items.text ++ ']' :: file.ending) :=
  findAssignment_named listing file.indent _

/-- The entries of a list are read from any layout, in order. -/
theorem entries_text (listing : Listing) (file : Layout) :
    listing.entries (file.text listing) = file.items.values := by
  have hfound := findDeclaration_gap (fun _ => declarationAt_declaration file listing)
    file.preamble [] nofun
  have htext : (file.text listing).toList = file.preamble.text ++ file.declaration listing :=
    String.toList_ofList
  rw [List.nil_append] at hfound
  rw [Listing.entries, htext, hfound]
  dsimp only
  rw [findAssignment_assignment]
  dsimp only
  rw [scanEntries_items, Option.getD_some]

example :
    Layout.text
      { preamble := [.comment " Public.".toList (by decide)]
        path := ⟨⟨"Billing".toList, by decide⟩, []⟩
        indent := [⟨' ', by decide⟩]
        items := .cons [] (.constant true ⟨⟨"Billing".toList, by decide⟩, []⟩) []
          (.last [.blank ' ' (by decide)] (.quoted .single "b]".toList (by decide)) [])
        ending := ".freeze".toList } .allowlist =
      "# Public.\nmodule Billing::Api::Allowlist\n PUBLIC_MODULES = [::Billing, 'b]'].freeze" := by
  decide +kernel

end PublicApi
end Bulkhead
