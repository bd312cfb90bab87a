/-
The grammar of published lists: the scanner accepts its texts and no others.

A `Body` is what may stand between the brackets of a list: entries with single commas between them,
gaps around both, and a comma after the last entry if one is wanted.  Any text from the opening
bracket on is either a body, a closing bracket and something more, or it has no entries.  For every
token there is one statement of what the scanner takes it from; in `scanEntries_eq_some_iff` they
come together, by what stands after a gap.
-/
import Bulkhead.Proofs.ListingLayout

namespace Bulkhead
namespace PublicApi

/-! ## The grammar -/

/-- A character of a text in quotes, or a backslash with the character after it. -/
inductive Mark (quote : Quote) where
  | plain (c : Char) (isPlain : c ≠ '\\' ∧ c ≠ quote.char)
  | escaped (c : Char) (oneLine : c ≠ '\n')

def Mark.text {quote : Quote} : Mark quote → List Char
  | .plain c _ => [c]
  | .escaped c _ => ['\\', c]

def content {quote : Quote} (marks : List (Mark quote)) : List Char :=
  marks.flatMap Mark.text

/-- An entry of a list: a path of constants, or a text in quotes that may hold the quote after a
backslash. -/
inductive Entry where
  | constant (rooted : Bool) (path : ConstantPath)
  | quoted (quote : Quote) (marks : List (Mark quote))

namespace Entry

def text : Entry → List Char
  | .constant rooted path => (Item.constant rooted path).text
  | .quoted quote marks => quote.char :: (content marks ++ [quote.char])

/-- Paths are taken as they are, and texts without their quotes but with their backslashes. -/
def value : Entry → List Char
  | .constant rooted path => (Item.constant rooted path).value
  | .quoted _ marks => content marks

/-- No longer path of constants could be taken before what follows. -/
def IsMaximal : Entry → List Char → Prop
  | .constant rooted path, following =>
    ∀ rooted' path', (constant rooted' path').text <+: (constant rooted path).text ++ following →
      (constant rooted' path').text.length ≤ (constant rooted path).text.length
  | .quoted _ _, _ => True

end Entry

/-- What stands between the brackets of a list.  If no entry follows the comma after an entry, it is
a trailing comma. -/
inductive Body where
  | none (gap : Gap)
  | last (before : Gap) (entry : Entry) (after : Gap)
  | cons (before : Gap) (entry : Entry) (after : Gap) (others : Body)

namespace Body

def text : Body → List Char
  | .none gap => gap.text
  | .last before entry after => before.text ++ (entry.text ++ after.text)
  | .cons before entry after others =>
    before.text ++ (entry.text ++ (after.text ++ ',' :: others.text))

def values : Body → List String
  | .none _ => []
  | .last _ entry _ => [String.ofList entry.value]
  | .cons _ entry _ others => String.ofList entry.value :: others.values

/-- The entries, each with all that follows it if the body is followed by `cs`. -/
def places : Body → List Char → List (Entry × List Char)
  | .none _, _ => []
  | .last _ entry after, cs => [(entry, after.text ++ cs)]
  | .cons _ entry after others, cs =>
    (entry, after.text ++ ',' :: (others.text ++ cs)) :: others.places cs

end Body

/-! ## Quoted texts -/

theorem Quote.char_ne_backslash (quote : Quote) : quote.char ≠ '\\' := by
  cases quote <;> decide

theorem quotedEntry_marks {quote : Quote} (marks : List (Mark quote)) (cs : List Char) :
    quotedEntry quote.char (content marks ++ quote.char :: cs) = some (content marks, cs) := by
  induction marks with
  | nil =>
    rw [content, List.flatMap_nil, List.nil_append, quotedEntry, if_pos rfl]
    exact quote.char_ne_backslash
  | cons mark marks ih =>
    rw [content, List.flatMap_cons, ← content, List.append_assoc]
    cases mark with
    | plain c hplain =>
      rw [Mark.text, List.singleton_append, List.singleton_append, quotedEntry, if_neg hplain.2, ih]
      · rfl
      · exact hplain.1
    | escaped c honeLine =>
      rw [Mark.text]
      simp only [List.cons_append, List.nil_append]
      rw [quotedEntry, if_neg honeLine, ih]
      rfl

theorem marks_of_quotedEntry {quote : Quote} {cs value rest : List Char}
    (h : quotedEntry quote.char cs = some (value, rest)) :
    ∃ marks : List (Mark quote), value = content marks ∧
      cs = content marks ++ quote.char :: rest := by
  fun_induction quotedEntry quote.char cs generalizing value with
  | case1 => cases h
  | case2 => cases h
  | case3 => cases h
  | case4 c cs honeLine ih =>
    obtain ⟨found, hfound, hvalue⟩ := Option.map_eq_some_iff.mp h
    cases hvalue
    obtain ⟨marks, hmarks, hcs⟩ := ih hfound
    exact ⟨.escaped c honeLine :: marks, by rw [hmarks]; rfl, by rw [hcs]; rfl⟩
  | case5 c cs =>
    cases h
    exact ⟨[], rfl, rfl⟩
  | case6 c cs hbackslash hquote ih =>
    obtain ⟨found, hfound, hvalue⟩ := Option.map_eq_some_iff.mp h
    cases hvalue
    obtain ⟨marks, hmarks, hcs⟩ := ih hfound
    exact ⟨.plain c ⟨hbackslash, hquote⟩ :: marks, by rw [hmarks]; rfl, by rw [hcs]; rfl⟩

/-! ## Paths of constants -/

theorem isSegment_cons {c : Char} {word : List Char} (hcapital : Constant.isCapital c = true)
    (hword : ∀ c ∈ word, Text.isWord c = true) : Constant.isSegment (c :: word) = true := by
  rw [Constant.isSegment, hcapital, Bool.true_and, List.all_eq_true]
  exact hword

theorem segments_of_constantRest (cs : List Char) :
    ∃ (word : List Char) (segments : List Segment), (∀ c ∈ word, Text.isWord c = true) ∧
      (constantRest cs).1 = word ++ further segments ∧
      cs = (constantRest cs).1 ++ (constantRest cs).2 := by
  fun_induction constantRest cs with
  | case1 => exact ⟨[], [], List.forall_mem_nil _, rfl, rfl⟩
  | case2 c cs hcapital found ih =>
    obtain ⟨word, segments, hword, htaken, hcs⟩ := ih
    refine ⟨[], ⟨c :: word, isSegment_cons hcapital hword⟩ :: segments, List.forall_mem_nil _,
      ?_, ?_⟩
    · rw [further, List.flatMap_cons, ← further]
      simp only [found, htaken, Constant.separator, List.cons_append, List.nil_append]
    · simp only [List.cons_append, found]
      rw [← hcs]
  | case3 => exact ⟨[], [], List.forall_mem_nil _, rfl, rfl⟩
  | case4 c cs _ hc found ih =>
    obtain ⟨word, segments, hword, htaken, hcs⟩ := ih
    refine ⟨c :: word, segments, ?_, ?_, ?_⟩
    · intro c' hc'
      rcases List.mem_cons.mp hc' with rfl | hc'
      · exact hc
      · exact hword c' hc'
    · simp only [found, htaken, List.cons_append]
    · simp only [List.cons_append, found]
      rw [← hcs]
  | case5 => exact ⟨[], [], List.forall_mem_nil _, rfl, rfl⟩

theorem path_of_constantRest {c : Char} (hcapital : Constant.isCapital c = true) (cs : List Char) :
    ∃ path : ConstantPath, path.text = c :: (constantRest cs).1 ∧
      cs = (constantRest cs).1 ++ (constantRest cs).2 := by
  obtain ⟨word, segments, hword, htaken, hcs⟩ := segments_of_constantRest cs
  refine ⟨⟨⟨c :: word, isSegment_cons hcapital hword⟩, segments⟩, ?_, hcs⟩
  rw [ConstantPath.text, htaken]
  rfl

theorem path_of_constantEntry {cs value rest : List Char}
    (h : constantEntry cs = some (value, rest)) :
    ∃ rooted path, value = (Item.constant rooted path).value ∧
      cs = (Item.constant rooted path).text ++ rest := by
  fun_cases constantEntry cs with
  | case1 c cs hcapital found =>
    obtain ⟨path, htext, hcs⟩ := path_of_constantRest hcapital cs
    rw [constantEntry, if_pos hcapital] at h
    cases h
    refine ⟨true, path, ?_, ?_⟩
    · rw [Item.value, htext]
      rfl
    · rw [Item.text, htext]
      exact congrArg (':' :: ':' :: c :: ·) hcs
  | case2 c cs hcapital =>
    rw [constantEntry, if_neg hcapital] at h
    cases h
  | case3 c cs hcolons hcapital found =>
    obtain ⟨path, htext, hcs⟩ := path_of_constantRest hcapital cs
    rw [constantEntry, if_pos hcapital] at h
    · cases h
      refine ⟨false, path, ?_, ?_⟩
      · rw [Item.value, htext]
        rfl
      · rw [Item.text, htext]
        exact congrArg (c :: ·) hcs
    · exact hcolons
  | case4 c cs hcolons hcapital =>
    rw [constantEntry, if_neg hcapital] at h
    · cases h
    · exact hcolons
  | case5 => cases h

/-- A path is made of word characters and colons. -/
theorem word_or_colon_of_mem {rooted : Bool} {path : ConstantPath} {c : Char}
    (h : c ∈ (Item.constant rooted path).text) : Text.isWord c = true ∨ c = ':' := by
  have hsegment {segment : Segment} (hc : c ∈ segment.1) : Text.isWord c = true := by
    obtain ⟨c', word, hsegment, hcapital, hword⟩ := segment.eq_cons
    rw [hsegment] at hc
    rcases List.mem_cons.mp hc with rfl | hc
    · exact (Constant.of_isCapital hcapital).1
    · exact hword c hc
  have hseparator (hc : c ∈ Constant.separator) : c = ':' := by
    simpa [Constant.separator] using hc
  rw [Item.text, ConstantPath.text, further] at h
  simp only [List.mem_append, List.mem_flatMap] at h
  rcases h with hroot | hfirst | ⟨segment, -, hcolon | hword⟩
  · cases rooted with
    | true => exact .inr (hseparator hroot)
    | false => cases hroot
  · exact .inl (hsegment hfirst)
  · exact .inr (hseparator hcolon)
  · exact .inl (hsegment hword)

/-! ## Entries -/

theorem entryAt_entry (entry : Entry) {cs : List Char} (h : Stops cs) :
    entryAt (entry.text ++ cs) = some (entry.value, cs) := by
  cases entry with
  | constant rooted path => exact entryAt_item (.constant rooted path) h
  | quoted quote marks =>
    rw [Entry.text, List.cons_append, List.append_assoc, List.singleton_append]
    cases quote with
    | single => exact quotedEntry_marks marks cs
    | double => exact quotedEntry_marks marks cs

theorem entry_of_entryAt {cs value rest : List Char} (h : entryAt cs = some (value, rest)) :
    ∃ entry : Entry, value = entry.value ∧ cs = entry.text ++ rest := by
  have hquoted {quote : Quote} {cs : List Char}
      (h : quotedEntry quote.char cs = some (value, rest)) :
      ∃ entry : Entry, value = entry.value ∧ quote.char :: cs = entry.text ++ rest := by
    obtain ⟨marks, hvalue, hcs⟩ := marks_of_quotedEntry h
    refine ⟨.quoted quote marks, hvalue, ?_⟩
    rw [Entry.text, hcs, List.cons_append, List.append_assoc, List.singleton_append]
  fun_cases entryAt cs with
  | case1 cs => exact hquoted (show quotedEntry Quote.double.char cs = _ from h)
  | case2 cs => exact hquoted (show quotedEntry Quote.single.char cs = _ from h)
  | case3 =>
    rw [entryAt] at h
    · obtain ⟨rooted, path, hvalue, hcs⟩ := path_of_constantEntry h
      exact ⟨.constant rooted path, hvalue, hcs⟩
    · assumption
    · assumption

theorem Entry.text_eq_cons (entry : Entry) :
    ∃ c cs, entry.text = c :: cs ∧ Text.isBlank c = false ∧ c ∉ ['#', ']', ','] := by
  cases entry with
  | constant rooted path =>
    obtain ⟨c, cs, htext, hblank, hother, -⟩ := (Item.constant rooted path).text_eq_cons
    exact ⟨c, cs, htext, hblank, hother⟩
  | quoted quote marks =>
    refine ⟨quote.char, _, rfl, ?_, ?_⟩
    · cases quote <;> decide
    · cases quote <;> decide

theorem Entry.isMaximal_of_stops (entry : Entry) {following : List Char} (h : Stops following) :
    entry.IsMaximal following := by
  cases entry with
  | quoted quote marks => trivial
  | constant rooted path =>
    intro rooted' path' hfront
    by_contra hlonger
    -- A longer path would take the first character of what follows.
    obtain ⟨extra, hextra⟩ : (Entry.constant rooted path).text <+: (constant rooted' path').text :=
      List.prefix_of_prefix_length_le (List.prefix_append _ _) hfront (by omega)
    rw [← hextra, List.prefix_append_right_inj] at hfront
    cases extra with
    | nil =>
      rw [← hextra, List.append_nil] at hlonger
      exact hlonger (Nat.le_refl _)
    | cons c extra =>
      obtain ⟨tail, rfl⟩ := hfront
      have hc : c ∈ (constant rooted' path').text := by
        rw [← hextra]
        exact List.mem_append_right _ List.mem_cons_self
      obtain ⟨hword, hcolon⟩ := h c rfl
      rcases word_or_colon_of_mem hc with hword' | rfl
      · rw [hword'] at hword
        cases hword
      · exact hcolon rfl

/-! ## Lists -/

theorem scanEntries_entry (entry : Entry) {cs : List Char} (h : Stops cs) :
    scanEntries true (entry.text ++ cs) =
      (scanEntries false cs).map (String.ofList entry.value :: ·) := by
  obtain ⟨c, text, htext, hblank, hother⟩ := entry.text_eq_cons
  have hentry := entryAt_entry entry h
  rw [htext, List.cons_append] at hentry ⊢
  rw [scanEntries_token hblank hother, hentry]
  rfl

/-- Where an entry ends in a body: at a gap, and after it at a comma or at the closing bracket. -/
theorem stops_of_mem_places {body : Body} {cs : List Char} {place : Entry × List Char}
    (h : place ∈ body.places (']' :: cs)) : Stops place.2 := by
  induction body with
  | none gap => cases h
  | last before entry after =>
    rw [List.mem_singleton.mp h]
    exact stops_gap after (stops_cons (by decide) _)
  | cons before entry after others ih =>
    rcases List.mem_cons.mp h with rfl | h
    · exact stops_gap after (stops_cons (by decide) _)
    · exact ih h

theorem scanEntries_body (body : Body) (cs : List Char) :
    scanEntries true (body.text ++ ']' :: cs) = some body.values := by
  induction body with
  | none gap =>
    rw [Body.text, scanEntries_gap, scanEntries_close]
    rfl
  | last before entry after =>
    have hstops : Stops (after.text ++ ']' :: cs) := stops_gap after (stops_cons (by decide) _)
    rw [Body.text, List.append_assoc, List.append_assoc, scanEntries_gap,
      scanEntries_entry entry hstops, scanEntries_gap, scanEntries_close]
    rfl
  | cons before entry after others ih =>
    have hstops : Stops (after.text ++ ',' :: (others.text ++ ']' :: cs)) :=
      stops_gap after (stops_cons (by decide) _)
    rw [Body.text]
    simp only [List.append_assoc, List.cons_append]
    rw [scanEntries_gap, scanEntries_entry entry hstops, scanEntries_gap, scanEntries_comma, ih]
    rfl

/-- A line is what stands before a line feed. -/
theorem line_of_dropWhile {cs below : List Char} {c : Char}
    (h : cs.dropWhile (· != '\n') = c :: below) :
    ∃ note, '\n' ∉ note ∧ cs = note ++ '\n' :: below := by
  refine ⟨cs.takeWhile (· != '\n'), fun hfeed => ?_, ?_⟩
  · exact absurd (List.all_eq_true.mp List.all_takeWhile _ hfeed) (by decide)
  · have hc := List.head_dropWhile_not (· != '\n') (l := cs) (by simp [h])
    simp only [h, List.head_cons, bne_eq_false_iff_eq] at hc
    rw [hc] at h
    rw [← h, List.takeWhile_append_dropWhile]

/-- A list that is accepted goes on after each gap, with a token. -/
theorem exists_gap {expecting : Bool} {cs : List Char} {values : List String}
    (h : scanEntries expecting cs = some values) :
    ∃ (gap : Gap) (c : Char) (rest : List Char), cs = gap.text ++ c :: rest ∧
      Text.isBlank c = false ∧ c ≠ '#' := by
  induction hlength : cs.length using Nat.strongRecOn generalizing cs with
  | ind n ih =>
    subst hlength
    cases cs with
    | nil =>
      rw [scanEntries] at h
      cases h
    | cons c cs =>
      by_cases hblank : Text.isBlank c = true
      · rw [scanEntries, if_pos hblank] at h
        obtain ⟨gap, c', rest, hcs, htoken⟩ := ih cs.length (by simp) h rfl
        exact ⟨.blank c hblank :: gap, c', rest, by rw [text_blank, hcs], htoken⟩
      by_cases hhash : c = '#'
      · subst hhash
        rw [scanEntries, if_neg hblank, if_pos rfl] at h
        cases hline : cs.dropWhile (· != '\n') with
        | nil =>
          rw [hline, scanEntries] at h
          cases h
        | cons feed below =>
          obtain ⟨note, hnote, rfl⟩ := line_of_dropWhile hline
          have hshorter : below.length < ('#' :: (note ++ '\n' :: below)).length := by
            simp only [List.length_cons, List.length_append]
            omega
          rw [dropWhile_comment hnote, scanEntries, if_pos (by decide)] at h
          obtain ⟨gap, c', rest, hbelow, htoken⟩ := ih below.length hshorter h rfl
          exact ⟨.comment note hnote :: gap, c', rest, by rw [text_comment, hbelow], htoken⟩
      · exact ⟨[], c, cs, rfl, by simpa using hblank, hhash⟩

/-- What a scan can meet after a gap: the end of the list, a comma after an entry, or an entry. -/
theorem scanEntries_cases {expecting : Bool} {c : Char} {cs : List Char} {values : List String}
    (hblank : Text.isBlank c = false) (hhash : c ≠ '#')
    (h : scanEntries expecting (c :: cs) = some values) :
    (c = ']' ∧ values = []) ∨
      (expecting = false ∧ c = ',' ∧ scanEntries true cs = some values) ∨
      expecting = true ∧ ∃ entry after others, c :: cs = Entry.text entry ++ after ∧
        scanEntries false after = some others ∧ values = String.ofList entry.value :: others := by
  by_cases hclose : c = ']'
  · rw [hclose, scanEntries_close] at h
    exact .inl ⟨hclose, (Option.some.inj h).symm⟩
  by_cases hcomma : c = ','
  · subst hcomma
    cases expecting with
    | true =>
      rw [scanEntries, if_neg (by decide), if_neg (by decide), if_neg (by decide), if_pos rfl] at h
      cases h
    | false => exact .inr (.inl ⟨rfl, rfl, scanEntries_comma cs ▸ h⟩)
  rw [scanEntries_token hblank (by simp [hhash, hclose, hcomma])] at h
  obtain ⟨⟨value, after⟩, hentry, h⟩ := Option.bind_eq_some_iff.mp h
  cases expecting with
  | false => cases h
  | true =>
    obtain ⟨others, hothers, hvalues⟩ := Option.map_eq_some_iff.mp h
    obtain ⟨entry, rfl, hcs⟩ := entry_of_entryAt hentry
    exact .inr (.inr ⟨rfl, entry, after, others, hcs, hothers, hvalues.symm⟩)

theorem body_of_scanEntries {cs : List Char} {values : List String}
    (h : scanEntries true cs = some values) :
    ∃ (body : Body) (rest : List Char), cs = body.text ++ ']' :: rest ∧ body.values = values := by
  -- On the length of the text: what follows a comma is a shorter list.
  induction hlength : cs.length using Nat.strongRecOn generalizing cs values with
  | ind n ih =>
    subst hlength
    obtain ⟨before, c, cs, rfl, hblank, hhash⟩ := exists_gap h
    rw [scanEntries_gap] at h
    rcases scanEntries_cases hblank hhash h with
      ⟨rfl, rfl⟩ | ⟨hexpecting, -⟩ | ⟨-, entry, afterEntry, others, hentry, hothers, rfl⟩
    · exact ⟨.none before, cs, rfl, rfl⟩
    · cases hexpecting
    rw [hentry]
    obtain ⟨after, c', cs', rfl, hblank', hhash'⟩ := exists_gap hothers
    rw [scanEntries_gap] at hothers
    rcases scanEntries_cases hblank' hhash' hothers with
      ⟨rfl, rfl⟩ | ⟨-, rfl, hmore⟩ | ⟨hexpecting, -⟩
    · refine ⟨.last before entry after, cs', ?_, rfl⟩
      simp only [Body.text, List.append_assoc]
    · have hshorter : cs'.length < (before.text ++ c :: cs).length := by
        rw [hentry]
        simp only [List.length_append, List.length_cons]
        omega
      obtain ⟨body, rest, rfl, hvalues⟩ := ih cs'.length hshorter hmore rfl
      refine ⟨.cons before entry after body, rest, ?_, congrArg _ hvalues⟩
      simp only [Body.text, List.append_assoc, List.cons_append]
    · cases hexpecting

theorem scanEntries_eq_some_iff {cs : List Char} {values : List String} :
    scanEntries true cs = some values ↔
      ∃ (body : Body) (rest : List Char), cs = body.text ++ ']' :: rest ∧ body.values = values := by
  refine ⟨body_of_scanEntries, ?_⟩
  rintro ⟨body, rest, rfl, rfl⟩
  exact scanEntries_body body rest

/-! ## The end of the scan -/

/-- The scan in at most so many turns, each of which takes a token or a blank; none if it is not
over by then. -/
def scanWithin : Nat → Bool → List Char → Option (Option (List String))
  | 0, _, _ => none
  | _ + 1, _, [] => some none
  | turns + 1, expecting, c :: rest =>
    if Text.isBlank c then scanWithin turns expecting rest
    else if c = '#' then scanWithin turns expecting (rest.dropWhile (· != '\n'))
    else if c = ']' then some (some [])
    else if c = ',' then if expecting then some none else scanWithin turns true rest
    else
      match entryAt (c :: rest) with
      | none => some none
      | some (entry, after) =>
        if expecting then
          (scanWithin turns false after).map (·.map (String.ofList entry :: ·))
        else some none

theorem scanWithin_eq {turns : Nat} {cs : List Char} (h : cs.length < turns) (expecting : Bool) :
    scanWithin turns expecting cs = some (scanEntries expecting cs) := by
  induction turns generalizing expecting cs with
  | zero => cases h
  | succ turns ih =>
    cases cs with
    | nil => rw [scanWithin, scanEntries]
    | cons c rest =>
      rw [List.length_cons, Nat.add_lt_add_iff_right] at h
      have hcomment : (rest.dropWhile (· != '\n')).length < turns :=
        Nat.lt_of_le_of_lt (List.dropWhile_sublist _).length_le h
      by_cases htoken : Text.isBlank c = false ∧ c ∉ ['#', ']', ',']
      · obtain ⟨hblank, hother⟩ := htoken
        rw [scanEntries_token hblank hother]
        simp only [List.mem_cons, List.not_mem_nil, or_false, not_or] at hother
        rw [scanWithin, if_neg (by simp [hblank]), if_neg hother.1, if_neg hother.2.1,
          if_neg hother.2.2]
        cases hentry : entryAt (c :: rest) with
        | none => rfl
        | some found =>
          have hafter : found.2.length < turns :=
            Nat.lt_of_le_of_lt (Nat.le_of_lt_succ (entryAt_length hentry)) h
          cases expecting with
          | true => exact congrArg (Option.map _) (ih hafter false)
          | false => rfl
      · rw [scanWithin, scanEntries, ih h, ih hcomment, ih h]
        split
        · rfl
        split
        · rfl
        split
        · rfl
        split
        · split
          · rfl
          · rfl
        · next hblank hhash hclose hcomma =>
          exact absurd ⟨by simpa using hblank, by simp [hhash, hclose, hcomma]⟩ htoken

/-! ## Published lists -/

theorem Listing.entries_of_found {listing : Listing} {text : String} {rest cs : List Char}
    (hdeclared : findDeclaration ("Api::".toList ++ listing.moduleName.toList) true text.toList =
      some rest)
    (hassigned : findAssignment listing.constantName.toList true rest = some cs) :
    listing.entries text = (scanEntries true cs).getD [] := by
  rw [entries, hdeclared]
  dsimp only
  rw [hassigned]

/-- Let `cs` be the text after the opening bracket of the list that is found.  If it is a body, a
closing bracket and something more, the entries are those of the body, each as long as it can be;
otherwise there are none.  The scan is over after as many turns as there are characters, and one. -/
theorem entries_iff_grammar (listing : Listing) {text : String} {rest cs : List Char}
    (hdeclared : findDeclaration ("Api::".toList ++ listing.moduleName.toList) true text.toList =
      some rest)
    (hassigned : findAssignment listing.constantName.toList true rest = some cs) :
    (∀ (body : Body) (after : List Char), cs = body.text ++ ']' :: after →
      listing.entries text = body.values ∧
      ∀ place ∈ body.places (']' :: after), place.1.IsMaximal place.2) ∧
    ((¬∃ (body : Body) (after : List Char), cs = body.text ++ ']' :: after) →
      listing.entries text = []) ∧
    scanWithin (cs.length + 1) true cs = some (scanEntries true cs) := by
  rw [Listing.entries_of_found hdeclared hassigned]
  refine ⟨?_, fun hnone => ?_, scanWithin_eq (Nat.lt_succ_self _) true⟩
  · rintro body after rfl
    rw [scanEntries_body]
    exact ⟨rfl, fun place hplace => place.1.isMaximal_of_stops (stops_of_mem_places hplace)⟩
  · cases hscan : scanEntries true cs with
    | none => rfl
    | some values =>
      obtain ⟨body, after, hcs, -⟩ := scanEntries_eq_some_iff.mp hscan
      exact absurd ⟨body, after, hcs⟩ hnone

/-- A list with a bracket in a comment, an escaped quote and a trailing comma. -/
def escapedBody : Body :=
  .cons [.comment " ]".toList (by decide)]
    (.quoted .single [.plain 'a' (by decide), .escaped '\'' (by decide)]) []
    (.cons [.blank ' ' (by decide)]
      (.constant true ⟨⟨"A".toList, by decide⟩, [⟨"B".toList, by decide⟩]⟩) [] (.none []))

/-- The second list has a small letter where a segment has to start. -/
theorem entries_escaped :
    Listing.legacyDependents.entries
      "module Api::LegacyDependents\nFILES_WITH_DIRECT_ACCESS = [# ]\n'a\\'', ::A::B,]" =
        ["a\\'", "::A::B"] ∧
    Listing.legacyDependents.entries
      "module Api::LegacyDependents\nFILES_WITH_DIRECT_ACCESS = [A::b]" = [] := by
  have hdeclared : findDeclaration ("Api::".toList ++ Listing.legacyDependents.moduleName.toList)
      true "module Api::LegacyDependents\nFILES_WITH_DIRECT_ACCESS = [# ]\n'a\\'', ::A::B,]".toList =
        some "\nFILES_WITH_DIRECT_ACCESS = [# ]\n'a\\'', ::A::B,]".toList := by decide +kernel
  have hassigned : findAssignment Listing.legacyDependents.constantName.toList true
      "\nFILES_WITH_DIRECT_ACCESS = [# ]\n'a\\'', ::A::B,]".toList =
        some "# ]\n'a\\'', ::A::B,]".toList := by decide +kernel
  have hdeclared' : findDeclaration ("Api::".toList ++ Listing.legacyDependents.moduleName.toList)
      true "module Api::LegacyDependents\nFILES_WITH_DIRECT_ACCESS = [A::b]".toList =
        some "\nFILES_WITH_DIRECT_ACCESS = [A::b]".toList := by decide +kernel
  have hassigned' : findAssignment Listing.legacyDependents.constantName.toList true
      "\nFILES_WITH_DIRECT_ACCESS = [A::b]".toList = some "A::b]".toList := by decide +kernel
  have hrefused : scanWithin 6 true "A::b]".toList = some none := by decide +kernel
  refine ⟨?_, (entries_iff_grammar _ hdeclared' hassigned').2.1 ?_⟩
  · have hbody : "# ]\n'a\\'', ::A::B,]".toList = escapedBody.text ++ [']'] := by decide +kernel
    have hvalues : escapedBody.values = ["a\\'", "::A::B"] := by decide +kernel
    rw [← hvalues]
    exact ((entries_iff_grammar _ hdeclared hassigned).1 escapedBody [] hbody).1
  · rintro ⟨body, after, hcs⟩
    rw [scanWithin_eq (by decide), hcs, scanEntries_body] at hrefused
    cases hrefused

end PublicApi
end Bulkhead
