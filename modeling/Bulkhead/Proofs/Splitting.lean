/-
Texts that are cut at a separator and put together again, and the tokens between blanks.

The functions that split and replace read a text from left to right and count down over each match.
`cut_induction` follows them without the counter: a text is empty, begins with the separator, or
begins with a character at which no separator stands.  From it come the two halves of splitting.  The
parts of a text, joined, give the text back and hold no separator; and parts inside which no separator
can begin are found again.  Replacing is joining the parts by another text.
-/
import Bulkhead.Proofs.ListingLayout
import Bulkhead.Proofs.Lineage

namespace Bulkhead

namespace Text

variable {separator : List Char}

/-! ## One match at a time -/

theorem splitFrom_skip (separator : List Char) (skip : Nat) (cs : List Char) :
    splitFrom separator skip cs = splitFrom separator 0 (cs.drop skip) := by
  induction cs generalizing skip with
  | nil => rw [List.drop_nil, splitFrom, splitFrom]
  | cons c cs ih =>
    cases skip with
    | zero => rfl
    | succ skip => rw [splitFrom, ih, List.drop_succ_cons]

theorem splitAll_eq (hseparator : separator ≠ []) (cs : List Char) :
    splitAll separator cs = splitFrom separator 0 cs := by
  rw [splitAll, if_neg (by simpa using hseparator)]

theorem splitFrom_ne_nil (separator : List Char) (skip : Nat) (cs : List Char) :
    splitFrom separator skip cs ≠ [] := by
  induction cs generalizing skip with
  | nil => exact List.cons_ne_nil _ _
  | cons c cs ih =>
    cases skip with
    | succ skip => exact ih skip
    | zero =>
      rw [splitFrom]
      split
      · exact List.cons_ne_nil _ _
      · split
        · exact List.cons_ne_nil _ _
        · exact List.cons_ne_nil _ _

theorem splitAll_ne_nil (separator cs : List Char) : splitAll separator cs ≠ [] := by
  rw [splitAll]
  split
  · exact List.cons_ne_nil _ _
  · exact splitFrom_ne_nil separator 0 cs

theorem splitAll_nil (hseparator : separator ≠ []) : splitAll separator [] = [[]] := by
  rw [splitAll_eq hseparator, splitFrom]

theorem splitAll_separator (hseparator : separator ≠ []) (cs : List Char) :
    splitAll separator (separator ++ cs) = [] :: splitAll separator cs := by
  obtain ⟨m, rest, rfl⟩ := List.exists_cons_of_ne_nil hseparator
  have hmatch : (m :: rest).isPrefixOf (m :: (rest ++ cs)) = true :=
    List.isPrefixOf_iff_prefix.mpr (List.prefix_append (m :: rest) cs)
  rw [splitAll_eq hseparator, splitAll_eq hseparator, List.cons_append, splitFrom, if_pos hmatch,
    splitFrom_skip, List.length_cons, Nat.add_sub_cancel, List.drop_left]

theorem splitFrom_cons {c : Char} {cs : List Char} (h : ¬ separator <+: c :: cs) :
    splitFrom separator 0 (c :: cs) = (splitFrom separator 0 cs).modifyHead (c :: ·) := by
  have hparts := splitFrom_ne_nil separator 0 cs
  rw [splitFrom, if_neg (by rwa [List.isPrefixOf_iff_prefix])]
  cases hsplit : splitFrom separator 0 cs with
  | nil => exact absurd hsplit hparts
  | cons part parts => rfl

theorem splitAll_cons {c : Char} {cs : List Char} (h : ¬ separator <+: c :: cs) :
    splitAll separator (c :: cs) = (splitAll separator cs).modifyHead (c :: ·) := by
  have hseparator : separator ≠ [] := by
    rintro rfl
    exact h List.nil_prefix
  rw [splitAll_eq hseparator, splitAll_eq hseparator, splitFrom_cons h]

@[elab_as_elim]
theorem cut_induction (hseparator : separator ≠ []) {motive : List Char → Prop}
    (nil : motive []) (separated : ∀ cs, motive cs → motive (separator ++ cs))
    (cons : ∀ c cs, ¬ separator <+: c :: cs → motive cs → motive (c :: cs)) (cs : List Char) :
    motive cs := by
  induction hlength : cs.length using Nat.strongRecOn generalizing cs with
  | ind n ih =>
    cases cs with
    | nil => exact nil
    | cons c rest =>
      by_cases hmatch : separator <+: c :: rest
      · obtain ⟨after, hafter⟩ := hmatch
        have hshorter : after.length < n := by
          have := List.length_pos_of_ne_nil hseparator
          rw [← hlength, ← hafter, List.length_append]
          omega
        rw [← hafter]
        exact separated after (ih _ hshorter after rfl)
      · have hshorter : rest.length < n := by
          rw [← hlength, List.length_cons]
          exact Nat.lt_succ_self _
        exact cons c rest hmatch (ih _ hshorter rest rfl)

/-! ## Parts and joins -/

/-- A character in front of a list of parts is in front of what they join to. -/
theorem intercalate_modifyHead (c : Char) {parts : List (List Char)} (hparts : parts ≠ []) :
    separator.intercalate (parts.modifyHead (c :: ·)) = c :: separator.intercalate parts := by
  obtain ⟨part, others, rfl⟩ := List.exists_cons_of_ne_nil hparts
  rw [List.modifyHead_cons]
  cases others with
  | nil => rw [List.intercalate_singleton, List.intercalate_singleton]
  | cons next others =>
    rw [List.intercalate_cons_cons, List.intercalate_cons_cons, List.cons_append, List.cons_append]

theorem mem_intercalate {parts : List (List Char)} {c : Char}
    (h : c ∈ separator.intercalate parts) : c ∈ separator ∨ ∃ part ∈ parts, c ∈ part := by
  induction parts with
  | nil => cases h
  | cons part others ih =>
    by_cases hothers : others = []
    · rw [hothers, List.intercalate_singleton] at h
      exact .inr ⟨part, List.mem_cons_self, h⟩
    · rw [List.intercalate_cons_of_ne_nil hothers, List.mem_append, List.mem_append] at h
      rcases h with (h | h) | h
      · exact .inr ⟨part, List.mem_cons_self, h⟩
      · exact .inl h
      · obtain h | ⟨other, hother, h⟩ := ih h
        · exact .inl h
        · exact .inr ⟨other, List.mem_cons_of_mem _ hother, h⟩

theorem intercalate_splitAll (hseparator : separator ≠ []) (cs : List Char) :
    separator.intercalate (splitAll separator cs) = cs := by
  induction cs using cut_induction hseparator with
  | nil => rw [splitAll_nil hseparator, List.intercalate_singleton]
  | separated cs ih =>
    rw [splitAll_separator hseparator,
      List.intercalate_cons_of_ne_nil (splitAll_ne_nil separator cs), ih, List.nil_append]
  | cons c cs h ih =>
    rw [splitAll_cons h, intercalate_modifyHead c (splitAll_ne_nil separator cs), ih]

/-- Replacing is splitting at the old text and joining by the new one. -/
theorem replaceFrom_eq (old new : List Char) (skip : Nat) (cs : List Char) :
    replaceFrom old new skip cs = new.intercalate (splitFrom old skip cs) := by
  induction cs generalizing skip with
  | nil => rw [replaceFrom, splitFrom, List.intercalate_singleton]
  | cons c cs ih =>
    cases skip with
    | succ skip => rw [replaceFrom, splitFrom, ih]
    | zero =>
      by_cases hmatch : old <+: c :: cs
      · have hprefix : old.isPrefixOf (c :: cs) = true := List.isPrefixOf_iff_prefix.mpr hmatch
        rw [replaceFrom, if_pos hprefix, splitFrom, if_pos hprefix, ih,
          List.intercalate_cons_of_ne_nil (splitFrom_ne_nil _ _ _), List.nil_append]
      · rw [replaceFrom, if_neg (by rwa [List.isPrefixOf_iff_prefix]), splitFrom_cons hmatch, ih,
          intercalate_modifyHead c (splitFrom_ne_nil _ _ _)]

theorem replaceAll_eq {old : List Char} (hold : old ≠ []) (new cs : List Char) :
    replaceAll old new cs = new.intercalate (splitAll old cs) := by
  rw [replaceAll, if_neg (by simpa using hold), splitAll_eq hold, replaceFrom_eq]

theorem replaceAll_old {old : List Char} (hold : old ≠ []) (new cs : List Char) :
    replaceAll old new (old ++ cs) = new ++ replaceAll old new cs := by
  rw [replaceAll_eq hold, replaceAll_eq hold, splitAll_separator hold,
    List.intercalate_cons_of_ne_nil (splitAll_ne_nil old cs), List.nil_append]

/-- What does not hold the first character of the old text stays. -/
theorem replaceAll_append {m : Char} {tail new part : List Char} (h : m ∉ part)
    (cs : List Char) :
    replaceAll (m :: tail) new (part ++ cs) = part ++ replaceAll (m :: tail) new cs := by
  have hold := List.cons_ne_nil m tail
  induction part with
  | nil => rfl
  | cons c part ih =>
    have hstart : ¬ (m :: tail) <+: c :: (part ++ cs) := by
      intro hmatch
      exact h ((List.cons_prefix_cons.mp hmatch).1 ▸ List.mem_cons_self)
    have hpart := ih fun hmem => h (List.mem_cons_of_mem c hmem)
    rw [replaceAll_eq hold] at hpart ⊢
    rw [List.cons_append, splitAll_cons hstart, intercalate_modifyHead c (splitAll_ne_nil _ _),
      hpart, List.cons_append]

theorem prefix_of_splitAll (hseparator : separator ≠ []) {cs part : List Char}
    {parts : List (List Char)} (h : splitAll separator cs = part :: parts) : part <+: cs := by
  have hjoin := intercalate_splitAll hseparator cs
  rw [h] at hjoin
  cases parts with
  | nil =>
    rw [List.intercalate_singleton] at hjoin
    exact hjoin ▸ List.prefix_rfl
  | cons next parts =>
    rw [List.intercalate_cons_cons, List.append_assoc] at hjoin
    exact ⟨_, hjoin⟩

theorem not_infix_of_mem_splitAll (hseparator : separator ≠ []) {cs part : List Char}
    (h : part ∈ splitAll separator cs) : ¬ separator <:+: part := by
  have hempty : ¬ separator <:+: [] := by simpa using hseparator
  induction cs using cut_induction hseparator generalizing part with
  | nil =>
    rw [splitAll_nil hseparator, List.mem_singleton] at h
    rwa [h]
  | separated cs ih =>
    rw [splitAll_separator hseparator] at h
    rcases List.mem_cons.mp h with rfl | h
    · exact hempty
    · exact ih h
  | cons c cs hstart ih =>
    obtain ⟨first, others, hsplit⟩ :=
      List.exists_cons_of_ne_nil (splitAll_ne_nil separator cs)
    rw [splitAll_cons hstart, hsplit, List.modifyHead_cons] at h
    rw [hsplit] at ih
    rcases List.mem_cons.mp h with rfl | h
    · rw [List.infix_cons_iff]
      rintro (hinside | hinside)
      · exact hstart (hinside.trans
          ((List.prefix_cons_inj c).mpr (prefix_of_splitAll hseparator hsplit)))
      · exact ih List.mem_cons_self hinside
    · exact ih (List.mem_cons_of_mem _ h)

/-- No separator begins inside the part, even when it ends in the one that follows. -/
def Clear (separator part : List Char) : Prop :=
  ∀ rest, rest <:+ part → rest ≠ [] → ∀ after, ¬ separator <+: rest ++ (separator ++ after)

theorem Clear.of_cons {c : Char} {part : List Char} (h : Clear separator (c :: part)) :
    Clear separator part :=
  fun rest hrest => h rest (hrest.trans (List.suffix_cons c part))

theorem splitAll_of_clear (hseparator : separator ≠ []) {part : List Char}
    (h : Clear separator part) : splitAll separator part = [part] := by
  induction part with
  | nil => exact splitAll_nil hseparator
  | cons c part ih =>
    have hstart : ¬ separator <+: c :: part := by
      intro hmatch
      exact h _ List.suffix_rfl (List.cons_ne_nil _ _) []
        (hmatch.trans (List.prefix_append _ _))
    rw [splitAll_cons hstart, ih h.of_cons, List.modifyHead_cons]

theorem splitAll_append (hseparator : separator ≠ []) {part : List Char}
    (h : Clear separator part) (after : List Char) :
    splitAll separator (part ++ (separator ++ after)) = part :: splitAll separator after := by
  induction part with
  | nil => rw [List.nil_append, splitAll_separator hseparator]
  | cons c part ih =>
    have hstart : ¬ separator <+: c :: (part ++ (separator ++ after)) :=
      h _ List.suffix_rfl (List.cons_ne_nil _ _) after
    rw [List.cons_append, splitAll_cons hstart, ih h.of_cons, List.modifyHead_cons]

theorem splitAll_intercalate (hseparator : separator ≠ []) {parts : List (List Char)}
    (hparts : parts ≠ []) (h : ∀ part ∈ parts, Clear separator part) :
    splitAll separator (separator.intercalate parts) = parts := by
  induction parts with
  | nil => exact absurd rfl hparts
  | cons part others ih =>
    have hpart := h part List.mem_cons_self
    by_cases hothers : others = []
    · rw [hothers, List.intercalate_singleton, splitAll_of_clear hseparator hpart]
    · rw [List.intercalate_cons_of_ne_nil hothers, List.append_assoc,
        splitAll_append hseparator hpart,
        ih hothers fun other hother => h other (List.mem_cons_of_mem _ hother)]

theorem clear_of_notMem {m : Char} {tail part : List Char} (h : m ∉ part) :
    Clear (m :: tail) part := by
  intro rest hrest hne after hmatch
  obtain ⟨c, rest, rfl⟩ := List.exists_cons_of_ne_nil hne
  rw [List.cons_append, List.cons_prefix_cons] at hmatch
  exact h (hmatch.1 ▸ hrest.subset List.mem_cons_self)

/-- A separator that never returns to its first character cannot overlap with itself. -/
theorem clear_of_not_infix {m : Char} {tail part : List Char} (hm : m ∉ tail)
    (h : ¬ (m :: tail) <:+: part) : Clear (m :: tail) part := by
  intro rest hrest hne after hmatch
  rcases Nat.lt_or_ge rest.length (m :: tail).length with hshort | hlong
  · -- the match ends in the separator that follows, and holds its first character
    obtain ⟨c, rest, rfl⟩ := List.exists_cons_of_ne_nil hne
    obtain ⟨more, hmore⟩ := hmatch
    have hleft : (m :: tail ++ more)[(c :: rest).length]? = (m :: tail)[(c :: rest).length]? :=
      List.getElem?_append_left hshort
    have hfound : (m :: tail)[(c :: rest).length]? = some m := by
      rw [← hleft, hmore, List.getElem?_append_right (Nat.le_refl _), Nat.sub_self]
      rfl
    rw [List.length_cons, List.getElem?_cons_succ] at hfound
    exact hm (List.mem_of_getElem? hfound)
  · have hinside := List.prefix_of_prefix_length_le hmatch (List.prefix_append _ _) hlong
    exact h (hinside.isInfix.trans hrest.isInfix)

/-- The text `made` is `text` with `new` for each `old`: the two are the same pieces, none of which
holds `old`, with `old` between them in one and `new` in the other. -/
def Replaces (old new text made : List Char) : Prop :=
  ∃ pieces : List (List Char), pieces ≠ [] ∧ (∀ piece ∈ pieces, ¬ old <:+: piece) ∧
    old.intercalate pieces = text ∧ new.intercalate pieces = made

theorem replaces_iff {m : Char} {tail new text made : List Char} (hm : m ∉ tail) :
    Replaces (m :: tail) new text made ↔ replaceAll (m :: tail) new text = made := by
  have hold := List.cons_ne_nil m tail
  rw [replaceAll_eq hold]
  constructor
  · rintro ⟨pieces, hpieces, hfree, rfl, rfl⟩
    rw [splitAll_intercalate hold hpieces fun piece hpiece =>
      clear_of_not_infix hm (hfree piece hpiece)]
  · rintro rfl
    exact ⟨splitAll (m :: tail) text, splitAll_ne_nil _ _,
      fun piece hpiece => not_infix_of_mem_splitAll hold hpiece, intercalate_splitAll hold text, rfl⟩

/-! ## Tokens -/

/-- The word stands in the text between blanks or the ends of the text, and holds no blank. -/
def IsToken (word text : List Char) : Prop :=
  ∃ before after, text = before ++ word ++ after ∧ word ≠ [] ∧ (∀ c ∈ word, isBlank c = false) ∧
    (∀ c, before.getLast? = some c → isBlank c = true) ∧
    (∀ c, after.head? = some c → isBlank c = true)

section Tokens

variable {word front rest : List Char} {c : Char}

/-- In front of a token, a text without blanks is empty. -/
theorem eq_nil_of_solid_before {before : List Char} (hsolid : ∀ c ∈ before, isBlank c = false)
    (hbefore : ∀ c, before.getLast? = some c → isBlank c = true) : before = [] := by
  cases hlast : before.getLast? with
  | none => exact List.getLast?_eq_none_iff.mp hlast
  | some c =>
    have hblank := hbefore c hlast
    rw [hsolid c (List.mem_of_getLast? hlast)] at hblank
    cases hblank

theorem eq_nil_of_solid_after {after : List Char} (hsolid : ∀ c ∈ after, isBlank c = false)
    (hafter : ∀ c, after.head? = some c → isBlank c = true) : after = [] := by
  cases after with
  | nil => rfl
  | cons c after =>
    have hblank := hafter c rfl
    rw [hsolid c List.mem_cons_self] at hblank
    cases hblank

theorem isToken_solid (hsolid : ∀ c ∈ front, isBlank c = false) :
    IsToken word front ↔ word = front ∧ front ≠ [] := by
  constructor
  · rintro ⟨before, after, rfl, hword, -, hbefore, hafter⟩
    have hempty := eq_nil_of_solid_before (fun c hc => hsolid c (by simp [hc])) hbefore
    have hlast := eq_nil_of_solid_after (fun c hc => hsolid c (by simp [hc])) hafter
    rw [hempty, hlast, List.nil_append, List.append_nil]
    exact ⟨rfl, hword⟩
  · rintro ⟨rfl, hword⟩
    refine ⟨[], [], by simp, hword, hsolid, ?_, ?_⟩ <;> intro c hc <;> cases hc

/-- What stands before a token is empty, or goes past the first blank of the text. -/
theorem before_blank {before after : List Char} (hsolid : ∀ c ∈ front, isBlank c = false)
    (hbefore : ∀ c, before.getLast? = some c → isBlank c = true)
    (htext : front ++ c :: rest = before ++ (word ++ after)) :
    before = [] ∨ ∃ more, before = front ++ c :: more ∧ rest = more ++ (word ++ after) := by
  rcases List.append_eq_append_iff.mp htext with ⟨more, rfl, hmore⟩ | ⟨more, rfl, -⟩
  · cases more with
    | nil =>
      left
      rw [List.append_nil] at hbefore ⊢
      exact eq_nil_of_solid_before hsolid hbefore
    | cons d more =>
      obtain ⟨rfl, rfl⟩ := List.cons.inj hmore
      exact .inr ⟨more, rfl, rfl⟩
  · exact .inl (eq_nil_of_solid_before (fun d hd => hsolid d (List.mem_append_left _ hd)) hbefore)

/-- A token with nothing before it ends at the first blank of the text. -/
theorem word_before_blank {after : List Char} (hsolid : ∀ c ∈ front, isBlank c = false)
    (hc : isBlank c = true) (hword : word ≠ []) (hfull : ∀ c ∈ word, isBlank c = false)
    (hafter : ∀ c, after.head? = some c → isBlank c = true)
    (htext : word ++ after = front ++ c :: rest) : word = front ∧ front ≠ [] := by
  rcases List.append_eq_append_iff.mp htext with ⟨more, hmore, rfl⟩ | ⟨more, hmore, hrest⟩
  · have hempty : more = [] := by
      refine eq_nil_of_solid_after (fun d hd => hsolid d (by simp [hmore, hd])) fun d hd => ?_
      apply hafter
      rw [List.head?_append, hd]
      rfl
    rw [hmore, hempty, List.append_nil]
    exact ⟨rfl, hword⟩
  · cases more with
    | nil =>
      rw [List.append_nil] at hmore
      exact ⟨hmore, hmore ▸ hword⟩
    | cons d more =>
      obtain ⟨rfl, -⟩ := List.cons.inj hrest
      rw [hfull c (by simp [hmore])] at hc
      cases hc

/-- The tokens of a text are the word in front of its first blank, and the tokens after it. -/
theorem isToken_blank (hsolid : ∀ c ∈ front, isBlank c = false) (hc : isBlank c = true) :
    IsToken word (front ++ c :: rest) ↔ (word = front ∧ front ≠ []) ∨ IsToken word rest := by
  constructor
  · rintro ⟨before, after, htext, hword, hfull, hbefore, hafter⟩
    rw [List.append_assoc] at htext
    rcases before_blank hsolid hbefore htext with rfl | ⟨more, rfl, rfl⟩
    · exact .inl (word_before_blank hsolid hc hword hfull hafter htext.symm)
    · refine .inr ⟨more, after, by simp, hword, hfull, ?_, hafter⟩
      intro d hd
      apply hbefore
      rw [List.getLast?_append_cons, List.getLast?_cons, hd]
      rfl
  · rintro (⟨rfl, hword⟩ | ⟨before, after, rfl, hword, hfull, hbefore, hafter⟩)
    · refine ⟨[], c :: rest, by simp, hword, hsolid, ?_, ?_⟩
      · intro d hd
        cases hd
      · intro d hd
        cases hd
        exact hc
    · refine ⟨front ++ c :: before, after, by simp, hword, hfull, ?_, hafter⟩
      intro d hd
      cases before with
      | nil =>
        rw [List.getLast?_append_cons, List.getLast?_singleton] at hd
        cases hd
        exact hc
      | cons e before =>
        rw [List.getLast?_append_cons, List.getLast?_cons_cons] at hd
        exact hbefore d hd

theorem mem_wordsFrom_iff {current cs : List Char} (hsolid : ∀ c ∈ current, isBlank c = false) :
    word ∈ wordsFrom current cs ↔ IsToken word (current.reverse ++ cs) := by
  induction cs generalizing current with
  | nil =>
    rw [List.append_nil, isToken_solid (by simpa using hsolid)]
    cases current with
    | nil => simp [wordsFrom]
    | cons c current => simp [wordsFrom]
  | cons c cs ih =>
    by_cases hc : isBlank c = true
    · rw [isToken_blank (by simpa using hsolid) hc, ← List.nil_append cs, ← List.reverse_nil,
        ← ih (List.forall_mem_nil _)]
      cases current with
      | nil => simp [wordsFrom, hc]
      | cons d current => simp [wordsFrom, hc]
    · have hgrown : ∀ d ∈ c :: current, isBlank d = false := by
        intro d hd
        rcases List.mem_cons.mp hd with rfl | hd
        · simpa using hc
        · exact hsolid d hd
      rw [List.append_cons, ← List.reverse_cons, ← ih hgrown]
      cases current with
      | nil => simp [wordsFrom, hc]
      | cons d current => simp [wordsFrom, hc]

/-- The words of a text are its tokens. -/
theorem mem_words_iff {word text : String} :
    word ∈ words text ↔ IsToken word.toList text.toList := by
  rw [words, List.mem_map, ← List.nil_append text.toList, ← List.reverse_nil,
    ← mem_wordsFrom_iff (List.forall_mem_nil _)]
  constructor
  · rintro ⟨cs, hcs, rfl⟩
    rwa [String.toList_ofList]
  · intro hword
    exact ⟨word.toList, hword, String.ofList_toList⟩

end Tokens

end Text

namespace Constant

/-- The name is a path of constants: one or more segments, each a capital letter and then word
characters, with a separator between any two. -/
def IsPath (name : String) : Prop :=
  ∃ segments : List (List Char), segments ≠ [] ∧
    (∀ segment ∈ segments, ∃ first rest, segment = first :: rest ∧ 'A' ≤ first ∧ first ≤ 'Z' ∧
      ∀ c ∈ rest, Text.isWord c = true) ∧
    name.toList = separator.intercalate segments

theorem isCapital_iff {c : Char} : isCapital c = true ↔ 'A' ≤ c ∧ c ≤ 'Z' := by
  rw [isCapital, Bool.and_eq_true, decide_eq_true_eq, decide_eq_true_eq]
  exact Iff.rfl

theorem isSegment_iff {segment : List Char} : isSegment segment = true ↔
    ∃ first rest, segment = first :: rest ∧ 'A' ≤ first ∧ first ≤ 'Z' ∧
      ∀ c ∈ rest, Text.isWord c = true := by
  cases segment with
  | nil =>
    refine ⟨fun h => ?_, fun ⟨_, _, h, _⟩ => ?_⟩
    · cases h
    · cases h
  | cons c cs =>
    rw [isSegment, Bool.and_eq_true, isCapital_iff, List.all_eq_true, and_assoc]
    constructor
    · rintro ⟨hleast, hgreatest, hword⟩
      exact ⟨c, cs, rfl, hleast, hgreatest, hword⟩
    · rintro ⟨first, rest, heq, h⟩
      obtain ⟨rfl, rfl⟩ := List.cons.inj heq
      exact h

theorem isWord_of_mem_segment {segment : List Char} (h : isSegment segment = true) :
    ∀ c ∈ segment, Text.isWord c = true := by
  obtain ⟨first, rest, rfl, hleast, hgreatest, hword⟩ := isSegment_iff.mp h
  intro c hc
  rcases List.mem_cons.mp hc with rfl | hc
  · exact (of_isCapital (isCapital_iff.mpr ⟨hleast, hgreatest⟩)).1
  · exact hword c hc

theorem colon_notMem_of_isSegment {segment : List Char} (h : isSegment segment = true) :
    ':' ∉ segment :=
  fun hcolon => PublicApi.ne_colon_of_isWord (isWord_of_mem_segment h _ hcolon) rfl

theorem splitAll_segments {segments : List (List Char)} (hfilled : segments ≠ [])
    (h : ∀ segment ∈ segments, ':' ∉ segment) :
    Text.splitAll separator (separator.intercalate segments) = segments :=
  Text.splitAll_intercalate (List.cons_ne_nil _ _) hfilled fun segment hsegment =>
    Text.clear_of_notMem (h segment hsegment)

theorem isPath_iff {name : String} : isPath name = true ↔ IsPath name := by
  rw [isPath, List.all_eq_true]
  constructor
  · intro h
    refine ⟨_, Text.splitAll_ne_nil separator name.toList, fun segment hsegment => ?_,
      (Text.intercalate_splitAll (List.cons_ne_nil _ _) _).symm⟩
    exact isSegment_iff.mp (h segment hsegment)
  · rintro ⟨segments, hfilled, hsegments, hname⟩ segment hsegment
    have hall : ∀ segment ∈ segments, isSegment segment = true := fun segment hsegment =>
      isSegment_iff.mpr (hsegments segment hsegment)
    rw [hname, splitAll_segments hfilled fun segment hsegment =>
      colon_notMem_of_isSegment (hall segment hsegment)] at hsegment
    exact hall segment hsegment

/-- Word characters and separators are all that a path holds. -/
theorem IsPath.mem {name : String} (h : IsPath name) :
    ∀ c ∈ name.toList, Text.isWord c = true ∨ c = ':' := by
  obtain ⟨segments, -, hsegments, hname⟩ := h
  intro c hc
  rw [hname] at hc
  rcases Text.mem_intercalate hc with hc | ⟨segment, hsegment, hc⟩
  · exact .inr (by simpa [separator] using hc)
  · exact .inl (isWord_of_mem_segment (isSegment_iff.mpr (hsegments segment hsegment)) c hc)

theorem toList_qualified (words : List String) :
    (qualified words).toList = separator.intercalate (words.map String.toList) :=
  String.toList_intercalate

theorem segments_qualified {words : List String} (hfilled : words ≠ [])
    (h : ∀ word ∈ words, ':' ∉ word.toList) : segments (qualified words) = words := by
  have hparts : ∀ part ∈ words.map String.toList, ':' ∉ part := by
    intro part hpart
    obtain ⟨word, hword, rfl⟩ := List.mem_map.mp hpart
    exact h word hword
  rw [segments, toList_qualified, splitAll_segments (by simpa using hfilled) hparts, List.map_map]
  exact (List.map_congr_left fun word _ => String.ofList_toList).trans (List.map_id words)

/-- A word without a colon is the first segment of its name, whatever words follow it. -/
theorem head?_segments_qualified {word : String} (h : ':' ∉ word.toList) (words : List String) :
    (segments (qualified (word :: words))).head? = some word := by
  have hclear : Text.Clear separator word.toList := Text.clear_of_notMem h
  have hseparator : separator ≠ [] := List.cons_ne_nil _ _
  rw [segments, toList_qualified, List.map_cons]
  by_cases hwords : words.map String.toList = []
  · rw [hwords, List.intercalate_singleton, Text.splitAll_of_clear hseparator hclear, List.map_cons,
      String.ofList_toList, List.head?_cons]
  · rw [List.intercalate_cons_of_ne_nil hwords, List.append_assoc,
      Text.splitAll_append hseparator hclear, List.map_cons, String.ofList_toList, List.head?_cons]

end Constant
end Bulkhead
