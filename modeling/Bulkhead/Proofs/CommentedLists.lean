/-
Comments between the declaration of a published list and its assignment.

The scanner of a list passes over comments, but the search for the assignment does not know them: it
takes the first assignment in the text, be it in a comment.  A comment line under the declaration
makes no difference if it holds no assignment to the constant of the list; if it does, the list is
read from the middle of the comment on, and the assignment below it is not reached.
-/
import Bulkhead.Proofs.ListGrammar
import Mathlib.Data.List.TakeWhile

namespace Bulkhead
namespace PublicApi

/-! ## Assignments in a text -/

/-- Whether a word goes on at the end of the text, given whether one does at its start. -/
def wordAfter (inWord : Bool) (cs : List Char) : Bool :=
  (cs.getLast?.map Text.isWord).getD inWord

/-- An assignment of a list to `name` stands in the text after `before`, and `after` follows its
opening bracket.  The flag says that a word goes on at the start of the text. -/
structure AssignsAt (inWord : Bool) (name cs before after : List Char) : Prop where
  parts : ∃ gap gap' : List Char, (∀ c ∈ gap, Text.isBlank c = true) ∧
    (∀ c ∈ gap', Text.isBlank c = true) ∧
    cs = before ++ (name ++ (gap ++ '=' :: (gap' ++ '[' :: after)))
  boundary : wordAfter inWord before = false

/-- No assignment to `name` stands in the text before this one. -/
structure AssignsFirst (inWord : Bool) (name cs before after : List Char) : Prop
    extends AssignsAt inWord name cs before after where
  first : ∀ before' after', AssignsAt inWord name cs before' after' →
    before.length ≤ before'.length

/-- What follows the next character that is not blank, if that is the given one. -/
def afterMark (mark : Char) (cs : List Char) : Option (List Char) :=
  match skipBlanks cs with
  | [] => none
  | c :: rest => if c = mark then some rest else none

theorem afterMark_of_skip {mark : Char} {cs rest : List Char} (h : skipBlanks cs = mark :: rest) :
    afterMark mark cs = some rest := by
  rw [afterMark, h]
  exact if_pos rfl

theorem afterMark_eq_none {mark : Char} {cs : List Char}
    (h : ∀ rest, skipBlanks cs = mark :: rest → False) : afterMark mark cs = none := by
  rw [afterMark]
  cases hskip : skipBlanks cs with
  | nil => rfl
  | cons c rest =>
    refine if_neg fun hc => h rest ?_
    rw [hskip, hc]

theorem assignmentAt_eq (name cs : List Char) :
    assignmentAt name cs =
      ((name.isPrefixOf? cs).bind (afterMark '=')).bind (afterMark '[') := by
  unfold assignmentAt
  split
  · next hnone =>
    rw [hnone]
    rfl
  · next rest hname =>
    rw [hname, Option.bind_some]
    split
    · next rest' hequals =>
      rw [afterMark_of_skip hequals, Option.bind_some]
      split
      · next hbracket => rw [afterMark_of_skip hbracket]
      · next hnone => rw [afterMark_eq_none hnone]
    · next hnone =>
      rw [afterMark_eq_none hnone]
      rfl

theorem afterMark_eq_some_iff {mark : Char} (hmark : Text.isBlank mark = false)
    {cs rest : List Char} :
    afterMark mark cs = some rest ↔
      ∃ gap : List Char, (∀ c ∈ gap, Text.isBlank c = true) ∧ cs = gap ++ mark :: rest := by
  constructor
  · intro h
    have hsplit : cs.takeWhile Text.isBlank ++ skipBlanks cs = cs :=
      List.takeWhile_append_dropWhile
    refine ⟨cs.takeWhile Text.isBlank, List.all_eq_true.mp List.all_takeWhile, ?_⟩
    rw [afterMark] at h
    cases hskip : skipBlanks cs with
    | nil =>
      rw [hskip] at h
      cases h
    | cons c tail =>
      rw [hskip] at h hsplit
      obtain ⟨rfl, htail⟩ := Option.ite_none_right_eq_some.mp h
      rw [← Option.some.inj htail, hsplit]
  · rintro ⟨gap, hgap, rfl⟩
    exact afterMark_of_skip ((skipBlanks_append hgap _).trans (skipBlanks_of_not_blank hmark _))

theorem assignmentAt_eq_some_iff {name cs after : List Char} :
    assignmentAt name cs = some after ↔ AssignsAt false name cs [] after := by
  rw [assignmentAt_eq, Option.bind_eq_some_iff]
  constructor
  · rintro ⟨rest, hrest, hafter⟩
    obtain ⟨tail, htail, hrest⟩ := Option.bind_eq_some_iff.mp hrest
    obtain ⟨gap, hgap, rfl⟩ := (afterMark_eq_some_iff (by decide)).mp hrest
    obtain ⟨gap', hgap', rfl⟩ := (afterMark_eq_some_iff (by decide)).mp hafter
    have hcs := List.isPrefixOf?_eq_some_iff_append_eq.mp htail
    exact ⟨⟨gap, gap', hgap, hgap', hcs.symm⟩, rfl⟩
  · rintro ⟨⟨gap, gap', hgap, hgap', rfl⟩, -⟩
    have hequals : afterMark '=' (gap ++ '=' :: (gap' ++ '[' :: after)) =
        some (gap' ++ '[' :: after) := (afterMark_eq_some_iff (by decide)).mpr ⟨gap, hgap, rfl⟩
    have hbracket : afterMark '[' (gap' ++ '[' :: after) = some after :=
      (afterMark_eq_some_iff (by decide)).mpr ⟨gap', hgap', rfl⟩
    refine ⟨gap' ++ '[' :: after, ?_, hbracket⟩
    rw [List.nil_append, isPrefixOf?_append]
    exact hequals

/-! ## The first assignment -/

theorem wordAfter_cons (inWord : Bool) (c : Char) (cs : List Char) :
    wordAfter inWord (c :: cs) = wordAfter (Text.isWord c) cs := by
  rw [wordAfter, wordAfter, List.getLast?_cons]
  cases cs.getLast? with
  | none => rfl
  | some d => rfl

theorem findAssignment_cons (name : List Char) (inWord : Bool) (c : Char) (cs : List Char) :
    findAssignment name inWord (c :: cs) =
      (if inWord then none else assignmentAt name (c :: cs)).or
        (findAssignment name (Text.isWord c) cs) := by
  rw [findAssignment]
  cases (if inWord then none else assignmentAt name (c :: cs)) with
  | none => rfl
  | some rest => rfl

variable {inWord : Bool} {name cs before after : List Char} {c : Char}

theorem assignsAt_nil : AssignsAt inWord name cs [] after ↔
    inWord = false ∧ assignmentAt name cs = some after := by
  rw [assignmentAt_eq_some_iff]
  constructor
  · rintro ⟨hparts, hword⟩
    exact ⟨hword, hparts, rfl⟩
  · rintro ⟨rfl, h⟩
    exact h

theorem assignsAt_cons : AssignsAt inWord name (c :: cs) (c :: before) after ↔
    AssignsAt (Text.isWord c) name cs before after := by
  constructor
  · rintro ⟨⟨gap, gap', hgap, hgap', hcs⟩, hword⟩
    exact ⟨⟨gap, gap', hgap, hgap', (List.cons.inj hcs).2⟩, wordAfter_cons inWord c before ▸ hword⟩
  · rintro ⟨⟨gap, gap', hgap, hgap', rfl⟩, hword⟩
    exact ⟨⟨gap, gap', hgap, hgap', rfl⟩, (wordAfter_cons inWord c before).trans hword⟩

/-- An assignment in a text starts with it or comes after its first character. -/
theorem AssignsAt.cases (h : AssignsAt inWord name (c :: cs) before after) :
    (before = [] ∧ inWord = false ∧ assignmentAt name (c :: cs) = some after) ∨
      ∃ before', before = c :: before' ∧ AssignsAt (Text.isWord c) name cs before' after := by
  cases before with
  | nil => exact .inl ⟨rfl, assignsAt_nil.mp h⟩
  | cons d before =>
    obtain ⟨gap, gap', -, -, hcs⟩ := h.parts
    obtain rfl : c = d := (List.cons.inj hcs).1
    exact .inr ⟨before, rfl, assignsAt_cons.mp h⟩

theorem assignsAt_of_findAssignment (h : findAssignment name inWord cs = some after) :
    ∃ before, AssignsAt inWord name cs before after := by
  induction cs generalizing inWord with
  | nil => cases h
  | cons c cs ih =>
    rw [findAssignment_cons, Option.or_eq_some_iff] at h
    rcases h with hhere | ⟨-, hbelow⟩
    · obtain ⟨hword, hhere⟩ := Option.ite_none_left_eq_some.mp hhere
      exact ⟨[], assignsAt_nil.mpr ⟨by simpa using hword, hhere⟩⟩
    · obtain ⟨before, hbefore⟩ := ih hbelow
      exact ⟨c :: before, assignsAt_cons.mpr hbefore⟩

theorem findAssignment_eq_none_iff : findAssignment name inWord cs = none ↔
    ∀ before after, ¬AssignsAt inWord name cs before after := by
  constructor
  · intro h before after hassigns
    induction cs generalizing inWord before with
    | nil =>
      obtain ⟨gap, gap', -, -, hcs⟩ := hassigns.parts
      simp at hcs
    | cons c cs ih =>
      rw [findAssignment_cons, Option.or_eq_none_iff] at h
      rcases hassigns.cases with ⟨-, rfl, hhere⟩ | ⟨before', rfl, hbelow⟩
      · rw [if_neg Bool.false_ne_true, hhere] at h
        cases h.1
      · exact ih h.2 before' hbelow
  · intro h
    cases hfound : findAssignment name inWord cs with
    | none => rfl
    | some after =>
      obtain ⟨before, hassigns⟩ := assignsAt_of_findAssignment hfound
      exact absurd hassigns (h before after)

theorem findAssignment_of_first (h : AssignsFirst inWord name cs before after) :
    findAssignment name inWord cs = some after := by
  induction cs generalizing inWord before with
  | nil =>
    obtain ⟨gap, gap', -, -, hcs⟩ := h.parts
    simp at hcs
  | cons c cs ih =>
    rw [findAssignment_cons]
    rcases h.toAssignsAt.cases with ⟨-, rfl, hhere⟩ | ⟨before', rfl, hbelow⟩
    · rw [if_neg Bool.false_ne_true, hhere, Option.some_or]
    · -- Were there an assignment here, this one would not be the first.
      have hnone : (if inWord then none else assignmentAt name (c :: cs)) = none := by
        cases hhere : (if inWord then none else assignmentAt name (c :: cs)) with
        | none => rfl
        | some after' =>
          obtain ⟨hword, hhere⟩ := Option.ite_none_left_eq_some.mp hhere
          have hlength := h.first [] after' (assignsAt_nil.mpr ⟨by simpa using hword, hhere⟩)
          cases hlength
      rw [hnone, Option.none_or]
      refine ih ⟨hbelow, fun before'' after' h' => ?_⟩
      exact Nat.le_of_succ_le_succ (h.first (c :: before'') after' (assignsAt_cons.mpr h'))

/-! ## A line before other text -/

section Line

variable {below : List Char}

theorem isPrefixOf?_line (hname : '\n' ∉ name) (cs below : List Char) :
    name.isPrefixOf? (cs ++ '\n' :: below) =
      (name.isPrefixOf? cs).map (· ++ '\n' :: below) := by
  induction name generalizing cs with
  | nil => rfl
  | cons n name ih =>
    rw [List.mem_cons, not_or] at hname
    cases cs with
    | nil => exact if_neg fun hn => hname.1 (eq_of_beq hn).symm
    | cons c cs =>
      rw [List.cons_append, List.isPrefixOf?, List.isPrefixOf?, ih hname.2]
      cases n == c with
      | true => rfl
      | false => rfl

theorem afterMark_line {mark : Char} (hbelow : ∀ c ∈ (skipBlanks below).head?, c ≠ mark)
    (cs : List Char) :
    afterMark mark (cs ++ '\n' :: below) = (afterMark mark cs).map (· ++ '\n' :: below) := by
  cases hskip : skipBlanks cs with
  | nil =>
    have hblank : ∀ c ∈ cs, Text.isBlank c = true :=
      List.dropWhile_eq_nil_iff.mp hskip
    have hthrough : skipBlanks (cs ++ '\n' :: below) = skipBlanks below := by
      rw [skipBlanks_append hblank]
      rfl
    rw [afterMark_eq_none fun rest hrest => ?_, afterMark_eq_none fun rest hrest => ?_]
    · rfl
    · rw [hskip] at hrest
      cases hrest
    · rw [hthrough] at hrest
      exact hbelow mark (by rw [hrest]; rfl) rfl
  | cons c rest =>
    have hstays : skipBlanks (cs ++ '\n' :: below) = c :: (rest ++ '\n' :: below) := by
      rw [skipBlanks] at hskip ⊢
      rw [List.dropWhile_append, hskip]
      rfl
    rw [afterMark, afterMark, hstays, hskip]
    dsimp only
    by_cases hc : c = mark
    · rw [if_pos hc, if_pos hc]
      rfl
    · rw [if_neg hc, if_neg hc]
      rfl

/-- An assignment does not go beyond its line if what follows does not start with its marks. -/
theorem assignmentAt_line (hname : '\n' ∉ name)
    (hbelow : ∀ c ∈ (skipBlanks below).head?, c ≠ '=' ∧ c ≠ '[') (cs : List Char) :
    assignmentAt name (cs ++ '\n' :: below) =
      (assignmentAt name cs).map (· ++ '\n' :: below) := by
  have hbind {f : List Char → Option (List Char)} (x : Option (List Char))
      (hf : ∀ cs, f (cs ++ '\n' :: below) = (f cs).map (· ++ '\n' :: below)) :
      (x.map (· ++ '\n' :: below)).bind f = (x.bind f).map (· ++ '\n' :: below) := by
    cases x with
    | none => rfl
    | some cs => exact hf cs
  rw [assignmentAt_eq, assignmentAt_eq, isPrefixOf?_line hname,
    hbind _ (afterMark_line fun c hc => (hbelow c hc).1),
    hbind _ (afterMark_line fun c hc => (hbelow c hc).2)]

theorem findAssignment_line (listing : Listing)
    (hbelow : ∀ c ∈ (skipBlanks below).head?, c ≠ '=' ∧ c ≠ '[') (inWord : Bool)
    (line : List Char) :
    findAssignment listing.constantName.toList inWord (line ++ '\n' :: below) =
      ((findAssignment listing.constantName.toList inWord line).map (· ++ '\n' :: below)).or
        (findAssignment listing.constantName.toList true ('\n' :: below)) := by
  have hname : '\n' ∉ listing.constantName.toList := by cases listing <;> decide
  induction line generalizing inWord with
  | nil =>
    rw [List.nil_append, findAssignment_cons, findAssignment_cons,
      assignmentAt_blank listing (by decide), ite_self, ite_self]
    rfl
  | cons c line ih =>
    rw [List.cons_append, findAssignment_cons, findAssignment_cons, ih, ← List.cons_append,
      assignmentAt_line hname hbelow]
    cases inWord with
    | true => rfl
    | false =>
      rw [if_neg Bool.false_ne_true, if_neg Bool.false_ne_true]
      cases assignmentAt listing.constantName.toList (c :: line) with
      | none => rfl
      | some after => rfl

end Line

/-! ## Remarks -/

/-- A file that declares a list and assigns it.  All that follows the opening bracket is the
list. -/
structure ListFile where
  preamble : Gap
  path : ConstantPath
  indent : List { c : Char // Text.isBlank c = true }
  list : List Char

/-- A line of comment, or blank lines and one. -/
structure Remark where
  lead : List { c : Char // Text.isBlank c = true }
  note : List Char
  oneLine : '\n' ∉ note

def Remark.text (remark : Remark) : List Char :=
  remark.lead.map Subtype.val ++ '#' :: remark.note

namespace ListFile

/-- What follows the declaration. -/
def assignment (file : ListFile) (listing : Listing) : List Char :=
  '\n' :: (file.indent.map Subtype.val ++
    (listing.constantName.toList ++ (" = [".toList ++ file.list)))

/-- The file with something else after the declaration. -/
def declaring (file : ListFile) (listing : Listing) (cs : List Char) : String :=
  String.ofList (file.preamble.text ++ ("module ".toList ++ (file.path.text ++ Constant.separator ++
    ("Api::".toList ++ listing.moduleName.toList ++ cs))))

def text (file : ListFile) (listing : Listing) : String :=
  file.declaring listing (file.assignment listing)

/-- The file with a remark on the lines between the declaration and the assignment. -/
def remarked (file : ListFile) (listing : Listing) (remark : Remark) : String :=
  file.declaring listing ('\n' :: (remark.text ++ file.assignment listing))

variable (file : ListFile) {listing : Listing} {remark : Remark}

theorem entries_declaring {cs list : List Char} (hstops : Stops cs)
    (hassigned : findAssignment listing.constantName.toList true cs = some list) :
    listing.entries (file.declaring listing cs) = (scanEntries true list).getD [] := by
  have hdeclared := findDeclaration_gap (fun _ => declarationAt_path file.path listing hstops)
    file.preamble [] (List.forall_mem_nil _)
  have htext : (file.declaring listing cs).toList = _ := String.toList_ofList
  rw [List.nil_append, ← htext] at hdeclared
  exact Listing.entries_of_found hdeclared hassigned

theorem stops_line (cs : List Char) : Stops ('\n' :: cs) :=
  stops_cons (by decide) cs

theorem entries_assigned :
    listing.entries (file.text listing) = (scanEntries true file.list).getD [] :=
  file.entries_declaring (stops_line _) (findAssignment_named listing file.indent file.list)

/-- Under a remark comes the name of the constant, which is no part of an assignment above. -/
theorem head_below (listing : Listing) (indent : List { c : Char // Text.isBlank c = true })
    (cs : List Char) :
    ∀ c ∈ (skipBlanks (indent.map Subtype.val ++ (listing.constantName.toList ++ cs))).head?,
      c ≠ '=' ∧ c ≠ '[' := by
  have hindent : ∀ c ∈ indent.map Subtype.val, Text.isBlank c = true := by
    intro c hc
    obtain ⟨blank, -, rfl⟩ := List.mem_map.mp hc
    exact blank.2
  obtain ⟨n, name, hname, hn, hmarks⟩ : ∃ n name, listing.constantName.toList = n :: name ∧
      Text.isBlank n = false ∧ n ≠ '=' ∧ n ≠ '[' := by
    cases listing <;> exact ⟨_, _, rfl, by decide, by decide, by decide⟩
  rw [skipBlanks_append hindent, hname, List.cons_append, skipBlanks_of_not_blank hn]
  rintro c ⟨⟩
  exact hmarks

theorem findAssignment_remark (listing : Listing) (remark : Remark) :
    findAssignment listing.constantName.toList true
        ('\n' :: (remark.text ++ file.assignment listing)) =
      ((findAssignment listing.constantName.toList false remark.note).map
        (· ++ file.assignment listing)).or (some file.list) := by
  have hhash (cs : List Char) : assignmentAt listing.constantName.toList ('#' :: cs) = none := by
    cases listing <;> rfl
  have hline : findAssignment listing.constantName.toList false
      (remark.note ++ file.assignment listing) = _ :=
    findAssignment_line listing (head_below listing file.indent (" = [".toList ++ file.list)) false
      remark.note
  rw [findAssignment_named] at hline
  rw [findAssignment_cons, if_pos rfl, Option.none_or, Remark.text, List.append_assoc]
  show findAssignment _ false (remark.lead.map Subtype.val ++ ('#' :: (remark.note ++ _))) = _
  rw [findAssignment_indent, findAssignment_cons, hhash, ite_self, Option.none_or]
  exact hline

theorem entries_of_none
    (h : findAssignment listing.constantName.toList false remark.note = none) :
    listing.entries (file.remarked listing remark) = (scanEntries true file.list).getD [] := by
  have hassigned := file.findAssignment_remark listing remark
  rw [h, Option.map_none, Option.none_or] at hassigned
  exact file.entries_declaring (stops_line _) hassigned

theorem entries_of_some {after : List Char}
    (h : findAssignment listing.constantName.toList false remark.note = some after) :
    listing.entries (file.remarked listing remark) =
      (scanEntries true (after ++ file.assignment listing)).getD [] := by
  have hassigned := file.findAssignment_remark listing remark
  rw [h, Option.map_some, Option.some_or] at hassigned
  exact file.entries_declaring (stops_line _) hassigned

end ListFile

/-- A remark between the declaration of a list and its assignment makes no difference if no list is
assigned to the constant in it, whatever blank lines there are without it.  Otherwise the list is
read from the first such assignment on, and a whole list in the remark takes the place of the list
below. -/
theorem entries_remarked (listing : Listing) (file : ListFile) (remark : Remark) :
    ((∀ before after, ¬AssignsAt false listing.constantName.toList remark.note before after) →
      ∀ indent, listing.entries (file.remarked listing remark) =
        listing.entries ({ file with indent := indent }.text listing)) ∧
    ∀ before after, AssignsFirst false listing.constantName.toList remark.note before after →
      listing.entries (file.remarked listing remark) =
        (scanEntries true (after ++ file.assignment listing)).getD [] ∧
      ∀ (body : Body) (more : List Char), after = body.text ++ ']' :: more →
        listing.entries (file.remarked listing remark) = body.values := by
  refine ⟨fun hnone indent => ?_, fun before after hfirst => ?_⟩
  · rw [file.entries_of_none (findAssignment_eq_none_iff.mpr hnone), ListFile.entries_assigned]
  · have hread := file.entries_of_some (findAssignment_of_first hfirst)
    refine ⟨hread, ?_⟩
    rintro body more rfl
    rw [hread, List.append_assoc, List.cons_append, scanEntries_body]
    rfl

theorem isBlank_space : Text.isBlank ' ' = true := by
  decide

def indentation : List { c : Char // Text.isBlank c = true } :=
  List.replicate 2 ⟨' ', isBlank_space⟩

/-- A list of one module, with its assignment on the line under the declaration. -/
def invoiceFile : ListFile where
  preamble := []
  path := ⟨⟨"Billing".toList, by decide⟩, []⟩
  indent := indentation
  list := "\n    Billing::Invoice,\n  ]\nend\n".toList

def oldRemark : Remark where
  lead := indentation
  note := " PUBLIC_MODULES = [Billing::Old]".toList
  oneLine := by decide

/-- Another constant is assigned, and then the name alone stands there. -/
def plainRemark : Remark where
  lead := indentation
  note := " see MY_PUBLIC_MODULES = [] and PUBLIC_MODULES =".toList
  oneLine := by decide

theorem entries_beside_remarks :
    Listing.allowlist.entries (invoiceFile.remarked .allowlist plainRemark) =
      Listing.allowlist.entries (invoiceFile.text .allowlist) ∧
    AssignsFirst false Listing.allowlist.constantName.toList oldRemark.note [' ']
      "Billing::Old]".toList ∧
    Listing.allowlist.entries (invoiceFile.remarked .allowlist oldRemark) = ["Billing::Old"] := by
  have hnone : findAssignment Listing.allowlist.constantName.toList false plainRemark.note =
      none := by decide +kernel
  have hfirst : AssignsFirst false Listing.allowlist.constantName.toList oldRemark.note [' ']
      "Billing::Old]".toList := by
    have hblank : ∀ c ∈ [' '], Text.isBlank c = true := List.forall_mem_singleton.mpr isBlank_space
    have hnote : oldRemark.note = ' ' :: "PUBLIC_MODULES = [Billing::Old]".toList := by
      decide +kernel
    rw [hnote]
    refine ⟨⟨⟨[' '], [' '], hblank, hblank, rfl⟩, by decide⟩, fun before' after' h => ?_⟩
    rcases h.cases with ⟨-, -, hhere⟩ | ⟨before'', rfl, -⟩
    · rw [assignmentAt_blank _ isBlank_space] at hhere
      cases hhere
    · exact Nat.succ_le_succ (Nat.zero_le _)
  have hbody : "Billing::Old]".toList = (Body.last [] (.constant false
      ⟨⟨"Billing".toList, by decide⟩, [⟨"Old".toList, by decide⟩]⟩) []).text ++ [']'] := by
    decide +kernel
  refine ⟨(entries_remarked _ invoiceFile plainRemark).1 (findAssignment_eq_none_iff.mp hnone)
    invoiceFile.indent, hfirst, ?_⟩
  exact ((entries_remarked _ invoiceFile oldRemark).2 _ _ hfirst).2 _ _ hbody

/-- A list that was commented out is read in place of the one under it. -/
theorem commented_out_list_read :
    Listing.allowlist.entries (invoiceFile.text .allowlist) = ["Billing::Invoice"] ∧
    Listing.allowlist.entries (invoiceFile.remarked .allowlist oldRemark) = ["Billing::Old"] := by
  have hassigned : findAssignment Listing.allowlist.constantName.toList false oldRemark.note =
      some "Billing::Old]".toList := by decide +kernel
  have hlist : scanWithin 40 true invoiceFile.list = some (some ["Billing::Invoice"]) := by
    decide +kernel
  have hold : scanWithin 100 true ("Billing::Old]".toList ++ invoiceFile.assignment .allowlist) =
      some (some ["Billing::Old"]) := by decide +kernel
  rw [scanWithin_eq (by decide)] at hlist hold
  rw [invoiceFile.entries_assigned, invoiceFile.entries_of_some hassigned, Option.some.inj hlist,
    Option.some.inj hold]
  exact ⟨rfl, rfl⟩

end PublicApi
end Bulkhead
