/-
The lists that an engine publishes in the files of its API directory.

A file declares a module and assigns a list literal to a constant:

    module Billing::Api::Allowlist
      PUBLIC_MODULES = [
        Billing::InvoiceService, # used by checkout
      ]
    end

The list is found by its shape and is never evaluated.  A file of any other shape has no entries.
-/
import Bulkhead.Constant
import Bulkhead.Text.Blank

namespace Bulkhead
namespace PublicApi

/-- The lists that an engine can publish. -/
inductive Listing where
  | allowlist
  | whitelist
  | legacyDependents
deriving DecidableEq, Repr

namespace Listing

def all : List Listing :=
  [.allowlist, .whitelist, .legacyDependents]

def name : Listing → String
  | .allowlist => "allowlist"
  | .whitelist => "whitelist"
  | .legacyDependents => "legacy_dependents"

def ofName? (name : String) : Option Listing :=
  all.find? fun listing => listing.name == name

def fileName (listing : Listing) : String :=
  "_" ++ listing.name ++ ".rb"

/-- The last segment of the module that declares the list. -/
def moduleName : Listing → String
  | .allowlist => "Allowlist"
  | .whitelist => "Whitelist"
  | .legacyDependents => "LegacyDependents"

/-- The constant that the list is assigned to. -/
def constantName : Listing → String
  | .allowlist | .whitelist => "PUBLIC_MODULES"
  | .legacyDependents => "FILES_WITH_DIRECT_ACCESS"

end Listing

/-! ## The declaration -/

def skipBlanks (cs : List Char) : List Char :=
  cs.dropWhile Text.isBlank

/-- The text at hand does not continue a word. -/
def endsWord : List Char → Bool
  | [] => true
  | c :: _ => !Text.isWord c

/-- What follows the target when it stands here as whole words. -/
def afterTarget (target cs : List Char) : Option (List Char) :=
  match target.isPrefixOf? cs with
  | some rest => if endsWord rest then some rest else none
  | none => none

/-- What follows the last target in a path of constants.  The flag says that a segment starts
here. -/
def afterModulePath (target : List Char) : Bool → List Char → Option (List Char)
  | _, [] => none
  | true, c :: cs =>
    match (if Constant.isCapital c then afterModulePath target false cs else none) with
    | some rest => some rest
    | none => afterTarget target (c :: cs)
  | false, ':' :: ':' :: cs => afterModulePath target true cs
  | false, c :: cs => if Text.isWord c then afterModulePath target false cs else none

/-- A path of constants may start with a separator. -/
def skipSeparator : List Char → List Char
  | ':' :: ':' :: cs => cs
  | cs => cs

/-- What follows the declaration that stands at the start of a line. -/
def declarationAt (target cs : List Char) : Option (List Char) :=
  match "module".toList.isPrefixOf? (skipBlanks cs) with
  | some (c :: rest) =>
    if Text.isBlank c then afterModulePath target true (skipSeparator (skipBlanks rest)) else none
  | _ => none

/-- What follows the first declaration.  The flag says that a line starts here. -/
def findDeclaration (target : List Char) : Bool → List Char → Option (List Char)
  | _, [] => none
  | lineStart, c :: cs =>
    match (if lineStart then declarationAt target (c :: cs) else none) with
    | some rest => some rest
    | none => findDeclaration target (c == '\n') cs

/-! ## The assignment -/

/-- What follows the opening bracket of an assignment to `name` that stands here. -/
def assignmentAt (name cs : List Char) : Option (List Char) :=
  match name.isPrefixOf? cs with
  | none => none
  | some rest =>
    match skipBlanks rest with
    | '=' :: rest =>
      match skipBlanks rest with
      | '[' :: rest => some rest
      | _ => none
    | _ => none

/-- What follows the opening bracket of the first assignment.  The flag says that the character
before belongs to a word. -/
def findAssignment (name : List Char) : Bool → List Char → Option (List Char)
  | _, [] => none
  | inWord, c :: cs =>
    match (if inWord then none else assignmentAt name (c :: cs)) with
    | some rest => some rest
    | none => findAssignment name (Text.isWord c) cs

/-! ## The list -/

/-- The content of a quoted entry and what follows its closing quote.  A backslash must be followed
by a character on its line; both are kept. -/
def quotedEntry (quote : Char) : List Char → Option (List Char × List Char)
  | [] => none
  | '\\' :: cs =>
    match cs with
    | [] => none
    | c :: cs =>
      if c = '\n' then none
      else (quotedEntry quote cs).map fun found => ('\\' :: c :: found.1, found.2)
  | c :: cs =>
    if c = quote then some ([], cs)
    else (quotedEntry quote cs).map fun found => (c :: found.1, found.2)

/-- The rest of a path of constants, after the first character of a segment, and what follows it. -/
def constantRest : List Char → List Char × List Char
  | [] => ([], [])
  | ':' :: ':' :: c :: cs =>
    if Constant.isCapital c then
      let found := constantRest cs
      (':' :: ':' :: c :: found.1, found.2)
    else ([], ':' :: ':' :: c :: cs)
  | c :: cs =>
    if Text.isWord c then
      let found := constantRest cs
      (c :: found.1, found.2)
    else ([], c :: cs)

def constantEntry : List Char → Option (List Char × List Char)
  | ':' :: ':' :: c :: cs =>
    if Constant.isCapital c then
      let found := constantRest cs
      some (':' :: ':' :: c :: found.1, found.2)
    else none
  | c :: cs =>
    if Constant.isCapital c then
      let found := constantRest cs
      some (c :: found.1, found.2)
    else none
  | [] => none

/-- An entry of the list and what follows it. -/
def entryAt : List Char → Option (List Char × List Char)
  | '"' :: cs => quotedEntry '"' cs
  | '\'' :: cs => quotedEntry '\'' cs
  | cs => constantEntry cs

theorem quotedEntry_length {quote : Char} {cs entry rest : List Char}
    (h : quotedEntry quote cs = some (entry, rest)) : rest.length < cs.length := by
  fun_induction quotedEntry quote cs generalizing entry rest with
  | case1 => simp at h
  | case2 => simp at h
  | case3 => simp at h
  | case4 c cs hc ih =>
    obtain ⟨⟨_, _⟩, hf, he⟩ := Option.map_eq_some_iff.1 h
    have := ih hf
    cases he
    simp only [List.length_cons]
    omega
  | case5 => simp_all
  | case6 c cs _ hc ih =>
    obtain ⟨⟨_, _⟩, hf, he⟩ := Option.map_eq_some_iff.1 h
    have := ih hf
    cases he
    simp only [List.length_cons]
    omega

theorem constantRest_length (cs : List Char) : (constantRest cs).2.length ≤ cs.length := by
  fun_induction constantRest cs with
  | case1 => simp
  | case2 c cs hc found ih => simp only [found, List.length_cons]; omega
  | case3 => simp
  | case4 c cs _ hc found ih => simp only [found, List.length_cons]; omega
  | case5 => simp

theorem constantEntry_length {cs entry rest : List Char}
    (h : constantEntry cs = some (entry, rest)) : rest.length < cs.length := by
  fun_cases constantEntry cs with
  | case1 c cs hc found =>
    have := constantRest_length cs
    simp [constantEntry, hc] at h
    obtain ⟨-, rfl⟩ := h
    simp only [List.length_cons]
    omega
  | case2 c cs hc => simp [constantEntry, hc] at h
  | case3 c cs _ hc found =>
    have := constantRest_length cs
    simp [constantEntry, hc] at h
    obtain ⟨-, rfl⟩ := h
    simp only [List.length_cons]
    omega
  | case4 c cs _ hc => simp [constantEntry, hc] at h
  | case5 => simp [constantEntry] at h

theorem entryAt_length {cs entry rest : List Char}
    (h : entryAt cs = some (entry, rest)) : rest.length < cs.length := by
  fun_cases entryAt cs with
  | case1 cs =>
    have := quotedEntry_length (show quotedEntry '"' cs = some (entry, rest) from h)
    simp only [List.length_cons]
    omega
  | case2 cs =>
    have := quotedEntry_length (show quotedEntry '\'' cs = some (entry, rest) from h)
    simp only [List.length_cons]
    omega
  | case3 =>
    rw [entryAt] at h
    · exact constantEntry_length h
    · assumption
    · assumption

/-- The entries of a list literal, after its opening bracket, up to the closing one.  Entries are
parted by single commas, and one comma may follow the last.  The flag says that an entry may stand
here. -/
def scanEntries (expecting : Bool) (cs : List Char) : Option (List String) :=
  match cs with
  | [] => none
  | c :: rest =>
    if Text.isBlank c then scanEntries expecting rest
    else if c = '#' then scanEntries expecting (rest.dropWhile (· != '\n'))
    else if c = ']' then some []
    else if c = ',' then if expecting then none else scanEntries true rest
    else
      match _h : entryAt (c :: rest) with
      | none => none
      | some (entry, after) =>
        if expecting then (scanEntries false after).map (String.ofList entry :: ·) else none
termination_by cs.length
decreasing_by
  · simp
  · have := (List.dropWhile_sublist (l := rest) (· != '\n')).length_le
    simp only [List.length_cons]
    omega
  · simp
  · exact entryAt_length ‹_›

/-- The entries of a published list; none if the text does not have the shape. -/
def Listing.entries (listing : Listing) (text : String) : List String :=
  let target := "Api::".toList ++ listing.moduleName.toList
  match findDeclaration target true text.toList with
  | none => []
  | some rest =>
    match findAssignment listing.constantName.toList true rest with
    | none => []
    | some rest => (scanEntries true rest).getD []

end PublicApi
end Bulkhead
