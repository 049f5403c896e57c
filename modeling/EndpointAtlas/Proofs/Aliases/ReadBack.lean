import EndpointAtlas.Go.Lexeme
import EndpointAtlas.Ident
import EndpointAtlas.Proofs.Text.Trimming
import EndpointAtlas.Route

/-!
Reading identifiers back. What is shown of an identifier is a package, a space and a name, and the
package that is read from it ends at the first space after the white space at the start. So the
package comes back if it has neither a space nor white space at its start.
-/

namespace EndpointAtlas

open Text

namespace Text

def blankCodes : List Nat :=
  [9, 10, 11, 12, 13, 0x20, 0x85, 0xA0, 0x1680, 0x2000, 0x2001, 0x2002, 0x2003, 0x2004, 0x2005,
    0x2006, 0x2007, 0x2008, 0x2009, 0x200A, 0x2028, 0x2029, 0x202F, 0x205F, 0x3000]

theorem code_mem_of_is_blank {c : Char} (blank : isBlank c = true) : c.toNat ∈ blankCodes := by
  simp only [isBlank, Bool.or_eq_true, Bool.and_eq_true, decide_eq_true_eq, beq_iff_eq] at blank
  simp only [blankCodes, List.mem_cons, List.not_mem_nil, or_false]
  omega

theorem is_blank_of_is_name_part {c : Char} (part : Go.Lexeme.isNamePart c = true) :
    isBlank c = false := by
  have checked : ∀ code ∈ blankCodes, Go.Lexeme.isNamePart (Char.ofNat code) = false := by
    decide +kernel
  cases blank : isBlank c with
  | false => rfl
  | true =>
      have named := checked c.toNat (code_mem_of_is_blank blank)
      rw [Char.ofNat_toNat, part] at named
      cases named

end Text

theorem Go.Lexeme.IsName.visible {name : String} (named : Go.Lexeme.IsName name) :
    ∀ c ∈ name.toList, isBlank c = false := fun c member =>
      is_blank_of_is_name_part (named.2 c member)

theorem Go.Lexeme.IsName.blank_not_mem {name : String} (named : Go.Lexeme.IsName name) :
    ' ' ∉ name.toList := by
  intro member
  have part := named.2 ' ' member
  revert part
  decide

theorem eq_of_of_nat_eq_blank {code : Nat} (blank : Char.ofNat code = ' ') : code = 32 := by
  by_cases valid : code.isValidChar
  · have shown : Char.ofNat code = Char.ofNatAux code valid := dif_pos valid
    rw [shown] at blank
    exact congrArg Char.toNat blank
  · have shown : Char.ofNat code = '\x00' := dif_neg valid
    rw [shown] at blank
    cases blank

theorem blank_not_mem_lowercase {c : Char} (visible : c ≠ ' ') : ' ' ∉ lowercase c := by
  unfold lowercase
  dsimp only
  split
  · rename_i small
    have checked : ∀ code < 128, (Char.ofNat code).toLower = ' ' → Char.ofNat code = ' ' := by
      decide +kernel
    intro member
    apply visible
    have low := checked c.toNat small
    rw [Char.ofNat_toNat] at low
    exact low (List.mem_singleton.1 member).symm
  · split
    · decide
    · split
      · rename_i run found
        have checked : ∀ run ∈ lowercaseRuns, 32 < run.low + run.shift := by decide +kernel
        have above := checked run (List.mem_of_find?_eq_some found)
        have within := List.find?_some found
        simp only [Bool.and_eq_true, decide_eq_true_eq] at within
        intro member
        have code := eq_of_of_nat_eq_blank (List.mem_singleton.1 member).symm
        omega
      · exact fun member => visible (List.mem_singleton.1 member).symm

theorem blank_not_mem_package_alias (package : String) : ' ' ∉ (packageAlias package).toList := by
  have within : ∀ (text : List Char) (separated : Bool), ' ' ∉ aliasFrom separated text := by
    intro text
    induction text with
    | nil => simp [aliasFrom]
    | cons c rest ih =>
        intro separated
        unfold aliasFrom
        split
        · rename_i named
          have visible : c ≠ ' ' := by
            rintro rfl
            revert named
            decide
          simp [blank_not_mem_lowercase visible, ih]
        · split
          · exact ih true
          · simp [ih]
  simpa [packageAlias] using within package.toList false

/-- Two texts with a mark in each, after which it stands no more, are cut at the mark alike. -/
theorem eq_of_append_cons_eq {mark : Char} {before after first last : List Char}
    (clean : mark ∉ after) (cleanLast : mark ∉ last)
    (same : before ++ mark :: after = first ++ mark :: last) : before = first ∧ after = last := by
  have mirrored : after.reverse ++ mark :: before.reverse =
      last.reverse ++ mark :: first.reverse := by simpa using congrArg List.reverse same
  obtain ⟨afters, befores⟩ := append_mark_inj (by simpa using clean) (by simpa using cleanLast)
    mirrored
  exact ⟨List.reverse_inj.1 befores, List.reverse_inj.1 afters⟩

namespace Ident

variable {ident : Ident}

theorem package_of_is_predeclared (known : ident.isPredeclared = true) : ident.package = "" :=
  String.isEmpty_iff.1 known

theorem display_of_is_predeclared (known : ident.isPredeclared = true) :
    ident.display = ident.name := if_pos known

theorem to_list_display (known : ident.isPredeclared = false) :
    ident.display.toList = ident.package.toList ++ ' ' :: ident.name.toList := by
  unfold isPredeclared at known
  simp only [display, known, Bool.false_eq_true, if_false, String.toList_append, List.append_assoc]
  rfl

/-- What is shown of an identifier has its last space between the package and the name. -/
theorem parts_of_display (known : ident.isPredeclared = false) (whole : ' ' ∉ ident.name.toList)
    {package name : String} (clean : ' ' ∉ name.toList)
    (shown : ident.display = package ++ " " ++ name) :
    ident.package = package ∧ ident.name = name := by
  have chars := congrArg String.toList shown
  rw [to_list_display known, String.toList_append, String.toList_append, List.append_assoc] at chars
  obtain ⟨packages, names⟩ := eq_of_append_cons_eq whole clean chars
  exact ⟨String.toList_inj.1 packages, String.toList_inj.1 names⟩

theorem blank_mem_display_iff (whole : ' ' ∉ ident.name.toList) :
    ' ' ∈ ident.display.toList ↔ ident.isPredeclared = false := by
  cases known : ident.isPredeclared with
  | true => simp [display_of_is_predeclared known, whole]
  | false => simp [to_list_display known]

/-- Identifiers whose names have no space are told apart by what is shown of them. -/
theorem eq_of_display {first second : Ident} (whole : ' ' ∉ first.name.toList)
    (wholeToo : ' ' ∉ second.name.toList) (same : first.display = second.display) :
    first = second := by
  have alike : first.isPredeclared = false ↔ second.isPredeclared = false := by
    rw [← blank_mem_display_iff whole, ← blank_mem_display_iff wholeToo, same]
  cases known : second.isPredeclared with
  | false =>
      have shown : second.display = second.package ++ " " ++ second.name :=
        if_neg (by simpa [isPredeclared] using known)
      obtain ⟨packages, names⟩ :=
        parts_of_display (alike.2 known) whole wholeToo (same.trans shown)
      exact Ident.mk.injEq .. ▸ ⟨packages, names⟩
  | true =>
      have knownFirst : first.isPredeclared = true := by
        rw [← Bool.not_eq_false, alike, known]
        decide
      rw [display_of_is_predeclared knownFirst, display_of_is_predeclared known] at same
      have packages := package_of_is_predeclared knownFirst
      rw [← package_of_is_predeclared known] at packages
      exact Ident.mk.injEq .. ▸ ⟨packages, same⟩

theorem parse_of_not_mem {text : String} (whole : ' ' ∉ trim text.toList) : parse? text =
    if trim text.toList = [] then none else some ⟨"", String.ofList (trim text.toList)⟩ := by
  unfold parse?
  dsimp only
  rw [cut_first_mark_eq_none_iff.2 whole]
  simp [predeclared]

/-- The first space of a trimmed text is no outer one, so it stands between two parts. -/
theorem parse_of_split {text : String} {package name : List Char}
    (split : trim text.toList = package ++ ' ' :: name) (clean : ' ' ∉ package) :
    parse? text = some ⟨String.ofList package, String.ofList name⟩ ∧ package ≠ [] ∧ name ≠ [] := by
  have start := starts_blank_trim text.toList
  have ending := ends_blank_trim text.toList
  have known : package ≠ [] := by
    rintro rfl
    rw [split] at start
    cases start.symm.trans (show isBlank ' ' = true by decide)
  have named : name ≠ [] := by
    rintro rfl
    rw [split, ends_blank_append _ (List.cons_ne_nil _ _)] at ending
    cases ending.symm.trans (show isBlank ' ' = true by decide)
  refine ⟨?_, known, named⟩
  unfold parse?
  dsimp only
  rw [cut_first_mark_eq_some_iff.2 ⟨split, clean⟩]
  simp [known, named]

/-- A text that is not white space is read as an identifier, and what is shown of the identifier is
the text without the white space around it. -/
theorem map_display_parse (text : String) : (parse? text).map display =
    if trim text.toList = [] then none else some (String.ofList (trim text.toList)) := by
  by_cases spaced : ' ' ∈ trim text.toList
  · obtain ⟨package, name, split, clean⟩ := List.eq_append_cons_of_mem spaced
    obtain ⟨read, known, named⟩ := parse_of_split split clean
    have shown : display ⟨String.ofList package, String.ofList name⟩ =
        String.ofList (package ++ ' ' :: name) := by
      rw [← String.toList_inj, to_list_display (by simpa [isPredeclared] using known)]
      simp
    rw [read, split, if_neg (by simp), Option.map_some, shown]
  · rw [parse_of_not_mem spaced]
    split <;> rfl

theorem parse_eq_none_iff {text : String} :
    parse? text = none ↔ ∀ c ∈ text.toList, isBlank c = true := by
  rw [← trim_eq_nil_iff, ← Option.map_eq_none_iff, map_display_parse]
  simp

theorem display_of_parse {text : String} {ident : Ident} (read : parse? text = some ident) :
    ident.display = String.ofList (trim text.toList) := by
  have shown := map_display_parse text
  rw [read, Option.map_some] at shown
  split at shown
  · cases shown
  · exact Option.some.inj shown

/-- An identifier that is cut where its parts meet when it is read. -/
structure Readable (ident : Ident) : Prop where
  named : ident.name ≠ ""
  whole : ' ' ∉ ident.name.toList
  start : startsBlank ident.name.toList = false
  ending : endsBlank ident.name.toList = false
  packageWhole : ' ' ∉ ident.package.toList
  packageStart : startsBlank ident.package.toList = false

/-- Nothing is trimmed off a package and a name if they have no white space at their outer ends. -/
theorem trim_display_eq_self (known : ident.isPredeclared = false) (named : ident.name ≠ "")
    (start : startsBlank ident.package.toList = false)
    (ending : endsBlank ident.name.toList = false) :
    trim ident.display.toList = ident.package.toList ++ ' ' :: ident.name.toList := by
  have package : ident.package.toList ≠ [] := by simpa [isPredeclared] using known
  have name : ident.name.toList ≠ [] := by simpa using named
  rw [to_list_display known]
  apply trim_eq_self
  · rw [starts_blank_append package, start]
  · rw [List.append_cons, ends_blank_append _ name, ending]

theorem parse_display (readable : ident.Readable) : parse? ident.display = some ident := by
  cases known : ident.isPredeclared with
  | true =>
      have trimmed : trim ident.display.toList = ident.name.toList := by
        rw [display_of_is_predeclared known, trim_eq_self readable.start readable.ending]
      rw [parse_of_not_mem (trimmed ▸ readable.whole), trimmed, String.ofList_toList,
        if_neg (by simpa using readable.named), ← package_of_is_predeclared known]
  | false =>
      have split :=
        trim_display_eq_self known readable.named readable.packageStart readable.ending
      rw [(parse_of_split split readable.packageWhole).1, String.ofList_toList,
        String.ofList_toList]

/-- White space at the start of a package does not matter when what is shown is read. -/
theorem trim_display (known : ident.isPredeclared = false) : trim ident.display.toList =
    trim (display ⟨String.ofList (trimStart ident.package.toList), ident.name⟩).toList := by
  have split : ident.package.toList.takeWhile isBlank ++ trimStart ident.package.toList =
      ident.package.toList := List.takeWhile_append_dropWhile
  rw [to_list_display known]
  conv_lhs => rw [← split, List.append_assoc, trim_blank_append fun _ => List.mem_takeWhile_imp]
  by_cases empty : trimStart ident.package.toList = []
  · rw [empty]
    exact trim_space _
  · rw [to_list_display (by simpa [isPredeclared] using empty), String.toList_ofList]

/-- An identifier whose package has no space behind its first white space is read back without
that white space. -/
theorem parse_display_of_not_mem (known : ident.isPredeclared = false)
    (named : Go.Lexeme.IsName ident.name) (whole : ' ' ∉ trimStart ident.package.toList) :
    parse? ident.display = some ⟨String.ofList (trimStart ident.package.toList), ident.name⟩ := by
  have readable : Readable ⟨String.ofList (trimStart ident.package.toList), ident.name⟩ :=
    { named := mt String.toList_eq_nil_iff.2 named.1
      whole := named.blank_not_mem
      start := starts_blank_of_visible named.visible
      ending := ends_blank_of_visible named.visible
      packageWhole := by simpa using whole
      packageStart := by simpa using starts_blank_trim_start ident.package.toList }
  rw [← parse_display readable]
  unfold parse?
  rw [trim_display known]

/-- Otherwise a part of the package is read as a part of the name. -/
theorem parse_display_of_mem (known : ident.isPredeclared = false)
    (named : Go.Lexeme.IsName ident.name) (broken : ' ' ∈ trimStart ident.package.toList) :
    ∃ other, parse? ident.display = some other ∧ ' ' ∈ other.name.toList := by
  have nonempty : trimStart ident.package.toList ≠ [] := List.ne_nil_of_mem broken
  obtain ⟨before, after, split, clean⟩ := List.eq_append_cons_of_mem broken
  have shown := @trim_display_eq_self ⟨String.ofList (trimStart ident.package.toList), ident.name⟩
    (by simpa [isPredeclared] using nonempty) (mt String.toList_eq_nil_iff.2 named.1)
    (by simpa using starts_blank_trim_start ident.package.toList)
    (ends_blank_of_visible named.visible)
  rw [← trim_display known, String.toList_ofList, split, List.append_assoc] at shown
  exact ⟨_, (parse_of_split shown clean).1, by simp⟩

end Ident

end EndpointAtlas
