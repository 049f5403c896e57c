import Mathlib.Data.List.Induction
import Mathlib.Tactic.ByContra
import EndpointAtlas.Proofs.Aliases.Spelling

/-!
Aliases of package paths of ASCII characters. The alias of such a path is the path in lower case
with an underscore in place of every longest run of separators, where a separator is any character
but a letter, a digit and an underscore. So an alias is its own alias, and the alias of two paths one
after the other is made of theirs unless a run of separators goes on from the first to the second.
-/

namespace EndpointAtlas

open Text

def IsAscii (text : List Char) : Prop := ∀ c ∈ text, c.toNat < 128

instance (text : List Char) : Decidable (IsAscii text) :=
  decidable_of_iff (text.all (·.toNat < 128) = true) (by simp [IsAscii])

def isSeparator (c : Char) : Bool := !(c.isAlphanum || c == '_')

def lowered (text : List Char) : List Char := text.map Char.toLower

/-- A text, and what it becomes with an underscore in place of every longest run of separators. -/
inductive Collapses : List Char → List Char → Prop where
  | nil : Collapses [] []
  | keep {c : Char} {rest result : List Char} (word : isSeparator c = false)
      (later : Collapses rest result) : Collapses (c :: rest) (c :: result)
  | replace {run rest result : List Char} (nonempty : run ≠ [])
      (separate : ∀ c ∈ run, isSeparator c = true)
      (ends : ∀ c ∈ rest.head?, isSeparator c = false)
      (later : Collapses rest result) : Collapses (run ++ rest) ('_' :: result)

namespace Collapses

variable {text result : List Char}

theorem word_of_mem (collapses : Collapses text result) :
    ∀ c ∈ result, isSeparator c = false ∧ (c ∈ text ∨ c = '_') := by
  induction collapses with
  | nil => exact nofun
  | keep word _ ih =>
      intro d member
      rcases List.mem_cons.1 member with rfl | later
      · exact ⟨word, .inl List.mem_cons_self⟩
      · exact (ih d later).imp_right (Or.imp_left (List.mem_cons_of_mem _))
  | replace _ _ _ _ ih =>
      intro d member
      rcases List.mem_cons.1 member with rfl | later
      · exact ⟨by decide, .inr rfl⟩
      · exact (ih d later).imp_right (Or.imp_left (List.mem_append_right _))

theorem of_words (words : ∀ c ∈ text, isSeparator c = false) : Collapses text text := by
  induction text with
  | nil => exact .nil
  | cons c rest ih =>
      have later := ih fun d member => words d (List.mem_cons_of_mem c member)
      exact .keep (words c List.mem_cons_self) later

theorem head_ne_underscore (collapses : Collapses text result) (clean : '_' ∉ text)
    (starts : ∀ c ∈ text.head?, isSeparator c = false) : result.head? ≠ some '_' := by
  cases collapses with
  | nil => exact nofun
  | keep word later =>
      intro same
      obtain rfl := Option.some.inj same
      exact clean List.mem_cons_self
  | @replace run rest _ nonempty separate ends later =>
      obtain ⟨c, others, rfl⟩ := List.exists_cons_of_ne_nil nonempty
      have word := starts c rfl
      rw [separate c List.mem_cons_self] at word
      cases word

theorem underscore_mem (collapses : Collapses text result) (adjacent : ['_', '_'] <:+: result) :
    '_' ∈ text := by
  induction collapses with
  | nil => simp at adjacent
  | keep _ _ ih =>
      rcases List.infix_cons_iff.1 adjacent with here | later
      · obtain ⟨same, -⟩ := List.cons_prefix_cons.1 here
        exact same ▸ List.mem_cons_self
      · exact List.mem_cons_of_mem _ (ih later)
  | replace _ _ ends others ih =>
      apply List.mem_append_right
      rcases List.infix_cons_iff.1 adjacent with here | later
      · obtain ⟨tail, rfl⟩ := (List.cons_prefix_cons.1 here).2
        by_contra clean
        exact others.head_ne_underscore clean ends rfl
      · exact ih later

end Collapses

structure PlainCase (c : Char) : Prop where
  ascii : c.toLower.toNat < 128
  fixed : c.toLower.toLower = c.toLower
  named : isNameChar c = !isSeparator c
  separate : isSeparator c.toLower = isSeparator c
  underscore : c.toLower = '_' ↔ c = '_'
  spelled : isSeparator c = true ∨ c.toLower.isLower = true ∨ c.toLower.isDigit = true ∨
    c.toLower = '_'

theorem plain_case {c : Char} (ascii : c.toNat < 128) : PlainCase c := by
  have checked : ∀ code < 128, (Char.ofNat code).toLower.toNat < 128 ∧
      (Char.ofNat code).toLower.toLower = (Char.ofNat code).toLower ∧
      isNameChar (Char.ofNat code) = !isSeparator (Char.ofNat code) ∧
      isSeparator (Char.ofNat code).toLower = isSeparator (Char.ofNat code) ∧
      ((Char.ofNat code).toLower = '_' ↔ Char.ofNat code = '_') ∧
      (isSeparator (Char.ofNat code) = true ∨ (Char.ofNat code).toLower.isLower = true ∨
        (Char.ofNat code).toLower.isDigit = true ∨ (Char.ofNat code).toLower = '_') := by
    decide +kernel
  have own := checked c.toNat ascii
  rw [Char.ofNat_toNat] at own
  obtain ⟨small, fixed, named, separate, underscore, spelled⟩ := own
  exact ⟨small, fixed, named, separate, underscore, spelled⟩

theorem lowercase_of_ascii {c : Char} (ascii : c.toNat < 128) : lowercase c = [c.toLower] :=
  if_pos ascii

theorem is_separator_to_lower {c : Char} (ascii : c.toNat < 128) :
    isSeparator c.toLower = !isNameChar c := by
  rw [(plain_case ascii).separate, (plain_case ascii).named, Bool.not_not]

section

variable {text other result : List Char}

theorem IsAscii.tail {c : Char} (ascii : IsAscii (c :: text)) : IsAscii text := fun d member =>
  ascii d (List.mem_cons_of_mem c member)

theorem IsAscii.of_append (ascii : IsAscii (text ++ other)) : IsAscii text ∧ IsAscii other :=
  ⟨fun c member => ascii c (List.mem_append_left other member),
    fun c member => ascii c (List.mem_append_right text member)⟩

theorem mem_lowered {c : Char} : c ∈ lowered text ↔ ∃ d ∈ text, d.toLower = c := List.mem_map

/-- What a text of ASCII characters starts with in lower case. -/
theorem is_separator_head_lowered_iff (ascii : IsAscii text) :
    (∀ c ∈ (lowered text).head?, isSeparator c = false) ↔
      ∀ c ∈ text.head?, isNameChar c = true := by
  cases text with
  | nil => simp [lowered]
  | cons c rest => simp [lowered, is_separator_to_lower (ascii c List.mem_cons_self)]

/-- The alias of a text is what the text in lower case collapses to. -/
theorem collapses_alias_from (text : List Char) (ascii : IsAscii text) :
    Collapses (lowered text) (aliasFrom false text) := by
  match text with
  | [] => exact .nil
  | c :: rest =>
      have own := is_separator_to_lower (ascii c List.mem_cons_self)
      cases named : isNameChar c with
      | true =>
          rw [named, Bool.not_true] at own
          rw [alias_from_of_is_name_char false named,
            lowercase_of_ascii (ascii c List.mem_cons_self)]
          exact .keep own (collapses_alias_from rest ascii.tail)
      | false =>
          obtain ⟨run, others, split, isGap, shorter⟩ := exists_gap rest named
          obtain ⟨asciiRun, asciiOthers⟩ := IsAscii.of_append (split ▸ ascii)
          rcases isGap with rfl | ⟨nonempty, separate, starts⟩
          · obtain rfl := (List.cons.inj split).1
            exact absurd named (by decide)
          · rw [split, IsGap.alias_from_append (.inr ⟨nonempty, separate, starts⟩), lowered,
              List.map_append]
            refine .replace (by simpa using nonempty) ?_
              ((is_separator_head_lowered_iff asciiOthers).2 starts)
              (collapses_alias_from others asciiOthers)
            intro d member
            obtain ⟨d, listed, rfl⟩ := mem_lowered.1 member
            rw [is_separator_to_lower (asciiRun d listed), separate d listed, Bool.not_false]
termination_by text.length

/-- A text collapses to nothing else. -/
theorem alias_from_of_collapses {text lower result : List Char} (ascii : IsAscii text)
    (lowers : lowered text = lower) (collapses : Collapses lower result) :
    aliasFrom false text = result := by
  induction collapses generalizing text with
  | nil =>
      rw [List.map_eq_nil_iff.1 lowers]
      rfl
  | keep word _ ih =>
      obtain ⟨c, rest, rfl, rfl, later⟩ := List.map_eq_cons_iff.1 lowers
      have own := ascii c List.mem_cons_self
      rw [is_separator_to_lower own, Bool.not_eq_false'] at word
      rw [alias_from_of_is_name_char false word, lowercase_of_ascii own, ih ascii.tail later]
      rfl
  | replace nonempty separate ends _ ih =>
      obtain ⟨run, rest, rfl, rfl, rfl⟩ := List.map_eq_append_iff.1 lowers
      obtain ⟨asciiRun, asciiRest⟩ := ascii.of_append
      have isGap : IsGap run rest := by
        refine .inr ⟨by simpa using nonempty, fun c member => ?_,
          (is_separator_head_lowered_iff asciiRest).1 ends⟩
        have own := separate c.toLower (List.mem_map_of_mem member)
        rwa [is_separator_to_lower (asciiRun c member), Bool.not_eq_true'] at own
      rw [isGap.alias_from_append, ih asciiRest rfl]

theorem collapses_iff (ascii : IsAscii text) :
    Collapses (lowered text) result ↔ result = aliasFrom false text :=
  ⟨fun collapses => (alias_from_of_collapses ascii rfl collapses).symm,
    fun same => same ▸ collapses_alias_from text ascii⟩

theorem to_lower_eq_self {c : Char} (large : 128 ≤ c.toNat) : c.toLower = c := by
  unfold Char.toLower
  rw [dif_neg]
  rintro ⟨-, small⟩
  have upper : c.toNat ≤ 90 := small
  omega

theorem IsAscii.of_lowered_eq (ascii : IsAscii text) (same : lowered other = lowered text) :
    IsAscii other := by
  intro c member
  have listed : c.toLower ∈ lowered text := same ▸ mem_lowered.2 ⟨c, member, rfl⟩
  obtain ⟨d, own, lower⟩ := mem_lowered.1 listed
  by_contra large
  have small := (plain_case (ascii d own)).ascii
  rw [lower, to_lower_eq_self (Nat.le_of_not_lt large)] at small
  exact large small

theorem underscore_mem_lowered_iff (ascii : IsAscii text) : '_' ∈ lowered text ↔ '_' ∈ text := by
  constructor
  · intro member
    obtain ⟨c, listed, lower⟩ := mem_lowered.1 member
    exact (plain_case (ascii c listed)).underscore.1 lower ▸ listed
  · exact fun member => mem_lowered.2 ⟨'_', member, rfl⟩

theorem mem_alias_from (ascii : IsAscii text) {c : Char} (member : c ∈ aliasFrom false text) :
    isSeparator c = false ∧ c.toNat < 128 ∧ c.toLower = c ∧
      (c.isLower = true ∨ c.isDigit = true ∨ c = '_') := by
  obtain ⟨word, origin⟩ := (collapses_alias_from text ascii).word_of_mem c member
  refine ⟨word, ?_⟩
  rcases origin with listed | rfl
  · obtain ⟨d, own, rfl⟩ := mem_lowered.1 listed
    have plain := plain_case (ascii d own)
    rw [plain.separate] at word
    exact ⟨plain.ascii, plain.fixed, plain.spelled.resolve_left (Bool.not_eq_true _ ▸ word)⟩
  · decide

theorem lowered_alias_from (ascii : IsAscii text) :
    lowered (aliasFrom false text) = aliasFrom false text := by
  refine (List.map_congr_left fun c member => ?_).trans (List.map_id _)
  exact (mem_alias_from ascii member).2.2.1

theorem alias_from_alias_from (ascii : IsAscii text) :
    aliasFrom false (aliasFrom false text) = aliasFrom false text := by
  have words := Collapses.of_words fun c (member : c ∈ aliasFrom false text) =>
    (mem_alias_from ascii member).1
  exact alias_from_of_collapses (fun c member => (mem_alias_from ascii member).2.1)
    (lowered_alias_from ascii) words

end

def separatedAfter (separated : Bool) (text : List Char) : Bool :=
  text.foldl (fun _ c => !isNameChar c) separated

theorem alias_from_append (separated : Bool) (text other : List Char) :
    aliasFrom separated (text ++ other) =
      aliasFrom separated text ++ aliasFrom (separatedAfter separated text) other := by
  induction text generalizing separated with
  | nil => rfl
  | cons c rest ih =>
      have later : separatedAfter separated (c :: rest) = separatedAfter (!isNameChar c) rest := rfl
      rw [List.cons_append, aliasFrom, aliasFrom, later]
      cases isNameChar c with
      | true => simp only [if_true, ih, List.append_assoc, Bool.not_true]
      | false =>
          simp only [Bool.false_eq_true, if_false, ih, Bool.not_false]
          cases separated <;> rfl

theorem separated_after_false {text : List Char} (ends : ∀ c ∈ text.getLast?, isNameChar c = true) :
    separatedAfter false text = false := by
  cases text using List.reverseRecOn with
  | nil => rfl
  | append_singleton rest c =>
      rw [separatedAfter, List.foldl_append, List.foldl_cons, List.foldl_nil,
        ends c List.getLast?_concat]
      rfl

/-- Where a name ends before a border or starts behind it, no run of separators crosses it. -/
theorem alias_from_append_of_border {text other : List Char}
    (border : (∀ c ∈ text.getLast?, isNameChar c = true) ∨
      ∀ c ∈ other.head?, isNameChar c = true) :
    aliasFrom false (text ++ other) = aliasFrom false text ++ aliasFrom false other := by
  rw [alias_from_append]
  congr 1
  rcases border with ends | starts
  · rw [separated_after_false ends]
  · cases separatedAfter false text
    · rfl
    · exact alias_from_true_eq starts

/-- The alias of a path of ASCII characters has lower case letters, digits and underscores only, and
is the one text that the path in lower case collapses to. It is its own alias, it is the alias of all
paths that differ from the path in case only, no two underscores stand side by side in it unless the
path has some, and behind the path another one, if no run of separators goes on there, has the alias
that it has alone. -/
theorem package_alias_of_ascii {path : String} (ascii : IsAscii path.toList) :
    (∀ c ∈ (packageAlias path).toList, c.isLower = true ∨ c.isDigit = true ∨ c = '_') ∧
    (∀ result, Collapses (lowered path.toList) result ↔ result = (packageAlias path).toList) ∧
    packageAlias (packageAlias path) = packageAlias path ∧
    (∀ other : String, lowered other.toList = lowered path.toList →
      packageAlias other = packageAlias path) ∧
    (['_', '_'] <:+: (packageAlias path).toList → '_' ∈ path.toList) ∧
    ∀ other : String, IsAscii other.toList →
      ((∀ c ∈ path.toList.getLast?, isSeparator c = false) ∨
        ∀ c ∈ other.toList.head?, isSeparator c = false) →
      packageAlias (path ++ other) = packageAlias path ++ packageAlias other := by
  have shown : (packageAlias path).toList = aliasFrom false path.toList := String.toList_ofList
  rw [shown]
  refine ⟨fun c member => (mem_alias_from ascii member).2.2.2, fun result => collapses_iff ascii,
    ?_, ?_, ?_, ?_⟩
  · rw [packageAlias, shown, alias_from_alias_from ascii]
    rfl
  · intro other same
    have collapses : Collapses (lowered path.toList) (aliasFrom false other.toList) :=
      same ▸ collapses_alias_from other.toList (ascii.of_lowered_eq same)
    rw [packageAlias, (collapses_iff ascii).1 collapses]
    rfl
  · intro adjacent
    exact (underscore_mem_lowered_iff ascii).1
      ((collapses_alias_from path.toList ascii).underscore_mem adjacent)
  · intro other asciiOther border
    have named {text : List Char} (ascii : IsAscii text) {c : Char} (member : c ∈ text)
        (word : isSeparator c = false) : isNameChar c = true := by
      rw [(plain_case (ascii c member)).named, word, Bool.not_false]
    have joint := border.imp
      (fun ends c last => named ascii (List.mem_of_getLast? last) (ends c last))
      (fun starts c first => named asciiOther (List.mem_of_mem_head? first) (starts c first))
    rw [packageAlias, String.toList_append, alias_from_append_of_border joint, String.ofList_append]
    rfl

/-- Underscores beside separators in a path. -/
theorem package_alias_underscores : IsAscii "X.Org/_a-/b".toList ∧
    Collapses (lowered "X.Org/_a-/b".toList) "x_org__a_b".toList ∧
    packageAlias "x_org__a_b" = "x_org__a_b" ∧ packageAlias "x.oRG/_A-/B" = "x_org__a_b" ∧
    packageAlias "X.Org/_a-/b/9" = "x_org__a_b" ++ packageAlias "/9" := by
  have ascii : IsAscii "X.Org/_a-/b".toList := by decide +kernel
  have shown : packageAlias "X.Org/_a-/b" = "x_org__a_b" := by decide +kernel
  have last : "X.Org/_a-/b".toList.getLast? = some 'b' := by decide +kernel
  obtain ⟨-, collapses, fixed, caseless, -, append⟩ := package_alias_of_ascii ascii
  rw [shown] at collapses fixed caseless append
  exact ⟨ascii, (collapses _).2 rfl, fixed, caseless "x.oRG/_A-/B" (by decide +kernel),
    append "/9" (by decide +kernel) (.inl fun c ends => by cases last ▸ ends; rfl)⟩

end EndpointAtlas
