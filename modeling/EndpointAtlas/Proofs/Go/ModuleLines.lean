import Mathlib.Data.List.Chain
import EndpointAtlas.Go.ModuleFile
import EndpointAtlas.Proofs.Annotations.Styles

/-!
The layouts of a module line, and which of them are read. The line may stand after blank lines and
comments; the path may be quoted, and blanks and a comment may follow it. Its path is read exactly if
a space follows the word `module`; after a tab the line is passed over, and what follows decides.
White space other than spaces and tabs is cut off the ends of a path without quotes.
-/

namespace EndpointAtlas.Go

open Text

def isGap (c : Char) : Bool := c == ' ' || c == '\t'

def NoDoubleSlash (first second : Char) : Prop := first = '/' → second ≠ '/'

/-- A line that states nothing: spaces and tabs, or a comment after some. -/
structure PassedLine where
  indent : List Char
  comment : Option (List Char)
  ending : LineEnd
  gaps : ∀ c ∈ indent, isGap c = true
  oneLine : ∀ text ∈ comment, '\n' ∉ text

/-- A module line and its layout. The comment after the path is the first pair of slashes. -/
structure ModuleLine where
  indent : List Char
  /-- What follows the word `module`, and what follows that up to the path. -/
  separator : Char
  gap : List Char
  path : List Char
  quoted : Bool
  tail : List Char
  comment : Option (List Char)
  gaps : ∀ c ∈ indent ++ separator :: gap ++ tail, isGap c = true
  nonempty : path ≠ []
  clean : ∀ c ∈ path, isGap c = false ∧ isQuote c = false ∧ c ≠ '\n'
  single : path.IsChain NoDoubleSlash
  oneLine : ∀ text ∈ comment, '\n' ∉ text
  apart : comment.isSome → tail = [] → quoted = false → path.getLast? ≠ some '/'

def commentText (comment : Option (List Char)) : List Char :=
  (comment.map fun text => '/' :: '/' :: text).getD []

namespace PassedLine

def row (line : PassedLine) : List Char :=
  line.indent ++ commentText line.comment ++ line.ending.start.toList

end PassedLine

namespace ModuleLine

def written (line : ModuleLine) : List Char :=
  if line.quoted then '"' :: line.path ++ ['"'] else line.path

def front (line : ModuleLine) : List Char := line.gap ++ line.written ++ line.tail

def row (line : ModuleLine) : List Char :=
  line.indent ++ ("module".toList ++ line.separator :: (line.front ++ commentText line.comment))

end ModuleLine

/-- The start of a text up to its first line that states something, a module line. -/
structure ModuleText where
  before : List PassedLine
  line : ModuleLine

namespace ModuleText

/-- What the line ends with and what follows it, unless the text ends with the line. -/
abbrev After := Option (LineEnd × List Char)

def restOf (after : After) : List Char := (after.map Prod.snd).getD []

def chars (text : ModuleText) (after : After) : List Char :=
  text.before.flatMap (·.row ++ ['\n']) ++ (text.line.row ++
    (after.map fun found => found.1.start.toList ++ '\n' :: found.2).getD [])

end ModuleText

theorem is_blank_of_is_gap {c : Char} (gap : isGap c = true) : isBlank c = true := by
  simp only [isGap, Bool.or_eq_true, beq_iff_eq] at gap
  rcases gap with rfl | rfl <;> decide

theorem ne_slash_of_is_gap {c : Char} (gap : isGap c = true) : c ≠ '/' := by
  rintro rfl
  exact absurd gap (by decide)

theorem ne_feed_of_is_gap {c : Char} (gap : isGap c = true) : c ≠ '\n' := by
  rintro rfl
  exact absurd gap (by decide)

section comments

variable {text others : List Char}

theorem before_comment_eq_self (single : text.IsChain NoDoubleSlash) :
    beforeComment text = text := by
  fun_induction beforeComment text with
  | case1 rest => exact absurd rfl ((List.isChain_cons_cons.1 single).1 rfl)
  | case2 c rest _ ih => rw [ih single.tail]
  | case3 => rfl

theorem before_comment_append (single : text.IsChain NoDoubleSlash)
    (apart : text.getLast? ≠ some '/') (rest : List Char) :
    beforeComment (text ++ '/' :: '/' :: rest) = text := by
  induction text with
  | nil => rfl
  | cons c others ih =>
      have shorter : beforeComment (others ++ '/' :: '/' :: rest) = others := by
        cases others with
        | nil => rfl
        | cons second tail => exact ih single.tail (by simpa using apart)
      rw [List.cons_append, beforeComment.eq_def]
      split
      · rename_i split
        obtain ⟨rfl, same⟩ := List.cons.inj split
        cases others with
        | nil => exact absurd rfl apart
        | cons second tail =>
            exact ((List.isChain_cons_cons.1 single).1 rfl (List.cons.inj same).1).elim
      · rename_i split
        obtain ⟨rfl, rfl⟩ := List.cons.inj split
        rw [shorter]
      · rename_i split
        cases split

theorem is_chain_of_no_slash (none : ∀ c ∈ text, c ≠ '/') : text.IsChain NoDoubleSlash :=
  (List.pairwise_of_forall_mem_list fun first member _ _ same =>
    absurd same (none first member)).isChain

theorem is_chain_append_left (none : ∀ c ∈ text, c ≠ '/') (single : others.IsChain NoDoubleSlash) :
    (text ++ others).IsChain NoDoubleSlash :=
  List.isChain_append.2 ⟨is_chain_of_no_slash none, single, fun first last _ _ same =>
    absurd same (none first (List.mem_of_getLast? last))⟩

theorem is_chain_append_right (single : text.IsChain NoDoubleSlash) (none : ∀ c ∈ others, c ≠ '/') :
    (text ++ others).IsChain NoDoubleSlash :=
  List.isChain_append.2 ⟨single, is_chain_of_no_slash none, fun _ _ second head _ =>
    none second (List.mem_of_head? head)⟩

end comments

def unquoted (text : List Char) : List Char := dropEndWhile isQuote (text.dropWhile isQuote)

theorem drop_while_of_clean {p : α → Bool} {items : List α} (clean : ∀ x ∈ items, p x = false) :
    items.dropWhile p = items := by
  cases items with
  | nil => rfl
  | cons x rest => exact List.dropWhile_cons_of_neg (by simp [clean x List.mem_cons_self])

theorem unquoted_append {first text last : List Char} (opens : ∀ c ∈ first, isQuote c = true)
    (closes : ∀ c ∈ last, isQuote c = true) (clean : ∀ c ∈ text, isQuote c = false) :
    unquoted (first ++ text ++ last) = text := by
  have closed : dropEndWhile isQuote (text ++ last) = text := by
    rw [dropEndWhile, List.reverse_append,
      List.dropWhile_append_of_pos fun c member => closes c (List.mem_reverse.1 member),
      drop_while_of_clean fun c member => clean c (List.mem_reverse.1 member), List.reverse_reverse]
  rw [unquoted, List.append_assoc, List.dropWhile_append_of_pos opens]
  cases text with
  | nil =>
      rw [List.nil_append, List.dropWhile_eq_nil_iff.2 closes]
      rfl
  | cons c rest =>
      rw [List.cons_append, List.dropWhile_cons_of_neg (by simp [clean c]), ← List.cons_append,
        closed]

theorem unquoted_eq_self {text : List Char} (clean : ∀ c ∈ text, isQuote c = false) :
    unquoted text = text := by
  simpa using unquoted_append (List.forall_mem_nil _) (List.forall_mem_nil _) clean

theorem trim_end_cons_of_ne_nil {c : Char} {text : List Char} (visible : trimEnd text ≠ []) :
    trimEnd (c :: text) = c :: trimEnd text := by
  unfold trimEnd dropEndWhile at visible ⊢
  rw [List.reverse_cons, List.dropWhile_append, if_neg (by simpa using visible)]
  simp

theorem trim_end_eq_nil_iff {text : List Char} : trimEnd text = [] ↔ trim text = [] := by
  rw [trim_eq_nil_iff, trimEnd, dropEndWhile, List.reverse_eq_nil_iff, List.dropWhile_eq_nil_iff]
  exact forall_congr' fun c => by rw [List.mem_reverse]

theorem module_line_append {indent body blanks : List Char} {separator : Char}
    (gaps : ∀ c ∈ indent, isGap c = true) (gap : isGap separator = true)
    (blank : ∀ c ∈ blanks, isBlank c = true) :
    moduleLine? (indent ++ ("module".toList ++ separator :: body) ++ blanks) =
      if separator = ' ' ∧ trim body ≠ [] then
        some (unquoted (trim (beforeComment (trimEnd body))))
      else none := by
  have word : "module".toList = ['m', 'o', 'd', 'u', 'l', 'e'] := by decide
  have start : "module ".toList = ['m', 'o', 'd', 'u', 'l', 'e', ' '] := by decide
  have trimmed : trim (indent ++ ("module".toList ++ separator :: body) ++ blanks) =
      "module".toList ++ trimEnd (separator :: body) := by
    rw [trim_append_blank _ blank,
      trim_blank_append fun c member => is_blank_of_is_gap (gaps c member),
      word]
    have visible : startsBlank (['m', 'o', 'd', 'u', 'l', 'e'] ++ separator :: body) = false :=
      (starts_blank_append (by simp) _).trans (by decide)
    rw [trim, trim_start_eq_self visible]
    simp only [List.cons_append, List.nil_append]
    repeat rw [trim_end_cons (by decide)]
  rw [moduleLine?, trimmed, word, start]
  by_cases empty : trim body = []
  · have nothing : trimEnd (separator :: body) = [] := by
      rw [trim_end_eq_nil_iff, trim_eq_nil_iff]
      exact List.forall_mem_cons.2 ⟨is_blank_of_is_gap gap, trim_eq_nil_iff.1 empty⟩
    rw [nothing, if_neg (fun both => both.2 empty)]
    rfl
  · rw [trim_end_cons_of_ne_nil (fun nothing => empty (trim_end_eq_nil_iff.1 nothing))]
    by_cases space : separator = ' '
    · rw [if_pos ⟨space, empty⟩, space]
      rfl
    · rw [if_neg (fun both => space both.1)]
      simp [afterStart?, List.isPrefixOf?, Ne.symm space]

def modulePathOf? (rows : List (List Char)) : Option String :=
  match rows.findSome? moduleLine? with
  | some (c :: rest) => some (String.ofList (c :: rest))
  | _ => none

theorem module_line_trim (row : List Char) : moduleLine? (trim row) = moduleLine? row := by
  rw [moduleLine?, trim_trim, moduleLine?]

theorem module_path_eq (content : String) :
    modulePath? content = modulePathOf? (content.toList.splitOn '\n') := by
  have trimmed (rows : List (List Char)) :
      rows.findSome? moduleLine? = (rows.map trim).findSome? moduleLine? := by
    rw [List.findSome?_map]
    exact congrArg (fun f => rows.findSome? f) (funext fun row => (module_line_trim row).symm)
  obtain ⟨nothing, empty, rows⟩ := map_trim_split_on content.toList
  have none : nothing.findSome? moduleLine? = none :=
    List.findSome?_eq_none_iff.2 fun row member => empty row member ▸ by decide
  have same : (lines content.toList).findSome? moduleLine? =
      (content.toList.splitOn '\n').findSome? moduleLine? := by
    rw [trimmed (lines _), trimmed (content.toList.splitOn '\n'), rows, List.findSome?_append, none,
      Option.or_none]
  exact congrArg (fun found => match found with
    | some (c :: rest) => some (String.ofList (c :: rest))
    | _ => Option.none) same

theorem module_path_of_cons_none {row : List Char} (passed : moduleLine? row = none)
    (rows : List (List Char)) : modulePathOf? (row :: rows) = modulePathOf? rows := by
  rw [modulePathOf?, List.findSome?_cons, passed]
  rfl

theorem module_path_of_cons_some {row path : List Char} (found : moduleLine? row = some path)
    (nonempty : path ≠ []) (rows : List (List Char)) :
    modulePathOf? (row :: rows) = some (String.ofList path) := by
  rw [modulePathOf?, List.findSome?_cons, found]
  cases path with
  | nil => exact absurd rfl nonempty
  | cons c rest => rfl

namespace PassedLine

theorem module_line_row (line : PassedLine) : moduleLine? line.row = none := by
  have blank : ∀ c ∈ line.ending.start.toList, isBlank c = true := line.ending.is_blank_of_mem_start
  rw [← module_line_trim, row, trim_append_blank _ blank,
    trim_blank_append fun c member => is_blank_of_is_gap (line.gaps c member), module_line_trim]
  cases line.comment with
  | none => decide
  | some text =>
      have visible : startsBlank ('/' :: '/' :: text) = false := by simp [startsBlank]; decide
      show moduleLine? ('/' :: '/' :: text) = none
      rw [moduleLine?, trim, trim_start_eq_self visible, trim_end_cons (by decide)]
      have start : "module ".toList = ['m', 'o', 'd', 'u', 'l', 'e', ' '] := by decide
      simp [afterStart?, start, List.isPrefixOf?]

theorem feed_not_mem_row (line : PassedLine) : '\n' ∉ line.row := by
  intro member
  simp only [row, commentText, List.mem_append] at member
  rcases member with (member | member) | member
  · exact ne_feed_of_is_gap (line.gaps _ member) rfl
  · cases comment : line.comment with
    | none => simp [comment] at member
    | some text =>
        have clean := line.oneLine text comment
        simp [comment, clean] at member
  · exact line.ending.feed_not_mem_start member

end PassedLine

namespace ModuleLine

variable (line : ModuleLine)

theorem gaps_parts : (∀ c ∈ line.indent, isGap c = true) ∧ isGap line.separator = true ∧
    (∀ c ∈ line.gap, isGap c = true) ∧ ∀ c ∈ line.tail, isGap c = true := by
  have gaps := line.gaps
  simp only [List.forall_mem_append, List.forall_mem_cons] at gaps
  exact ⟨gaps.1.1, gaps.1.2.1, gaps.1.2.2, gaps.2⟩

theorem is_chain_written : line.written.IsChain NoDoubleSlash := by
  unfold written
  split
  · exact is_chain_append_right
      (is_chain_append_left (List.forall_mem_singleton.2 (by decide)) line.single)
      (List.forall_mem_singleton.2 (by decide))
  · exact line.single

theorem is_chain_front : line.front.IsChain NoDoubleSlash := by
  obtain ⟨-, -, gap, tail⟩ := line.gaps_parts
  exact is_chain_append_right
    (is_chain_append_left (fun c member => ne_slash_of_is_gap (gap c member)) line.is_chain_written)
    fun c member => ne_slash_of_is_gap (tail c member)

theorem written_ne_nil : line.written ≠ [] := by
  unfold written
  split
  · exact List.cons_ne_nil _ _
  · exact line.nonempty

theorem get_last_front (commented : line.comment.isSome = true) :
    line.front.getLast? ≠ some '/' := by
  obtain ⟨-, -, -, tail⟩ := line.gaps_parts
  cases last : line.tail with
  | nil =>
      rw [front, last, List.append_nil, List.getLast?_append_of_ne_nil _ line.written_ne_nil,
        written]
      split
      · rw [List.cons_append, List.getLast?_cons, List.getLast?_append_of_ne_nil _ (by simp)]
        decide
      · exact line.apart commented last (Bool.eq_false_iff.2 ‹_›)
  | cons c rest =>
      have nonempty : line.tail ≠ [] := last ▸ List.cons_ne_nil _ _
      rw [front, List.getLast?_append_of_ne_nil _ nonempty]
      exact fun slash => ne_slash_of_is_gap (tail _ (List.mem_of_getLast? slash)) rfl

theorem is_quote_of_mem_path : ∀ c ∈ line.path, isQuote c = false :=
  fun c member => (line.clean c member).2.1

/-- The path as the line has it, but for the white space around it that no quotes keep. -/
def read : List Char := if line.quoted then line.path else trim line.path

theorem unquoted_trim_front : unquoted (trim line.front) = line.read := by
  obtain ⟨-, -, gap, tail⟩ := line.gaps_parts
  rw [front, trim_append_blank _ fun c member => is_blank_of_is_gap (tail c member),
    trim_blank_append fun c member => is_blank_of_is_gap (gap c member), written, read]
  split
  · have quotes : startsBlank ('"' :: line.path ++ ['"']) = false := by
      simp [startsBlank]
      decide
    have closes : endsBlank ('"' :: line.path ++ ['"']) = false :=
      (ends_blank_append _ (List.cons_ne_nil _ _)).trans (by decide)
    rw [trim_eq_self quotes closes]
    exact @unquoted_append ['"'] _ ['"'] (List.forall_mem_singleton.2 rfl)
      (List.forall_mem_singleton.2 rfl) line.is_quote_of_mem_path
  · obtain ⟨before, after, split, -⟩ := exists_append_trim line.path
    exact unquoted_eq_self fun c member => line.is_quote_of_mem_path c
      (split ▸ List.mem_append_left _ (List.mem_append_right _ member))

theorem trim_before_comment :
    trim (beforeComment (trimEnd (line.front ++ commentText line.comment))) = trim line.front := by
  cases comment : line.comment with
  | none =>
      obtain ⟨blanks, -, split⟩ := exists_trim_end line.front
      have single : (trimEnd line.front).IsChain NoDoubleSlash :=
        (List.isChain_append.1 (split ▸ line.is_chain_front)).1
      show trim (beforeComment (trimEnd (line.front ++ []))) = _
      rw [List.append_nil, before_comment_eq_self single, trim_trim_end]
  | some text =>
      have cut : trimEnd (line.front ++ '/' :: '/' :: text) =
          line.front ++ '/' :: '/' :: trimEnd text := by
        induction line.front with
        | nil => rw [List.nil_append, trim_end_cons (by decide), trim_end_cons (by decide)]; rfl
        | cons c rest ih =>
            have visible : trimEnd (rest ++ '/' :: '/' :: text) ≠ [] := ih ▸ by simp
            rw [List.cons_append, trim_end_cons_of_ne_nil visible, ih]
            rfl
      show trim (beforeComment (trimEnd (line.front ++ '/' :: '/' :: text))) = _
      rw [cut, before_comment_append line.is_chain_front (line.get_last_front (comment ▸ rfl))]

theorem feed_not_mem_row : '\n' ∉ line.row := by
  obtain ⟨indent, separator, gap, tail⟩ := line.gaps_parts
  have word : '\n' ∉ "module".toList := by decide
  have path : '\n' ∉ line.path := fun member => (line.clean _ member).2.2 rfl
  have written : '\n' ∉ line.written := by
    unfold ModuleLine.written
    split <;> simp [path]
  have comment : '\n' ∉ commentText line.comment := by
    cases given : line.comment with
    | none => exact List.not_mem_nil
    | some text => simpa [commentText] using line.oneLine text given
  have gapped {chars : List Char} (gaps : ∀ c ∈ chars, isGap c = true) : '\n' ∉ chars :=
    fun member => ne_feed_of_is_gap (gaps _ member) rfl
  simp only [row, front, List.mem_append, List.mem_cons, not_or]
  exact ⟨gapped indent, word, (ne_feed_of_is_gap separator).symm,
    ⟨⟨gapped gap, written⟩, gapped tail⟩, comment⟩

section

variable (ending : List Char) (blank : ∀ c ∈ ending, isBlank c = true)

include blank

theorem module_line_row_space (space : line.separator = ' ') (visible : line.read ≠ []) :
    moduleLine? (line.row ++ ending) = some line.read := by
  obtain ⟨indent, separator, -, -⟩ := line.gaps_parts
  have stated : trim (line.front ++ commentText line.comment) ≠ [] := by
    intro empty
    have nothing : trim line.front = [] :=
      trim_eq_nil_iff.2 fun c member => trim_eq_nil_iff.1 empty c (List.mem_append_left _ member)
    exact visible (by rw [← line.unquoted_trim_front, nothing]; rfl)
  rw [row, module_line_append indent separator blank, if_pos ⟨space, stated⟩,
    line.trim_before_comment, line.unquoted_trim_front]

theorem module_line_row_tab (tab : line.separator ≠ ' ') :
    moduleLine? (line.row ++ ending) = none := by
  obtain ⟨indent, separator, -, -⟩ := line.gaps_parts
  rw [row, module_line_append indent separator blank, if_neg fun both => tab both.1]

end

theorem module_path_of_row (empty : line.read = []) : modulePathOf? [line.row] = none := by
  obtain ⟨indent, separator, -, -⟩ := line.gaps_parts
  have found : moduleLine? (line.row ++ []) = _ :=
    module_line_append indent separator (List.forall_mem_nil (isBlank · = true))
  rw [List.append_nil, line.trim_before_comment, line.unquoted_trim_front, empty] at found
  rw [modulePathOf?, List.findSome?_cons, found]
  by_cases stated : line.separator = ' ' ∧ trim (line.front ++ commentText line.comment) ≠ []
  · rw [if_pos stated]
  · rw [if_neg stated]
    rfl

end ModuleLine

namespace ModuleText

variable (text : ModuleText)

theorem module_path_chars (after : After) :
    modulePath? (String.ofList (text.chars after)) = modulePathOf? ((text.line.row ++
      (after.map fun found => found.1.start.toList ++ '\n' :: found.2).getD []).splitOn '\n') := by
  rw [module_path_eq, String.toList_ofList, chars]
  induction text.before with
  | nil => rfl
  | cons passed rest ih =>
      rw [List.flatMap_cons, List.append_assoc, List.append_assoc, List.singleton_append,
        List.splitOn_append_cons_self, split_on_eq_singleton passed.feed_not_mem_row,
        List.singleton_append, module_path_of_cons_none passed.module_line_row]
      exact ih

theorem module_path_chars_none :
    modulePath? (String.ofList (text.chars none)) = modulePathOf? [text.line.row] := by
  rw [module_path_chars]
  show modulePathOf? ((text.line.row ++ []).splitOn '\n') = _
  rw [List.append_nil, split_on_eq_singleton text.line.feed_not_mem_row]

theorem module_path_chars_some (ending : LineEnd) (rest : List Char) :
    modulePath? (String.ofList (text.chars (some (ending, rest)))) =
      modulePathOf? ((text.line.row ++ ending.start.toList) :: rest.splitOn '\n') := by
  have clean : '\n' ∉ text.line.row ++ ending.start.toList := by
    rw [List.mem_append, not_or]
    exact ⟨text.line.feed_not_mem_row, ending.feed_not_mem_start⟩
  rw [module_path_chars]
  show modulePathOf? ((text.line.row ++ (ending.start.toList ++ '\n' :: rest)).splitOn '\n') = _
  rw [← List.append_assoc, List.splitOn_append_cons_self, split_on_eq_singleton clean]
  rfl

theorem module_path_chars_space (space : text.line.separator = ' ') (visible : text.line.read ≠ [])
    (after : After) :
    modulePath? (String.ofList (text.chars after)) = some (String.ofList text.line.read) := by
  have found := text.line.module_line_row_space
  cases after with
  | none =>
      have row := found [] (List.forall_mem_nil _) space visible
      rw [List.append_nil] at row
      rw [module_path_chars_none, module_path_of_cons_some row visible]
  | some after =>
      rw [module_path_chars_some,
        module_path_of_cons_some (found _ after.1.is_blank_of_mem_start space visible) visible]

theorem module_path_chars_tab (tab : text.line.separator ≠ ' ') (after : After) :
    modulePath? (String.ofList (text.chars after)) =
      modulePath? (String.ofList (restOf after)) := by
  have passed := text.line.module_line_row_tab
  cases after with
  | none =>
      have row := passed [] (List.forall_mem_nil _) tab
      rw [List.append_nil] at row
      rw [module_path_chars_none, module_path_of_cons_none row]
      decide
  | some after =>
      rw [module_path_chars_some,
        module_path_of_cons_none (passed _ after.1.is_blank_of_mem_start tab),
        module_path_eq, String.toList_ofList]
      rfl

end ModuleText

/-- A module line is read exactly if a space follows the word `module`; a tab lets what follows the
line decide. -/
theorem module_path_module_text (text : ModuleText) :
    (text.line.separator = ' ' → text.line.read ≠ [] → ∀ after,
      modulePath? (String.ofList (text.chars after)) = some (String.ofList text.line.read)) ∧
    (text.line.separator = '\t' → ∀ after, modulePath? (String.ofList (text.chars after)) =
      modulePath? (String.ofList (ModuleText.restOf after))) ∧
    ((∀ after, modulePath? (String.ofList (text.chars after)) =
        some (String.ofList text.line.path)) ↔
      text.line.separator = ' ' ∧
        (text.line.quoted = true ∨ trim text.line.path = text.line.path)) := by
  refine ⟨text.module_path_chars_space, fun tab => text.module_path_chars_tab (by simp [tab]),
    fun reads => ?_, fun ⟨space, kept⟩ after => ?_⟩
  · have ends := reads none
    by_cases space : text.line.separator = ' '
    · refine ⟨space, ?_⟩
      by_cases empty : text.line.read = []
      · rw [text.module_path_chars_none, text.line.module_path_of_row empty] at ends
        cases ends
      · rw [text.module_path_chars_space space empty, Option.some_inj, String.ofList_inj,
          ModuleLine.read] at ends
        split at ends
        · exact .inl ‹_›
        · exact .inr ends
    · have nothing : modulePath? (String.ofList (ModuleText.restOf none)) = none := by decide
      rw [text.module_path_chars_tab space, nothing] at ends
      cases ends
  · have same : text.line.read = text.line.path := by
      unfold ModuleLine.read
      split
      · rfl
      · exact kept.resolve_left ‹_›
    rw [text.module_path_chars_space space (same ▸ text.line.nonempty), same]

def tabText : ModuleText where
  before := []
  line :=
    { indent := []
      separator := '\t'
      gap := []
      path := ['x', '.', 'y', '/', 'm']
      quoted := false
      tail := []
      comment := none
      gaps := by simp [isGap]
      nonempty := by simp
      clean := by simp [isGap, isQuote]
      single := by simp [NoDoubleSlash]
      oneLine := by simp
      apart := by simp }

/-- The module path after a tab is not read. -/
theorem module_path_tab_text :
    String.ofList (tabText.chars (some (.feed, []))) = "module\tx.y/m\n" ∧
      modulePath? "module\tx.y/m\n" = none := by
  constructor <;> decide

end EndpointAtlas.Go
