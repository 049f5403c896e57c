import EndpointAtlas.Proofs.Annotations.Rows

/-!
Styles of comments. The same texts can be written as line comments or as the lines of one block
comment, and lines may end with a carriage return. The annotations are those of the texts in each
of the styles.
-/

namespace EndpointAtlas

open Text

inductive LineEnd where
  | feed
  | returnFeed
  deriving DecidableEq, Repr

namespace LineEnd

/-- What stands before the line feed. It stays at the end of a line comment. -/
def start : LineEnd → String
  | feed => ""
  | returnFeed => "\r"

def text (ending : LineEnd) : String := ending.start ++ "\n"

end LineEnd

def lineComments (ending : LineEnd) (texts : List String) : List String :=
  texts.map fun text => "// " ++ text ++ ending.start

/-- One comment with a line for each text between its first and its last line. -/
def blockComment (ending : LineEnd) (texts : List String) : String :=
  "/*" ++ ending.text ++ String.join (texts.map fun text => " * " ++ text ++ ending.text) ++ " */"

def trimmedRows (texts : List String) : List (List Char) := texts.map fun text => trim text.toList

section

variable (ending : LineEnd)

theorem LineEnd.is_blank_of_mem_start : ∀ c ∈ ending.start.toList, isBlank c = true := by
  cases ending with
  | feed => exact List.forall_mem_nil _
  | returnFeed =>
      show ∀ c ∈ ['\r'], isBlank c = true
      exact List.forall_mem_singleton.2 (by decide)

theorem LineEnd.feed_not_mem_start : '\n' ∉ ending.start.toList := by
  cases ending <;> decide

theorem trim_line_comment (text : List Char) :
    trim (' ' :: text ++ ending.start.toList) = trim text := by
  rw [trim_append_blank _ ending.is_blank_of_mem_start]
  exact trim_space text

theorem row_text_starred (text : List Char) :
    rowText (' ' :: '*' :: ' ' :: text ++ ending.start.toList) = trim text := by
  have outer : trim (' ' :: '*' :: ' ' :: text ++ ending.start.toList) =
      '*' :: trimEnd (' ' :: text) := by
    rw [trim_append_blank _ ending.is_blank_of_mem_start]
    exact trim_end_cons (by decide) _
  rw [rowText, outer, withoutStar, List.head?_cons, if_pos rfl, List.tail_cons, trim_trim_end]
  exact trim_space text

theorem row_text_blank {row : List Char} (blank : ∀ c ∈ row, isBlank c = true) :
    rowText row = [] := by
  have empty := trim_append_blank [] blank
  rw [List.nil_append] at empty
  rw [rowText, empty]
  rfl

theorem row_text_space : rowText [' '] = [] :=
  row_text_blank (List.forall_mem_singleton.2 (by decide))

theorem tagged_lines_line_comments (texts : List String) :
    taggedLines (lineComments ending texts) = (trimmedRows texts).filterMap tagOf? := by
  unfold taggedLines lineComments trimmedRows
  rw [List.flatMap_map, List.filterMap_map, List.filterMap_eq_flatMap_toList]
  refine List.flatMap_congr fun text _ => ?_
  have whole : ("// " ++ text ++ ending.start).toList =
      '/' :: '/' :: (' ' :: text.toList ++ ending.start.toList) := by
    simp [String.toList_append]
  rw [whole, comment_lines_line, trim_line_comment]
  cases tagOf? (trim text.toList) <;> rfl

def starredLines (texts : List String) : List Char :=
  texts.flatMap (fun text => ' ' :: '*' :: ' ' :: text.toList ++ ending.start.toList ++ ['\n']) ++
    [' ']

theorem to_list_block_comment (texts : List String) : (blockComment ending texts).toList =
    '/' :: '*' :: (ending.start.toList ++ '\n' :: starredLines ending texts ++ ['*', '/']) := by
  simp [blockComment, starredLines, LineEnd.text, String.toList_append, List.flatMap_map]

theorem split_on_starred_lines {texts : List String} (clean : ∀ text ∈ texts, '\n' ∉ text.toList) :
    (starredLines ending texts).splitOn '\n' =
      texts.map (fun text => ' ' :: '*' :: ' ' :: text.toList ++ ending.start.toList) ++
        [[' ']] := by
  induction texts with
  | nil => exact split_on_eq_singleton (show _ ∉ [_] by decide)
  | cons text rest ih =>
      have own : '\n' ∉ ' ' :: '*' :: ' ' :: text.toList ++ ending.start.toList := by
        simpa using ⟨clean text List.mem_cons_self, ending.feed_not_mem_start⟩
      have split : starredLines ending (text :: rest) =
          (' ' :: '*' :: ' ' :: text.toList ++ ending.start.toList) ++
            '\n' :: starredLines ending rest := by
        simp [starredLines]
      rw [split, List.splitOn_append_cons_self, ih fun other member =>
        clean other (List.mem_cons_of_mem _ member), split_on_eq_singleton own]
      rfl

theorem tagged_lines_block_comment {texts : List String}
    (clean : ∀ text ∈ texts, '\n' ∉ text.toList) :
    taggedLines [blockComment ending texts] = (trimmedRows texts).filterMap tagOf? := by
  have has : List.Forall₂ HasRows ([blockComment ending texts].map String.toList)
      [((ending.start.toList ++ '\n' :: starredLines ending texts).splitOn '\n').map rowText] := by
    refine .cons ?_ .nil
    rw [to_list_block_comment]
    exact .block _
  have rows : (texts.map fun text => ' ' :: '*' :: ' ' :: text.toList ++ ending.start.toList).map
      rowText = trimmedRows texts := by
    rw [List.map_map]
    exact List.map_congr_left fun text _ => row_text_starred ending text.toList
  rw [tagged_lines_of_has_rows has, List.splitOn_append_cons_self,
    split_on_starred_lines ending clean,
    split_on_eq_singleton ending.feed_not_mem_start, List.flatten_singleton, List.map_append,
    List.map_append, rows, List.map_singleton, List.map_singleton,
    row_text_blank ending.is_blank_of_mem_start, row_text_space, List.filterMap_append,
    List.filterMap_append]
  exact List.append_nil _

end

/-- The annotations of texts are the same in each style, and they are those of the texts. -/
theorem Annotations.of_doc_styles {texts : List String}
    (clean : ∀ text ∈ texts, '\n' ∉ text.toList) :
    ∃ found, found.Records (trimmedRows texts) ∧ ∀ ending,
      ofDoc (some (lineComments ending texts)) = found ∧
        ofDoc (some [blockComment ending texts]) = found := by
  refine ⟨addAll ⟨.empty⟩ ((trimmedRows texts).filterMap tagOf?), ?_, fun ending => ⟨?_, ?_⟩⟩
  · rw [← tagged_lines_line_comments .feed texts]
    exact @records_of_tagged_lines (some _) _ (tagged_lines_line_comments .feed texts)
  · rw [of_doc_eq, ← tagged_lines_line_comments ending texts]
    rfl
  · rw [of_doc_eq, ← tagged_lines_block_comment ending clean]
    rfl

/-- Texts that look like markers, end with white space or are empty. -/
theorem Annotations.of_doc_styles_markers : ∃ found, found.get "@Tag" = ["a", "*/ b"] ∧
    ∀ ending,
      ofDoc (some (lineComments ending ["@Tag a\r", "*@Tag", "", "@Tag\t*/ b ", "// @Tag"])) =
        found ∧
      ofDoc (some [blockComment ending ["@Tag a\r", "*@Tag", "", "@Tag\t*/ b ", "// @Tag"]]) =
        found := by
  obtain ⟨found, records, same⟩ :=
    @of_doc_styles ["@Tag a\r", "*@Tag", "", "@Tag\t*/ b ", "// @Tag"] (by decide +kernel)
  refine ⟨found, ?_, same⟩
  rw [records.get]
  decide +kernel

end EndpointAtlas
