import Mathlib.Data.List.Forall2
import EndpointAtlas.Proofs.Annotations.Tags
import EndpointAtlas.Proofs.Text.Trimming

/-!
What the annotations of a comment group say. Each comment has rows, which are its lines without the
markers of comments. The arguments of a tag are what follows the tag in the rows that start with it,
over all comments and all rows in order.
-/

namespace EndpointAtlas

open Text

def withoutStar (text : List Char) : List Char :=
  if text.head? = some '*' then trim text.tail else text

/-- The text of a row of a block comment, in which a star may come first. -/
def rowText (row : List Char) : List Char := withoutStar (trim row)

/-- Whether a comment has these rows. A block comment has one for each part between its line
feeds. -/
inductive HasRows : List Char → List (List Char) → Prop
  | line (text : List Char) : HasRows ('/' :: '/' :: text) [trim text]
  | block (body : List Char) :
      HasRows ('/' :: '*' :: (body ++ ['*', '/'])) ((body.splitOn '\n').map rowText)
  | unclosed {body : List Char} (unended : ¬ ['*', '/'] <:+ body) :
      HasRows ('/' :: '*' :: body) ((body.splitOn '\n').map rowText)
  | plain {text : List Char} (noLine : ¬ ['/', '/'] <+: text) (noBlock : ¬ ['/', '*'] <+: text) :
      HasRows text [trim text]

/-- Whether a row is an annotation with the tag: it starts with an at sign, and the tag is its text
up to the first white space. -/
def StartsWithTag (tag : String) (row : List Char) : Prop :=
  row.head? = some '@' ∧ row.takeWhile (!isBlank ·) = tag.toList

instance (tag : String) (row : List Char) : Decidable (StartsWithTag tag row) :=
  inferInstanceAs (Decidable (_ ∧ _))

def afterTag (row : List Char) : String := String.ofList (trim (row.dropWhile (!isBlank ·)))

/-- Whether annotations are those of the rows, all of them and in their order. -/
structure Annotations.Records (rows : List (List Char)) (found : Annotations) : Prop where
  get (tag : String) : found.get tag = (rows.filter (StartsWithTag tag ·)).map afterTag
  count : (found.tags.values.map List.length).sum = rows.countP (·.head? = some '@')
  contains_iff (tag : String) : found.contains tag = true ↔ found.get tag ≠ []

section

variable {raw : List Char} {rows others : List (List Char)}

theorem HasRows.unique (has : HasRows raw rows) (alike : HasRows raw others) : rows = others := by
  cases has with
  | line text =>
      cases alike with
      | line => rfl
      | plain noLine => exact absurd ⟨text, rfl⟩ noLine
  | block body =>
      generalize whole : body ++ ['*', '/'] = text at alike
      cases alike with
      | block other => rw [List.append_cancel_right whole]
      | unclosed unended => exact absurd ⟨body, whole⟩ unended
      | plain _ noBlock => exact absurd ⟨text, rfl⟩ noBlock
  | @unclosed body unended =>
      generalize whole : body = text at alike
      cases alike with
      | block other => exact absurd ⟨other, whole.symm⟩ unended
      | unclosed => rfl
      | plain _ noBlock => exact absurd ⟨text, rfl⟩ noBlock
  | plain noLine noBlock =>
      cases alike with
      | line text => exact absurd ⟨text, rfl⟩ noLine
      | block body => exact absurd ⟨_, rfl⟩ noBlock
      | @unclosed body => exact absurd ⟨body, rfl⟩ noBlock
      | plain => rfl

theorem tag_of_eq (row : List Char) : tagOf? row =
    if row.head? = some '@' then
      some (String.ofList (row.takeWhile (!isBlank ·)), afterTag row)
    else none := by
  unfold tagOf?
  split
  · rename_i rest
    rw [List.head?_cons, if_pos rfl, afterTag]
    cases cut : cutFirst isBlank ('@' :: rest) with
    | none =>
        have clean := cut_first_eq_none_iff.1 cut
        rw [List.takeWhile_eq_self_iff.2 (by simpa using clean),
          List.dropWhile_eq_nil_iff.2 (by simpa using clean)]
        rfl
    | some parts =>
        obtain ⟨tag, after⟩ := parts
        obtain ⟨mark, blank, split, clean⟩ := cut_first_eq_some cut
        have visible : ∀ c ∈ tag, (!isBlank c) = true := by simpa using clean
        rw [split, List.takeWhile_append_of_pos visible, List.dropWhile_append_of_pos visible,
          List.takeWhile_cons_of_neg (by simp [blank]),
          List.dropWhile_cons_of_neg (by simp [blank]), List.append_nil]
        have trimmed := @trim_blank_append [mark] (by simpa using blank) after
        rw [List.singleton_append] at trimmed
        rw [trimmed]
  · rename_i other
    rw [if_neg]
    intro starts
    obtain ⟨rest, rfl⟩ := List.head?_eq_some_iff.1 starts
    exact other rest rfl

theorem arguments_filter_map_tag_of (rows : List (List Char)) (tag : String) :
    ((rows.filterMap tagOf?).filter (·.1 = tag)).map Prod.snd =
      (rows.filter (StartsWithTag tag ·)).map afterTag := by
  induction rows with
  | nil => rfl
  | cons row rest ih =>
      rw [List.filterMap_cons, tag_of_eq]
      by_cases starts : row.head? = some '@'
      · have spelled :
            String.ofList (row.takeWhile (!isBlank ·)) = tag ↔ StartsWithTag tag row := by
          rw [StartsWithTag, ← String.toList_inj, String.toList_ofList]
          exact (and_iff_right starts).symm
        by_cases named : StartsWithTag tag row
        · simp [starts, named, spelled.2 named, ih]
        · simp [starts, named, mt spelled.1 named, ih]
      · have unnamed : ¬ StartsWithTag tag row := fun named => starts named.1
        simp [starts, unnamed, ih]

theorem length_filter_map_tag_of (rows : List (List Char)) :
    (rows.filterMap tagOf?).length = rows.countP (·.head? = some '@') := by
  induction rows with
  | nil => rfl
  | cons row rest ih =>
      rw [List.filterMap_cons, tag_of_eq]
      by_cases starts : row.head? = some '@' <;> simp [starts, ih]

theorem comment_lines_line (text : List Char) :
    commentLines ('/' :: '/' :: text) = [trim text] := rfl

theorem comment_lines_block (body : List Char) : commentLines ('/' :: '*' :: body) =
    (lines ((beforeEnd? ['*', '/'] body).getD body)).map rowText := by
  show (lines ((beforeEnd? ['*', '/'] body).getD body)).map _ = _
  refine List.map_congr_left fun line _ => ?_
  unfold rowText withoutStar
  dsimp only
  split
  · rename_i starts
    rw [starts]
    rfl
  · rename_i other
    rw [if_neg]
    intro starts
    obtain ⟨rest, found⟩ := List.head?_eq_some_iff.1 starts
    exact other rest found

theorem comment_lines_plain (noLine : ¬ ['/', '/'] <+: raw) (noBlock : ¬ ['/', '*'] <+: raw) :
    commentLines raw = [trim raw] := by
  have absent : ∀ start, ¬ start <+: raw → afterStart? start raw = none := by
    intro start other
    rw [Option.eq_none_iff_forall_ne_some]
    exact fun rest found => other ⟨rest, List.append_eq_of_isPrefixOf?_eq_some found⟩
  rw [commentLines, absent _ noLine, absent _ noBlock]

/-- The end of a text makes no line of its own, and a row without text carries no tag. -/
theorem filter_map_tag_of_rows (body : List Char) :
    ((body.splitOn '\n').map rowText).filterMap tagOf? =
      ((lines body).map rowText).filterMap tagOf? := by
  obtain ⟨nothing, empty, split⟩ := map_trim_split_on body
  have silent : (nothing.map withoutStar).filterMap tagOf? = [] := by
    rw [List.filterMap_eq_nil_iff]
    intro row member
    obtain ⟨text, within, rfl⟩ := List.mem_map.1 member
    rw [empty text within]
    rfl
  have trimmed : ∀ rows : List (List Char), rows.map rowText = (rows.map trim).map withoutStar :=
    fun rows => by rw [List.map_map]; rfl
  rw [trimmed, trimmed, split, List.map_append, List.filterMap_append, silent, List.append_nil]

/-- Every comment has rows, and its lines carry the tags that they carry. -/
theorem exists_has_rows (raw : List Char) :
    ∃ rows, HasRows raw rows ∧ rows.filterMap tagOf? = (commentLines raw).filterMap tagOf? := by
  by_cases line : ['/', '/'] <+: raw
  · obtain ⟨text, rfl⟩ := line
    exact ⟨_, .line text, rfl⟩
  by_cases block : ['/', '*'] <+: raw
  · obtain ⟨body, rfl⟩ := block
    simp only [List.cons_append, List.nil_append, comment_lines_block]
    cases ended : beforeEnd? ['*', '/'] body with
    | some inner =>
        obtain rfl := List.append_eq_of_isSuffixOf?_eq_some ended
        exact ⟨_, .block inner, filter_map_tag_of_rows inner⟩
    | none =>
        have unended : ¬ ['*', '/'] <:+ body := by
          rintro ⟨inner, split⟩
          rw [beforeEnd?, List.isSuffixOf?_eq_some_iff_append_eq.2 split] at ended
          cases ended
        exact ⟨_, .unclosed unended, filter_map_tag_of_rows body⟩
  · exact ⟨_, .plain line block, by rw [comment_lines_plain line block]⟩

/-- What the lines of comments carry is what their rows carry. -/
theorem tagged_lines_of_has_rows {comments : List String} {rows : List (List (List Char))}
    (has : List.Forall₂ HasRows (comments.map String.toList) rows) :
    taggedLines comments = rows.flatten.filterMap tagOf? := by
  rw [List.forall₂_map_left_iff] at has
  induction has with
  | nil => rfl
  | @cons comment own comments rows first _ ih =>
      obtain ⟨others, alike, carried⟩ := exists_has_rows comment.toList
      rw [first.unique alike, List.flatten_cons, List.filterMap_append, carried, ← ih]
      rfl

theorem exists_forall₂_has_rows (comments : List (List Char)) :
    ∃ rows, List.Forall₂ HasRows comments rows := by
  induction comments with
  | nil => exact ⟨[], .nil⟩
  | cons raw rest ih =>
      obtain ⟨rows, has⟩ := ih
      obtain ⟨own, first, -⟩ := exists_has_rows raw
      exact ⟨own :: rows, .cons first has⟩

theorem Annotations.records_of_tagged_lines {doc : Doc} {rows : List (List Char)}
    (carried : taggedLines (doc.getD []) = rows.filterMap tagOf?) :
    (Annotations.ofDoc doc).Records rows where
  get tag := by rw [get_of_doc, carried, arguments_filter_map_tag_of]
  count := by
    rw [← length_filter_map_tag_of, ← carried]
    exact argument_count_of_doc
  contains_iff _ := contains_of_doc_iff

/-- The comments of a group have rows, and the annotations of the group are those of its rows. The
arguments in two groups, one after the other, are those in the first and then those in the
second. -/
theorem Annotations.records_of_doc (doc : Doc) :
    (∃ rows, List.Forall₂ HasRows ((doc.getD []).map String.toList) rows) ∧
      (∀ rows, List.Forall₂ HasRows ((doc.getD []).map String.toList) rows →
        (ofDoc doc).Records rows.flatten) ∧
      ∀ later tag, (ofDoc (some (doc.getD [] ++ later))).get tag =
        (ofDoc doc).get tag ++ (ofDoc (some later)).get tag := by
  refine ⟨exists_forall₂_has_rows _, fun rows has => ?_, fun later tag => ?_⟩
  · exact records_of_tagged_lines (tagged_lines_of_has_rows has)
  · rw [get_of_doc_append, of_doc_eq doc, of_doc_eq (some (doc.getD []))]
    rfl

end

def assortedComments : List String :=
  ["// @Param a Body", "/*\n * @Param b\tQuery\r\n * none\n */", "//@Tags"]

def assortedRows : List (List (List Char)) :=
  [["@Param a Body".toList], [[], "@Param b\tQuery".toList, "none".toList, []], ["@Tags".toList]]

/-- Three comments, of which one has several rows. -/
theorem Annotations.records_assorted_comments :
    List.Forall₂ HasRows (assortedComments.map String.toList) assortedRows ∧
      (ofDoc (some assortedComments)).Records assortedRows.flatten ∧
        (ofDoc (some assortedComments)).get "@Param" = ["a Body", "b\tQuery"] := by
  have has : List.Forall₂ HasRows (assortedComments.map String.toList) assortedRows :=
    .cons (.line " @Param a Body".toList)
      (.cons (.block "\n * @Param b\tQuery\r\n * none\n ".toList)
        (.cons (.line "@Tags".toList) .nil))
  exact ⟨has, (records_of_doc (some assortedComments)).2.1 _ has, by decide +kernel⟩

end EndpointAtlas
