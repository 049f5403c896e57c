import Mathlib.Algebra.GroupWithZero.Nat
import EndpointAtlas.Annotations

/-!
Annotations as a grouping of tagged lines. Each tag has the arguments of its lines in their order,
no line is lost, and only tags of some line are known.
-/

namespace EndpointAtlas

theorem Table.sum_values_insert (table : Table α) (key : String) (value : α) (weight : α → Nat) :
    ((table.insert key value).values.map weight).sum + ((table.get? key).map weight).getD 0 =
      (table.values.map weight).sum + weight value := by
  obtain ⟨entries, increasing⟩ := table
  show (((insertEntry key value entries).map Prod.snd).map weight).sum +
      ((lookupEntry key entries).map weight).getD 0 =
    ((entries.map Prod.snd).map weight).sum + weight value
  induction entries with
  | nil => simp [insertEntry, lookupEntry]
  | cons head rest ih =>
      obtain ⟨other, kept⟩ := head
      obtain ⟨below, later⟩ := List.pairwise_cons.1 increasing
      unfold insertEntry lookupEntry
      split
      · rename_i first
        have distinct : key ≠ other := fun same => String.lt_irrefl other (same ▸ first)
        have absent : lookupEntry key rest = none :=
          lookup_entry_eq_none fun entry member => String.lt_trans first (below entry member)
        simp [distinct, absent]
        omega
      · split
        · simp
          omega
        · have rest := ih later
          simp only [List.map_cons, List.sum_cons]
          omega

namespace Annotations

def addAll (found : Annotations) (lines : List (String × String)) : Annotations :=
  lines.foldl (fun found line => found.add line.1 line.2) found

theorem of_doc_eq (doc : Doc) : ofDoc doc = addAll ⟨.empty⟩ (taggedLines (doc.getD [])) := by
  cases doc <;> rfl

def argumentCount (found : Annotations) : Nat := (found.tags.values.map List.length).sum

variable {found : Annotations} {lines : List (String × String)}

theorem contains_add {tag other argument : String} :
    (found.add tag argument).contains other = true ↔
    other = tag ∨ found.contains other = true := by
  unfold contains add Table.contains
  rw [Table.get_insert]
  by_cases same : other = tag <;> simp [same]

theorem argument_count_add (tag argument : String) :
    (found.add tag argument).argumentCount = found.argumentCount + 1 := by
  have counted := Table.sum_values_insert found.tags tag (found.get tag ++ [argument]) List.length
  have held : ((found.tags.get? tag).map List.length).getD 0 = (found.get tag).length := by
    unfold get
    cases found.tags.get? tag <;> rfl
  rw [held, List.length_append, List.length_singleton] at counted
  show ((found.tags.insert tag (found.get tag ++ [argument])).values.map List.length).sum =
    (found.tags.values.map List.length).sum + 1
  omega

theorem get_add_all (tag : String) : (found.addAll lines).get tag =
    found.get tag ++ (lines.filter (·.1 = tag)).map Prod.snd := by
  induction lines generalizing found with
  | nil => exact (List.append_nil _).symm
  | cons line rest ih =>
      show ((found.add line.1 line.2).addAll rest).get tag = _
      rw [ih, get_add]
      by_cases same : tag = line.1
      · subst same
        simp
      · simp [same, Ne.symm same]

theorem argument_count_add_all :
    (found.addAll lines).argumentCount = found.argumentCount + lines.length := by
  induction lines generalizing found with
  | nil => rfl
  | cons line rest ih =>
      show ((found.add line.1 line.2).addAll rest).argumentCount = _
      rw [ih, argument_count_add, List.length_cons]
      omega

theorem contains_add_all {tag : String} : (found.addAll lines).contains tag = true ↔
    found.contains tag = true ∨ tag ∈ lines.map Prod.fst := by
  induction lines generalizing found with
  | nil => simp [addAll]
  | cons line rest ih =>
      show ((found.add line.1 line.2).addAll rest).contains tag = true ↔ _
      rw [ih, contains_add, List.map_cons, List.mem_cons, or_comm (a := tag = line.1), or_assoc]

section

variable {doc : Doc} {tag : String}

theorem get_of_doc : (ofDoc doc).get tag =
    ((taggedLines (doc.getD [])).filter (·.1 = tag)).map Prod.snd := by
  rw [of_doc_eq, get_add_all]
  rfl

theorem argument_count_of_doc : (ofDoc doc).argumentCount = (taggedLines (doc.getD [])).length := by
  rw [of_doc_eq, argument_count_add_all]
  exact Nat.zero_add _

theorem contains_of_doc : (ofDoc doc).contains tag = true ↔
    tag ∈ (taggedLines (doc.getD [])).map Prod.fst := by
  rw [of_doc_eq, contains_add_all]
  exact ⟨fun held => held.resolve_left Bool.false_ne_true, .inr⟩

/-- A tag that occurs has an argument, which may be empty. -/
theorem contains_of_doc_iff : (ofDoc doc).contains tag = true ↔ (ofDoc doc).get tag ≠ [] := by
  rw [get_of_doc, contains_of_doc]
  simp [List.filter_eq_nil_iff]

/-- A tag occurs if it occurs in one of the comments. -/
theorem contains_of_doc_iff_exists : (ofDoc doc).contains tag = true ↔
    ∃ comment ∈ doc.getD [], (ofDoc (some [comment])).contains tag = true := by
  simp only [contains_of_doc, taggedLines, List.map_flatMap, List.mem_flatMap, Option.getD_some,
    List.mem_singleton, exists_eq_left]

theorem get_of_doc_append (first second : List String) (tag : String) :
    (ofDoc (some (first ++ second))).get tag =
      (ofDoc (some first)).get tag ++ (ofDoc (some second)).get tag := by
  simp [get_of_doc, taggedLines]

end

end Annotations

end EndpointAtlas
