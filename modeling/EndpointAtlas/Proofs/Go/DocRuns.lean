import Mathlib.Data.List.Chain
import Mathlib.Data.List.Infix
import Mathlib.Data.List.Induction
import EndpointAtlas.Go.Doc

/-!
The comments that document a declaration. They are the longest run of comments directly before it
that stand on one another without a blank line, none of them behind another declaration. A blank
line in the run cuts off the comments above it.
-/

namespace EndpointAtlas.Go

/-- Whether comments are a run that ends directly above the row. All siblings before the row are
given, in source order. -/
structure IsRun (row : Nat) (siblings : List Sibling) (run : List Comment) : Prop where
  precedes : run.map .comment <:+ siblings
  above : ∀ last ∈ run.getLast?, last.endRow + 1 = row
  stacked : run.IsChain fun upper lower => upper.endRow + 1 = lower.row
  /-- No comment of the run starts where a declaration directly before it ends. -/
  untrailed : ∀ earlier endRow comment later,
    siblings = earlier ++ .declaration endRow :: .comment comment :: later →
      later.length < run.length → endRow ≠ comment.row

structure IsLongestRun (row : Nat) (siblings : List Sibling) (run : List Comment) : Prop where
  isRun : IsRun row siblings run
  longest : ∀ other, IsRun row siblings other → other.length ≤ run.length

def documentation (run : List Comment) : Option (List String) :=
  if run = [] then none else some (run.map (·.text))

def Comment.lowered (comment : Comment) (count : Nat) : Comment :=
  { comment with row := comment.row + count, endRow := comment.endRow + count }

/-- A run with the comment nearest to the row first, before the siblings in that order. -/
inductive Climbs : Nat → List Sibling → List Comment → Prop
  | done (row : Nat) (before : List Sibling) : Climbs row before []
  | step {row : Nat} {comment : Comment} {before : List Sibling} {run : List Comment}
      (above : comment.endRow + 1 = row) (free : isTrailing comment before = false)
      (rest : Climbs comment.row before run) :
      Climbs row (.comment comment :: before) (comment :: run)

section

variable {row : Nat} {siblings before : List Sibling} {run : List Comment} {comment : Comment}

theorem is_trailing_reverse_eq_false_iff : isTrailing comment siblings.reverse = false ↔
    ∀ earlier endRow, siblings = earlier ++ [.declaration endRow] → endRow ≠ comment.row := by
  cases siblings using List.reverseRecOn with
  | nil => simp [isTrailing]
  | append_singleton earlier last => cases last <;> simp [isTrailing]

/-- The last comment of a run, and the run above it. -/
theorem is_run_concat : IsRun row (siblings ++ [.comment comment]) (run ++ [comment]) ↔
    comment.endRow + 1 = row ∧ isTrailing comment siblings.reverse = false ∧
      IsRun comment.row siblings run := by
  rw [is_trailing_reverse_eq_false_iff]
  constructor
  · intro isRun
    obtain ⟨upper, -, joined⟩ := List.isChain_append.1 isRun.stacked
    refine ⟨isRun.above comment (by simp), ?_, ?_, ?_, upper, ?_⟩
    · intro earlier endRow split
      exact isRun.untrailed earlier endRow comment [] (by simp [split]) (by simp)
    · have precedes := isRun.precedes
      rwa [List.map_append, List.map_singleton, List.suffix_append_self_iff] at precedes
    · exact fun last member => joined last member comment rfl
    · intro earlier endRow other later split inner
      exact isRun.untrailed earlier endRow other (later ++ [.comment comment]) (by simp [split])
        (by simpa using inner)
  · rintro ⟨above, free, isRun⟩
    refine ⟨?_, by simpa using above, ?_, ?_⟩
    · rw [List.map_append, List.map_singleton, List.suffix_append_self_iff]
      exact isRun.precedes
    · refine List.isChain_append.2 ⟨isRun.stacked, .singleton _, fun last member other first => ?_⟩
      obtain rfl : comment = other := by simpa using first
      exact isRun.above last member
    · intro earlier endRow other later split inner
      cases later using List.reverseRecOn with
      | nil =>
          have ends : siblings ++ [Sibling.comment comment] =
              (earlier ++ [.declaration endRow]) ++ [.comment other] := by simpa using split
          obtain ⟨same, last⟩ := List.append_inj' ends rfl
          obtain rfl : comment = other := by simpa using last
          exact free earlier endRow same
      | append_singleton later last =>
          have ends : siblings ++ [Sibling.comment comment] =
              (earlier ++ .declaration endRow :: .comment other :: later) ++ [last] := by
            simpa using split
          exact isRun.untrailed earlier endRow other later (List.append_inj' ends rfl).1
            (by simpa using inner)

/-- Runs are those that can be climbed from the row, comment by comment. -/
theorem is_run_iff_climbs : IsRun row siblings run ↔ Climbs row siblings.reverse run.reverse := by
  induction run using List.reverseRecOn generalizing row siblings with
  | nil => exact ⟨fun _ => .done row _, fun _ => ⟨by simp, by simp, .nil, by simp⟩⟩
  | append_singleton run comment ih =>
      constructor
      · intro isRun
        obtain ⟨earlier, split⟩ := isRun.precedes
        rw [List.map_append, List.map_singleton, ← List.append_assoc] at split
        subst split
        obtain ⟨above, free, rest⟩ := is_run_concat.1 isRun
        rw [List.reverse_concat, List.reverse_concat]
        exact .step above free (ih.1 rest)
      · intro climbs
        rw [List.reverse_append] at climbs
        cases siblings using List.reverseRecOn with
        | nil => cases climbs
        | append_singleton siblings last =>
            rw [List.reverse_append] at climbs
            cases climbs with
            | step above free rest => exact is_run_concat.2 ⟨above, free, ih.2 rest⟩

theorem climbs_doc_run (row : Nat) (before : List Sibling) :
    Climbs row before (docRun row before) := by
  fun_induction docRun row before with
  | case1 row comment before holds ih =>
      simp only [Bool.and_eq_true, decide_eq_true_eq, Bool.not_eq_true'] at holds
      exact .step holds.1 holds.2 ih
  | case2 => exact .done _ _
  | case3 => exact .done _ _

/-- A run goes on as far as it can. -/
theorem Climbs.within_doc_run (climbs : Climbs row before run) : run <+: docRun row before := by
  induction climbs with
  | done => exact List.nil_prefix
  | step above free rest ih =>
      rw [docRun, if_pos (by simp [above, free])]
      exact List.cons_prefix_cons.2 ⟨rfl, ih⟩

theorem is_longest_run_doc_run (row : Nat) (siblings : List Sibling) :
    IsLongestRun row siblings (docRun row siblings.reverse).reverse where
  isRun := by
    rw [is_run_iff_climbs, List.reverse_reverse]
    exact climbs_doc_run row _
  longest other isRun := by
    have within := (is_run_iff_climbs.1 isRun).within_doc_run.length_le
    rwa [List.length_reverse] at within ⊢

/-- There is one longest run. -/
theorem IsLongestRun.unique {other : List Comment} (one : IsLongestRun row siblings run)
    (two : IsLongestRun row siblings other) : run = other := by
  have lengths : (run.map Sibling.comment).length = (other.map Sibling.comment).length := by
    rw [List.length_map, List.length_map]
    exact Nat.le_antisymm (two.longest run one.isRun) (one.longest other two.isRun)
  have within := List.suffix_of_suffix_length_le one.isRun.precedes two.isRun.precedes
    (Nat.le_of_eq lengths)
  have distinct : Function.Injective Sibling.comment := fun _ _ => Sibling.comment.inj
  exact List.map_injective_iff.2 distinct (within.eq_of_length lengths)

theorem doc_of_eq (row : Nat) (siblings : List Sibling) :
    docOf row siblings.reverse = documentation (docRun row siblings.reverse).reverse := by
  unfold docOf documentation
  split
  · rename_i empty
    rw [empty]
    rfl
  · rename_i nonempty
    rw [if_neg fun empty => nonempty (List.reverse_eq_nil_iff.1 empty), List.map_reverse]

theorem doc_run_cons (starts : docRun row (.comment comment :: before) = comment :: run) :
    comment.endRow + 1 = row ∧ isTrailing comment before = false ∧
      docRun comment.row before = run := by
  rw [docRun] at starts
  split at starts
  · rename_i holds
    simp only [Bool.and_eq_true, decide_eq_true_eq, Bool.not_eq_true'] at holds
    exact ⟨holds.1, holds.2, (List.cons.inj starts).2⟩
  · cases starts

theorem is_trailing_of_doc_run (nonempty : docRun row before ≠ []) (comment : Comment) :
    isTrailing comment before = false := by
  have climbs := climbs_doc_run row before
  generalize docRun row before = run at nonempty climbs
  cases climbs with
  | done => exact absurd rfl nonempty
  | step => rfl

/-- With blank lines above some comments of a run, the run ends with them. -/
theorem doc_run_lowered {lower upper : List Comment} {rest : List Sibling} (nonempty : upper ≠ [])
    (count : Nat) (run : docRun row (lower.map .comment ++ rest) = lower ++ upper) :
    docRun (row + (count + 1)) ((lower.map (·.lowered (count + 1))).map .comment ++ rest) =
      lower.map (·.lowered (count + 1)) := by
  induction lower generalizing row with
  | nil =>
      obtain ⟨comment, others, rfl⟩ := List.exists_cons_of_ne_nil nonempty
      have climbs := climbs_doc_run row rest
      simp only [List.map_nil, List.nil_append] at run ⊢
      rw [run] at climbs
      cases climbs with
      | step above free climbs =>
          have gap : ¬ comment.endRow + 1 = row + (count + 1) := by omega
          simp [docRun, gap]
  | cons comment lower ih =>
      obtain ⟨above, -, further⟩ := doc_run_cons run
      have free : isTrailing (comment.lowered (count + 1))
          ((lower.map (·.lowered (count + 1))).map .comment ++ rest) = false := by
        cases lower with
        | nil =>
            have below : docRun comment.row rest = upper := further
            exact is_trailing_of_doc_run (below ▸ nonempty) _
        | cons => rfl
      have reaches : (comment.lowered (count + 1)).endRow + 1 = row + (count + 1) := by
        simp only [Comment.lowered]
        omega
      simp only [List.map_cons, List.cons_append]
      rw [docRun, reaches, free, if_pos (by simp)]
      exact congrArg _ (ih further)

end

/-- What documents a declaration is the longest run before it, if there is a comment in it. With
blank lines below some of its comments, above the others or above the declaration itself, only those
further down remain. -/
theorem doc_of_longest_run (row : Nat) (siblings : List Sibling) :
    ∃ run, IsLongestRun row siblings run ∧ docOf row siblings.reverse = documentation run ∧
      ∀ (earlier : List Sibling) (upper lower : List Comment) (count : Nat),
        siblings = earlier ++ (upper ++ lower).map Sibling.comment → run = upper ++ lower →
          upper ≠ [] →
            docOf (row + (count + 1)) (earlier ++ upper.map Sibling.comment ++
              (lower.map fun comment => comment.lowered (count + 1)).map Sibling.comment).reverse =
                documentation lower := by
  refine ⟨_, is_longest_run_doc_run row siblings, doc_of_eq row siblings, ?_⟩
  intro earlier upper lower count split whole nonempty
  have run : docRun row (lower.reverse.map .comment ++
      (earlier ++ upper.map Sibling.comment).reverse) = lower.reverse ++ upper.reverse := by
    rw [← List.reverse_append, ← whole, List.reverse_reverse, split]
    simp
  have lowered := doc_run_lowered (by simpa using nonempty) count run
  rw [doc_of_eq, List.reverse_append, ← List.map_reverse, ← List.map_reverse, lowered,
    ← List.map_reverse, List.reverse_reverse]
  simp [documentation, Comment.lowered, Function.comp_def]

def gapSiblings : List Sibling :=
  [.declaration 0, .comment ⟨"// upper", 2, 2⟩, .comment ⟨"/* lower\n*/", 3, 4⟩]

/-- A blank line between two comments leaves the lower one. -/
theorem doc_of_longest_run_gap :
    docOf 5 gapSiblings.reverse = some ["// upper", "/* lower\n*/"] ∧
      docOf 6 [.comment ⟨"/* lower\n*/", 4, 5⟩, .comment ⟨"// upper", 2, 2⟩, .declaration 0] =
        some ["/* lower\n*/"] := by
  obtain ⟨run, longest, doc, cut⟩ := doc_of_longest_run 5 gapSiblings
  obtain rfl := longest.unique (is_longest_run_doc_run 5 gapSiblings)
  refine ⟨doc.trans (by decide), ?_⟩
  exact cut [.declaration 0] [⟨"// upper", 2, 2⟩] [⟨"/* lower\n*/", 3, 4⟩] 0 rfl (by decide)
    (by decide)

end EndpointAtlas.Go
