import EndpointAtlas.Proofs.Annotations.Tags
import EndpointAtlas.Proofs.Go.DeclarationSites
import EndpointAtlas.Proofs.Go.DocRuns
import EndpointAtlas.Proofs.Go.SiteOrder

/-!
Comments that trail a declaration. Such a comment documents the next declaration exactly if another
comment stands between the two, since only the sibling directly before a comment is looked at.
-/

namespace EndpointAtlas.Go

open EndpointAtlas.Go.Parser

namespace Site

/-- Whether a comment is part of the documentation, with the siblings before the comment. -/
def DocumentedBy (site : Site) (comment : Comment) (far : List Sibling) : Prop :=
  ∃ near, site.before = near ++ .comment comment :: far ∧
    near.length < (docRun site.row site.before).length

/-- Whether a comment of the documentation starts on a row where a declaration before it ends. -/
def Trailed (site : Site) : Prop :=
  ∃ comment far, site.DocumentedBy comment far ∧ .declaration comment.row ∈ far

/-- Whether the topmost comment of the documentation stands behind another comment, and a
declaration before that one ends on its row. -/
def Screened (site : Site) : Prop :=
  ∃ near comment screen far, site.before = near ++ .comment comment :: .comment screen :: far ∧
    (docRun site.row site.before).length = near.length + 1 ∧ .declaration comment.row ∈ far

end Site

section

variable {row : Nat} {before near far : List Sibling} {comment : Comment}

/-- Directly before a comment of the documentation that trails a declaration stands a comment of
its row, with which the documentation ends. -/
theorem screened_of_doc_run (ordered : EndBy row (.comment comment :: far))
    (documents : docRun row (.comment comment :: far) ≠ [])
    (trails : .declaration comment.row ∈ far) :
    docRun row (.comment comment :: far) = [comment] ∧
      ∃ screen others, far = .comment screen :: others ∧ .declaration comment.row ∈ others := by
  obtain ⟨-, -, further⟩ := ordered
  have climbs := climbs_doc_run row (.comment comment :: far)
  generalize run : docRun row (.comment comment :: far) = comments at climbs documents
  cases climbs with
  | done => exact absurd rfl documents
  | step above free rest =>
      obtain ⟨-, -, upper⟩ := doc_run_cons run
      cases far with
      | nil => cases trails
      | cons nearest others =>
          cases nearest with
          | declaration endRow =>
              obtain ⟨ends, higher⟩ := further
              have apart : endRow ≠ comment.row := by simpa [isTrailing] using free
              rcases List.mem_cons.1 trails with same | member
              · exact absurd (Sibling.declaration.inj same).symm apart
              · exact absurd (Nat.le_antisymm ends (higher.member_le member)) apart
          | comment screen =>
              obtain ⟨ends, down, higher⟩ := further
              have member : .declaration comment.row ∈ others := by simpa using trails
              have level : comment.row ≤ screen.row := higher.member_le member
              refine ⟨?_, screen, others, rfl, member⟩
              rw [← upper, docRun, if_neg (by simp; omega)]

theorem length_doc_run_of_trailed (ordered : EndBy row (near ++ .comment comment :: far))
    (documents : near.length < (docRun row (near ++ .comment comment :: far)).length)
    (trails : .declaration comment.row ∈ far) :
    (docRun row (near ++ .comment comment :: far)).length = near.length + 1 ∧
      ∃ screen others, far = .comment screen :: others ∧ .declaration comment.row ∈ others := by
  induction near generalizing row with
  | nil =>
      have documented := List.ne_nil_of_length_pos documents
      obtain ⟨single, screened⟩ := screened_of_doc_run ordered documented trails
      exact ⟨by rw [List.nil_append, single]; rfl, screened⟩
  | cons first near ih =>
      have climbs := climbs_doc_run row (first :: (near ++ .comment comment :: far))
      generalize run : docRun row (first :: (near ++ .comment comment :: far)) = comments at climbs
      rw [List.cons_append, run] at documents ⊢
      cases climbs with
      | done => simp at documents
      | step above free rest =>
          obtain ⟨-, -, rfl⟩ := doc_run_cons run
          obtain ⟨length, screened⟩ := ih ordered.2.2 (by simpa using documents)
          exact ⟨by simp [length], screened⟩

end

theorem Site.trailed_iff_screened {site : Site} (ordered : site.Ordered) :
    site.Trailed ↔ site.Screened := by
  obtain ⟨row, before⟩ := site
  constructor
  · rintro ⟨comment, far, ⟨near, split, documents⟩, trails⟩
    obtain rfl : before = _ := split
    obtain ⟨length, screen, others, rfl, member⟩ :=
      length_doc_run_of_trailed ordered documents trails
    exact ⟨near, comment, screen, others, rfl, length, member⟩
  · rintro ⟨near, comment, screen, far, split, length, trails⟩
    exact ⟨comment, .comment screen :: far, ⟨near, split, by omega⟩, List.mem_cons_of_mem _ trails⟩

/-- The documentation stands directly before its site. -/
theorem Climbs.precedes {row : Nat} {before : List Sibling} {run : List Comment}
    (climbs : Climbs row before run) : run.map .comment <+: before := by
  induction climbs with
  | done => exact List.nil_prefix
  | step above free rest ih => exact List.cons_prefix_cons.2 ⟨rfl, ih⟩

theorem Site.documented_by_of_mem {site : Site} {comment : Comment}
    (member : comment ∈ docRun site.row site.before) : ∃ far, site.DocumentedBy comment far := by
  obtain ⟨near, upper, run⟩ := List.append_of_mem member
  obtain ⟨far, split⟩ := (climbs_doc_run site.row site.before).precedes
  refine ⟨upper.map .comment ++ far, near.map .comment, ?_, by simp [run]⟩
  rw [← split, run]
  simp

theorem Site.get_d_doc (site : Site) :
    site.doc.getD [] = ((docRun site.row site.before).map (·.text)).reverse := by
  unfold Site.doc docOf
  split
  · rename_i empty
    rw [empty]
    rfl
  · rfl

/-- An annotation of a declaration stands in a comment of its documentation. -/
theorem Site.documented_by_of_contains {site : Site} {tag : String}
    (annotated : (Annotations.ofDoc site.doc).contains tag = true) :
    ∃ comment far, site.DocumentedBy comment far ∧
      (Annotations.ofDoc (some [comment.text])).contains tag = true := by
  obtain ⟨text, member, names⟩ := Annotations.contains_of_doc_iff_exists.1 annotated
  rw [site.get_d_doc, List.mem_reverse] at member
  obtain ⟨comment, within, rfl⟩ := List.mem_map.1 member
  obtain ⟨far, documents⟩ := Site.documented_by_of_mem within
  exact ⟨comment, far, documents, names⟩

namespace SourceFile

/-- Whatever a file declares has a site among its tokens, where its comments stand. A comment of the
documentation trails a declaration exactly if it is the topmost one and another comment stands
between the two; otherwise no annotation comes from a comment behind a declaration. -/
theorem trailed_of_of_source {source : List Text.Glyph} {file : SourceFile}
    (read : ofSource? source = some file) :
    ∃ tokens, Token.ofSource? source = some tokens ∧
      (∀ name doc, file.Declares name doc →
        ∃ site, DeclaredAt tokens name site ∧ site.doc = doc) ∧
      ∀ name site, DeclaredAt tokens name site →
        (site.Trailed ↔ site.Screened) ∧
        (¬ site.Screened → ∀ tag, (Annotations.ofDoc site.doc).contains tag = true →
          ∃ comment far, site.DocumentedBy comment far ∧ .declaration comment.row ∉ far ∧
            (Annotations.ofDoc (some [comment.text])).contains tag = true) := by
  obtain ⟨tokens, scanned, parsed⟩ := Option.bind_eq_some_iff.1 read
  refine ⟨tokens, scanned, fun name doc declares => sited_of_of_tokens parsed declares, ?_⟩
  intro name site declared
  have ordered := declared.ordered (Token.in_order_of_source scanned)
  refine ⟨site.trailed_iff_screened ordered, fun free tag annotated => ?_⟩
  obtain ⟨comment, far, documents, names⟩ := site.documented_by_of_contains annotated
  refine ⟨comment, far, documents, fun trails => free ?_, names⟩
  exact (site.trailed_iff_screened ordered).1 ⟨comment, far, documents, trails⟩

end SourceFile

def typeBelow? : List Token → Option (String × Site)
  | clause :: package :: first :: var :: called :: type :: second :: keyword :: name :: _ =>
      if Balanced [clause, package] ∧ isTerminator first = true ∧ Balanced [var, called, type] ∧
          isTerminator second = true ∧ isKeyword "type" keyword = true ∧ isName name = true then
        some (name.text, (name.site []).orElse (keyword.site (.declaration type.endRow ::
          siblingsBefore var (.declaration package.endRow :: siblingsBefore clause []))))
      else none
  | _ => none

theorem declared_at_of_type_below {tokens : List Token} {name : String} {site : Site}
    (below : typeBelow? tokens = some (name, site)) : DeclaredAt tokens name site := by
  unfold typeBelow? at below
  split at below
  · split at below
    · rename_i holds
      obtain ⟨header, first, declares, second, introduces, named⟩ := holds
      obtain ⟨rfl, rfl⟩ := Prod.mk.inj (Option.some.inj below)
      have reached := (SiblingsAt.declarations.next header first).next declares second
      exact .type reached introduces named rfl
    · cases below
  · cases below

def plainContent : List Text.Glyph :=
  Text.Glyph.ofString ("package m\n\nvar x int // @Controller /x\n// @Controller /c\n" ++
    "type C struct\x7b\x7d\n")

def plainSite : Site :=
  ⟨4, [.comment ⟨"// @Controller /c", 3, 3⟩, .comment ⟨"// @Controller /x", 2, 2⟩, .declaration 2,
    .declaration 0]⟩

theorem not_trailed_plain_site : ∃ file tokens,
    SourceFile.ofSource? plainContent = some file ∧
      Token.ofSource? plainContent = some tokens ∧ DeclaredAt tokens "C" plainSite ∧
        ¬ plainSite.Trailed := by
  have parsed : (SourceFile.ofSource? plainContent).isSome = true := by decide +kernel
  have below : (Token.ofSource? plainContent).bind typeBelow? = some ("C", plainSite) := by
    decide +kernel
  obtain ⟨file, read⟩ := Option.isSome_iff_exists.1 parsed
  obtain ⟨tokens, scanned, -, trailed⟩ := SourceFile.trailed_of_of_source read
  rw [scanned] at below
  have declared := declared_at_of_type_below below
  refine ⟨file, tokens, read, scanned, declared, fun trails => ?_⟩
  obtain ⟨near, comment, screen, far, split, single, ends⟩ := (trailed _ _ declared).1.1 trails
  have length : (docRun plainSite.row plainSite.before).length = 1 := by decide +kernel
  obtain rfl : near = [] := List.eq_nil_of_length_eq_zero (by omega)
  injection split with same others
  injection others with _ others
  obtain rfl := Sibling.comment.inj same
  rw [← others] at ends
  exact absurd ends (by decide)

def screenedContent : List Text.Glyph :=
  Text.Glyph.ofString ("package m\n\nvar x int /* limit */ // @Controller /c\n" ++
    "type C struct\x7b\x7d\n")

def screenedSite : Site :=
  ⟨3, [.comment ⟨"// @Controller /c", 2, 2⟩, .comment ⟨"/* limit */", 2, 2⟩, .declaration 2,
    .declaration 0]⟩

theorem trailed_screened_site : ∃ file tokens,
    SourceFile.ofSource? screenedContent = some file ∧
      Token.ofSource? screenedContent = some tokens ∧ file.Declares "C" screenedSite.doc ∧
        DeclaredAt tokens "C" screenedSite ∧ screenedSite.Trailed ∧
          (Annotations.ofDoc screenedSite.doc).contains "@Controller" = true := by
  have types : (SourceFile.ofSource? screenedContent).map
      (fun file => file.types.map fun spec => (spec.name, spec.doc)) =
        some [("C", screenedSite.doc)] := by decide +kernel
  have below : (Token.ofSource? screenedContent).bind typeBelow? = some ("C", screenedSite) := by
    decide +kernel
  obtain ⟨file, read, listed⟩ := Option.map_eq_some_iff.1 types
  obtain ⟨tokens, scanned, found⟩ := Option.bind_eq_some_iff.1 below
  refine ⟨file, tokens, read, scanned, ?_, declared_at_of_type_below found, ?_, by decide +kernel⟩
  · have member : ("C", screenedSite.doc) ∈ file.types.map fun spec => (spec.name, spec.doc) := by
      rw [listed]
      exact List.mem_singleton.2 rfl
    obtain ⟨spec, within, same⟩ := List.mem_map.1 member
    obtain ⟨name, doc⟩ := Prod.mk.inj same
    rw [← name, ← doc]
    exact .type within
  · exact ⟨⟨"// @Controller /c", 2, 2⟩, _, ⟨[], rfl, by decide +kernel⟩, by decide⟩

end EndpointAtlas.Go
