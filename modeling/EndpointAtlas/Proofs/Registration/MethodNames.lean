import Mathlib.Data.List.Nodup
import EndpointAtlas.Proofs.Registration.Order

/-!
The names of the responses of a responder. They are the names of the methods that its contract has,
but a name stands as often as contracts that can be reached declare it. So it stands once exactly if
one method of one of these contracts declares it.
-/

namespace EndpointAtlas

open Go

/-- What is seen of some items is different exactly if it is different in each group of them, and
items that are seen alike are of one group. -/
theorem nodup_map_iff_of_groups {α β γ : Type} [DecidableEq γ] (group : α → γ) (view : α → β)
    (items : List α) : (items.map view).Nodup ↔
      (∀ key, ((items.filter (group · = key)).map view).Nodup) ∧
        ∀ one ∈ items, ∀ other ∈ items, view one = view other → group one = group other := by
  constructor
  · intro distinct
    refine ⟨fun key => (List.filter_sublist.map view).nodup distinct, ?_⟩
    intro one member other memberOther same
    rw [List.inj_on_of_nodup_map distinct member memberOther same]
  · intro groups
    obtain ⟨apart, grouped⟩ := groups
    induction items with
    | nil => exact .nil
    | cons item rest ih =>
        rw [List.map_cons, List.nodup_cons]
        constructor
        · intro again
          obtain ⟨other, member, same⟩ := List.mem_map.1 again
          have key := grouped other (List.mem_cons_of_mem _ member) item List.mem_cons_self same
          have twice := apart (group item)
          rw [List.filter_cons_of_pos (by simp), List.map_cons, List.nodup_cons] at twice
          apply twice.1
          rw [← same]
          exact List.mem_map_of_mem (List.mem_filter.2 ⟨member, by simpa using key⟩)
        · apply ih
          · intro key
            exact (((List.sublist_cons_self item rest).filter _).map view).nodup (apart key)
          · intro one member other memberOther
            exact grouped one (List.mem_cons_of_mem _ member) other
              (List.mem_cons_of_mem _ memberOther)

namespace Project

/-- Whether a name is declared by at most one method of the contracts that can be reached. -/
structure DeclaresOnce (project : Project) (contract : Declaration) : Prop where
  own : ∀ owner, project.Reaches contract owner → (owner.ownMethods.map (·.name)).Nodup
  shared : ∀ first second, project.Reaches contract first → project.Reaches contract second →
    ∀ one ∈ first.ownMethods, ∀ other ∈ second.ownMethods, one.name = other.name → first = second

section

variable {project : Project} {contract : Declaration} {own : List OwnMethod}

/-- The names of the methods of an expansion are different exactly if each is declared once. -/
theorem Expansion.nodup_iff (expansion : project.Expansion contract own)
    (found : project.Found contract) :
    (own.map (·.method.name)).Nodup ↔ project.DeclaresOnce contract := by
  rw [nodup_map_iff_of_groups (·.owner.ident)]
  constructor
  · intro groups
    obtain ⟨apart, grouped⟩ := groups
    constructor
    · intro owner reaches
      have distinct := apart owner.ident
      rw [← expansion.once owner reaches, methodsOwnedBy, List.map_map]
      exact distinct
    · intro first second reaches reachesSecond one member other memberOther same
      have ident := grouped ⟨first, one⟩ ((expansion.mem_iff found).2 ⟨reaches, member⟩)
        ⟨second, other⟩ ((expansion.mem_iff found).2 ⟨reachesSecond, memberOther⟩) same
      exact (reaches.found found).eq_of_ident (reachesSecond.found found) ident
  · intro once
    constructor
    · intro key
      by_cases owned : ∃ one ∈ own, one.owner.ident = key
      · obtain ⟨one, member, rfl⟩ := owned
        have reaches := (expansion.owners one member).1
        have distinct := once.own one.owner reaches
        rw [← expansion.once _ reaches, methodsOwnedBy, List.map_map] at distinct
        exact distinct
      · have none : own.filter (·.owner.ident = key) = [] := by
          simpa [List.filter_eq_nil_iff] using owned
        rw [none]
        exact .nil
    · intro one member other memberOther same
      obtain ⟨reaches, declares⟩ := (expansion.mem_iff found).1 member
      obtain ⟨reachesOther, declaresOther⟩ := (expansion.mem_iff found).1 memberOther
      rw [once.shared _ _ reaches reachesOther _ declares _ declaresOther same]

end

theorem name_of_response {project : Project} {placed : PlacedMethod} {response : Response}
    (shown : project.response? placed = some response) : response.name = placed.method.name := by
  obtain ⟨params, -, rfl⟩ := Option.map_eq_some_iff.1 shown
  rfl

theorem names_of_responses {project : Project} {methods : List PlacedMethod}
    {responses : List Response} (shown : methods.mapM project.response? = some responses) :
    responses.map (·.name) = methods.map (·.method.name) := by
  induction methods generalizing responses with
  | nil =>
      obtain rfl := Option.some.inj shown
      rfl
  | cons placed rest ih =>
      rw [List.mapM_cons] at shown
      obtain ⟨first, shownFirst, continued⟩ := Option.bind_eq_some_iff.1 shown
      obtain ⟨others, shownOthers, same⟩ := Option.bind_eq_some_iff.1 continued
      obtain rfl := Option.some.inj same
      rw [List.map_cons, List.map_cons, name_of_response shownFirst, ih shownOthers]

end Project

/-- The names of the responses of every responder of a document are the names of the methods that
its contract has, and no name stands twice exactly if no two methods of the contracts that can be
reached by embedding have the same name. -/
theorem response_names_of_analyze {tree : Tree} {options : AnalysisOptions} {document : Document}
    (succeeds : (analyze tree options).1 = .ok document) {key : String} {responder : Responder}
    (held : document.responders.get? key = some responder) : ∃ files contract,
      options.scannedFiles tree = .ok files ∧
      Answered (options.project tree) options.contextType files contract ∧
      contract.ident.display = key ∧
      (∀ name, name ∈ responder.responses.map (·.name) ↔ ∃ placed,
        HasMethod (options.project tree) contract placed ∧ placed.method.name = name) ∧
      ((responder.responses.map (·.name)).Nodup ↔
        (options.project tree).DeclaresOnce contract) := by
  obtain ⟨files, after, scanned, complete, rfl⟩ := completes_of_analyze succeeds
  obtain ⟨contract, answered, rfl, shown⟩ := complete.responders_iff.1 held
  obtain ⟨⟨methods, entered⟩, ran, continued⟩ := Option.bind_eq_some_iff.1 shown
  obtain ⟨responses, shownResponses, rfl⟩ := Option.map_eq_some_iff.1 continued
  let project := options.project tree
  let all := project.universeOf files
  have found : project.Found contract := answered.1.found
  have inside : contract.ident ∈ all.idents := answered.1.inside
  have room : all.idents.length < project.typeBound files := project.length_idents_of_lt files
  have names := Project.names_of_responses shownResponses
  refine ⟨files, contract, scanned, answered, rfl, ?_, ?_⟩
  · intro name
    rw [names, List.mem_map]
    exact exists_congr fun placed =>
      and_congr_left' (Project.mem_methods_iff found inside (Nat.lt_succ_of_lt room) ran)
  · obtain ⟨own, expansion, rfl⟩ :=
      Project.expansion_of_methods found inside (Nat.lt_succ_of_lt room) ran
    rw [names, List.map_map]
    exact expansion.nodup_iff found

def pipeTree : Tree :=
  ⟨[(["a.go"], .file (Text.Glyph.ofString ("package m\n// @Controller\ntype C struct \x7b\x7d\n" ++
    "type A interface \x7b Close() \x7d\ntype B interface \x7b Close() \x7d\n" ++
    "type R interface \x7b A; B \x7d\n// @Resource GET /r\n" ++
    "func (c C) Get(r R) \x7b\x7d\n")) false)], by decide⟩

theorem exists_responder_pipe_tree : ∃ document responder,
    (analyze pipeTree mutualOptions).1 = .ok document ∧
      document.responders.get? "m R" = some responder ∧
        responder.responses.map (·.name) = ["Close", "Close"] := by
  have shown : (analyze pipeTree mutualOptions).1.toOption.map (fun document =>
      (document.responders.get? "m R").map fun responder => responder.responses.map (·.name)) =
        some (some ["Close", "Close"]) := by decide +kernel
  obtain ⟨document, succeeds, seen⟩ := exists_ok_of_to_option shown
  obtain ⟨responder, held, names⟩ := Option.map_eq_some_iff.1 seen
  exact ⟨document, responder, succeeds, held, names⟩

/-- Two contracts that can be reached declare the method. -/
theorem response_names_pipe_tree : ∃ document responder contract,
    (analyze pipeTree mutualOptions).1 = .ok document ∧
      document.responders.get? "m R" = some responder ∧ contract.ident.display = "m R" ∧
        (∃ placed, HasMethod (mutualOptions.project pipeTree) contract placed ∧
          placed.method.name = "Close") ∧
        ¬ (mutualOptions.project pipeTree).DeclaresOnce contract := by
  obtain ⟨document, responder, succeeds, held, names⟩ := exists_responder_pipe_tree
  obtain ⟨files, contract, -, -, shown, has, once⟩ := response_names_of_analyze succeeds held
  rw [names] at has once
  refine ⟨document, responder, contract, succeeds, held, shown, ?_, ?_⟩
  · exact (has "Close").1 (by decide)
  · rw [← once]
    decide

/-- There the one method of the contract has two responses. -/
theorem not_nodup_pipe_tree : ∃ document responder,
    (analyze pipeTree mutualOptions).1 = .ok document ∧
      document.responders.get? "m R" = some responder ∧
        ¬ (responder.responses.map (·.name)).Nodup := by
  obtain ⟨document, responder, succeeds, held, names⟩ := exists_responder_pipe_tree
  refine ⟨document, responder, succeeds, held, ?_⟩
  rw [names]
  decide

end EndpointAtlas
