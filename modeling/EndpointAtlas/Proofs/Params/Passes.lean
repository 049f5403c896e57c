import Mathlib.Data.List.Basic
import EndpointAtlas.Assembly.Params
import EndpointAtlas.Proofs.Steps

/-!
What the path and the notes make of the parameters of an endpoint. Each pass changes the first
parameter of each name and no other, and passes after each other change it one after the other; so
all of them together say at once what becomes of a parameter.
-/

namespace EndpointAtlas

/-- The parameters with the first of each name changed, unless its name is known before. -/
def changeFirsts (change : Parameter → Parameter) : List String → List Parameter → List Parameter
  | _, [] => []
  | known, param :: rest =>
      (if param.name ∈ known then param else change param) ::
        changeFirsts change (param.name :: known) rest

section

variable {change first second : Parameter → Parameter}

theorem map_name_change_firsts (keeps : ∀ param, (change param).name = param.name)
    (known : List String) (params : List Parameter) :
    (changeFirsts change known params).map (·.name) = params.map (·.name) := by
  induction params generalizing known with
  | nil => rfl
  | cons param rest ih =>
      rw [changeFirsts, List.map_cons, List.map_cons, ih]
      split
      · rfl
      · rw [keeps]

/-- A pass after a pass is the pass that makes both changes. -/
theorem change_firsts_change_firsts (keeps : ∀ param, (first param).name = param.name)
    (known : List String) (params : List Parameter) :
    changeFirsts second known (changeFirsts first known params) =
      changeFirsts (fun param => second (first param)) known params := by
  induction params generalizing known with
  | nil => rfl
  | cons param rest ih =>
      by_cases earlier : param.name ∈ known
      · simp only [changeFirsts, earlier, if_true, ih]
      · simp only [changeFirsts, earlier, if_false, keeps, ih]

theorem change_firsts_eq_self (same : ∀ param, change param = param) (known : List String)
    (params : List Parameter) : changeFirsts change known params = params := by
  induction params generalizing known with
  | nil => rfl
  | cons param rest ih =>
      rw [changeFirsts, same, ite_self, ih]

theorem change_firsts_congr {params : List Parameter}
    (same : ∀ param ∈ params, first param = second param) (known : List String) :
    changeFirsts first known params = changeFirsts second known params := by
  induction params generalizing known with
  | nil => rfl
  | cons param rest ih =>
      rw [changeFirsts, changeFirsts, same param List.mem_cons_self,
        ih fun other member => same other (List.mem_cons_of_mem _ member)]

theorem get_elem_change_firsts (known : List String) (params : List Parameter) (index : Nat) :
    (changeFirsts change known params)[index]? = params[index]?.map fun param =>
      if param.name ∈ known ∨ param.name ∈ (params.take index).map (·.name) then param
      else change param := by
  induction params generalizing known index with
  | nil => rfl
  | cons head rest ih =>
      cases index with
      | zero => simp [changeFirsts]
      | succ index =>
          simp only [changeFirsts, List.getElem?_cons_succ, ih, List.take_succ_cons, List.map_cons,
            List.mem_cons]
          congr 1
          funext param
          congr 1
          simp only [or_assoc, or_left_comm]

theorem change_firsts_of_mem {name : String} {known : List String} (member : name ∈ known)
    (params : List Parameter) :
    changeFirsts (fun param => if param.name = name then change param else param) known params =
      params := by
  induction params generalizing known with
  | nil => rfl
  | cons param rest ih =>
      rw [changeFirsts, ih (List.mem_cons_of_mem _ member)]
      by_cases named : param.name = name
      · rw [if_pos (named ▸ member)]
      · rw [if_neg named, ite_self]

theorem change_param_eq (name : String) {known : List String} (fresh : name ∉ known)
    (params : List Parameter) : changeParam name change params =
      changeFirsts (fun param => if param.name = name then change param else param) known
        params := by
  induction params generalizing known with
  | nil => rfl
  | cons param rest ih =>
      by_cases named : param.name = name
      · have unknown : param.name ∉ known := named ▸ fresh
        rw [changeParam, if_pos named, changeFirsts, if_neg unknown, if_pos named,
          change_firsts_of_mem (named ▸ List.mem_cons_self)]
      · have freshRest : name ∉ param.name :: known := by
          simp [fresh, Ne.symm named]
        rw [changeParam, if_neg named, changeFirsts, if_neg named, ite_self, ih freshRest]

end

def isPlaced (pattern name : String) : Bool :=
  (placeholders pattern.toList).contains name.toList

def Parameter.placed (pattern : String) (param : Parameter) : Parameter :=
  if isPlaced pattern param.name then { param with source := .path } else param

@[simp] theorem Parameter.name_placed (pattern : String) (param : Parameter) :
    (param.placed pattern).name = param.name := by
  unfold placed
  split <;> rfl

@[simp] theorem Parameter.metadata_placed (pattern : String) (param : Parameter) :
    (param.placed pattern).metadata = param.metadata := by
  unfold placed
  split <;> rfl

theorem foldl_change_param_path (names : List (List Char)) (params : List Parameter) :
    names.foldl (fun params name =>
      changeParam (String.ofList name) ({ · with source := .path }) params) params =
        changeFirsts (fun param =>
          if names.contains param.name.toList then { param with source := .path } else param) []
          params := by
  induction names generalizing params with
  | nil => exact (change_firsts_eq_self (by simp) [] params).symm
  | cons name rest ih =>
      rw [List.foldl_cons, ih, change_param_eq _ List.not_mem_nil, change_firsts_change_firsts]
      · congr 1
        funext param
        have called : param.name = String.ofList name ↔ param.name.toList = name := by
          rw [← String.toList_inj, String.toList_ofList]
        by_cases here : param.name.toList = name
        · by_cases again : name ∈ rest <;> simp [called, here, again]
        · simp [called, here]
      · intro param
        split <;> rfl

theorem mark_path_params_eq (pattern : String) (params : List Parameter) :
    markPathParams pattern params = changeFirsts (·.placed pattern) [] params :=
  foldl_change_param_path _ params

/-- A well-formed note: one that says of a parameter that it comes from one of the sources. -/
structure SourceNote where
  name : String
  source : ParamSource
  metadata : Option String
  deriving DecidableEq, Repr

def SourceNote.ofArgument? (argument : String) : Option SourceNote :=
  (ParamNote.ofArgument? argument).bind fun note =>
    (ParamSource.ofName? note.source).map fun source => ⟨note.name, source, note.metadata⟩

/-- The notes on parameters that have at least two fields, with any source. -/
def Annotations.paramNotes (annotations : Annotations) : List ParamNote :=
  (annotations.get "@Param").filterMap ParamNote.ofArgument?

def Annotations.sourceNotes (annotations : Annotations) (name : String) : List SourceNote :=
  ((annotations.get "@Param").filterMap SourceNote.ofArgument?).filter (·.name = name)

/-- The last metadata that is given in some notes; notes without metadata do not count. -/
def lastMetadata? (notes : List SourceNote) : Option String :=
  (notes.filterMap (·.metadata)).getLast?

/-- A parameter with what the notes that name it say, one after the other. -/
def Parameter.told (notes : List SourceNote) (param : Parameter) : Parameter :=
  notes.foldl (fun param note =>
    if param.name = note.name then param.noted note.source note.metadata else param) param

namespace Parameter

variable (notes : List SourceNote) (param : Parameter)

theorem told_cons (note : SourceNote) : param.told (note :: notes) =
    (if param.name = note.name then param.noted note.source note.metadata else param).told notes :=
  rfl

@[simp] theorem name_told : (param.told notes).name = param.name := by
  induction notes generalizing param with
  | nil => rfl
  | cons note rest ih =>
      rw [told_cons, ih]
      split <;> rfl

@[simp] theorem type_told : (param.told notes).type = param.type := by
  induction notes generalizing param with
  | nil => rfl
  | cons note rest ih =>
      rw [told_cons, ih]
      split <;> rfl

/-- The last note that names a parameter decides its source. -/
theorem source_told : (param.told notes).source =
    ((notes.filter (·.name = param.name)).getLast?.map (·.source)).getD param.source := by
  induction notes generalizing param with
  | nil => rfl
  | cons note rest ih =>
      rw [told_cons, ih]
      by_cases named : param.name = note.name
      · simp only [named, noted, if_true, List.filter_cons, decide_true, List.getLast?_cons]
        cases (rest.filter (·.name = note.name)).getLast? <;> rfl
      · simp [named, Ne.symm named]

/-- The last metadata given for a parameter is kept. -/
theorem metadata_told : (param.told notes).metadata =
    (lastMetadata? (notes.filter (·.name = param.name))).or param.metadata := by
  induction notes generalizing param with
  | nil => rfl
  | cons note rest ih =>
      rw [told_cons, ih]
      unfold lastMetadata?
      by_cases named : param.name = note.name
      · simp only [named, noted, if_true, List.filter_cons, decide_true]
        cases given : note.metadata with
        | none => simp [given]
        | some metadata =>
            simp only [given, List.filterMap_cons, List.getLast?_cons]
            cases (List.filterMap _ _).getLast? <;> rfl
      · simp [named, Ne.symm named]

/-- What notes say of a parameter is no more than a source and metadata. -/
theorem told_eq_of {others : List SourceNote}
    (source : (param.told notes).source = (param.told others).source)
    (metadata : (param.told notes).metadata = (param.told others).metadata) :
    param.told notes = param.told others := by
  have name := (param.name_told notes).trans (param.name_told others).symm
  have type := (param.type_told notes).trans (param.type_told others).symm
  cases first : param.told notes
  cases second : param.told others
  simp_all

end Parameter

namespace Assembly

def noteWarning? (func argument : String) : Option Warning :=
  match ParamNote.ofArgument? argument with
  | none => some (.incorrectParam func argument)
  | some note =>
      match ParamSource.ofName? note.source with
      | none => some (.unknownSource func argument)
      | some _ => none

def withWarnings (state : Assembly) (warnings : List Warning) : Assembly :=
  { state with warnings := state.warnings ++ warnings }

/-- One note is a pass, which may be empty, or it names no parameter and is a failure. -/
theorem annotate_params_yields (func : String) (params : List Parameter) (argument : String)
    (state : Assembly) :
    Yields (annotateParams func params argument) state
      (fun value after =>
        value = changeFirsts (·.told (SourceNote.ofArgument? argument).toList) [] params ∧
          after = state.withWarnings (noteWarning? func argument).toList ∧
            ∀ note, ParamNote.ofArgument? argument = some note → note.name ∈ params.map (·.name))
      (fun failure _ => ∃ note, ParamNote.ofArgument? argument = some note ∧
        note.name ∉ params.map (·.name) ∧ failure = .unknownParam func note.name) := by
  have idle : params = changeFirsts (·.told []) [] params :=
    (change_firsts_eq_self (fun _ => rfl) [] params).symm
  unfold annotateParams noteWarning? SourceNote.ofArgument?
  cases ParamNote.ofArgument? argument with
  | none =>
      apply Yields.bind_modify
      exact Yields.pure ⟨idle, rfl, by simp⟩
  | some note =>
      have known_iff : params.any (·.name = note.name) = true ↔
          note.name ∈ params.map (·.name) := by simp
      dsimp only
      by_cases known : params.any (·.name = note.name) = true
      · have listed : ∀ other, some note = some other → other.name ∈ params.map (·.name) := by
          intro other same
          rw [← Option.some.inj same]
          exact known_iff.1 known
        simp only [known, if_true, Option.bind_some]
        cases ParamSource.ofName? note.source with
        | none =>
            apply Yields.bind_modify
            exact Yields.pure ⟨idle, rfl, listed⟩
        | some source =>
            apply Yields.pure
            refine ⟨?_, by simp [withWarnings], listed⟩
            rw [change_param_eq _ List.not_mem_nil]
            rfl
      · simp only [known]
        apply Yields.throw
        exact ⟨note, rfl, fun member => known (known_iff.2 member), rfl⟩

/-- All notes together are the pass that tells each parameter what they say of it, and the first
one that names no parameter is the failure. -/
theorem foldl_m_annotate_params_yields (func : String) (arguments : List String)
    (params : List Parameter) (state : Assembly) :
    Yields (arguments.foldlM (annotateParams func) params) state
      (fun value after =>
        value = changeFirsts (·.told (arguments.filterMap SourceNote.ofArgument?)) [] params ∧
          after = state.withWarnings (arguments.filterMap (noteWarning? func)) ∧
            ∀ note ∈ arguments.filterMap ParamNote.ofArgument?, note.name ∈ params.map (·.name))
      (fun failure _ => ∃ note,
        (arguments.filterMap ParamNote.ofArgument?).find?
          (fun note => note.name ∉ params.map (·.name)) = some note ∧
            failure = .unknownParam func note.name) := by
  induction arguments generalizing params state with
  | nil =>
      apply Yields.pure
      exact ⟨(change_firsts_eq_self (fun _ => rfl) [] params).symm, by simp [withWarnings], by simp⟩
  | cons argument rest ih =>
      rw [List.foldlM_cons]
      apply Yields.bind ((annotate_params_yields func params argument state).mono
        (fun _ _ kept => kept) ?_)
      · rintro value between ⟨rfl, rfl, known⟩
        have names : (changeFirsts (·.told (SourceNote.ofArgument? argument).toList) []
            params).map (·.name) = params.map (·.name) :=
          map_name_change_firsts (fun param => param.name_told _) [] params
        apply (ih _ _).mono
        · rintro value after ⟨rfl, rfl, others⟩
          rw [names] at others
          refine ⟨?_, ?_, ?_⟩
          · rw [change_firsts_change_firsts fun param => param.name_told _]
            congr 1
            funext param
            cases read : SourceNote.ofArgument? argument <;> simp [read, Parameter.told]
          · cases warned : noteWarning? func argument <;> simp [warned, withWarnings]
          · intro note member
            cases read : ParamNote.ofArgument? argument with
            | none => exact others note (by simpa [read] using member)
            | some first =>
                rw [List.filterMap_cons, read] at member
                rcases List.mem_cons.1 member with rfl | later
                · exact known note read
                · exact others note later
        · rintro failure after ⟨note, found, rfl⟩
          rw [names] at found
          refine ⟨note, ?_, rfl⟩
          cases read : ParamNote.ofArgument? argument with
          | none => simpa [read] using found
          | some first =>
              have listed := known first read
              rw [List.filterMap_cons, read, List.find?_cons_of_neg (by simpa using listed)]
              exact found
      · rintro failure after ⟨note, read, stray, rfl⟩
        refine ⟨note, ?_, rfl⟩
        rw [List.filterMap_cons, read, List.find?_cons_of_pos (by simpa using stray)]

end Assembly

end EndpointAtlas
