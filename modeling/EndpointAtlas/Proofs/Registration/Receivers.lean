import Mathlib.Data.List.TakeWhile
import EndpointAtlas.Assembly.Endpoints
import EndpointAtlas.Proofs.Aliases.ReadBack

/-!
What a receiver says of its type. The name of the type may stand behind pointers, and type arguments
may follow it; what is left of the type without them is the name under which its controller is
looked for.
-/

namespace EndpointAtlas

open Go Text

/-- Whether a source text is a name, but for stars and white space around it and for type
arguments after it. -/
def Instantiates (text name : List Char) : Prop :=
  ∃ stars before after arguments : List Char,
    text = stars ++ (before ++ name ++ after) ++ arguments ∧ (∀ c ∈ stars, c = '*') ∧
      (∀ c ∈ before ++ after, isBlank c = true) ∧
        (arguments = [] ∨ arguments.head? = some '[')

inductive Receives : TypeExpr → String → Prop where
  | plain (name : String) : Receives (.ident name) name
  | pointer {target : TypeExpr} {name : String} :
      Receives target name → Receives (.pointer target) name
  | instantiated {text name : String} :
      Instantiates text.toList name.toList → Receives (.other text) name

/-- Whether a function has a receiver of the named type. -/
def HasReceiver (func : FuncDecl) (name : String) : Prop :=
  ∃ type, func.receiver = some type ∧ Receives type name

def receiverText (text : List Char) : List Char :=
  trim ((text.takeWhile (· != '[')).dropWhile (· == '*'))

theorem instantiates_receiver_text (text : List Char) : Instantiates text (receiverText text) := by
  have name := exists_append_trim ((text.takeWhile (· != '[')).dropWhile (· == '*'))
  obtain ⟨before, after, split, blank⟩ := name
  refine ⟨(text.takeWhile (· != '[')).takeWhile (· == '*'), before, after,
    text.dropWhile (· != '['), ?_, fun c member => ?_, blank, ?_⟩
  · rw [receiverText, ← split, List.takeWhile_append_dropWhile, List.takeWhile_append_dropWhile]
  · have star := List.mem_takeWhile_imp member
    exact beq_iff_eq.1 star
  · cases rest : text.dropWhile (· != '[') with
    | nil => exact .inl rfl
    | cons c tail =>
        have head := List.head?_dropWhile_not (· != '[') text
        rw [rest] at head
        have bracket : c = '[' := by simpa using head
        exact .inr (by rw [bracket]; rfl)

theorem receiver_text_of_instantiates {text : List Char} {name : String}
    (named : Lexeme.IsName name) (instantiates : Instantiates text name.toList) :
    receiverText text = name.toList := by
  obtain ⟨stars, before, after, arguments, rfl, allStars, blank, ends⟩ := instantiates
  have notBlank : ∀ c ∈ before ++ name.toList ++ after, c ≠ '[' ∧ c ≠ '*' := by
    intro c member
    have either : isBlank c = true ∨ Lexeme.isNamePart c = true := by
      simp only [List.mem_append] at member blank
      rcases member with (start | own) | tail
      · exact .inl (blank c (.inl start))
      · exact .inr (named.2 c own)
      · exact .inl (blank c (.inr tail))
    constructor <;>
      · rintro rfl
        revert either
        decide
  have whole : (stars ++ (before ++ name.toList ++ after) ++ arguments).takeWhile (· != '[') =
      stars ++ (before ++ name.toList ++ after) := by
    apply take_while_append_of_head
    · intro c member
      rcases List.mem_append.1 member with star | within
      · rw [allStars c star]
        decide
      · simpa using (notBlank c within).1
    · intro c head
      rcases ends with rfl | bracket
      · cases head
      · simpa using Option.some.inj (head.symm.trans bracket)
  have unstarred : (stars ++ (before ++ name.toList ++ after)).dropWhile (· == '*') =
      before ++ name.toList ++ after := by
    apply drop_while_append_of_head
    · exact fun c star => beq_iff_eq.2 (allStars c star)
    · exact fun c head => beq_eq_false_iff_ne.2 (notBlank c (List.mem_of_head? head)).2
  rw [receiverText, whole, unstarred, trim_between named.visible blank]

def nameUnder : TypeExpr → String
  | .ident name => name
  | .other text => String.ofList (receiverText text.toList)
  | _ => ""

theorem receives_iff {type : TypeExpr} {name : String} (named : Lexeme.IsName name) :
    Receives type name ↔ nameUnder type.deref = name := by
  fun_induction TypeExpr.deref type with
  | case1 target ih =>
      refine Iff.trans ⟨fun receives => ?_, .pointer⟩ ih
      cases receives with
      | pointer inner => exact inner
  | case2 type noPointer =>
      constructor
      · rintro (_ | _ | instantiates)
        · rfl
        · exact absurd rfl (noPointer _)
        · rw [nameUnder, receiver_text_of_instantiates named instantiates, String.ofList_toList]
      · rintro rfl
        have nonempty := named.1
        unfold nameUnder at nonempty ⊢
        split
        · exact .plain _
        · refine .instantiated ?_
          rw [String.toList_ofList]
          exact instantiates_receiver_text _
        · simp at nonempty

/-- The name under which the controller of a function is looked for is that of its receiver. -/
theorem receiver_name_eq_iff {func : FuncDecl} {name : String} (named : Lexeme.IsName name) :
    receiverName func = name ↔ HasReceiver func name := by
  have nonempty : name ≠ "" := by
    rintro rfl
    exact named.1 rfl
  unfold receiverName HasReceiver
  cases func.receiver with
  | none => simp [Ne.symm nonempty]
  | some type =>
      simp only [Option.map_some, Option.some.injEq, exists_eq_left', receives_iff named]
      cases type.deref <;> exact Iff.rfl

end EndpointAtlas
