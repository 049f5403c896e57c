import EndpointAtlas.Proofs.Go.StatementEnds

/-!
Where the functions, types and interface methods of a file stand among its tokens, and what stands
before each of them on its level. Whatever the grammar makes of a file, the comments that document
a declaration are those that its siblings give it.
-/

namespace EndpointAtlas.Go

open EndpointAtlas.Go.Parser

/-- The row on which something starts that comments may document, and the siblings before it, the
nearest first. -/
structure Site where
  row : Nat
  before : List Sibling
  deriving DecidableEq, Repr

namespace Site

def doc (site : Site) : Option (List String) := docOf site.row site.before

def orElse (site above : Site) : Site := if site.doc = none then above else site

theorem doc_or_else (site above : Site) : (site.orElse above).doc = (site.doc <|> above.doc) := by
  unfold orElse
  cases own : site.doc with
  | none => rw [if_pos rfl]; rfl
  | some comments => rw [if_neg (by simp), own]; rfl

end Site

def Token.site (token : Token) (before : List Sibling) : Site :=
  ⟨token.row, siblingsBefore token before⟩

/-- A level of a file on which siblings stand: its declarations, the types of one declaration, or
the elements of an interface. -/
inductive Level where
  | declarations
  | types (declaration : Site)
  | elements

/-- The siblings that stand on a level after the tokens of a file up to there. A comment before the
bracket that opens a level stands on that level. What stands between two terminators is balanced,
apart from statements: those may have terminators in the header of a loop or of a condition. -/
inductive SiblingsAt : Level → List Token → List Sibling → Prop
  | declarations : SiblingsAt .declarations [] []
  | types {prior : List Token} {before : List Sibling} {keyword opening : Token}
      (reached : SiblingsAt .declarations prior before)
      (types : isKeyword "type" keyword = true) (opens : isMark "(" opening = true) :
      SiblingsAt (.types (keyword.site before)) (prior ++ [keyword, opening])
        (siblingsBefore opening [])
  | elements (prior : List Token) {keyword opening : Token}
      (interface : isKeyword "interface" keyword = true) (opens : isMark "\x7b" opening = true) :
      SiblingsAt .elements (prior ++ [keyword, opening]) (siblingsBefore opening [])
  | next {level : Level} {prior rest : List Token} {before : List Sibling}
      {first terminator : Token}
      (reached : SiblingsAt level prior before) (balanced : Balanced (first :: rest))
      (ends : isTerminator terminator = true) :
      SiblingsAt level (prior ++ first :: rest ++ [terminator])
        (.declaration (rest.getLastD first).endRow :: siblingsBefore first before)
  | statement {depth : Nat} {prior rest others : List Token} {before : List Sibling}
      {first terminator : Token}
      (reached : SiblingsAt .declarations prior before) (stands : isTerminator first = false)
      (read : stmt depth (first :: rest ++ terminator :: others) = some ((), terminator :: others))
      (ends : isTerminator terminator = true) :
      SiblingsAt .declarations (prior ++ first :: rest ++ [terminator])
        (.declaration (rest.getLastD first).endRow :: siblingsBefore first before)

def Parenthesized (tokens : List Token) : Prop :=
  ∃ opening inner closing, tokens = opening :: inner ++ [closing] ∧ isMark "(" opening = true ∧
    Balanced inner ∧ isMark ")" closing = true

/-- Whether the tokens of a file declare a name at a site, as a function, a type or a method of an
interface. A type without comments of its own is documented where its declaration stands. -/
inductive DeclaredAt (tokens : List Token) : String → Site → Prop
  | function {prior receiver rest : List Token} {before : List Sibling} {keyword name : Token}
      (reached : SiblingsAt .declarations prior before) (func : isKeyword "func" keyword = true)
      (bound : receiver = [] ∨ Parenthesized receiver) (named : isName name = true)
      (whole : tokens = prior ++ keyword :: receiver ++ name :: rest) :
      DeclaredAt tokens name.text (keyword.site before)
  | type {prior rest : List Token} {before : List Sibling} {keyword name : Token}
      (reached : SiblingsAt .declarations prior before) (type : isKeyword "type" keyword = true)
      (named : isName name = true) (whole : tokens = prior ++ keyword :: name :: rest) :
      DeclaredAt tokens name.text ((name.site []).orElse (keyword.site before))
  | member {declaration : Site} {prior rest : List Token} {before : List Sibling} {name : Token}
      (reached : SiblingsAt (.types declaration) prior before) (named : isName name = true)
      (whole : tokens = prior ++ name :: rest) :
      DeclaredAt tokens name.text ((name.site before).orElse declaration)
  | method {prior rest : List Token} {before : List Sibling} {name opening : Token}
      (reached : SiblingsAt .elements prior before) (named : isName name = true)
      (opens : isMark "(" opening = true) (whole : tokens = prior ++ name :: opening :: rest) :
      DeclaredAt tokens name.text (name.site before)

inductive TypeExpr.Declares : TypeExpr → Method → Prop
  | pointer {target : TypeExpr} {method : Method} (declares : target.Declares method) :
      (TypeExpr.pointer target).Declares method
  | slice {element : TypeExpr} {method : Method} (declares : element.Declares method) :
      (TypeExpr.slice element).Declares method
  | array {element : TypeExpr} {method : Method} (declares : element.Declares method) :
      (TypeExpr.array element).Declares method
  | key {key value : TypeExpr} {method : Method} (declares : key.Declares method) :
      (TypeExpr.map key value).Declares method
  | value {key value : TypeExpr} {method : Method} (declares : value.Declares method) :
      (TypeExpr.map key value).Declares method
  | field {fields : List Field} {field : Field} {method : Method} (member : field ∈ fields)
      (declares : field.type.Declares method) : (TypeExpr.struct fields).Declares method
  | embedded {elements : List Element} {type : TypeExpr} {method : Method}
      (member : .embedded type ∈ elements) (declares : type.Declares method) :
      (TypeExpr.interface elements).Declares method
  | method {elements : List Element} {method : Method} (member : .method method ∈ elements) :
      (TypeExpr.interface elements).Declares method
  | param {elements : List Element} {outer method : Method} {param : Param}
      (member : .method outer ∈ elements) (listed : param ∈ outer.params)
      (declares : param.type.Declares method) : (TypeExpr.interface elements).Declares method

/-- Whether a file declares a name with the comments that document it. -/
inductive SourceFile.Declares (file : SourceFile) : String → Option (List String) → Prop
  | type {spec : TypeSpec} (member : spec ∈ file.types) : file.Declares spec.name spec.doc
  | function {func : FuncDecl} (member : func ∈ file.funcs) : file.Declares func.name func.doc
  | methodOfType {spec : TypeSpec} {method : Method} (member : spec ∈ file.types)
      (declares : spec.type.Declares method) : file.Declares method.name method.doc
  | methodOfReceiver {func : FuncDecl} {type : TypeExpr} {method : Method}
      (member : func ∈ file.funcs) (bound : func.receiver = some type)
      (declares : type.Declares method) : file.Declares method.name method.doc
  | methodOfParam {func : FuncDecl} {param : Param} {method : Method} (member : func ∈ file.funcs)
      (listed : param ∈ func.params) (declares : param.type.Declares method) :
      file.Declares method.name method.doc

/-- Whether what the reader takes from a token on leads to what comes after it. -/
def Advances (level : Level) (prior : List Token) (before : List Sibling) (token : Token)
    (others : List Token) (reader : Parser α) : Prop :=
  ∀ result rest, reader (token :: others) = some (result, rest) →
    ∃ taken, token :: others = taken ++ rest ∧
      ∀ terminator ∈ rest.head?, isTerminator terminator = true →
        SiblingsAt level (prior ++ taken ++ [terminator])
          (.declaration ((taken.getLast?.map (·.endRow)).getD token.row) ::
            siblingsBefore token before)

section

variable {α β : Type} {level : Level} {prior others rest : List Token} {before : List Sibling}
  {token : Token}

theorem SiblingsAt.of_taken {taken : List Token} (stands : isTerminator token = false)
    (split : token :: others = taken ++ rest)
    (step : ∀ front left terminator, taken = token :: front → rest = terminator :: left →
      isTerminator terminator = true → SiblingsAt level (prior ++ token :: front ++ [terminator])
        (.declaration (front.getLastD token).endRow :: siblingsBefore token before)) :
    ∃ taken, token :: others = taken ++ rest ∧
      ∀ terminator ∈ rest.head?, isTerminator terminator = true →
        SiblingsAt level (prior ++ taken ++ [terminator])
          (.declaration ((taken.getLast?.map (·.endRow)).getD token.row) ::
            siblingsBefore token before) := by
  refine ⟨taken, split, fun terminator next ends => ?_⟩
  obtain ⟨left, rfl⟩ := List.head?_eq_some_iff.1 next
  cases taken with
  | nil =>
      obtain ⟨rfl, -⟩ := List.cons.inj split
      rw [stands] at ends
      cases ends
  | cons first front =>
      obtain ⟨rfl, rfl⟩ := List.cons.inj split
      rw [List.getLast?_cons, ← List.getLastD_eq_getLast?]
      exact step front left terminator rfl rfl ends

theorem SiblingsAt.advance {reader : Parser α} (reached : SiblingsAt level prior before)
    (moves : MovesOn (token :: others) [] reader []) (stands : isTerminator token = false) :
    Advances level prior before token others reader := by
  intro result rest read
  obtain ⟨taken, split, balanced⟩ := moves _ _ read
  refine SiblingsAt.of_taken stands split ?_
  rintro front left terminator rfl rfl ends
  exact .next reached balanced ends

theorem SiblingsAt.advance_stmt {depth : Nat} (reached : SiblingsAt .declarations prior before)
    (stands : isTerminator token = false) :
    Advances .declarations prior before token others (stmt depth) := by
  intro result rest read
  obtain ⟨taken, split, -⟩ := (nests depth).stmt .curly [] _ _ _ read
  refine SiblingsAt.of_taken stands split ?_
  rintro front left terminator rfl rfl ends
  rw [split] at read
  exact .statement reached stands read ends

namespace Advances

protected theorem failure : Advances level prior before token others (failure : Parser α) := by
  intro result rest read
  cases read

theorem bind_next {next : Option Token → Parser α}
    (advances : Advances level prior before token others (next (some token))) :
    Advances level prior before token others (next? >>= next) := advances

theorem bind_pure {reader : Parser α} {change : α → β}
    (advances : Advances level prior before token others reader) :
    Advances level prior before token others (reader >>= fun value => pure (change value)) := by
  intro result rest read
  obtain ⟨value, middle, taken, read⟩ := bind_eq_some.1 read
  obtain ⟨-, rfl⟩ := Prod.mk.inj (Option.some.inj read)
  exact advances value middle taken

end Advances

end

namespace RefusesTerminators

theorem uninterpreted_type (depth : Nat) : RefusesTerminators (uninterpretedType depth) := by
  cases depth with
  | zero => rw [Go.uninterpretedType]; exact .failure
  | succ depth =>
      rw [Go.uninterpretedType]
      refine bind_skip (fun _ => is_terminator_of_is_keyword) ?_
      refine bind_skip (fun _ => is_terminator_of_is_mark) ?_
      exact .bind (.keyword _) _

theorem type_expr (depth : Nat) : RefusesTerminators (typeExpr depth) := by
  cases depth with
  | zero => rw [Go.typeExpr]; exact .failure
  | succ depth =>
      rw [Go.typeExpr]
      intro token rest ends
      have kind : token.kind = .terminator := by simpa [isTerminator] using ends
      rw [next_bind]
      simp only [List.head?_cons, kind]
      exact ((uninterpreted_type depth).with_tokens.bind _) token rest ends

theorem constraint (depth : Nat) : RefusesTerminators (constraint depth) := by
  cases depth with
  | zero => rw [Go.constraint]; exact .failure
  | succ depth =>
      rw [Go.constraint]
      exact bind_sees fun named =>
        bind_skip (fun _ => is_terminator_of_is_mark) ((type_expr depth).bind _)

theorem interface_element (depth : Nat) (before : List Sibling) (row : Nat) :
    RefusesTerminators (interfaceElement depth before row) := by
  cases depth with
  | zero => rw [Go.interfaceElement]; exact .failure
  | succ depth =>
      rw [Go.interfaceElement]
      exact .either (.bind .name _) (.constraint depth)

theorem type_spec (depth : Nat) (before : List Sibling) (row : Nat) :
    RefusesTerminators (typeSpec depth before row) := by
  cases depth with
  | zero => rw [Go.typeSpec]; exact .failure
  | succ depth => rw [Go.typeSpec]; exact .bind .name _

theorem declaration (depth : Nat) (file : SourceFile) (before : List Sibling) (row : Nat) :
    RefusesTerminators (SourceFile.declaration depth file before row) := by
  intro token rest ends
  have kind : token.kind = .terminator := by simpa [isTerminator] using ends
  rw [SourceFile.declaration, next_bind]
  simp only [List.head?_cons, kind]
  rfl

end RefusesTerminators

theorem balanced_comma {comma : Token} (separates : isMark "," comma = true) :
    Balanced [comma] := by
  simp [Balanced, pendingAfter, plain_is_mark (by decide) comma separates]

theorem balanced_comma_list {α : Type} {item : Parser α} (keeps : Keeps item) (bracket : Bracket)
    {depth : Nat} {tokens rest : List Token} {items : List α}
    (read : commaList depth item bracket.closing tokens = some (items, rest)) :
    ∃ inner closing, tokens = inner ++ closing :: rest ∧ Balanced inner ∧
      isMark bracket.closing closing = true := by
  induction depth generalizing tokens items with
  | zero => cases read
  | succ depth ih =>
      rw [commaList, bind_eq_some] at read
      obtain ⟨closed, middle, skipped, read⟩ := read
      obtain ⟨rfl, closing, rfl, closes⟩ | ⟨rfl, rfl, -⟩ := skip_eq_some skipped
      · obtain ⟨-, rfl⟩ := Prod.mk.inj (Option.some.inj read)
        exact ⟨[], closing, rfl, rfl, closes⟩
      · rw [if_neg Bool.false_ne_true, bind_eq_some] at read
        obtain ⟨first, middle, found, read⟩ := read
        obtain ⟨front, rfl, balanced⟩ := keeps [] _ _ _ found
        rw [bind_eq_some] at read
        obtain ⟨more, middle, skipped, read⟩ := read
        obtain ⟨rfl, comma, rfl, separates⟩ | ⟨rfl, rfl, -⟩ := skip_eq_some skipped
        · rw [if_pos rfl, bind_eq_some] at read
          obtain ⟨others, left, further, read⟩ := read
          obtain ⟨-, rfl⟩ := Prod.mk.inj (Option.some.inj read)
          obtain ⟨inner, closing, rfl, later, closes⟩ := ih further
          refine ⟨front ++ ([comma] ++ inner), closing, by simp, ?_, closes⟩
          exact Balanced.append balanced (.append (balanced_comma separates) later)
        · rw [if_neg Bool.false_ne_true, bind_eq_some] at read
          obtain ⟨nothing, left, closed, read⟩ := read
          obtain ⟨-, rfl⟩ := Prod.mk.inj (Option.some.inj read)
          obtain ⟨closing, rfl, closes⟩ := mark_eq_some.1 closed
          exact ⟨front, closing, rfl, balanced, closes⟩

theorem parenthesized_param_list {depth : Nat} {tokens rest : List Token} {params : List Param}
    (read : paramList depth tokens = some (params, rest)) :
    ∃ receiver, tokens = receiver ++ rest ∧ Parenthesized receiver := by
  cases depth with
  | zero =>
      rw [paramList] at read
      cases read
  | succ depth =>
      rw [paramList, bind_eq_some] at read
      obtain ⟨nothing, middle, taken, read⟩ := read
      obtain ⟨opening, rfl, opens⟩ := mark_eq_some.1 taken
      rw [bind_eq_some] at read
      obtain ⟨items, left, listed, read⟩ := read
      obtain ⟨inner, closing, rfl, balanced, closes⟩ :=
        balanced_comma_list (nests depth).paramItem .round listed
      cases found : ParamItem.params? items with
      | none =>
          rw [found] at read
          cases read
      | some params =>
          rw [found] at read
          obtain ⟨-, rfl⟩ := Prod.mk.inj (Option.some.inj read)
          refine ⟨opening :: inner ++ [closing], by simp, ?_⟩
          exact ⟨opening, inner, closing, rfl, opens, balanced, closes⟩

end EndpointAtlas.Go
