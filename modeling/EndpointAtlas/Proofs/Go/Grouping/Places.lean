import EndpointAtlas.Proofs.Go.Rules.Bounds
import EndpointAtlas.Proofs.Go.Rules.FirstTokens
import EndpointAtlas.Proofs.Go.Rules.LowerRows

/-!
Places where Go source can be grouped in another way. A type can be put in parentheses, and names
that share a type can be given it one by one.
-/

namespace EndpointAtlas.Go

open EndpointAtlas.Go.Parser

variable {α β : Type}

/-- Whether a reader takes the tokens in front of the rest, with any bound that is enough. -/
def Reader.Reads (reader : Reader α) (tokens : List Token) (value : α) (rest : List Token) : Prop :=
  ∀ bound, enoughFor tokens.length ≤ bound → reader.read bound tokens = some (value, rest)

def Rule.Reads (rule : Rule α) (tokens : List Token) (value : α) (rest : List Token) : Prop :=
  ∀ bound, enoughFor tokens.length ≤ bound → rule.run bound tokens = some (value, rest)

def Rule.Refuses (rule : Rule α) (tokens : List Token) : Prop :=
  ∀ bound, enoughFor tokens.length ≤ bound → rule.run bound tokens = none

/-- A type, and the type in parentheses. Comments in front of the type come to stand in front of the
parenthesis. -/
inductive InParens : List Token → List Token → Prop
  | intro {first bare opening closing : Token} {inner : List Token}
      (resembles : bare.Resembles first) (uncommented : bare.comments = [])
      (opens : isMark "(" opening = true) (comments : opening.comments = first.comments)
      (closes : isMark ")" closing = true)
      (ends : closing.endRow = ((first :: inner).getLast (List.cons_ne_nil _ _)).endRow) :
      InParens (first :: inner) (opening :: bare :: (inner ++ [closing]))

inductive Copied : List Token → List Token → Prop
  | intro {first copy : Token} {inner inner' : List Token} {up down : Nat}
      (resembles : copy.Resembles first) (same : lower up inner' = lower down inner) :
      Copied (first :: inner) (copy :: inner')

inductive NameList : List Token → List String → Prop
  | last {name : Token} (named : isName name = true) : NameList [name] [name.text]
  | more {name comma : Token} {others : List Token} {texts : List String}
      (named : isName name = true) (divides : isMark "," comma = true)
      (further : NameList others texts) : NameList (name :: comma :: others) (name.text :: texts)

/-- What stands in front of the element type of a slice, an array or a map, and the type that it
makes of the element type. -/
inductive ElementPrefix : List Token → List Token → (TypeExpr → TypeExpr) → Prop
  | slice {opening closing : Token} {tokens : List Token} (opens : isMark "[" opening = true)
      (closes : isMark "]" closing = true) : ElementPrefix [opening, closing] tokens .slice
  | anyLength {opening dots closing : Token} {tokens : List Token}
      (opens : isMark "[" opening = true) (open_ : isMark "..." dots = true)
      (closes : isMark "]" closing = true) : ElementPrefix [opening, dots, closing] tokens .array
  | array {opening closing : Token} {length tokens : List Token}
      (opens : isMark "[" opening = true)
      (sized : ∀ token ∈ length.head?, isMark "]" token = false ∧ isMark "..." token = false)
      (reads : (Reader.expr true).Reads (length ++ closing :: tokens) () (closing :: tokens))
      (closes : isMark "]" closing = true) :
      ElementPrefix (opening :: (length ++ [closing])) tokens .array
  | map {word opening closing : Token} {key tokens : List Token} {type : TypeExpr}
      (maps : isKeyword "map" word = true) (opens : isMark "[" opening = true)
      (reads : Reader.typeExpr.Reads (key ++ closing :: tokens) type (closing :: tokens))
      (closes : isMark "]" closing = true) :
      ElementPrefix (word :: opening :: (key ++ [closing])) tokens (.map type)

inductive DeclaredPrefix : List Token → Prop
  | definition : DeclaredPrefix []
  | alias {equals : Token} (shown : isMark "=" equals = true) : DeclaredPrefix [equals]

inductive CopiedTag : List Token → List Token → Prop
  | none : CopiedTag [] []
  | some {tag copy : Token} (tags : tag.kind = .text) (resembles : copy.Resembles tag) :
      CopiedTag [tag] [copy]

inductive FieldEnd : List Token → Prop
  | plain {token : Token} {tokens : List Token} (ends : Test.endsField.accepts token = true) :
      FieldEnd (token :: tokens)
  | tagged {tag token : Token} {tokens : List Token} (tags : tag.kind = .text)
      (ends : Test.endsField.accepts token = true) : FieldEnd (tag :: token :: tokens)

/-- Items of a list that lead up to another item. -/
inductive Leads (item : Rule α) (divides closes : Token → Bool) : List Token → List Token → Prop
  | here {tokens : List Token} (stays : ∀ token ∈ tokens.head?, closes token = false) :
      Leads item divides closes [] tokens
  | next {taken front tokens : List Token} {value : α} {last : Token}
      (stays : ∀ token ∈ (taken ++ [last]).head?, closes token = false)
      (reads : item.Reads (taken ++ last :: (front ++ tokens)) value (last :: (front ++ tokens)))
      (goes : divides last = true) (further : Leads item divides closes front tokens) :
      Leads item divides closes (taken ++ last :: front) tokens

/-- What a reader can take, and the same grouped in another way, with so many more rows. -/
inductive Regrouped : {α : Type} → Nat → Reader α → List Token → List Token → Prop
  /-- The target of a pointer. -/
  | pointer {star : Token} {type wrapped rest : List Token} {found : TypeExpr}
      (points : isMark "*" star = true) (reads : Reader.typeExpr.Reads (type ++ rest) found rest)
      (parens : InParens type wrapped) :
      Regrouped 0 .typeExpr (star :: (type ++ rest)) (star :: (wrapped ++ rest))
  /-- The target of a pointer where the grammar takes the pointer for an expression. -/
  | target {star : Token} {type wrapped rest : List Token} (points : isMark "*" star = true)
      (reads : (Reader.unary true).Reads (type ++ rest) () rest) (parens : InParens type wrapped) :
      Regrouped 0 (.unary true) (star :: (type ++ rest)) (star :: (wrapped ++ rest))
  /-- The elements of a slice, an array or a map. -/
  | element {front type wrapped rest : List Token} {make : TypeExpr → TypeExpr} {found : TypeExpr}
      (leads : ElementPrefix front (type ++ rest) make)
      (reads : Reader.typeExpr.Reads (type ++ rest) found rest) (parens : InParens type wrapped) :
      Regrouped 0 .typeExpr (front ++ (type ++ rest)) (front ++ (wrapped ++ rest))
  /-- The keys of a map. -/
  | key {word opening closing : Token} {type wrapped rest : List Token} {found : TypeExpr}
      (maps : isKeyword "map" word = true) (opens : isMark "[" opening = true)
      (reads : Reader.typeExpr.Reads (type ++ closing :: rest) found (closing :: rest))
      (closes : isMark "]" closing = true) (parens : InParens type wrapped) :
      Regrouped 0 .typeExpr (word :: opening :: (type ++ closing :: rest))
        (word :: opening :: (wrapped ++ closing :: rest))
  /-- The type of a parameter with a name. -/
  | param {name : Token} {dots type wrapped rest : List Token} {found : TypeExpr}
      (named : isName name = true)
      (variadic : dots = [] ∨ ∃ token, isMark "..." token = true ∧ dots = [token])
      (reads : Reader.typeExpr.Reads (type ++ rest) found rest) (parens : InParens type wrapped)
      (ends : ∃ token ∈ rest.head?, Test.endsItem.accepts token = true) :
      Regrouped 0 .paramItem (name :: (dots ++ (type ++ rest)))
        (name :: (dots ++ (wrapped ++ rest)))
  /-- The type of fields with names. -/
  | field {names type wrapped rest : List Token} {texts : List String} {found : TypeExpr}
      (named : NameList names texts) (reads : Reader.typeExpr.Reads (type ++ rest) found rest)
      (parens : InParens type wrapped) (ends : FieldEnd rest) :
      Regrouped 0 .fieldDecl (names ++ (type ++ rest)) (names ++ (wrapped ++ rest))
  /-- The type of a declaration without type parameters. -/
  | declared {name : Token} {front type wrapped rest : List Token} {found : TypeExpr}
      (named : isName name = true) (leads : DeclaredPrefix front)
      (reads : Reader.typeExpr.Reads (type ++ rest) found rest) (parens : InParens type wrapped)
      (ends : ∃ token ∈ rest.head?, Test.endsSpec.accepts token = true) :
      Regrouped 0 .typeSpec (name :: (front ++ (type ++ rest)))
        (name :: (front ++ (wrapped ++ rest)))
  /-- The type of a declaration with type parameters. -/
  | generic {name opening : Token} {params front type wrapped rest : List Token} {found : TypeExpr}
      (named : isName name = true) (opens : isMark "[" opening = true)
      (counted : Reader.typeParams.Reads (params ++ (front ++ (type ++ rest))) ()
        (front ++ (type ++ rest)))
      (refused : Rule.plainSpec.Refuses (name :: opening :: (params ++ (front ++ (type ++ rest)))))
      (leads : DeclaredPrefix front)
      (reads : Reader.typeExpr.Reads (type ++ rest) found rest) (parens : InParens type wrapped)
      (ends : ∃ token ∈ rest.head?, Test.endsSpec.accepts token = true) :
      Regrouped 0 .typeSpec (name :: opening :: (params ++ (front ++ (type ++ rest))))
        (name :: opening :: (params ++ (front ++ (wrapped ++ rest))))
  /-- Two parameters that share a type. -/
  | params {rows : Nat} {opening name comma comma' second : Token}
      {front type copy rest : List Token} {found : TypeExpr} (opens : isMark "(" opening = true)
      (leads : Leads (Rule.read .paramItem) (isMark ",") (isMark ")") front
        (name :: comma :: second :: (type ++ rest)))
      (named : isName name = true) (divides : isMark "," comma = true)
      (named' : isName second = true) (reads : Reader.typeExpr.Reads (type ++ rest) found rest)
      (ends : ∃ token ∈ rest.head?, Test.endsItem.accepts token = true)
      (copied : Copied type copy) (divides' : isMark "," comma' = true) :
      Regrouped rows .paramList (opening :: (front ++ name :: comma :: second :: (type ++ rest)))
        (opening :: (front ++ name :: (copy ++ comma' :: lower rows (second :: (type ++ rest)))))
  /-- A field that shares its type and its tag with the next ones. -/
  | fields {rows : Nat} {word opening name comma terminator : Token}
      {front names type copy tag tag' rest : List Token} {texts : List String} {found : TypeExpr}
      (groups : isKeyword "struct" word = true) (opens : isMark "\x7b" opening = true)
      (leads : Leads (Rule.read .fieldDecl) isTerminator (isMark "\x7d") front
        (name :: comma :: (names ++ (type ++ (tag ++ rest)))))
      (named : isName name = true) (divides : isMark "," comma = true)
      (listed : NameList names texts)
      (reads : Reader.typeExpr.Reads (type ++ (tag ++ rest)) found (tag ++ rest))
      (ends : ∃ token ∈ rest.head?, Test.endsField.accepts token = true)
      (copied : Copied type copy) (copied' : CopiedTag tag tag')
      (terminates : isTerminator terminator = true) :
      Regrouped rows .typeExpr
        (word :: opening :: (front ++ name :: comma :: (names ++ (type ++ (tag ++ rest)))))
        (word :: opening :: (front ++ name :: (copy ++ (tag' ++ terminator ::
          lower rows (names ++ (type ++ (tag ++ rest)))))))

/-- What a rule can take, and the same with one place in it grouped in another way. -/
inductive Rule.Edited (rows : Nat) : {α : Type} → Rule α → List Token → List Token → Prop
  | head {α : Type} {next : Option Glance → Rule α} {tokens edited : List Token}
      (further : (next (tokens.head?.map Token.glance)).Edited rows tokens edited) :
      (Rule.head next).Edited rows tokens edited
  | sees {α : Type} {test : Test} {next : Bool → Rule α} {tokens edited : List Token}
      (further : (next ((tokens.head?.map test.accepts).getD false)).Edited rows tokens edited) :
      (Rule.sees test next).Edited rows tokens edited
  | look {α : Type} {kind : Look} {next : Bool → Rule α} {tokens edited : List Token}
      (further : (next (kind.sees tokens)).Edited rows tokens edited) :
      (Rule.look kind next).Edited rows tokens edited
  | skip {α : Type} {test : Test} {next : Bool → Rule α} {token : Token}
      {tokens edited : List Token} (accepted : test.accepts token = true)
      (further : (next true).Edited rows tokens edited) :
      (Rule.skip test next).Edited rows (token :: tokens) (token :: edited)
  | pass {α : Type} {test : Test} {next : Bool → Rule α} {tokens edited : List Token}
      (refused : ∀ token ∈ tokens.head?, test.accepts token = false)
      (further : (next false).Edited rows tokens edited) :
      (Rule.skip test next).Edited rows tokens edited
  | take {α : Type} {test : Test} {next : String → Rule α} {token : Token}
      {tokens edited : List Token} (accepted : test.accepts token = true)
      (further : (next token.text).Edited rows tokens edited) :
      (Rule.take test next).Edited rows (token :: tokens) (token :: edited)
  /-- After what a reader takes. -/
  | after {α β : Type} {reader : Reader β} {next : β → Rule α} {front tokens edited : List Token}
      {value : β} (reads : reader.Reads (front ++ tokens) value tokens)
      (further : (next value).Edited rows tokens edited) :
      (Rule.call reader next).Edited rows (front ++ tokens) (front ++ edited)
  /-- After a list. -/
  | afterList {α β : Type} {item : Rule β} {next : List β → Rule α}
      {front tokens edited : List Token} {values : List β}
      (reads : (Rule.list1 item).Reads (front ++ tokens) values tokens)
      (further : (next values).Edited rows tokens edited) :
      (Rule.commas1 item next).Edited rows (front ++ tokens) (front ++ edited)
  /-- In an item of a list between commas. -/
  | item {α β : Type} {item : Rule β} {close : String} {next : List β → Rule α}
      {front tokens edited : List Token}
      (leads : Leads item (isMark ",") (isMark close) front tokens)
      (further : item.Edited rows tokens edited) :
      (Rule.commas item close next).Edited rows (front ++ tokens) (front ++ edited)
  | item1 {α β : Type} {item : Rule β} {next : List β → Rule α}
      {front tokens edited : List Token}
      (leads : Leads item (isMark ",") (fun _ => false) front tokens)
      (further : item.Edited rows tokens edited) :
      (Rule.commas1 item next).Edited rows (front ++ tokens) (front ++ edited)
  /-- In an item of a list in brackets. -/
  | sibling {α β : Type} {opening closing : String} {item : Rule β}
      {next : List (Option (List String) × β) → Rule α} {token : Token}
      {front tokens edited : List Token} (opens : isMark opening token = true)
      (leads : Leads item isTerminator (isMark closing) front tokens)
      (further : item.Edited rows tokens edited) :
      (Rule.group opening closing item next).Edited rows (token :: (front ++ tokens))
        (token :: (front ++ edited))
  /-- In what a reader takes that follows one rule. -/
  | inside {α β : Type} {reader : Reader β} {rule : Rule β} {next : β → Rule α}
      {tokens edited : List Token} (follows : reader.body = .one rule)
      (further : rule.Edited rows tokens edited) :
      (Rule.call reader next).Edited rows tokens edited
  | named {α : Type} {next : ParamItem → Rule α} {tokens edited rest : List Token}
      {value : ParamItem} (reads : Rule.namedParam.Reads tokens value rest)
      (further : Rule.namedParam.Edited rows tokens edited) :
      (Rule.call .paramItem next).Edited rows tokens edited
  | alone {α : Type} {next : ParamItem → Rule α} {tokens edited rest : List Token}
      {value : ParamItem} (reads : (Rule.paramType none .alone).Reads tokens value rest)
      (further : (Rule.paramType none .alone).Edited rows tokens edited) :
      (Rule.call .paramItem next).Edited rows tokens edited
  | field {α : Type} {next : List Field → Rule α} {tokens edited rest : List Token}
      {value : List Field} (reads : Rule.namedFields.Reads tokens value rest)
      (further : Rule.namedFields.Edited rows tokens edited) :
      (Rule.call .fieldDecl next).Edited rows tokens edited
  | method {α : Type} {next : Option Element → Rule α} {tokens edited : List Token}
      (starts : startsMethod tokens = true) (further : Rule.method.Edited rows tokens edited) :
      (Rule.call .element next).Edited rows tokens edited
  | constraint {α : Type} {next : Option Element → Rule α} {tokens edited : List Token}
      (starts : startsMethod tokens = false)
      (further : (Rule.read .constraint).Edited rows tokens edited) :
      (Rule.call .element next).Edited rows tokens edited
  /-- In a declaration without type parameters. -/
  | plain {α : Type} {next : TypeSpec → Rule α} {tokens edited rest : List Token}
      {value : TypeSpec} (reads : Rule.plainSpec.Reads tokens value rest)
      (further : Rule.plainSpec.Edited rows tokens edited) :
      (Rule.call .typeSpec next).Edited rows tokens edited
  /-- In the type parameters of a declaration, as long as they can not be read as the length of an
  array. -/
  | params {α : Type} {next : TypeSpec → Rule α} {name opening : Token}
      {tokens edited : List Token} (named : isName name = true)
      (opens : isMark "[" opening = true)
      (refused : Rule.plainSpec.Refuses (name :: opening :: tokens))
      (refused' : Rule.plainSpec.Refuses (name :: opening :: edited))
      (further : (Rule.read .typeParams).Edited rows tokens edited) :
      (Rule.call .typeSpec next).Edited rows (name :: opening :: tokens)
        (name :: opening :: edited)
  /-- In the type of a declaration with type parameters. -/
  | generic {α : Type} {next : TypeSpec → Rule α} {name opening : Token}
      {params tokens edited : List Token} (named : isName name = true)
      (opens : isMark "[" opening = true)
      (counted : Reader.typeParams.Reads (params ++ tokens) () tokens)
      (refused : Rule.plainSpec.Refuses (name :: opening :: (params ++ tokens)))
      (further : Rule.plainType.Edited rows tokens edited) :
      (Rule.call .typeSpec next).Edited rows (name :: opening :: (params ++ tokens))
        (name :: opening :: (params ++ edited))
  | here {α β : Type} {reader : Reader β} {next : β → Rule α} {tokens edited : List Token}
      (regrouped : Regrouped rows reader tokens edited) :
      (Rule.call reader next).Edited rows tokens edited

end EndpointAtlas.Go
