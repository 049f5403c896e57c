import EndpointAtlas.Proofs.Go.Rules.Tokens

/-!
The first token of a type. Only what it says matters, and not what stands in front of it.
-/

namespace EndpointAtlas.Go

open EndpointAtlas.Go.Parser

variable {α β : Type}

/-- Source text that starts with the one token or with the other. -/
theorem with_tokens_bind_of_head {token other : Token} {rest : List Token} {reader : Parser α}
    {next : α × List Token → Parser β} (consumes : Consumes reader)
    (same : reader (token :: rest) = reader (other :: rest))
    (shown : ∀ value tokens, next (value, token :: tokens) = next (value, other :: tokens)) :
    (withTokens reader >>= next) (token :: rest) =
      (withTokens reader >>= next) (other :: rest) := by
  rw [bind_apply, bind_apply, withTokens, withTokens, same]
  cases found : reader (other :: rest) with
  | none => rfl
  | some pair =>
      obtain ⟨value, left⟩ := pair
      have fewer := consumes _ _ _ found
      have taken (first : Token) : (first :: rest).take ((first :: rest).length - left.length) =
          first :: rest.take (rest.length - left.length) := by
        rw [List.length_cons] at fewer ⊢
        rw [Nat.succ_sub (Nat.le_of_lt_succ fewer), List.take_succ_cons]
      dsimp only [Option.map_some, Option.bind_some]
      rw [taken, taken, shown]

structure Token.Resembles (token other : Token) : Prop where
  kind : token.kind = other.kind
  text : token.text = other.text
  glyphs : token.glyphs = other.glyphs

namespace Token.Resembles

variable {token other : Token} {rest : List Token} (resembles : token.Resembles other)

include resembles

theorem accepts (test : Test) : test.accepts token = test.accepts other := by
  rw [Test.accepts, Test.accepts, resembles.kind, resembles.text]

theorem take_bind {test : Test} {next : Token → Parser α}
    (same : next token rest = next other rest) :
    (Parser.take test.accepts >>= next) (token :: rest) =
      (Parser.take test.accepts >>= next) (other :: rest) := by
  cases accepted : test.accepts other with
  | true =>
      rw [take_bind_of_accepts accepted,
        take_bind_of_accepts ((resembles.accepts test).trans accepted), same]
  | false =>
      rw [take_bind_of_refuses accepted,
        take_bind_of_refuses ((resembles.accepts test).trans accepted)]

theorem skip_bind {test : Test} {next : Bool → Parser α}
    (same : next false (token :: rest) = next false (other :: rest)) :
    (Parser.skip test.accepts >>= next) (token :: rest) =
      (Parser.skip test.accepts >>= next) (other :: rest) := by
  cases accepted : test.accepts other with
  | true =>
      rw [skip_bind_of_accepts accepted,
        skip_bind_of_accepts ((resembles.accepts test).trans accepted)]
  | false =>
      have refused := (resembles.accepts test).trans accepted
      rw [skip_bind_of_refuses (by simpa using refused),
        skip_bind_of_refuses (by simpa using accepted), same]

theorem name_bind {next : String → Parser α} :
    (Parser.name >>= next) (token :: rest) = (Parser.name >>= next) (other :: rest) := by
  rw [Parser.name_bind]
  exact @take_bind _ _ _ _ resembles .name _ (by rw [resembles.text])

theorem mark_bind {text : String} {next : Unit → Parser α} :
    (Parser.mark text >>= next) (token :: rest) = (Parser.mark text >>= next) (other :: rest) := by
  rw [Parser.mark, discard_eq_map, bind_map_left]
  exact @take_bind _ _ _ _ resembles (.mark text) _ rfl

theorem keyword_bind {text : String} {next : Unit → Parser α} :
    (Parser.keyword text >>= next) (token :: rest) =
      (Parser.keyword text >>= next) (other :: rest) := by
  rw [Parser.keyword, discard_eq_map, bind_map_left]
  exact @take_bind _ _ _ _ resembles (.keyword text) _ rfl

end Token.Resembles

variable {token other : Token} {depth : Nat}

theorem span_text_of_resembles (resembles : token.Resembles other) (tokens : List Token) :
    Token.spanText (token :: tokens) = Token.spanText (other :: tokens) := by
  rw [Token.spanText, Token.spanText, resembles.glyphs]

theorem type_name_of_resembles (resembles : token.Resembles other) (rest : List Token) :
    typeName depth (token :: rest) = typeName depth (other :: rest) := by
  cases depth with
  | zero =>
      rw [typeName]
      rfl
  | succ depth =>
      rw [← Reader.run_type_name_rule, Reader.typeNameRule, Rule.run_bind, Rule.run_text,
        bind_assoc]
      refine with_tokens_bind_of_head ?_ ?_ fun value tokens => ?_
      · exact Rule.consumes_run (fun reader takes => reader.consumes_read takes depth) _ trivial
      · rw [Rule.run_bind, Rule.run_name]
        exact resembles.name_bind
      · simp only [pure_bind, span_text_of_resembles resembles]

theorem uninterpreted_type_of_resembles (resembles : token.Resembles other) (rest : List Token) :
    uninterpretedType depth (token :: rest) = uninterpretedType depth (other :: rest) := by
  cases depth with
  | zero =>
      rw [uninterpretedType]
      rfl
  | succ depth =>
      rw [uninterpretedType]
      exact @Token.Resembles.skip_bind _ _ _ _ resembles (.keyword "chan") _
        (@Token.Resembles.skip_bind _ _ _ _ resembles (.mark "<-") _ resembles.keyword_bind)

/-- A type depends on how its first token is written, and not on what stands in front of it. -/
theorem type_expr_of_resembles (resembles : token.Resembles other) (rest : List Token) :
    typeExpr depth (token :: rest) = typeExpr depth (other :: rest) := by
  cases depth with
  | zero =>
      rw [typeExpr]
      rfl
  | succ depth =>
      rw [typeExpr, next_bind, next_bind]
      dsimp only [List.head?_cons]
      rw [resembles.kind, resembles.text]
      generalize other.kind = kind, other.text = text
      split
      · exact type_name_of_resembles resembles rest
      · exact resembles.mark_bind
      · exact resembles.mark_bind
      · exact resembles.mark_bind
      · exact resembles.keyword_bind
      · exact resembles.keyword_bind
      · exact resembles.keyword_bind
      · refine with_tokens_bind_of_head (Reader.uninterpretedType.consumes_read rfl depth)
          (uninterpreted_type_of_resembles resembles rest) fun value tokens => ?_
        dsimp only
        rw [span_text_of_resembles resembles]

end EndpointAtlas.Go
