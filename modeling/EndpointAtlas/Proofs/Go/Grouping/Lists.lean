import EndpointAtlas.Proofs.Go.Grouping.Types

/-!
Lists with an item that is grouped in another way. The items in front of it see only how it starts,
and the items after it stand some rows further down.
-/

namespace EndpointAtlas.Go

open EndpointAtlas.Go.Parser

variable {α β : Type}

/-- What stands in front of a declaration documents nothing after it. -/
theorem doc_run_declaration (row endRow : Nat) (comments : List Comment)
    (before other : List Sibling) :
    docRun row (comments.map .comment ++ .declaration endRow :: before) =
      docRun row (comments.map .comment ++ .declaration endRow :: other) := by
  induction comments generalizing row with
  | nil => rfl
  | cons comment comments ih =>
      have trails : isTrailing comment (comments.map .comment ++ .declaration endRow :: before) =
          isTrailing comment (comments.map .comment ++ .declaration endRow :: other) := by
        cases comments <;> rfl
      rw [List.map_cons, List.cons_append, List.cons_append, docRun, docRun, trails, ih]

section

variable {divides : Token → Bool} {item : Parser α} {close : String} {bound : Nat}
  {before : List Sibling} {tokens rest : List Token} {found : List (Option (List String) × α)}

theorem items_declaration (endRow : Nat) (before other : List Sibling) (tokens : List Token) :
    items divides bound item close (.declaration endRow :: before) tokens =
      items divides bound item close (.declaration endRow :: other) tokens := by
  induction bound generalizing endRow before other tokens with
  | zero => rfl
  | succ bound ih =>
      cases tokens with
      | nil => rfl
      | cons token others =>
          have doc : docOf token.row (siblingsBefore token (.declaration endRow :: before)) =
              docOf token.row (siblingsBefore token (.declaration endRow :: other)) := by
            rw [docOf, docOf, siblingsBefore, siblingsBefore, ← List.map_reverse,
              doc_run_declaration]
          rw [items, items]
          dsimp only
          rw [doc]
          split
          · rfl
          · congr 1
            funext found
            obtain ⟨value, middle⟩ := found
            cases middle with
            | nil => rfl
            | cons last left =>
                dsimp only
                rw [ih _ _ (siblingsBefore token (.declaration endRow :: other))]

theorem Listed.lowered {rows endRow further : Nat} (rowFree : RowFree rows item)
    (shrinks : Shrinks item)
    (same : ∀ token, divides (Token.lowered token rows) = divides token)
    (listed : Listed divides item close bound (.declaration endRow :: before) tokens found rest)
    (enough : tokens.length < further) (other : List Sibling) :
    Listed divides item close further (.declaration (endRow + rows) :: other) (lower rows tokens)
      found (lower rows rest) := by
  have bounded := (@SameUpTo.listed _ _ _ tokens.length bound further item item divides close _
    _ (fun _ _ => rfl) shrinks listed le_rfl enough).items
  have read := rowFree.items same further close (.declaration endRow :: before) tokens
  rw [bounded, List.map_cons, Sibling.lowered_declaration, items_declaration _ _ other] at read
  exact listed_of_items read

end

section

variable {rows : Nat} {divides : Token → Bool} {item : Parser α} {close : String}
  {tokens edited : List Token}
  {same : List (Option (List String) × α) → List (Option (List String) × α) → Prop}

def CarriesItems (rows : Nat) (divides : Token → Bool) (item : Parser α) (close : String)
    (same : List (Option (List String) × α) → List (Option (List String) × α) → Prop)
    (tokens edited : List Token) : Prop :=
  ∀ bound further before found rest, Listed divides item close bound before tokens found rest →
    edited.length < further →
      ∃ found', Listed divides item close further before edited found' (lower rows rest) ∧
        same found found' ∧ EndsLower rows tokens edited rest

theorem EndsLower.end_row_before {token token' : Token} {others others' rest : List Token}
    (ends : EndsLower rows (token :: others) (token' :: others') rest) :
    endRowBefore token' others' (lower rows rest) = endRowBefore token others rest + rows := by
  obtain ⟨front, last, front', last', split, split', endRow⟩ := ends
  have taken : token :: others = (front ++ [last]) ++ rest := by simp [split]
  have taken' : token' :: others' = (front' ++ [last']) ++ lower rows rest := by simp [split']
  rw [end_row_before_of_append taken, end_row_before_of_append taken']
  simpa using endRow

/-- Some item is read in another place. -/
theorem Carries.items (carries : Carries rows item tokens edited) (rowFree : RowFree rows item)
    (shrinks : Shrinks item)
    (lowered : ∀ token, divides (Token.lowered token rows) = divides token)
    (head : tokens.head? = edited.head?)
    (stays : ∀ token ∈ tokens.head?, isMark close token = false) :
    CarriesItems rows divides item close Eq tokens edited := by
  intro bound further before found rest listed enough
  obtain ⟨further, rfl⟩ := Nat.exists_eq_add_one_of_ne_zero (Nat.ne_zero_of_lt enough)
  cases listed with
  | closed closes => cases closes.symm.trans (stays _ rfl)
  | @last _ _ token last others rest value open_ read ends closes =>
      obtain ⟨read', below⟩ := carries _ _ read
      cases edited with
      | nil => cases head
      | cons token' others' =>
          obtain rfl : token = token' := Option.some.inj head
          exact ⟨_, .last open_ read' ((lowered last).trans ends) closes, rfl,
            below.suffix (List.suffix_cons _ _)⟩
  | @more _ _ token last others left rest value later open_ read goes listed =>
      obtain ⟨read', below⟩ := carries _ _ read
      cases edited with
      | nil => cases head
      | cons token' others' =>
          obtain rfl : token = token' := Option.some.inj head
          have fewer := (shrinks _ _ _ read').length_le
          rw [lower_cons, List.length_cons, length_lower] at fewer
          have within := listed.suffix shrinks
          have rows' := below.end_row_before
          have later := listed.lowered rowFree shrinks lowered
            (Nat.lt_of_succ_le (fewer.trans (Nat.le_of_lt_succ enough)))
            (siblingsBefore token before)
          exact ⟨_, .more open_ read' ((lowered last).trans goes) (rows' ▸ later), rfl,
            below.suffix (within.trans (List.suffix_cons _ _))⟩

theorem Leads.stays {rule : Rule α} {closes : Token → Bool} {front : List Token}
    (leads : Leads rule divides closes front tokens) :
    ∀ token ∈ tokens.head?, closes token = false := by
  induction leads with
  | here stays => exact stays
  | next _ _ _ _ ih => exact ih

theorem Leads.carries_items {rule : Rule α} {depth : Nat} {front : List Token}
    (leads : Leads rule divides (isMark close) front tokens)
    (carries : CarriesItems rows divides (rule.run depth) close same tokens edited)
    (alike : Alike tokens edited) (enough : enoughFor (front ++ tokens).length ≤ depth)
    (cons : ∀ first found found', same found found' → same (first :: found) (first :: found')) :
    CarriesItems rows divides (rule.run depth) close same (front ++ tokens) (front ++ edited) := by
  induction leads with
  | here => exact carries
  | @next taken front tokens value last stays reads goes further ih =>
      intro bound further before found rest listed few
      obtain ⟨further, rfl⟩ := Nat.exists_eq_add_one_of_ne_zero (Nat.ne_zero_of_lt few)
      have enough : enoughFor (taken ++ last :: (front ++ tokens)).length ≤ depth := by
        simpa using enough
      have fewer : enoughFor (front ++ tokens).length ≤ depth :=
        (enough_for_mono (by simp; omega)).trans enough
      have read := reads depth enough
      have read' := rule.is_local _ _ _ read _ ((alike.append front).cons last)
      obtain ⟨token, others, whole⟩ :=
        List.exists_cons_of_ne_nil (by simp : taken ++ last :: (front ++ tokens) ≠ [])
      obtain ⟨inner, starts⟩ := Local.exists_cons_of_append whole
      have open_ : isMark close token = false := stays token (by rw [starts]; rfl)
      have joined (others : List Token) :
          taken ++ last :: front ++ others = token :: (inner ++ (front ++ others)) := by
        rw [List.append_assoc, List.cons_append, starts]
      rw [joined] at listed few
      rw [joined, joined]
      rw [starts] at read read'
      cases listed with
      | closed closes => cases closes.symm.trans open_
      | @last _ _ _ last' _ rest _ _ taken' ends =>
          obtain ⟨-, same⟩ := Prod.mk.inj (Option.some.inj (read.symm.trans taken'))
          obtain ⟨rfl, rfl⟩ := List.cons.inj same
          cases goes.symm.trans ends
      | @more _ _ _ last' _ left rest _ later _ taken' _ listed =>
          obtain ⟨rfl, same⟩ := Prod.mk.inj (Option.some.inj (read.symm.trans taken'))
          obtain ⟨rfl, rfl⟩ := List.cons.inj same
          have few' : (front ++ edited).length < further := by
            rw [List.length_cons, List.length_append] at few
            omega
          have rows' := end_row_before_of_append (starts (front ++ tokens)).symm
          rw [rows', ← end_row_before_of_append (starts (front ++ edited)).symm] at listed
          obtain ⟨found', listed', similar, below⟩ := ih carries alike fewer _ _ _ _ _ listed few'
          refine ⟨_, .more open_ read' goes listed', cons _ _ _ similar, ?_⟩
          have cut (others : List Token) :
              token :: (inner ++ others) = taken ++ [last] ++ others := by
            rw [← starts, List.append_assoc, List.singleton_append]
          rw [cut, cut]
          exact below.append (taken ++ [last])

end

section

variable {rows depth : Nat} {rule : Rule α} {tokens edited : List Token}

/-- A list between commas with an item in it that is read in another place. -/
theorem Carries.commas {close : String} (carries : Carries rows (rule.run depth) tokens edited)
    (alike : Alike tokens edited) {front : List Token}
    (leads : Leads rule (isMark ",") (isMark close) front tokens)
    (enough : enoughFor (front ++ tokens).length ≤ depth)
    (enough' : enoughFor (front ++ edited).length ≤ depth) :
    Carries rows (commaList depth (rule.run depth) close) (front ++ tokens) (front ++ edited) := by
  intro values rest read
  have shrinks := rule.shrinks_run depth
  obtain ⟨found, listed, rfl⟩ := comma_list_eq_some shrinks read
  have items := leads.carries_items (carries.items
    (rule.row_free_run fun reader => reader.row_free_read) shrinks (fun _ => rfl) alike.head
    leads.stays) alike enough fun _ _ _ same => congrArg _ same
  obtain ⟨found', listed', rfl, ends⟩ :=
    items depth depth [] found rest listed (by rw [enoughFor] at enough'; omega)
  exact ⟨comma_list_of_listed shrinks listed', ends⟩

theorem Carries.after {first : Parser β} {next : β → Parser α} {value : β} {front : List Token}
    (read : first (front ++ tokens) = some (value, tokens))
    (read' : first (front ++ edited) = some (value, edited))
    (carries : Carries rows (next value) tokens edited) :
    Carries rows (first >>= next) (front ++ tokens) (front ++ edited) := by
  intro found rest taken
  rw [bind_apply, read, Option.bind_some] at taken
  obtain ⟨again, ends⟩ := carries _ _ taken
  refine ⟨?_, ends.append front⟩
  rw [bind_apply, read', Option.bind_some, again]

/-- A list that nothing closes, with an item in it that is read in another place. -/
theorem Carries.commas1 (carries : Carries rows (rule.run depth) tokens edited)
    (alike : Alike tokens edited) {front : List Token}
    (leads : Leads rule (isMark ",") (fun _ => false) front tokens)
    (enough : enoughFor (front ++ tokens).length ≤ depth) (bound : Nat) :
    Carries rows (commaList1 bound (rule.run depth)) (front ++ tokens) (front ++ edited) := by
  have rowFree : RowFree rows (rule.run depth) :=
    rule.row_free_run fun reader => reader.row_free_read
  have shrinks := rule.shrinks_run depth
  have longer (bound : Nat) (first : α) : Shrinks (commaList1 bound (rule.run depth) >>=
      fun others => pure (first :: others)) :=
    .of_finds fun _ => .later (shrinks.comma_list1 bound).finds fun _ => .pure trivial
  induction leads generalizing bound with
  | here =>
      cases bound with
      | zero => exact nofun
      | succ bound =>
          refine carries.bind (fun first => .bind (.skip (.mark ",")) fun more => ?_)
            fun first => ?_
          · cases more with
            | true => exact .bind (rowFree.comma_list1 bound) fun others => .pure _
            | false => exact .pure _
          · exact .of_finds fun _ =>
              .later (.skip _) fun _ => .ite (longer bound first).finds (.pure trivial)
  | @next taken front tokens value last stays reads goes further ih =>
      cases bound with
      | zero => exact nofun
      | succ bound =>
          have enough : enoughFor (taken ++ last :: (front ++ tokens)).length ≤ depth := by
            simpa using enough
          have fewer : enoughFor (front ++ tokens).length ≤ depth :=
            (enough_for_mono (by simp; omega)).trans enough
          have read := reads depth enough
          have read' := rule.is_local _ _ _ read _ ((alike.append front).cons last)
          have later := (ih carries alike fewer bound).bind
            (fun others => .pure (value :: others)) fun others => .of_finds fun _ => .pure trivial
          have skips (others : List Token) :
              skip (isMark ",") ([last] ++ others) = some (true, others) := if_pos goes
          have divided : Carries rows (do
              if ← skip (isMark ",") then return value :: (← commaList1 bound (rule.run depth))
              return [value]) ([last] ++ (front ++ tokens)) ([last] ++ (front ++ edited)) :=
            .after (skips _) (skips _) later
          rw [List.append_assoc, List.append_assoc]
          exact .after read read' divided

theorem Carries.group {opening closing : String}
    (carries : Carries rows (rule.run depth) tokens edited) (alike : Alike tokens edited)
    {front : List Token} (leads : Leads rule isTerminator (isMark closing) front tokens)
    {token : Token} (opens : isMark opening token = true)
    (enough : enoughFor (front ++ tokens).length ≤ depth)
    (enough' : enoughFor (front ++ edited).length ≤ depth) :
    Carries rows (bracketed opening closing depth (rule.run depth)) (token :: (front ++ tokens))
      (token :: (front ++ edited)) := by
  intro values rest read
  have shrinks := rule.shrinks_run depth
  obtain ⟨token, others, same, -, listed⟩ := bracketed_eq_some read
  obtain ⟨rfl, rfl⟩ := List.cons.inj same
  have items := leads.carries_items (carries.items
    (rule.row_free_run fun reader => reader.row_free_read) shrinks (fun _ => rfl) alike.head
    leads.stays) alike enough fun _ _ _ same => congrArg _ same
  obtain ⟨found, listed', rfl, ends⟩ :=
    items depth depth _ values rest listed (by rw [enoughFor] at enough'; omega)
  exact ⟨bracketed_of_listed opens listed', ends.cons token⟩

end

end EndpointAtlas.Go
