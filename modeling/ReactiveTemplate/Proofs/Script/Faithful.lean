import ReactiveTemplate.Proofs.Script.Grammar
import ReactiveTemplate.Proofs.Script.Mentions
import ReactiveTemplate.Proofs.Script.Splice

/-!
# What is replaced

Every replacement in a term puts the value of a property in the place of a mention whose name is not
bound around the term, and the replacements take up places that the term keeps, in the order of the
text.
-/

namespace ReactiveTemplate
namespace Script

/-! ## Places that replacements take up -/

/-- The replacements take up some of the places, each a single one or two that follow each other. -/
inductive Covers : List Place → List Replacement → Prop where
  /-- Nothing is left. -/
  | nil : Covers [] []
  /-- A place is kept. -/
  | keep {place : Place} {places : List Place} {edits : List Replacement}
    (rest : Covers places edits) : Covers (place :: places) edits
  /-- A place is taken. -/
  | take {place : Place} {places : List Place} {edits : List Replacement} (text : String)
    (rest : Covers places edits) : Covers (place :: places) (⟨place.extent, text⟩ :: edits)
  /-- Two places are taken together with what stands between them. -/
  | join {first second : Place} {places : List Place} {edits : List Replacement} (text : String)
    (rest : Covers places edits) :
    Covers (first :: second :: places)
      (⟨⟨first.extent.start, second.extent.stop⟩, text⟩ :: edits)

namespace Covers

variable {places places' : List Place} {edits edits' : List Replacement}

theorem none : ∀ places : List Place, Covers places []
  | [] => .nil
  | _ :: rest => .keep (none rest)

theorem append (first : Covers places edits) (second : Covers places' edits') :
    Covers (places ++ places') (edits ++ edits') := by
  induction first with
  | nil => exact second
  | keep _ ih => exact .keep ih
  | take text _ ih => exact .take text ih
  | join text _ ih => exact .join text ih

/-- Replacements that take up places in order are apart. -/
theorem apart (covers : Covers places edits) {text : List Char} {start stop : Nat}
    (order : InOrder text places stop) (start_le : ∀ place ∈ places, start ≤ place.extent.start) :
    Apart edits start stop := by
  induction covers generalizing start with
  | nil => exact ⟨.nil, by simp, by simp, by simp⟩
  | keep _ ih =>
    exact ih (order.sublist (List.sublist_cons_self _ _))
      fun place mem => start_le place (List.mem_cons_of_mem _ mem)
  | take _ _ ih =>
    refine .cons (start_le _ List.mem_cons_self) (order.stands _ List.mem_cons_self).start_lt
      (order.stop_le _ List.mem_cons_self) ?_
    exact ih (order.sublist (List.sublist_cons_self _ _)) (List.pairwise_cons.mp order.pairwise).1
  | @join first second places edits _ _ ih =>
    have tail := order.sublist (List.sublist_cons_self _ _)
    have first_lt := (order.stands first List.mem_cons_self).start_lt
    have second_lt := (tail.stands second List.mem_cons_self).start_lt
    have between : first.extent.stop ≤ second.extent.start :=
      (List.pairwise_cons.mp order.pairwise).1 second List.mem_cons_self
    refine .cons (start_le first List.mem_cons_self) ?_ (tail.stop_le second List.mem_cons_self) ?_
    · dsimp only
      omega
    · exact ih (tail.sublist (List.sublist_cons_self _ _)) (List.pairwise_cons.mp tail.pairwise).1

end Covers

/-! ## Replacements that are faithful -/

/-- The edit puts the value of a property in the place of one of the mentions, whose name is not
bound around and stands at one of the places. -/
structure Justified (values : Values) (shadowed : List String) (places : List Place)
    (edit : Replacement) (mention : Mention) : Prop where
  /-- The mention is replaced. -/
  replaces : ∃ value, mention.Replaces values value edit
  /-- Its name is not bound around. -/
  free : mention.name ∉ shadowed
  /-- Its name stands at its place. -/
  place : .ofWord mention.extent mention.name ∈ places
  /-- What is replaced ends with a word. -/
  last : ∃ start word, .ofWord ⟨start, edit.extent.stop⟩ word ∈ places

theorem Justified.mono {values : Values} {shadowed : List String} {places places' : List Place}
    {edit : Replacement} {mention : Mention}
    (justified : Justified values shadowed places edit mention) (part : places ⊆ places') :
    Justified values shadowed places' edit mention :=
  ⟨justified.replaces, justified.free, part justified.place,
    justified.last.imp fun _ => .imp fun _ mem => part mem⟩

/-- The replacements take up places in order, and each is justified by a mention. -/
structure Faithful (values : Values) (shadowed : List String) (found : List Replacement)
    (places : List Place) (mentions : List Mention) : Prop where
  /-- The replacements take up places. -/
  covered : ∃ edits, edits.Perm found ∧ Covers places edits
  /-- They replace mentions. -/
  sound : ∀ edit ∈ found, ∃ mention ∈ mentions, Justified values shadowed places edit mention

namespace Faithful

variable {values : Values} {shadowed : List String} {found found' : List Replacement}
  {places places' : List Place} {mentions mentions' : List Mention}

theorem none (values : Values) (shadowed : List String) (places : List Place)
    (mentions : List Mention) : Faithful values shadowed [] places mentions :=
  ⟨⟨[], .refl _, .none places⟩, fun _ mem => nomatch mem⟩

/-- A single mention is replaced. -/
theorem single {mention : Mention} {edit : Replacement} {value : String}
    (covers : Covers places [edit]) (replaces : mention.Replaces values value edit)
    (free : mention.name ∉ shadowed) (place : .ofWord mention.extent mention.name ∈ places)
    (last : ∃ start word, .ofWord ⟨start, edit.extent.stop⟩ word ∈ places) :
    Faithful values shadowed [edit] places [mention] := by
  refine ⟨⟨[edit], .refl _, covers⟩, fun own mem => ⟨mention, List.mem_singleton_self _, ?_⟩⟩
  rw [List.mem_singleton.mp mem]
  exact ⟨⟨value, replaces⟩, free, place, last⟩

theorem append (first : Faithful values shadowed found places mentions)
    (second : Faithful values shadowed found' places' mentions') :
    Faithful values shadowed (found ++ found') (places ++ places') (mentions ++ mentions') := by
  constructor
  · obtain ⟨edits, perm, covers⟩ := first.covered
    obtain ⟨edits', perm', covers'⟩ := second.covered
    exact ⟨edits ++ edits', perm.append perm', covers.append covers'⟩
  · intro edit mem
    rcases List.mem_append.mp mem with mem | mem
    · obtain ⟨mention, there, justified⟩ := first.sound edit mem
      exact ⟨mention, List.mem_append_left _ there, justified.mono (List.subset_append_left _ _)⟩
    · obtain ⟨mention, there, justified⟩ := second.sound edit mem
      exact ⟨mention, List.mem_append_right _ there, justified.mono (List.subset_append_right _ _)⟩

/-- The replacements may come in another order. -/
theorem perm (faithful : Faithful values shadowed found places mentions)
    (same : found.Perm found') : Faithful values shadowed found' places mentions := by
  obtain ⟨edits, perm, covers⟩ := faithful.covered
  exact ⟨⟨edits, perm.trans same, covers⟩,
    fun edit mem => faithful.sound edit (same.symm.subset mem)⟩

/-- Further places may stand around those that are taken up. -/
theorem between (faithful : Faithful values shadowed found places mentions)
    (before after : List Place) :
    Faithful values shadowed found (before ++ places ++ after) mentions := by
  constructor
  · obtain ⟨edits, perm, covers⟩ := faithful.covered
    refine ⟨edits, perm, ?_⟩
    simpa using ((Covers.none before).append covers).append (Covers.none after)
  · intro edit mem
    obtain ⟨mention, there, justified⟩ := faithful.sound edit mem
    refine ⟨mention, there, justified.mono fun place mem => ?_⟩
    exact List.mem_append_left _ (List.mem_append_right _ mem)

end Faithful

/-- A name that has a value and is not bound. -/
theorem Values.free?_eq_some {values : Values} {bound : List String} {name value : String} :
    values.free? bound name = some value ↔ name ∉ bound ∧ values.get? name = some value := by
  rw [free?]
  by_cases mem : name ∈ bound <;> simp [mem]

theorem Pattern.subset_addNames (pattern : Pattern) (names : List String) :
    names ⊆ pattern.addNames names := by
  rw [pattern.addNames_eq]
  exact fun name mem => Scope.mem_addNames.mpr (.inl mem)

section

variable {values : Values} {shadowed : List String}

/-- A name is replaced by its value unless it is bound. -/
theorem faithful_name {bound scope : List String} (part : shadowed ⊆ bound) (extent : Extent)
    (name : String) (use : Use) (plain : use ≠ .shorthand) :
    Faithful values shadowed (replacements values bound (.name extent name))
      [.ofWord extent name] [⟨extent, name, use, scope⟩] := by
  rw [replacements]
  split
  · rename_i value found
    rw [Values.free?_eq_some] at found
    exact .single (.take value .nil) (.name found.2 plain) (fun mem => found.1 (part mem))
      List.mem_cons_self ⟨_, _, List.mem_cons_self⟩
  · exact .none ..

theorem faithful_shorthand {bound scope : List String} (part : shadowed ⊆ bound) (extent : Extent)
    (name : String) :
    Faithful values shadowed
      (match values.free? bound name with
        | some value => [⟨extent, name ++ ": " ++ value⟩]
        | none => [])
      [.ofWord extent name] [⟨extent, name, .shorthand, scope⟩] := by
  split
  · rename_i value found
    rw [Values.free?_eq_some] at found
    exact .single (.take _ .nil) (.shorthand found.2 rfl) (fun mem => found.1 (part mem))
      List.mem_cons_self ⟨_, _, List.mem_cons_self⟩
  · exact .none ..

/-- In the outermost link of a chain only the object is looked at. -/
theorem faithful_link_member {bound scope : List String} (part : shadowed ⊆ bound) {object : Term}
    (extent : Extent) (name : String)
    (faithful : Faithful values shadowed (replacements values bound object) object.places
      (object.mentions scope)) :
    Faithful values shadowed (replacements values bound object)
      (Term.member object extent name).places ((Term.member object extent name).mentions scope) := by
  rw [Term.places]
  cases object with
  | name own base =>
    rw [Term.mentions]
    exact (faithful_name part own base (.object extent name) (by rintro ⟨⟩)).between [] _
  | _ => exact faithful.between [] _

theorem faithful_member {bound scope : List String} (part : shadowed ⊆ bound) {object : Term}
    (extent : Extent) (name : String)
    (faithful : Faithful values shadowed (replacements values bound object) object.places
      (object.mentions scope)) :
    Faithful values shadowed (replacements values bound (.member object extent name))
      (Term.member object extent name).places ((Term.member object extent name).mentions scope) := by
  have link := faithful_link_member part extent name faithful
  cases object with
  | name own base =>
    rw [replacements]
    split
    · rename_i value found
      split at found
      · rename_i props
        rw [Bool.and_eq_true, beq_iff_eq, Bool.not_eq_true', List.contains_eq_mem,
          decide_eq_false_iff_not] at props
        rw [Term.places, Term.mentions]
        refine .single (.join _ .nil) (.member found rfl props.1) ?_ List.mem_cons_self
          ⟨_, _, List.mem_cons_of_mem _ List.mem_cons_self⟩
        exact fun mem => props.2 (part (props.1 ▸ mem))
      · cases found
    · exact link
  | _ => exact link

mutual

theorem Term.faithful : ∀ (term : Term) {bound scope : List String}, shadowed ⊆ bound →
    Faithful values shadowed (replacements values bound term) term.places
      (term.mentions scope)
  | .name extent word, _, _, part => by
    rw [Term.places, Term.mentions]
    exact faithful_name part extent word .plain (by decide)
  | .binary _ left right, _, _, part => by
    rw [replacements, Term.places, Term.mentions]
    exact (left.faithful part).append (right.faithful part)
  | .conditional test consequent alternate, _, _, part => by
    rw [replacements, Term.places, Term.mentions]
    exact ((test.faithful part).append (consequent.faithful part)).append (alternate.faithful part)
  | .unary operand, _, _, part | .await operand, _, _, part => by
    rw [replacements, Term.places, Term.mentions]
    exact operand.faithful part
  | .parenthesized opening closing inner, _, _, part => by
    rw [replacements, Term.places, Term.mentions]
    exact (inner.faithful part).between [.ofMark opening] [.ofMark closing]
  | .update target, _, _, part => by
    rw [replacements, Term.places, Term.mentions]
    exact target.faithful_target part
  | .assignment target value, _, _, part => by
    rw [replacements, Term.places, Term.mentions]
    exact (target.faithful_target part).append (value.faithful part)
  | .sequence terms, _, _, part | .template terms, _, _, part => by
    rw [replacements, Term.places, Term.mentions]
    exact faithful_terms terms part
  | .tagged tag parts, _, _, part => by
    rw [replacements, Term.places, Term.mentions]
    exact (tag.faithful part).append (faithful_terms parts part)
  | .call callee items, _, _, part | .construct callee items, _, _, part => by
    rw [replacements, Term.places, Term.mentions]
    exact (callee.faithful part).append (faithful_items items part)
  | .chain inner, _, _, part => by
    rw [replacements, Term.places, Term.mentions]
    exact inner.faithful_link part
  | .index object key, _, _, part => by
    rw [replacements, Term.places, Term.mentions]
    exact (object.faithful part).append (key.faithful part)
  | .member object extent word, _, _, part => faithful_member part extent word (object.faithful part)
  | .object properties, _, _, part => by
    rw [replacements, Term.places, Term.mentions]
    exact faithful_properties properties part
  | .array items, _, _, part => by
    rw [replacements, Term.places, Term.mentions]
    exact faithful_items items part
  | .arrow parameters body, _, _, part => by
    rw [replacements, Term.places, Term.mentions]
    refine faithful_statements body ?_
    rw [foldl_addNames_eq]
    exact fun name mem => Scope.mem_addNames.mpr (.inl (part mem))
  | .function .., _, _, _ | .typed _, _, _, _ | .literal, _, _, _ | .other, _, _, _ => by
    rw [replacements]
    exact .none ..

theorem Term.faithful_target : ∀ (term : Term) {bound scope : List String}, shadowed ⊆ bound →
    Faithful values shadowed (targetReplacements values bound term) term.places
      (term.targetMentions scope)
  | .member object extent word, _, _, part => by
    rw [targetReplacements, Term.places, Term.targetMentions]
    exact (object.faithful part).between [] [.ofWord extent word]
  | .index object key, _, _, part => by
    rw [targetReplacements, Term.places, Term.targetMentions]
    exact (object.faithful part).append (key.faithful part)
  | .parenthesized opening closing inner, _, _, part => by
    rw [targetReplacements, Term.places, Term.targetMentions]
    exact (inner.faithful_target part).between [.ofMark opening] [.ofMark closing]
  | .name .., _, _, _ | .binary .., _, _, _ | .conditional .., _, _, _ | .unary _, _, _, _
  | .await _, _, _, _ | .update _, _, _, _ | .assignment .., _, _, _ | .sequence _, _, _, _
  | .template _, _, _, _ | .tagged .., _, _, _ | .call .., _, _, _ | .construct .., _, _, _
  | .chain _, _, _, _ | .object _, _, _, _ | .array _, _, _, _ | .arrow .., _, _, _
  | .function .., _, _, _ | .typed _, _, _, _ | .literal, _, _, _ | .other, _, _, _ => .none ..

theorem Term.faithful_link : ∀ (term : Term) {bound scope : List String}, shadowed ⊆ bound →
    Faithful values shadowed (linkReplacements values bound term) term.places
      (term.mentions scope)
  | .call callee items, _, _, part => by
    rw [linkReplacements, Term.places, Term.mentions]
    exact (callee.faithful part).append (faithful_items items part)
  | .member object extent word, _, _, part => by
    rw [linkReplacements]
    exact faithful_link_member part extent word (object.faithful part)
  | .index object key, _, _, part => by
    rw [linkReplacements, Term.places, Term.mentions]
    exact (object.faithful part).append (key.faithful part)
  | .name .., _, _, _ | .binary .., _, _, _ | .conditional .., _, _, _ | .unary _, _, _, _
  | .await _, _, _, _ | .update _, _, _, _ | .assignment .., _, _, _ | .sequence _, _, _, _
  | .template _, _, _, _ | .tagged .., _, _, _ | .parenthesized .., _, _, _ | .construct .., _, _, _
  | .chain _, _, _, _ | .object _, _, _, _ | .array _, _, _, _ | .arrow .., _, _, _
  | .function .., _, _, _ | .typed _, _, _, _ | .literal, _, _, _ | .other, _, _, _ => .none ..

theorem faithful_terms : ∀ (terms : List Term) {bound scope : List String}, shadowed ⊆ bound →
    Faithful values shadowed (termsReplacements values bound terms) (placesOfTerms terms)
      (mentionsOfTerms scope terms)
  | [], _, _, _ => by
    rw [termsReplacements]
    exact .none ..
  | term :: rest, _, _, part => by
    rw [termsReplacements, placesOfTerms, mentionsOfTerms]
    exact (term.faithful part).append (faithful_terms rest part)

theorem faithful_items : ∀ (items : List Item) {bound scope : List String}, shadowed ⊆ bound →
    Faithful values shadowed (itemsReplacements values bound items) (placesOfItems items)
      (mentionsOfItems scope items)
  | [], _, _, _ => by
    rw [itemsReplacements]
    exact .none ..
  | .single term :: rest, _, _, part => by
    rw [itemsReplacements, placesOfItems, mentionsOfItems, Item.places]
    exact (term.faithful part).append (faithful_items rest part)
  | .spread term :: rest, _, _, part => by
    rw [itemsReplacements, placesOfItems, mentionsOfItems, Item.places]
    exact (Faithful.none ..).append (faithful_items rest part)
  | .hole :: rest, _, _, part => by
    rw [itemsReplacements, placesOfItems, mentionsOfItems, Item.places]
    exact faithful_items rest part

theorem faithful_properties :
    ∀ (properties : List Property) {bound scope : List String}, shadowed ⊆ bound →
      Faithful values shadowed (propertiesReplacements values bound properties)
        (placesOfProperties properties) (mentionsOfProperties scope properties)
  | [], _, _, _ => by
    rw [propertiesReplacements]
    exact .none ..
  | .shorthand extent word :: rest, bound, scope, part => by
    rw [propertiesReplacements, placesOfProperties, mentionsOfProperties, Property.places]
    exact (faithful_shorthand part extent word).append (faithful_properties rest part)
  | .defaulted _ _ value :: rest, _, _, part => by
    rw [propertiesReplacements, placesOfProperties, mentionsOfProperties, Property.places]
    exact (Faithful.none ..).append (faithful_properties rest part)
  | .keyed key value :: rest, _, _, part => by
    rw [propertiesReplacements, placesOfProperties, mentionsOfProperties, Property.places]
    -- a computed key is written before the value, but looked at after it
    refine Faithful.append ?_ (faithful_properties rest part)
    exact ((faithful_key key part).append (value.faithful part)).perm List.perm_append_comm
  | .spread term :: rest, _, _, part => by
    rw [propertiesReplacements, placesOfProperties, mentionsOfProperties, Property.places]
    exact (term.faithful part).append (faithful_properties rest part)

theorem faithful_key : ∀ (key : Option Term) {bound scope : List String}, shadowed ⊆ bound →
    Faithful values shadowed (keyReplacements values bound key) (placesOfOption key)
      (mentionsOfOption scope key)
  | none, _, _, _ => by
    rw [keyReplacements]
    exact .none ..
  | some term, _, _, part => by
    rw [keyReplacements, placesOfOption, mentionsOfOption]
    exact term.faithful part

theorem faithful_value : ∀ (value : Option Term) {bound scope : List String}, shadowed ⊆ bound →
    Faithful values shadowed (valueReplacements values bound value) (placesOfOption value)
      (mentionsOfOption scope value)
  | none, _, _, _ => by
    rw [valueReplacements]
    exact .none ..
  | some term, _, _, part => by
    rw [valueReplacements, placesOfOption, mentionsOfOption]
    exact term.faithful part

theorem faithful_statements :
    ∀ (statements : List Statement) {bound scope : List String}, shadowed ⊆ bound →
      Faithful values shadowed (statementsReplacements values bound statements)
        (placesOfStatements statements) (mentionsOfStatements scope statements)
  | [], _, _, _ => by
    rw [statementsReplacements]
    exact .none ..
  | statement :: rest, bound, scope, part => by
    rw [statementsReplacements, placesOfStatements, mentionsOfStatements]
    obtain ⟨own, later⟩ : Faithful values shadowed _ _ _ ∧ _ := statement.faithful part
    exact own.append (faithful_statements rest later)

theorem Statement.faithful :
    ∀ (statement : Statement) {bound scope : List String}, shadowed ⊆ bound →
      Faithful values shadowed (statementReplacements values bound statement).1
        statement.places (statement.mentions scope) ∧
      shadowed ⊆ (statementReplacements values bound statement).2
  | .declaration _ declarations, _, _, part => by
    rw [statementReplacements, Statement.places, Statement.mentions]
    exact faithful_declarations declarations part
  | .expression term, _, _, part => by
    rw [statementReplacements, Statement.places, Statement.mentions]
    exact ⟨term.faithful part, part⟩
  | .block body, _, _, part => by
    rw [statementReplacements, Statement.places, Statement.mentions]
    exact ⟨faithful_statements body part, part⟩
  | .branch test consequent alternate, bound, scope, part => by
    rw [statementReplacements, Statement.places, Statement.mentions]
    obtain ⟨first, later⟩ : Faithful values shadowed _ _ _ ∧ _ := consequent.faithful part
    obtain ⟨second, after⟩ : Faithful values shadowed _ _ _ ∧ _ :=
      faithful_alternate alternate later
    exact ⟨((test.faithful part).append first).append second, after⟩
  | .return value, _, _, part => by
    rw [statementReplacements, Statement.places, Statement.mentions]
    exact ⟨faithful_value value part, part⟩
  | .named _, _, _, part | .empty, _, _, part | .other _, _, _, part => by
    rw [statementReplacements]
    exact ⟨.none .., part⟩

theorem faithful_alternate :
    ∀ (alternate : Option Statement) {bound scope : List String}, shadowed ⊆ bound →
      Faithful values shadowed (alternateReplacements values bound alternate).1
        (placesOfAlternate alternate) (mentionsOfAlternate scope alternate) ∧
      shadowed ⊆ (alternateReplacements values bound alternate).2
  | none, _, _, part => by
    rw [alternateReplacements]
    exact ⟨.none .., part⟩
  | some statement, _, _, part => by
    rw [alternateReplacements, placesOfAlternate, mentionsOfAlternate]
    exact statement.faithful part

theorem faithful_declarations :
    ∀ (declarations : List (Pattern × Option Term)) {bound scope : List String},
      shadowed ⊆ bound →
      Faithful values shadowed (declarationReplacements values bound declarations).1
        (placesOfDeclarations declarations) (mentionsOfDeclarations scope declarations) ∧
      shadowed ⊆ (declarationReplacements values bound declarations).2
  | [], _, _, part => by
    rw [declarationReplacements]
    exact ⟨.none .., part⟩
  | (pattern, value) :: rest, bound, scope, part => by
    rw [declarationReplacements, placesOfDeclarations, mentionsOfDeclarations]
    have part := List.Subset.trans part (pattern.subset_addNames bound)
    obtain ⟨others, after⟩ : Faithful values shadowed _ _ _ ∧ _ :=
      faithful_declarations rest part
    exact ⟨(faithful_value value part).append others, after⟩

end

end

end Script
end ReactiveTemplate
