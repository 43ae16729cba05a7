import ReactiveTemplate.Proofs.Script.Faithful

/-!
# Terms put into terms

What a text with replacements is read as, if every value is read at its new place as it is read
alone: the old term, in which the terms of the values stand for the mentions that are replaced.  The
mentions of such a term are those of the old one, with the mentions of a value in the place of each
that is replaced; around them the same names are bound.
-/

namespace ReactiveTemplate
namespace Script

/-! ## Places in the new text -/

/-- The index, from the place `index` of the old text on, at which another of its places comes to
stand. -/
def moved : Nat → List Replacement → Nat → Nat
  | index, [], place => place - index
  | index, edit :: rest, place =>
    if place < edit.extent.stop then place - index
    else edit.extent.start - index + edit.text.toList.length + moved edit.extent.stop rest place

/-- A change of a term: its places come to stand elsewhere, and other terms stand for some of its
names. -/
structure Insertion where
  /-- Where a place comes to stand. -/
  place : Nat → Nat
  /-- What stands at an extent, behind so many characters of its new text. -/
  term? : Nat → Extent → Option Term

/-- An extent so many characters further to the right. -/
def Extent.shift (extent : Extent) (count : Nat) : Extent :=
  ⟨extent.start + count, extent.stop + count⟩

/-- Where an extent comes to stand. -/
def Insertion.extent (insertion : Insertion) (extent : Extent) : Extent :=
  ⟨insertion.place extent.start, insertion.place extent.stop⟩

/-- Where the parameters of a function come to stand. -/
def Insertion.parameters (insertion : Insertion) (parameters : Parameters) : Parameters :=
  { parameters with
    items := parameters.items.map fun item => { item with extent := insertion.extent item.extent } }

mutual

/-- A term that is changed. -/
def Term.insert (insertion : Insertion) : Term → Term
  | .name extent name => (insertion.term? 0 extent).getD (.name (insertion.extent extent) name)
  | .binary operator left right => .binary operator (left.insert insertion) (right.insert insertion)
  | .conditional test consequent alternate =>
    .conditional (test.insert insertion) (consequent.insert insertion) (alternate.insert insertion)
  | .unary operand => .unary (operand.insert insertion)
  | .update target => .update (target.insertTarget insertion)
  | .assignment target value =>
    .assignment (target.insertTarget insertion) (value.insert insertion)
  | .parenthesized opening closing inner =>
    .parenthesized (insertion.place opening) (insertion.place closing) (inner.insert insertion)
  | .sequence terms => .sequence (insertTerms insertion terms)
  | .template parts => .template (insertTerms insertion parts)
  | .tagged tag parts => .tagged (tag.insert insertion) (insertTerms insertion parts)
  | .await operand => .await (operand.insert insertion)
  | .call callee items => .call (callee.insert insertion) (insertItems insertion items)
  | .construct callee items => .construct (callee.insert insertion) (insertItems insertion items)
  | .chain inner => .chain (inner.insert insertion)
  | .member object extent name =>
    -- a member of the properties as a whole is replaced together with its object
    let whole : Option Term := match object with
      | .name own _ => insertion.term? 0 ⟨own.start, extent.stop⟩
      | _ => none
    whole.getD (.member (object.insert insertion) (insertion.extent extent) name)
  | .index object key => .index (object.insert insertion) (key.insert insertion)
  | .object properties => .object (insertProperties insertion properties)
  | .array items => .array (insertItems insertion items)
  | .arrow parameters body =>
    .arrow (insertion.parameters parameters) (insertStatements insertion body)
  | .function name parameters body =>
    .function name (insertion.parameters parameters) (insertStatements insertion body)
  | .typed inner => .typed (inner.insert insertion)
  | .literal => .literal
  | .other => .other

/-- The target of an assignment that is changed. -/
def Term.insertTarget (insertion : Insertion) : Term → Term
  | .name extent name => .name (insertion.extent extent) name
  | .member object extent name =>
    .member (object.insert insertion) (insertion.extent extent) name
  | .index object key => .index (object.insert insertion) (key.insert insertion)
  | .parenthesized opening closing inner =>
    .parenthesized (insertion.place opening) (insertion.place closing)
      (inner.insertTarget insertion)
  | .typed inner => .typed (inner.insertTarget insertion)
  | .assignment target value =>
    .assignment (target.insertTarget insertion) (value.insert insertion)
  | .object properties => .object (insertTargetProperties insertion properties)
  | .array items => .array (insertTargetItems insertion items)
  -- nothing else can be assigned to
  | term => term

/-- The elements of a target. -/
def insertTargetItems (insertion : Insertion) : List Item → List Item
  | [] => []
  | .single term :: rest =>
    .single (term.insertTarget insertion) :: insertTargetItems insertion rest
  | .spread term :: rest =>
    .spread (term.insertTarget insertion) :: insertTargetItems insertion rest
  | .hole :: rest => .hole :: insertTargetItems insertion rest

/-- The properties of a target. -/
def insertTargetProperties (insertion : Insertion) : List Property → List Property
  | [] => []
  | .shorthand extent name :: rest =>
    .shorthand (insertion.extent extent) name :: insertTargetProperties insertion rest
  | .defaulted start name value :: rest =>
    .defaulted (insertion.place start) name (value.insert insertion) ::
      insertTargetProperties insertion rest
  | .keyed key value :: rest =>
    .keyed (insertOption insertion key) (value.insertTarget insertion) ::
      insertTargetProperties insertion rest
  | .spread term :: rest =>
    .spread (term.insertTarget insertion) :: insertTargetProperties insertion rest

/-- The terms of a list. -/
def insertTerms (insertion : Insertion) : List Term → List Term
  | [] => []
  | term :: rest => term.insert insertion :: insertTerms insertion rest

/-- Arguments or elements. -/
def insertItems (insertion : Insertion) : List Item → List Item
  | [] => []
  | .single term :: rest => .single (term.insert insertion) :: insertItems insertion rest
  | .spread term :: rest => .spread (term.insert insertion) :: insertItems insertion rest
  | .hole :: rest => .hole :: insertItems insertion rest

/-- The properties of an object.  A name that stands for key and value is a key from then on. -/
def insertProperties (insertion : Insertion) : List Property → List Property
  | [] => []
  | .shorthand extent name :: rest =>
    ((insertion.term? (name.toList.length + 2) extent).elim
      (.shorthand (insertion.extent extent) name) (.keyed none)) :: insertProperties insertion rest
  | .defaulted start name value :: rest =>
    .defaulted (insertion.place start) name (value.insert insertion) ::
      insertProperties insertion rest
  | .keyed key value :: rest =>
    .keyed (insertOption insertion key) (value.insert insertion) :: insertProperties insertion rest
  | .spread term :: rest => .spread (term.insert insertion) :: insertProperties insertion rest

/-- A term that may be absent. -/
def insertOption (insertion : Insertion) : Option Term → Option Term
  | none => none
  | some term => some (term.insert insertion)

/-- The statements of a list. -/
def insertStatements (insertion : Insertion) : List Statement → List Statement
  | [] => []
  | statement :: rest => statement.insert insertion :: insertStatements insertion rest

/-- A statement. -/
def Statement.insert (insertion : Insertion) : Statement → Statement
  | .declaration inFunction declarations =>
    .declaration inFunction (insertDeclarations insertion declarations)
  | .expression term => .expression (term.insert insertion)
  | .block body => .block (insertStatements insertion body)
  | .branch test consequent alternate =>
    .branch (test.insert insertion) (consequent.insert insertion)
      (insertAlternate insertion alternate)
  | .return value => .return (insertOption insertion value)
  | .named name => .named name
  | .empty => .empty
  | .other names => .other names

/-- The second branch of a choice. -/
def insertAlternate (insertion : Insertion) : Option Statement → Option Statement
  | none => none
  | some statement => some (statement.insert insertion)

/-- Declarations. -/
def insertDeclarations (insertion : Insertion) :
    List (Pattern × Option Term) → List (Pattern × Option Term)
  | [] => []
  | (pattern, value) :: rest =>
    (pattern, insertOption insertion value) :: insertDeclarations insertion rest

end

/-- Move a term to the right. -/
def Term.shift (term : Term) (count : Nat) : Term :=
  term.insert { place := (· + count), term? := fun _ _ => none }

section

variable (insertion : Insertion)

theorem Insertion.names_parameters (parameters : Parameters) :
    (insertion.parameters parameters).names = parameters.names := by
  simp [Insertion.parameters, Parameters.names, List.flatMap_map]

theorem declaredNames_insert : ∀ declarations : List (Pattern × Option Term),
    declaredNames (insertDeclarations insertion declarations) = declaredNames declarations
  | [] => rfl
  | (pattern, _) :: rest =>
    congrArg (pattern.names ++ ·) (declaredNames_insert rest)

theorem Statement.blockNames_insert (statement : Statement) :
    (statement.insert insertion).blockNames = statement.blockNames := by
  cases statement with
  | declaration inFunction declarations =>
    cases inFunction with
    | true => rfl
    | false => exact declaredNames_insert insertion declarations
  | _ => rfl

theorem blockNames_insert : ∀ body : List Statement,
    blockNames (insertStatements insertion body) = blockNames body
  | [] => rfl
  | statement :: rest =>
    congrArg₂ (· ++ ·) (statement.blockNames_insert insertion) (blockNames_insert rest)

mutual

theorem Statement.functionNames_insert : ∀ statement : Statement,
    (statement.insert insertion).functionNames = statement.functionNames
  | .declaration true declarations => declaredNames_insert insertion declarations
  | .block body => functionNames_insert body
  | .branch _ consequent alternate =>
    congrArg₂ (· ++ ·) consequent.functionNames_insert (functionNames_insertAlternate alternate)
  | .declaration false _ | .named _ | .expression _ | .return _ | .empty | .other _ => rfl

theorem functionNames_insert : ∀ body : List Statement,
    Statement.functionNamesOfList (insertStatements insertion body) =
      Statement.functionNamesOfList body
  | [] => rfl
  | statement :: rest =>
    congrArg₂ (· ++ ·) statement.functionNames_insert (functionNames_insert rest)

theorem functionNames_insertAlternate : ∀ alternate : Option Statement,
    Statement.functionNamesOfOption (insertAlternate insertion alternate) =
      Statement.functionNamesOfOption alternate
  | none => rfl
  | some statement => statement.functionNames_insert

end

theorem bodyNames_insert (body : List Statement) :
    bodyNames (insertStatements insertion body) = bodyNames body := by
  rw [bodyNames, bodyNames, blockNames_insert, functionNames_insert]

end

/-! ## Mentions of a term that is changed -/

/-- The mention without what it says about its surroundings. -/
def Mention.bare (mention : Mention) : Mention := { mention with use := .plain }

/-- The mention where further names are bound around everything. -/
def Mention.under (outer : List String) (mention : Mention) : Mention :=
  { mention with scope := mention.scope ++ outer }

/-- What stands for a mention. -/
def Insertion.at? (insertion : Insertion) (mention : Mention) : Option Term :=
  match mention.use with
  | .plain => insertion.term? 0 mention.extent
  | .shorthand => insertion.term? (mention.name.toList.length + 2) mention.extent
  | .object extent _ =>
    (insertion.term? 0 ⟨mention.extent.start, extent.stop⟩).or (insertion.term? 0 mention.extent)

/-- The mentions that stand for a mention: those of the term that stands for it, or else the mention
itself at its new place. -/
def Insertion.mentions (insertion : Insertion) (mention : Mention) : List Mention :=
  match insertion.at? mention with
  | some term => (term.mentions mention.scope).map Mention.bare
  | none => [⟨insertion.extent mention.extent, mention.name, .plain, mention.scope⟩]

/-- The new mentions, apart from their surroundings, are those that stand for the old ones, where
further names are bound around all of them. -/
def Insertion.Turns (insertion : Insertion) (outer : List String) (old new : List Mention) : Prop :=
  new.map Mention.bare = old.flatMap fun mention => insertion.mentions (mention.under outer)

namespace Insertion.Turns

variable {insertion : Insertion} {outer : List String} {old old' new new' : List Mention}

theorem nil : insertion.Turns outer [] [] := rfl

theorem append (first : insertion.Turns outer old new) (second : insertion.Turns outer old' new') :
    insertion.Turns outer (old ++ old') (new ++ new') := by
  rw [Turns, List.map_append, List.flatMap_append, first, second]

end Insertion.Turns

/-- A mention is the same with and without the member that is accessed. -/
theorem bare_mentions_member (scope : List String) (object : Term) (extent : Extent)
    (name : String) :
    ((Term.member object extent name).mentions scope).map Mention.bare =
      (object.mentions scope).map Mention.bare := by
  cases object <;> rfl

section

variable (insertion : Insertion) (outer : List String)

theorem turns_name (scope : List String) (extent : Extent) (name : String) :
    insertion.Turns outer ((Term.name extent name).mentions scope)
      (((Term.name extent name).insert insertion).mentions (scope ++ outer)) := by
  rw [Insertion.Turns, Term.insert, Term.mentions, List.flatMap_singleton, Mention.under,
    Insertion.mentions, Insertion.at?]
  dsimp only
  cases insertion.term? 0 extent <;> rfl

theorem turns_member {scope : List String} (object : Term) (extent : Extent) (name : String)
    (turns : insertion.Turns outer (object.mentions scope)
      ((object.insert insertion).mentions (scope ++ outer))) :
    insertion.Turns outer ((Term.member object extent name).mentions scope)
      (((Term.member object extent name).insert insertion).mentions (scope ++ outer)) := by
  cases object with
  | name own base =>
    rw [Insertion.Turns, Term.insert, Term.mentions, List.flatMap_singleton, Mention.under,
      Insertion.mentions, Insertion.at?]
    dsimp only
    cases insertion.term? 0 ⟨own.start, extent.stop⟩ with
    | some term => rfl
    | none =>
      rw [Option.getD_none, bare_mentions_member, Option.none_or, Term.insert]
      cases insertion.term? 0 own <;> rfl
  | _ => exact (bare_mentions_member (scope ++ outer) (Term.insert insertion _) _ _).trans turns

theorem mentionsOfProperties_cons (scope : List String) (property : Property)
    (rest : List Property) :
    mentionsOfProperties scope (property :: rest) =
      mentionsOfProperties scope [property] ++ mentionsOfProperties scope rest := by
  cases property <;> simp [mentionsOfProperties]

theorem turns_shorthand (scope : List String) (extent : Extent) (name : String) :
    insertion.Turns outer (mentionsOfProperties scope [.shorthand extent name])
      (mentionsOfProperties (scope ++ outer)
        [(insertion.term? (name.toList.length + 2) extent).elim
          (.shorthand (insertion.extent extent) name) (.keyed none)]) := by
  rw [Insertion.Turns, mentionsOfProperties, mentionsOfProperties, List.flatMap_singleton,
    Mention.under, Insertion.mentions, Insertion.at?]
  dsimp only
  cases insertion.term? (name.toList.length + 2) extent with
  | none => rfl
  | some term => simp [mentionsOfProperties, mentionsOfOption]

mutual

theorem Term.turns : ∀ (term : Term) (scope : List String),
    insertion.Turns outer (term.mentions scope) ((term.insert insertion).mentions (scope ++ outer))
  | .name extent name, scope => turns_name insertion outer scope extent name
  | .binary _ left right, scope => (left.turns scope).append (right.turns scope)
  | .conditional test consequent alternate, scope =>
    ((test.turns scope).append (consequent.turns scope)).append (alternate.turns scope)
  | .unary operand, scope | .await operand, scope | .parenthesized _ _ operand, scope
  | .chain operand, scope | .typed operand, scope => operand.turns scope
  | .update target, scope => target.turns_target scope
  | .assignment target value, scope => (target.turns_target scope).append (value.turns scope)
  | .sequence terms, scope | .template terms, scope => turns_terms terms scope
  | .tagged tag parts, scope => (tag.turns scope).append (turns_terms parts scope)
  | .call callee items, scope | .construct callee items, scope =>
    (callee.turns scope).append (turns_items items scope)
  | .member object extent name, scope =>
    turns_member insertion outer object extent name (object.turns scope)
  | .index object key, scope => (object.turns scope).append (key.turns scope)
  | .object properties, scope => turns_properties properties scope
  | .array items, scope => turns_items items scope
  | .arrow parameters body, scope => by
    rw [Term.insert, Term.mentions, Term.mentions, bodyNames_insert, insertion.names_parameters,
      ← List.append_assoc]
    exact turns_statements body _
  | .function name parameters body, scope => by
    rw [Term.insert, Term.mentions, Term.mentions, bodyNames_insert, insertion.names_parameters,
      ← List.append_assoc]
    exact turns_statements body _
  | .literal, _ | .other, _ => .nil

theorem Term.turns_target : ∀ (term : Term) (scope : List String),
    insertion.Turns outer (term.targetMentions scope)
      ((term.insertTarget insertion).targetMentions (scope ++ outer))
  | .member object _ _, scope => object.turns scope
  | .index object key, scope => (object.turns scope).append (key.turns scope)
  | .parenthesized _ _ inner, scope | .typed inner, scope => inner.turns_target scope
  | .assignment target value, scope => (target.turns_target scope).append (value.turns scope)
  | .object properties, scope => turns_targetProperties properties scope
  | .array items, scope => turns_targetItems items scope
  | .name .., _ | .binary .., _ | .conditional .., _ | .unary _, _ | .await _, _ | .update _, _
  | .sequence _, _ | .template _, _ | .tagged .., _ | .call .., _ | .construct .., _ | .chain _, _
  | .arrow .., _ | .function .., _ | .literal, _ | .other, _ => .nil

theorem turns_targetItems : ∀ (items : List Item) (scope : List String),
    insertion.Turns outer (targetMentionsOfItems scope items)
      (targetMentionsOfItems (scope ++ outer) (insertTargetItems insertion items))
  | [], _ => .nil
  | .single term :: rest, scope | .spread term :: rest, scope =>
    (term.turns_target scope).append (turns_targetItems rest scope)
  | .hole :: rest, scope => turns_targetItems rest scope

theorem turns_targetProperties : ∀ (properties : List Property) (scope : List String),
    insertion.Turns outer (targetMentionsOfProperties scope properties)
      (targetMentionsOfProperties (scope ++ outer) (insertTargetProperties insertion properties))
  | [], _ => .nil
  | .shorthand .. :: rest, scope => turns_targetProperties rest scope
  | .defaulted _ _ value :: rest, scope =>
    (value.turns scope).append (turns_targetProperties rest scope)
  | .keyed key value :: rest, scope =>
    ((turns_option key scope).append (value.turns_target scope)).append
      (turns_targetProperties rest scope)
  | .spread term :: rest, scope =>
    (term.turns_target scope).append (turns_targetProperties rest scope)

theorem turns_terms : ∀ (terms : List Term) (scope : List String),
    insertion.Turns outer (mentionsOfTerms scope terms)
      (mentionsOfTerms (scope ++ outer) (insertTerms insertion terms))
  | [], _ => .nil
  | term :: rest, scope => (term.turns scope).append (turns_terms rest scope)

theorem turns_items : ∀ (items : List Item) (scope : List String),
    insertion.Turns outer (mentionsOfItems scope items)
      (mentionsOfItems (scope ++ outer) (insertItems insertion items))
  | [], _ => .nil
  | .single term :: rest, scope | .spread term :: rest, scope =>
    (term.turns scope).append (turns_items rest scope)
  | .hole :: rest, scope => turns_items rest scope

theorem turns_properties : ∀ (properties : List Property) (scope : List String),
    insertion.Turns outer (mentionsOfProperties scope properties)
      (mentionsOfProperties (scope ++ outer) (insertProperties insertion properties))
  | [], _ => .nil
  | .shorthand extent name :: rest, scope => by
    rw [insertProperties, mentionsOfProperties_cons (scope ++ outer)]
    exact (turns_shorthand insertion outer scope extent name).append (turns_properties rest scope)
  | .defaulted _ _ value :: rest, scope => (value.turns scope).append (turns_properties rest scope)
  | .keyed key value :: rest, scope =>
    ((turns_option key scope).append (value.turns scope)).append (turns_properties rest scope)
  | .spread term :: rest, scope => (term.turns scope).append (turns_properties rest scope)

theorem turns_option : ∀ (term : Option Term) (scope : List String),
    insertion.Turns outer (mentionsOfOption scope term)
      (mentionsOfOption (scope ++ outer) (insertOption insertion term))
  | none, _ => .nil
  | some term, scope => term.turns scope

theorem turns_statements : ∀ (statements : List Statement) (scope : List String),
    insertion.Turns outer (mentionsOfStatements scope statements)
      (mentionsOfStatements (scope ++ outer) (insertStatements insertion statements))
  | [], _ => .nil
  | statement :: rest, scope => (statement.turns scope).append (turns_statements rest scope)

theorem Statement.turns : ∀ (statement : Statement) (scope : List String),
    insertion.Turns outer (statement.mentions scope)
      ((statement.insert insertion).mentions (scope ++ outer))
  | .declaration _ declarations, scope => turns_declarations declarations scope
  | .expression term, scope => term.turns scope
  | .block body, scope => by
    rw [Statement.insert, Statement.mentions, Statement.mentions, blockNames_insert,
      ← List.append_assoc]
    exact turns_statements body _
  | .branch test consequent alternate, scope =>
    ((test.turns scope).append (consequent.turns scope)).append (turns_alternate alternate scope)
  | .return value, scope => turns_option value scope
  | .named _, _ | .empty, _ | .other _, _ => .nil

theorem turns_alternate : ∀ (alternate : Option Statement) (scope : List String),
    insertion.Turns outer (mentionsOfAlternate scope alternate)
      (mentionsOfAlternate (scope ++ outer) (insertAlternate insertion alternate))
  | none, _ => .nil
  | some statement, scope => statement.turns scope

theorem turns_declarations :
    ∀ (declarations : List (Pattern × Option Term)) (scope : List String),
      insertion.Turns outer (mentionsOfDeclarations scope declarations)
        (mentionsOfDeclarations (scope ++ outer) (insertDeclarations insertion declarations))
  | [], _ => .nil
  | (_, value) :: rest, scope => (turns_option value scope).append (turns_declarations rest scope)

end

end

/-- The number of characters in front of a value in the text that takes the place of a mention. -/
def Mention.ahead (mention : Mention) : Nat :=
  if mention.use = .shorthand then mention.name.toList.length + 2 else 0

section

variable {values : Values} {mention : Mention} {value : String} {edit : Replacement}

/-- The value stands at the end of the new text. -/
theorem Mention.Replaces.text (replaces : mention.Replaces values value edit) :
    ∃ front, edit.text.toList = front ++ value.toList ∧ front.length = mention.ahead := by
  cases replaces with
  | name found use => exact ⟨[], rfl, by rw [ahead, if_neg use]; rfl⟩
  | shorthand found use =>
    refine ⟨mention.name.toList ++ [':', ' '], by simp, ?_⟩
    rw [ahead, if_pos use, List.length_append]
    rfl
  | member found use base => exact ⟨[], rfl, by rw [ahead, use]; rfl⟩

theorem Mention.Replaces.start (replaces : mention.Replaces values value edit) :
    edit.extent.start = mention.extent.start := by
  cases replaces <;> rfl

end

end Script
end ReactiveTemplate
