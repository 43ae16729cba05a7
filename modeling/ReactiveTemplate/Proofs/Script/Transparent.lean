import ReactiveTemplate.Proofs.Script.Faithful

/-!
# Code in which everything is replaced

Not every mention is looked at: arguments and elements that are spread, functions of their own,
remarks about types, targets that take values apart and defaults are passed over, and a block binds
a name only from its declaration on.  A term is transparent if it has none of this.  In a transparent
term exactly those mentions are replaced whose names have a value and are not bound.
-/

namespace ReactiveTemplate
namespace Script

/-- None of the mentions has one of the names. -/
def Unmentioned (mentions : List Mention) (names : List String) : Bool :=
  mentions.all fun mention => !names.contains mention.name

/-- The names that a declaration makes known to the statements after it. -/
def Statement.declared : Statement → List String
  | .declaration _ declarations => declaredNames declarations
  | _ => []

/-- The names that statements declare. -/
def declaredIn (body : List Statement) : List String := body.flatMap Statement.declared

/-- The statement makes no names known, neither after it nor in the function around it. -/
def Statement.isStill (statement : Statement) : Bool :=
  statement.declared.isEmpty && statement.functionNames.isEmpty

/-- The parameters have no defaults, and none takes all further arguments. -/
def Parameters.isBare (parameters : Parameters) : Bool :=
  parameters.isPlain && parameters.items.all (!·.hasDefault)

/-- The term is the name under which all properties are known. -/
def Term.isProps : Term → Bool
  | .name _ word => word == "props"
  | _ => false

mutual

/-- Everything in the term is looked at, where `scope` lists the names that are bound around it. -/
def Term.transparent (scope : List String) : Term → Bool
  | .name .. | .literal => true
  | .binary _ left right => left.transparent scope && right.transparent scope
  | .conditional test consequent alternate =>
    test.transparent scope && consequent.transparent scope && alternate.transparent scope
  | .unary operand | .await operand | .parenthesized _ _ operand => operand.transparent scope
  | .update target => target.targetTransparent scope
  | .assignment target value => target.targetTransparent scope && value.transparent scope
  | .sequence terms | .template terms => termsTransparent scope terms
  | .tagged tag parts => tag.transparent scope && termsTransparent scope parts
  | .call callee arguments | .construct callee arguments =>
    callee.transparent scope && itemsTransparent scope arguments
  | .chain inner => inner.linkTransparent scope
  | .member object _ _ => object.transparent scope
  | .index object key => object.transparent scope && key.transparent scope
  | .object properties => propertiesTransparent scope properties
  | .array elements => itemsTransparent scope elements
  | .arrow parameters body =>
    parameters.isBare &&
      statementsTransparent (bodyNames body ++ parameters.names ++ scope) body
  | .function .. | .typed _ | .other => false

/-- Everything in the target of an assignment is looked at. -/
def Term.targetTransparent (scope : List String) : Term → Bool
  | .name .. => true
  | .member object _ _ => object.transparent scope
  | .index object key => object.transparent scope && key.transparent scope
  | .parenthesized _ _ inner => inner.targetTransparent scope
  | _ => false

/-- Everything in the outermost link of a chain is looked at. -/
def Term.linkTransparent (scope : List String) : Term → Bool
  | .call callee arguments => callee.transparent scope && itemsTransparent scope arguments
  | .member object _ _ => !object.isProps && object.transparent scope
  | .index object key => object.transparent scope && key.transparent scope
  | _ => false

/-- Everything in a list of terms is looked at. -/
def termsTransparent (scope : List String) : List Term → Bool
  | [] => true
  | term :: rest => term.transparent scope && termsTransparent scope rest

/-- Everything in arguments or elements is looked at. -/
def itemsTransparent (scope : List String) : List Item → Bool
  | [] => true
  | .single term :: rest => term.transparent scope && itemsTransparent scope rest
  | .hole :: rest => itemsTransparent scope rest
  | .spread _ :: _ => false

/-- Everything in the properties of an object is looked at. -/
def propertiesTransparent (scope : List String) : List Property → Bool
  | [] => true
  | .shorthand .. :: rest => propertiesTransparent scope rest
  | .defaulted .. :: _ => false
  | .keyed key value :: rest =>
    optionTransparent scope key && value.transparent scope && propertiesTransparent scope rest
  | .spread term :: rest => term.transparent scope && propertiesTransparent scope rest

/-- Everything in a term that may be absent is looked at. -/
def optionTransparent (scope : List String) : Option Term → Bool
  | none => true
  | some term => term.transparent scope

/-- Everything in a list of statements is looked at, and no name is mentioned before its
declaration. -/
def statementsTransparent (scope : List String) : List Statement → Bool
  | [] => true
  | statement :: rest =>
    statement.transparent scope && Unmentioned (statement.mentions scope) (declaredIn rest) &&
      statementsTransparent scope rest

/-- Everything in a statement is looked at. -/
def Statement.transparent (scope : List String) : Statement → Bool
  | .declaration _ declarations => declarationsTransparent scope declarations
  | .expression term => term.transparent scope
  | .block body =>
    (Statement.functionNamesOfList body).isEmpty &&
      statementsTransparent (blockNames body ++ scope) body
  | .branch test consequent alternate =>
    test.transparent scope && (consequent.isStill && consequent.transparent scope) &&
      alternateTransparent scope alternate
  | .return value => optionTransparent scope value
  | .empty => true
  | .named _ | .other _ => false

/-- Everything in the second branch of a choice is looked at. -/
def alternateTransparent (scope : List String) : Option Statement → Bool
  | none => true
  | some statement => statement.isStill && statement.transparent scope

/-- Everything in declarations is looked at, and no name is mentioned before its declaration. -/
def declarationsTransparent (scope : List String) : List (Pattern × Option Term) → Bool
  | [] => true
  | (pattern, value) :: rest =>
    pattern.isPlain && optionTransparent scope value &&
      Unmentioned (mentionsOfOption scope value) (declaredNames rest) &&
      declarationsTransparent scope rest

end

/-! ## Names that are bound -/

/-- The names in two lists of bound names are the same as far as the mentions go, apart from the
names of a third list. -/
def Agree (mentions : List Mention) (bound scope exempt : List String) : Prop :=
  ∀ mention ∈ mentions, mention.name ∉ exempt → (mention.name ∈ bound ↔ mention.name ∈ scope)

namespace Agree

variable {mentions mentions' : List Mention} {bound scope exempt : List String}

theorem left (agree : Agree (mentions ++ mentions') bound scope exempt) :
    Agree mentions bound scope exempt :=
  fun mention mem => agree mention (List.mem_append_left _ mem)

theorem right (agree : Agree (mentions ++ mentions') bound scope exempt) :
    Agree mentions' bound scope exempt :=
  fun mention mem => agree mention (List.mem_append_right _ mem)

end Agree

theorem not_mem_of_unmentioned {mentions : List Mention} {names : List String}
    (apart : Unmentioned mentions names = true) {mention : Mention} (mem : mention ∈ mentions) :
    mention.name ∉ names := by
  simpa using List.all_eq_true.mp apart mention mem

theorem Pattern.mem_addNames {pattern : Pattern} (plain : pattern.isPlain = true)
    {name : String} {names : List String} :
    name ∈ pattern.addNames names ↔ name ∈ names ∨ name ∈ pattern.names := by
  rw [pattern.addNames_eq, Scope.mem_addNames, pattern.plainNames_eq plain]

theorem functionNames_of_isStill {statement : Statement} (still : statement.isStill = true) :
    statement.functionNames = [] := by
  rw [Statement.isStill, Bool.and_eq_true, List.isEmpty_iff, List.isEmpty_iff] at still
  exact still.2

theorem declared_of_isStill {statement : Statement} (still : statement.isStill = true) :
    statement.declared = [] := by
  rw [Statement.isStill, Bool.and_eq_true, List.isEmpty_iff, List.isEmpty_iff] at still
  exact still.1

/-- What the statements of a block make known in transparent code are the names they declare. -/
theorem mem_declared {statement : Statement} {scope : List String}
    (clear : statement.transparent scope = true) (name : String) :
    name ∈ statement.blockNames ∨ name ∈ statement.functionNames ↔ name ∈ statement.declared := by
  cases statement with
  | declaration inFunction declarations =>
    cases inFunction <;>
      simp [Statement.blockNames, Statement.functionNames, Statement.declared]
  | block body =>
    rw [Statement.transparent, Bool.and_eq_true, List.isEmpty_iff] at clear
    simp [Statement.blockNames, Statement.functionNames, Statement.declared, clear.1]
  | branch test consequent alternate =>
    rw [Statement.transparent, Bool.and_eq_true, Bool.and_eq_true, Bool.and_eq_true] at clear
    have second : Statement.functionNamesOfOption alternate = [] := by
      cases alternate with
      | none => rfl
      | some statement =>
        have still := clear.2
        rw [alternateTransparent, Bool.and_eq_true] at still
        exact functionNames_of_isStill still.1
    simp [Statement.blockNames, Statement.functionNames, Statement.declared,
      functionNames_of_isStill clear.1.2.1, second]
  | named name | other names =>
    rw [Statement.transparent] at clear
    cases clear
  | expression | «return» | empty =>
    simp [Statement.blockNames, Statement.functionNames, Statement.declared]

/-- The body of a function makes known the names that its statements declare, in transparent code. -/
theorem mem_bodyNames {scope : List String} {body : List Statement}
    (clear : statementsTransparent scope body = true) (name : String) :
    name ∈ bodyNames body ↔ name ∈ declaredIn body := by
  induction body with
  | nil => simp [bodyNames, blockNames, declaredIn, Statement.functionNamesOfList]
  | cons statement rest ih =>
    rw [statementsTransparent, Bool.and_eq_true, Bool.and_eq_true] at clear
    have own := mem_declared clear.1.1 name
    have others := ih clear.2
    rw [bodyNames, blockNames, List.mem_append] at others ⊢
    rw [List.flatMap_cons, Statement.functionNamesOfList, declaredIn, List.flatMap_cons,
      List.mem_append, List.mem_append, List.mem_append, ← own, ← declaredIn, ← others]
    exact or_or_or_comm

/-! ## Main lemma -/

section

variable {values : Values}

theorem Values.free?_congr {bound scope : List String} {name : String}
    (same : name ∈ bound ↔ name ∈ scope) : values.free? bound name = values.free? scope name := by
  simp [free?, same]

theorem perm_filterMap_append {found found' : List Replacement} {mentions mentions' : List Mention}
    {edit? : Mention → Option Replacement} (one : found.Perm (mentions.filterMap edit?))
    (other : found'.Perm (mentions'.filterMap edit?)) :
    (found ++ found').Perm ((mentions ++ mentions').filterMap edit?) := by
  rw [List.filterMap_append]
  exact one.append other

theorem complete_name {bound scope : List String} {extent : Extent} {name : String} {use : Use}
    (same : name ∈ bound ↔ name ∈ scope) (plain : use ≠ .shorthand)
    (member : (⟨extent, name, use, scope⟩ : Mention).memberValue? values = none) :
    replacements values bound (.name extent name) =
      [⟨extent, name, use, scope⟩].filterMap (Mention.edit? values) := by
  rw [replacements, Values.free?_congr same]
  rw [List.filterMap_cons, List.filterMap_nil, Mention.edit?, member]
  dsimp only
  rw [Mention.plainEdit?]
  cases values.free? scope name <;> simp [plain]

theorem complete_shorthand {bound scope : List String} {extent : Extent} {name : String}
    (same : name ∈ bound ↔ name ∈ scope) :
    (match values.free? bound name with
      | some value => [⟨extent, name ++ ": " ++ value⟩]
      | none => [] : List Replacement) =
      [⟨extent, name, .shorthand, scope⟩].filterMap (Mention.edit? values) := by
  rw [Values.free?_congr same, List.filterMap_cons, List.filterMap_nil, Mention.edit?]
  dsimp only [Mention.memberValue?]
  rw [Mention.plainEdit?]
  cases values.free? scope name <;> simp

/-- In the outermost link of a chain the object is not the name of all properties. -/
theorem complete_link_member {bound scope : List String} {object : Term} {extent : Extent}
    {name : String} (plain : (!object.isProps) = true)
    (agree : Agree ((Term.member object extent name).mentions scope) bound scope [])
    (complete : Agree (object.mentions scope) bound scope [] →
      (replacements values bound object).Perm
        ((object.mentions scope).filterMap (Mention.edit? values))) :
    (replacements values bound object).Perm
      (((Term.member object extent name).mentions scope).filterMap (Mention.edit? values)) := by
  cases object with
  | name own base =>
    rw [Term.mentions] at agree ⊢
    refine .of_eq (complete_name ?_ (by rintro ⟨⟩) ?_)
    · exact agree _ (List.mem_singleton_self _) List.not_mem_nil
    · have other : base ≠ "props" := by simpa [Term.isProps] using plain
      simp [Mention.memberValue?, other]
  | _ => exact complete agree

theorem complete_member {bound scope : List String} {object : Term} {extent : Extent}
    {name : String}
    (agree : Agree ((Term.member object extent name).mentions scope) bound scope [])
    (complete : Agree (object.mentions scope) bound scope [] →
      (replacements values bound object).Perm
        ((object.mentions scope).filterMap (Mention.edit? values))) :
    (replacements values bound (.member object extent name)).Perm
      (((Term.member object extent name).mentions scope).filterMap (Mention.edit? values)) := by
  cases object with
  | name own base =>
    rw [Term.mentions] at agree ⊢
    have same : base ∈ bound ↔ base ∈ scope :=
      agree _ (List.mem_singleton_self _) List.not_mem_nil
    let mention : Mention := ⟨own, base, .object extent name, scope⟩
    have shown : (if base == "props" && !bound.contains "props" then values.get? name else none) =
        (mention.memberValue? values).map (·.2) := by
      by_cases props : base = "props"
      · rw [props] at same
        by_cases known : "props" ∈ scope <;>
          simp [mention, Mention.memberValue?, props, same, known, Function.comp_def]
      · simp [mention, Mention.memberValue?, props]
    rw [replacements, shown]
    cases member : mention.memberValue? values with
    | none => exact .of_eq (complete_name same (by rintro ⟨⟩) member)
    | some found =>
      have place : found.1 = ⟨own.start, extent.stop⟩ := by
        dsimp only [mention, Mention.memberValue?] at member
        split at member
        · obtain ⟨value, -, rfl⟩ := Option.map_eq_some_iff.mp member
          rfl
        · cases member
      simp [Mention.edit?, mention, member, ← place]
  | _ => exact complete agree

mutual

theorem Term.complete : ∀ (term : Term) {bound scope : List String},
    term.transparent scope = true → Agree (term.mentions scope) bound scope [] →
    (replacements values bound term).Perm ((term.mentions scope).filterMap (Mention.edit? values))
  | .name extent word, bound, scope, clear, agree => by
    rw [Term.mentions] at agree ⊢
    refine .of_eq (complete_name ?_ (by decide) rfl)
    exact agree _ (List.mem_singleton_self _) List.not_mem_nil
  | .binary _ left right, bound, scope, clear, agree => by
    rw [Term.transparent, Bool.and_eq_true] at clear
    rw [Term.mentions] at agree ⊢
    rw [replacements]
    exact perm_filterMap_append (left.complete clear.1 agree.left)
      (right.complete clear.2 agree.right)
  | .conditional test consequent alternate, bound, scope, clear, agree => by
    rw [Term.transparent, Bool.and_eq_true, Bool.and_eq_true] at clear
    rw [Term.mentions] at agree ⊢
    rw [replacements]
    exact perm_filterMap_append
      (perm_filterMap_append (test.complete clear.1.1 agree.left.left)
        (consequent.complete clear.1.2 agree.left.right))
      (alternate.complete clear.2 agree.right)
  | .unary operand, bound, scope, clear, agree | .await operand, bound, scope, clear, agree
  | .parenthesized _ _ operand, bound, scope, clear, agree => by
    rw [Term.transparent] at clear
    rw [Term.mentions] at agree ⊢
    rw [replacements]
    exact operand.complete clear agree
  | .update target, bound, scope, clear, agree => by
    rw [Term.transparent] at clear
    rw [Term.mentions] at agree ⊢
    rw [replacements]
    exact target.complete_target clear agree
  | .assignment target value, bound, scope, clear, agree => by
    rw [Term.transparent, Bool.and_eq_true] at clear
    rw [Term.mentions] at agree ⊢
    rw [replacements]
    exact perm_filterMap_append (target.complete_target clear.1 agree.left)
      (value.complete clear.2 agree.right)
  | .sequence terms, bound, scope, clear, agree | .template terms, bound, scope, clear, agree => by
    rw [Term.transparent] at clear
    rw [Term.mentions] at agree ⊢
    rw [replacements]
    exact complete_terms terms clear agree
  | .tagged tag parts, bound, scope, clear, agree => by
    rw [Term.transparent, Bool.and_eq_true] at clear
    rw [Term.mentions] at agree ⊢
    rw [replacements]
    exact perm_filterMap_append (tag.complete clear.1 agree.left)
      (complete_terms parts clear.2 agree.right)
  | .call callee items, bound, scope, clear, agree
  | .construct callee items, bound, scope, clear, agree => by
    rw [Term.transparent, Bool.and_eq_true] at clear
    rw [Term.mentions] at agree ⊢
    rw [replacements]
    exact perm_filterMap_append (callee.complete clear.1 agree.left)
      (complete_items items clear.2 agree.right)
  | .chain inner, bound, scope, clear, agree => by
    rw [Term.transparent] at clear
    rw [Term.mentions] at agree ⊢
    rw [replacements]
    exact inner.complete_link clear agree
  | .index object key, bound, scope, clear, agree => by
    rw [Term.transparent, Bool.and_eq_true] at clear
    rw [Term.mentions] at agree ⊢
    rw [replacements]
    exact perm_filterMap_append (object.complete clear.1 agree.left)
      (key.complete clear.2 agree.right)
  | .member object extent word, bound, scope, clear, agree => by
    rw [Term.transparent] at clear
    exact complete_member agree fun agree => object.complete clear agree
  | .object properties, bound, scope, clear, agree => by
    rw [Term.transparent] at clear
    rw [Term.mentions] at agree ⊢
    rw [replacements]
    exact complete_properties properties clear agree
  | .array items, bound, scope, clear, agree => by
    rw [Term.transparent] at clear
    rw [Term.mentions] at agree ⊢
    rw [replacements]
    exact complete_items items clear agree
  | .arrow parameters body, bound, scope, clear, agree => by
    rw [Term.transparent, Bool.and_eq_true] at clear
    rw [Term.mentions] at agree ⊢
    rw [replacements]
    have plain := (Bool.and_eq_true _ _ ▸ clear.1 : parameters.isPlain = true ∧ _).1
    refine complete_statements body clear.2 ?_ ?_
    · intro name declared
      simp [(mem_bodyNames clear.2 name).mpr declared]
    · intro mention mem undeclared
      have outer := agree mention mem List.not_mem_nil
      rw [foldl_addNames_eq, Scope.mem_addNames, ← Parameters.plainNames,
        Parameters.plainNames_eq plain, List.mem_append, List.mem_append, mem_bodyNames clear.2,
        outer]
      tauto
  | .literal, _, _, _, _ => .refl _
  | .function .., _, _, clear, _ | .typed _, _, _, clear, _ | .other, _, _, clear, _ => by
    rw [Term.transparent] at clear
    cases clear

theorem Term.complete_target : ∀ (term : Term) {bound scope : List String},
    term.targetTransparent scope = true → Agree (term.targetMentions scope) bound scope [] →
    (targetReplacements values bound term).Perm
      ((term.targetMentions scope).filterMap (Mention.edit? values))
  | .name .., _, _, _, _ => .refl _
  | .member object extent word, bound, scope, clear, agree => by
    rw [Term.targetTransparent] at clear
    rw [Term.targetMentions] at agree ⊢
    rw [targetReplacements]
    exact object.complete clear agree
  | .index object key, bound, scope, clear, agree => by
    rw [Term.targetTransparent, Bool.and_eq_true] at clear
    rw [Term.targetMentions] at agree ⊢
    rw [targetReplacements]
    exact perm_filterMap_append (object.complete clear.1 agree.left)
      (key.complete clear.2 agree.right)
  | .parenthesized _ _ inner, bound, scope, clear, agree => by
    rw [Term.targetTransparent] at clear
    rw [Term.targetMentions] at agree ⊢
    rw [targetReplacements]
    exact inner.complete_target clear agree
  | .binary .., _, _, clear, _ | .conditional .., _, _, clear, _ | .unary _, _, _, clear, _
  | .await _, _, _, clear, _ | .update _, _, _, clear, _ | .assignment .., _, _, clear, _
  | .sequence _, _, _, clear, _ | .template _, _, _, clear, _ | .tagged .., _, _, clear, _
  | .call .., _, _, clear, _ | .construct .., _, _, clear, _ | .chain _, _, _, clear, _
  | .object _, _, _, clear, _ | .array _, _, _, clear, _ | .arrow .., _, _, clear, _
  | .function .., _, _, clear, _ | .typed _, _, _, clear, _ | .literal, _, _, clear, _
  | .other, _, _, clear, _ => nomatch clear

theorem Term.complete_link : ∀ (term : Term) {bound scope : List String},
    term.linkTransparent scope = true → Agree (term.mentions scope) bound scope [] →
    (linkReplacements values bound term).Perm
      ((term.mentions scope).filterMap (Mention.edit? values))
  | .call callee items, bound, scope, clear, agree => by
    rw [Term.linkTransparent, Bool.and_eq_true] at clear
    rw [Term.mentions] at agree ⊢
    rw [linkReplacements]
    exact perm_filterMap_append (callee.complete clear.1 agree.left)
      (complete_items items clear.2 agree.right)
  | .member object extent word, bound, scope, clear, agree => by
    rw [Term.linkTransparent, Bool.and_eq_true] at clear
    rw [linkReplacements]
    exact complete_link_member clear.1 agree fun agree => object.complete clear.2 agree
  | .index object key, bound, scope, clear, agree => by
    rw [Term.linkTransparent, Bool.and_eq_true] at clear
    rw [Term.mentions] at agree ⊢
    rw [linkReplacements]
    exact perm_filterMap_append (object.complete clear.1 agree.left)
      (key.complete clear.2 agree.right)
  | .name .., _, _, clear, _ | .binary .., _, _, clear, _ | .conditional .., _, _, clear, _
  | .unary _, _, _, clear, _ | .await _, _, _, clear, _ | .update _, _, _, clear, _
  | .assignment .., _, _, clear, _ | .sequence _, _, _, clear, _ | .template _, _, _, clear, _
  | .tagged .., _, _, clear, _ | .parenthesized .., _, _, clear, _
  | .construct .., _, _, clear, _ | .chain _, _, _, clear, _ | .object _, _, _, clear, _
  | .array _, _, _, clear, _ | .arrow .., _, _, clear, _ | .function .., _, _, clear, _
  | .typed _, _, _, clear, _ | .literal, _, _, clear, _ | .other, _, _, clear, _ => nomatch clear

theorem complete_terms : ∀ (terms : List Term) {bound scope : List String},
    termsTransparent scope terms = true → Agree (mentionsOfTerms scope terms) bound scope [] →
    (termsReplacements values bound terms).Perm
      ((mentionsOfTerms scope terms).filterMap (Mention.edit? values))
  | [], _, _, _, _ => .refl _
  | term :: rest, bound, scope, clear, agree => by
    rw [termsTransparent, Bool.and_eq_true] at clear
    rw [mentionsOfTerms] at agree ⊢
    rw [termsReplacements]
    exact perm_filterMap_append (term.complete clear.1 agree.left)
      (complete_terms rest clear.2 agree.right)

theorem complete_items : ∀ (items : List Item) {bound scope : List String},
    itemsTransparent scope items = true → Agree (mentionsOfItems scope items) bound scope [] →
    (itemsReplacements values bound items).Perm
      ((mentionsOfItems scope items).filterMap (Mention.edit? values))
  | [], _, _, _, _ => .refl _
  | .single term :: rest, bound, scope, clear, agree => by
    rw [itemsTransparent, Bool.and_eq_true] at clear
    rw [mentionsOfItems] at agree ⊢
    rw [itemsReplacements]
    exact perm_filterMap_append (term.complete clear.1 agree.left)
      (complete_items rest clear.2 agree.right)
  | .hole :: rest, bound, scope, clear, agree => by
    rw [itemsTransparent] at clear
    rw [mentionsOfItems] at agree ⊢
    rw [itemsReplacements]
    exact complete_items rest clear agree
  | .spread _ :: _, _, _, clear, _ => by
    rw [itemsTransparent] at clear
    cases clear

theorem complete_properties : ∀ (properties : List Property) {bound scope : List String},
    propertiesTransparent scope properties = true →
    Agree (mentionsOfProperties scope properties) bound scope [] →
    (propertiesReplacements values bound properties).Perm
      ((mentionsOfProperties scope properties).filterMap (Mention.edit? values))
  | [], _, _, _, _ => .refl _
  | .shorthand extent word :: rest, bound, scope, clear, agree => by
    rw [propertiesTransparent] at clear
    rw [propertiesReplacements]
    rw [mentionsOfProperties, ← List.singleton_append] at agree ⊢
    refine perm_filterMap_append (.of_eq (complete_shorthand ?_)) ?_
    · exact agree.left _ (List.mem_singleton_self _) List.not_mem_nil
    · exact complete_properties rest clear agree.right
  | .keyed key value :: rest, bound, scope, clear, agree => by
    rw [propertiesTransparent, Bool.and_eq_true, Bool.and_eq_true] at clear
    rw [mentionsOfProperties] at agree ⊢
    rw [propertiesReplacements]
    refine perm_filterMap_append ?_ (complete_properties rest clear.2 agree.right)
    exact List.perm_append_comm.trans (perm_filterMap_append
      (complete_key key clear.1.1 agree.left.left) (value.complete clear.1.2 agree.left.right))
  | .spread term :: rest, bound, scope, clear, agree => by
    rw [propertiesTransparent, Bool.and_eq_true] at clear
    rw [mentionsOfProperties] at agree ⊢
    rw [propertiesReplacements]
    exact perm_filterMap_append (term.complete clear.1 agree.left)
      (complete_properties rest clear.2 agree.right)
  | .defaulted .. :: _, _, _, clear, _ => by
    rw [propertiesTransparent] at clear
    cases clear

theorem complete_key : ∀ (key : Option Term) {bound scope : List String},
    optionTransparent scope key = true → Agree (mentionsOfOption scope key) bound scope [] →
    (keyReplacements values bound key).Perm
      ((mentionsOfOption scope key).filterMap (Mention.edit? values))
  | none, _, _, _, _ => .refl _
  | some term, bound, scope, clear, agree => by
    rw [optionTransparent] at clear
    rw [mentionsOfOption] at agree ⊢
    rw [keyReplacements]
    exact term.complete clear agree

theorem complete_value : ∀ (value : Option Term) {bound scope : List String},
    optionTransparent scope value = true → Agree (mentionsOfOption scope value) bound scope [] →
    (valueReplacements values bound value).Perm
      ((mentionsOfOption scope value).filterMap (Mention.edit? values))
  | none, _, _, _, _ => .refl _
  | some term, bound, scope, clear, agree => by
    rw [optionTransparent] at clear
    rw [mentionsOfOption] at agree ⊢
    rw [valueReplacements]
    exact term.complete clear agree

theorem complete_statements : ∀ (statements : List Statement) {bound scope : List String},
    statementsTransparent scope statements = true → declaredIn statements ⊆ scope →
    Agree (mentionsOfStatements scope statements) bound scope (declaredIn statements) →
    (statementsReplacements values bound statements).Perm
      ((mentionsOfStatements scope statements).filterMap (Mention.edit? values))
  | [], _, _, _, _, _ => .refl _
  | statement :: rest, bound, scope, clear, known, agree => by
    rw [statementsTransparent, Bool.and_eq_true, Bool.and_eq_true] at clear
    rw [mentionsOfStatements] at agree ⊢
    rw [statementsReplacements]
    rw [declaredIn, List.flatMap_cons] at known agree
    have inner : Agree (statement.mentions scope) bound scope statement.declared := by
      intro mention mem undeclared
      refine agree.left mention mem ?_
      rw [List.mem_append]
      rintro (declared | declared)
      · exact undeclared declared
      · exact not_mem_of_unmentioned clear.1.2 mem declared
    obtain ⟨own, after⟩ : _ ∧ ∀ name, name ∈ (statementReplacements values bound statement).2 ↔ _ :=
      statement.complete clear.1.1 (fun name mem => known (List.mem_append_left _ mem)) inner
    refine perm_filterMap_append own (complete_statements rest clear.2
      (fun name mem => known (List.mem_append_right _ mem)) ?_)
    intro mention mem undeclared
    rw [after]
    by_cases declared : mention.name ∈ statement.declared
    · simp [declared, known (List.mem_append_left _ declared)]
    · have outer := agree.right mention mem
        (List.mem_append.not.mpr (not_or.mpr ⟨declared, undeclared⟩))
      simp [declared, outer]

theorem Statement.complete : ∀ (statement : Statement) {bound scope : List String},
    statement.transparent scope = true → statement.declared ⊆ scope →
    Agree (statement.mentions scope) bound scope statement.declared →
    (statementReplacements values bound statement).1.Perm
        ((statement.mentions scope).filterMap (Mention.edit? values)) ∧
      ∀ name, name ∈ (statementReplacements values bound statement).2 ↔
        name ∈ bound ∨ name ∈ statement.declared
  | .declaration _ declarations, bound, scope, clear, known, agree => by
    rw [Statement.transparent] at clear
    rw [Statement.mentions] at agree ⊢
    rw [statementReplacements]
    exact complete_declarations declarations clear known agree
  | .expression term, bound, scope, clear, _, agree => by
    rw [Statement.transparent] at clear
    rw [Statement.mentions] at agree ⊢
    rw [statementReplacements]
    exact ⟨term.complete clear agree, by simp [Statement.declared]⟩
  | .block body, bound, scope, clear, _, agree => by
    rw [Statement.transparent, Bool.and_eq_true] at clear
    rw [Statement.mentions] at agree ⊢
    rw [statementReplacements]
    rw [List.isEmpty_iff] at clear
    have names : ∀ name, name ∈ blockNames body ↔ name ∈ declaredIn body := by
      intro name
      rw [← mem_bodyNames clear.2, bodyNames, clear.1, List.append_nil]
    refine ⟨complete_statements body clear.2 ?_ ?_, by simp [Statement.declared]⟩
    · exact fun name declared => List.mem_append_left _ ((names name).mpr declared)
    · intro mention mem undeclared
      have outer := agree mention mem List.not_mem_nil
      simp [names, undeclared, outer]
  | .branch test consequent alternate, bound, scope, clear, _, agree => by
    rw [Statement.transparent, Bool.and_eq_true, Bool.and_eq_true, Bool.and_eq_true] at clear
    rw [Statement.mentions] at agree ⊢
    rw [statementReplacements]
    have still := declared_of_isStill clear.1.2.1
    obtain ⟨second, between⟩ :
        _ ∧ ∀ name, name ∈ (statementReplacements values bound consequent).2 ↔ _ :=
      consequent.complete clear.1.2.2 (by simp [still]) (still ▸ agree.left.right)
    have unchanged : ∀ name, name ∈ (statementReplacements values bound consequent).2 ↔
        name ∈ bound := by simpa [still] using between
    obtain ⟨third, after⟩ := complete_alternate alternate clear.2
      (fun mention mem free => (unchanged _).trans (agree.right mention mem free))
    refine ⟨perm_filterMap_append (perm_filterMap_append
      (test.complete clear.1.1 agree.left.left) second) third, fun name => ?_⟩
    simp [Statement.declared, after, unchanged]
  | .return value, bound, scope, clear, _, agree => by
    rw [Statement.transparent] at clear
    rw [Statement.mentions] at agree ⊢
    rw [statementReplacements]
    exact ⟨complete_value value clear agree, by simp [Statement.declared]⟩
  | .empty, _, _, _, _, _ => ⟨.refl _, by simp [statementReplacements, Statement.declared]⟩
  | .named _, _, _, clear, _, _ | .other _, _, _, clear, _, _ => by
    rw [Statement.transparent] at clear
    cases clear

theorem complete_alternate : ∀ (alternate : Option Statement) {bound scope : List String},
    alternateTransparent scope alternate = true →
    Agree (mentionsOfAlternate scope alternate) bound scope [] →
    (alternateReplacements values bound alternate).1.Perm
        ((mentionsOfAlternate scope alternate).filterMap (Mention.edit? values)) ∧
      ∀ name, name ∈ (alternateReplacements values bound alternate).2 ↔ name ∈ bound
  | none, _, _, _, _ => ⟨.refl _, fun _ => .rfl⟩
  | some statement, bound, scope, clear, agree => by
    rw [alternateTransparent, Bool.and_eq_true] at clear
    rw [mentionsOfAlternate] at agree ⊢
    rw [alternateReplacements]
    have still := declared_of_isStill clear.1
    obtain ⟨own, after⟩ :
        _ ∧ ∀ name, name ∈ (statementReplacements values bound statement).2 ↔ _ :=
      statement.complete clear.2 (by simp [still]) (still ▸ agree)
    exact ⟨own, by simpa [still] using after⟩

theorem complete_declarations :
    ∀ (declarations : List (Pattern × Option Term)) {bound scope : List String},
      declarationsTransparent scope declarations = true → declaredNames declarations ⊆ scope →
      Agree (mentionsOfDeclarations scope declarations) bound scope (declaredNames declarations) →
      (declarationReplacements values bound declarations).1.Perm
          ((mentionsOfDeclarations scope declarations).filterMap (Mention.edit? values)) ∧
        ∀ name, name ∈ (declarationReplacements values bound declarations).2 ↔
          name ∈ bound ∨ name ∈ declaredNames declarations
  | [], _, _, _, _, _ => ⟨.refl _, by simp [declarationReplacements, declaredNames]⟩
  | (pattern, value) :: rest, bound, scope, clear, known, agree => by
    rw [declarationsTransparent, Bool.and_eq_true, Bool.and_eq_true, Bool.and_eq_true] at clear
    rw [mentionsOfDeclarations] at agree ⊢
    rw [declarationReplacements]
    rw [declaredNames, List.flatMap_cons] at known agree
    have added : ∀ name, name ∈ pattern.addNames bound ↔ name ∈ bound ∨ name ∈ pattern.names :=
      fun name => Pattern.mem_addNames clear.1.1.1
    have inner : ∀ mention ∈ mentionsOfOption scope value ++ mentionsOfDeclarations scope rest,
        mention.name ∉ declaredNames rest →
          (mention.name ∈ pattern.addNames bound ↔ mention.name ∈ scope) := by
      intro mention mem undeclared
      rw [added]
      by_cases declared : mention.name ∈ pattern.names
      · simp [declared, known (List.mem_append_left _ declared)]
      · have outer := agree mention mem
          (List.mem_append.not.mpr (not_or.mpr ⟨declared, undeclared⟩))
        simp [declared, outer]
    have first := complete_value value clear.1.1.2 fun mention mem _ =>
      inner mention (List.mem_append_left _ mem) (not_mem_of_unmentioned clear.1.2 mem)
    obtain ⟨others, after⟩ := complete_declarations rest clear.2
      (fun name mem => known (List.mem_append_right _ mem))
      fun mention mem => inner mention (List.mem_append_right _ mem)
    refine ⟨perm_filterMap_append first others, fun name => ?_⟩
    rw [declaredNames, List.flatMap_cons, List.mem_append, ← declaredNames, ← or_assoc, ← added]
    exact after name

end

end

end Script
end ReactiveTemplate
