import ReactiveTemplate.Proofs.Script.Layout

/-!
# The grammar lays terms out in order

One lemma for each part of the grammar that gives terms: it adds the places of these terms behind
those that were read before.  The parts contain each other, so the lemmas are about a grammar whose
own parts do so, and the nesting depth carries the induction.
-/

namespace ReactiveTemplate
namespace Script
namespace Grammar

/-- The parts of the grammar add the places of what they give. -/
structure Lays (text : List Char) (g : Grammar) : Prop where
  /-- Expressions without a comma. -/
  assignment : ∀ context allowResult, (g.assignment context allowResult).Lays text Term.places
  /-- Operands joined by operators. -/
  binary : ∀ context level, (g.binary context level).Lays text Term.places
  /-- Operands with prefix operators. -/
  unary : ∀ context, (g.unary context).Lays text Term.places
  /-- Statements. -/
  statement : ∀ context single, (g.statement context single).Lays text Statement.places

namespace Lays

variable {text : List Char} {g : Grammar}

/-! ## Terms -/

theorem expression (lays : g.Lays text) (context : Context) :
    (g.expression context).Lays text Term.places := by
  intro before cursor laid
  refine laid.read (lays.assignment _ _) fun first _ laid => ?_
  refine laid.loop
    (fun terms => before ++ first.places ++ terms.reverse.flatMap Term.places) (by simp) ?_ ?_
  · intro terms _ laid
    refine laid.skip fun comma _ laid => ?_
    split
    · exact laid.read (lays.assignment _ _) fun term _ laid => laid.give (by simp)
    · exact laid.give (.refl _)
  · intro rest _ laid
    split
    · exact laid.give (by simp)
    · exact laid.give (by simp [placesOfTerms_eq])

theorem initializer (lays : g.Lays text) (context : Context) :
    (g.initializer context).Lays text placesOfOption := by
  intro before cursor laid
  refine laid.skip fun found _ laid => ?_
  split
  · exact laid.read (lays.assignment _ _) fun value _ laid => laid.give (.refl _)
  · exact laid.give (by simp)

theorem functionBody (lays : g.Lays text) (context : Context) :
    (g.functionBody context).Lays text placesOfStatements := by
  intro before cursor laid
  rw [funext placesOfStatements_eq]
  exact laid.skip fun _ _ laid => Reader.lays_listUntil (lays.statement _ _) laid

theorem functionRest (lays : g.Lays text) (async generator : Bool) (role : ParameterRole) :
    (g.functionRest async generator role).Lays text fun parts => placesOfStatements parts.2 := by
  intro before cursor laid
  refine laid.skip fun _ _ laid => laid.skip fun _ _ laid => laid.skip fun _ _ laid => ?_
  exact laid.read (lays.functionBody _) fun body _ laid => laid.give (.refl _)

theorem functionTerm (lays : g.Lays text) (async : Bool) :
    (g.functionTerm async).Lays text Term.places := by
  intro before cursor laid
  refine laid.skip fun _ _ laid => laid.skip fun own _ laid => ?_
  exact laid.read (lays.functionRest _ _ _) fun parts _ laid => laid.give (.refl _)

theorem arrowBody (lays : g.Lays text) (context : Context) (allowResult : Bool) :
    (g.arrowBody context allowResult).Lays text placesOfStatements := by
  intro before cursor laid
  refine laid.skip fun block _ laid => ?_
  split
  · exact lays.functionBody _ laid
  · refine laid.read (lays.assignment _ _) fun value _ laid => laid.give ?_
    simp

theorem parenthesizedArrow (lays : g.Lays text) (context : Context) (allowResult : Bool) :
    (g.parenthesizedArrow context allowResult).Lays text Term.places := by
  intro before cursor laid
  refine laid.skip fun _ _ laid => laid.skip fun _ _ laid => laid.skip fun _ _ laid => ?_
  refine laid.skip fun _ _ laid => laid.skip fun _ _ laid => ?_
  exact laid.read (lays.arrowBody _ _) fun body _ laid => laid.give (.refl _)

theorem arrowInChoice (lays : g.Lays text) (context : Context) :
    (g.arrowInChoice context).Lays text Term.places := by
  intro before cursor laid
  refine laid.skip fun _ _ laid => laid.skip fun _ _ laid => laid.skip fun _ _ laid => ?_
  refine laid.skip fun _ _ laid => laid.skip fun _ _ laid => ?_
  refine laid.read (lays.arrowBody _ _) fun body _ laid => ?_
  exact laid.skip fun _ _ laid => laid.skip fun _ _ laid => laid.give (.refl _)

theorem tryParenthesizedArrow (lays : g.Lays text) (context : Context) (allowResult : Bool) :
    (g.tryParenthesizedArrow context allowResult).Lays text placesOfOption := by
  intro before cursor laid
  rw [funext placesOfOption_eq]
  refine laid.skip fun likelihood _ laid => ?_
  split
  · exact laid.give (by simp)
  · exact laid.read (lays.parenthesizedArrow _ _) fun term _ laid => laid.give (.refl _)
  · refine laid.skip fun ahead _ laid => ?_
    split
    · exact laid.give (by simp)
    · split
      · exact laid.read (lays.parenthesizedArrow _ _) fun term _ laid => laid.give (.refl _)
      · exact Reader.lays_attempt (lays.arrowInChoice _) laid

theorem tryAsyncArrow (lays : g.Lays text) (context : Context) (allowResult : Bool) :
    (g.tryAsyncArrow context allowResult).Lays text placesOfOption := by
  intro before cursor laid
  refine laid.skip fun ahead _ laid => ?_
  split
  · exact laid.give (by simp)
  · refine laid.skip fun _ _ laid => laid.skip fun _ _ laid => laid.skip fun _ _ laid => ?_
    refine laid.skip fun _ _ laid => laid.skip fun _ _ laid => laid.skip fun _ _ laid => ?_
    exact laid.read (lays.arrowBody _ _) fun body _ laid => laid.give (.refl _)

theorem classTerm (context : Context) :
    (g.classTerm context).Lays text Term.places := by
  intro before cursor laid
  exact laid.skip fun _ _ laid => laid.skip fun _ _ laid => laid.give (by simp)

/-! ## Lists of terms -/

theorem argument (lays : g.Lays text) (context : Context) :
    (g.argument context).Lays text Item.places := by
  intro before cursor laid
  refine laid.skip fun spread _ laid => ?_
  split
  · exact laid.read (lays.assignment _ _) fun value _ laid => laid.give (.refl _)
  · exact laid.read (lays.assignment _ _) fun value _ laid => laid.give (.refl _)

theorem arguments (lays : g.Lays text) (context : Context) :
    (g.arguments context).Lays text placesOfItems := by
  rw [funext placesOfItems_eq]
  exact Reader.lays_commaList (lays.argument context)

theorem arrayTerm (lays : g.Lays text) (context : Context) :
    (g.arrayTerm context).Lays text Term.places := by
  intro before cursor laid
  refine laid.loop (fun items => before ++ items.reverse.flatMap Item.places) (by simp) ?_ ?_
  · intro items _ laid
    refine laid.skip fun closed _ laid => ?_
    split
    · exact laid.give (.refl _)
    · refine laid.skip fun comma _ laid => ?_
      split
      · exact laid.give (by simp)
      · refine laid.read (lays.argument _) fun item _ laid => laid.skip fun comma _ laid => ?_
        split
        · exact laid.give (by simp)
        · exact laid.skip fun _ _ laid => laid.give (by simp)
  · exact fun items _ laid => laid.give (by simp [placesOfItems_eq])

theorem methodValue (lays : g.Lays text) (async generator : Bool) :
    (g.methodValue async generator).Lays text Term.places := by
  intro before cursor laid
  exact laid.read (lays.functionRest _ _ _) fun parts _ laid => laid.give (.refl _)

theorem templateTerms (lays : g.Lays text) (context : Context) (checkEscapes : Bool) :
    (g.templateTerms context checkEscapes).Lays text placesOfTerms := by
  intro before cursor laid
  refine laid.loop (fun terms => before ++ terms.reverse.flatMap Term.places) (by simp) ?_ ?_
  · intro terms _ laid
    refine laid.skip fun cursor _ laid => ?_
    split
    · exact Reader.yields_fail
    · refine laid.skip fun _ _ laid => ?_
      split
      · exact laid.skip fun _ _ laid => laid.give (.refl _)
      · refine laid.skip fun _ _ laid => laid.read (lays.expression _) fun term _ laid => ?_
        exact laid.skip fun _ _ laid => laid.skip fun _ _ laid => laid.give (by simp)
  · exact fun terms _ laid => laid.give (by simp [placesOfTerms_eq])

/-- A key that is a word becomes a place. -/
theorem propertyKey_yields (lays : g.Lays text) (context : Context) {before : List Place}
    {cursor : Cursor} (laid : Laid text before cursor) :
    (g.propertyKey context).Yields text cursor fun key =>
      before ++ (key.1.map (Place.ofWord ⟨cursor.start, cursor.start + cursor.length⟩)).toList ++
        placesOfOption key.2 := by
  refine Reader.yields_kind ?_
  split
  · rename_i word escaped kind
    exact Reader.yields_advance ((laid.word kind).give (by simp))
  · exact laid.skip fun _ _ laid => laid.give (by simp)
  · exact laid.skip fun _ _ laid => laid.give (by simp)
  · refine laid.skip fun _ _ laid => laid.read (lays.assignment _ _) fun key _ laid => ?_
    exact laid.skip fun _ _ laid => laid.give (by simp)
  · exact Reader.yields_fail

theorem propertyKey (lays : g.Lays text) (context : Context) :
    (g.propertyKey context).Lays text fun key => placesOfOption key.2 := by
  intro before cursor laid value after found
  exact (lays.propertyKey_yields context laid value after found).sublist (by simp)

theorem plainProperty (lays : g.Lays text) (context : Context) :
    (g.plainProperty context).Lays text Property.places := by
  intro before cursor laid
  refine Reader.yields_cursor ((lays.propertyKey_yields _ laid).bind fun key _ laid => ?_)
  obtain ⟨word, key⟩ := key
  refine laid.skip fun _ _ laid => laid.skip fun _ _ laid => ?_
  split
  · refine laid.read (lays.methodValue _ _) fun value _ laid => laid.give ?_
    simp
  · refine laid.skip fun colon _ laid => ?_
    split
    · refine laid.read (lays.assignment _ _) fun value _ laid => laid.give ?_
      simp
    · split
      · exact Reader.yields_fail
      · refine laid.skip fun _ _ laid => laid.read (lays.initializer _) fun value _ laid => ?_
        split
        · exact laid.give (by simp)
        · refine laid.skip fun _ _ laid => laid.give ?_
          simp

theorem property (lays : g.Lays text) (context : Context) :
    (g.property context).Lays text Property.places := by
  intro before cursor laid
  have method : ∀ async generator {before : List Place} {cursor : Cursor},
      Laid text before cursor →
        (do
          let key ← g.propertyKey context
          return Property.keyed key.2 (← g.methodValue async generator)).Yields text cursor
          fun property => before ++ property.places := by
    intro async generator before cursor laid
    refine laid.read (lays.propertyKey _) fun key _ laid => ?_
    exact laid.read (lays.methodValue _ _) fun value _ laid =>
      laid.give (by simp)
  refine laid.skip fun spread _ laid => ?_
  split
  · exact laid.read (lays.assignment _ _) fun value _ laid => laid.give (.refl _)
  · refine laid.skip fun generator _ laid => ?_
    split
    · exact method false true laid
    · refine laid.skip fun _ _ laid => laid.skip fun _ _ laid => laid.skip fun _ _ laid => ?_
      split
      · exact laid.skip fun _ _ laid => method false false laid
      · refine laid.skip fun _ _ laid => laid.skip fun _ _ laid => laid.skip fun _ _ laid => ?_
        refine laid.skip fun _ _ laid => ?_
        split
        · refine laid.skip fun _ _ laid => laid.skip fun generator _ laid => ?_
          exact method true generator laid
        · exact lays.plainProperty _ laid

theorem parenthesizedTerm (lays : g.Lays text) (context : Context) :
    (g.parenthesizedTerm context).Lays text Term.places := by
  intro before cursor laid
  refine Reader.yields_cursor (laid.expect fun laid => ?_)
  refine laid.read (lays.expression _) fun inner _ laid => Reader.yields_cursor ?_
  exact laid.expect fun laid => laid.give (by simp)

theorem regexTerm : Grammar.regexTerm.Lays text Term.places := by
  intro before cursor laid
  refine laid.skip fun cursor _ laid => ?_
  split
  · exact laid.skip fun _ _ laid => laid.give (by simp)
  · exact Reader.yields_fail

theorem importTerm (context : Context) : (g.importTerm context).Lays text Term.places := by
  intro before cursor laid
  refine laid.skip fun _ _ laid => laid.skip fun dot _ laid => ?_
  split
  · refine laid.skip fun word _ laid => ?_
    split
    · exact laid.give (by simp)
    · refine laid.skip fun _ _ laid => laid.skip fun _ _ laid => laid.skip fun items _ laid => ?_
      exact laid.skip fun _ _ laid => laid.give (by simp)
  · refine laid.skip fun _ _ laid => laid.skip fun items _ laid => laid.skip fun _ _ laid => ?_
    exact laid.skip fun _ _ laid => laid.give (by simp)

/-! ## Accesses and operators -/

/-- A step that turns a term that has been read into one that is longer. -/
def Grows (text : List Char) (reader : Term → Reader Term) : Prop :=
  ∀ term {before : List Place} {cursor : Cursor}, Laid text (before ++ term.places) cursor →
    (reader term).Yields text cursor fun longer => before ++ longer.places

theorem namedMember : Grows text Grammar.namedMember := by
  intro object before cursor laid
  have word : anyWord.Yields text cursor fun word =>
      before ++ object.places ++ [.ofWord ⟨cursor.start, cursor.start + cursor.length⟩ word] := by
    refine Reader.yields_kind ?_
    split
    · rename_i word escaped kind
      exact Reader.yields_advance ((laid.word kind).give (.refl _))
    · exact Reader.yields_fail
  exact Reader.yields_cursor (word.bind fun word _ laid => laid.give (by simp))

theorem dotMember : Grows text Grammar.dotMember := by
  intro object before cursor laid
  refine laid.skip fun kind _ laid => ?_
  split
  · exact laid.skip fun _ _ laid => laid.give (by simp)
  · exact namedMember object laid

theorem computedMember (lays : g.Lays text) (context : Context) :
    Grows text (g.computedMember context) := by
  intro object before cursor laid
  refine laid.read (lays.expression _) fun key _ laid => laid.skip fun _ _ laid => ?_
  exact laid.give (by simp)

theorem taggedTemplate (lays : g.Lays text) (context : Context) (chained : Bool) :
    Grows text (g.taggedTemplate context · chained) := by
  intro tag before cursor laid
  refine laid.skip fun _ _ laid => laid.read (lays.templateTerms _ _) fun parts _ laid => ?_
  exact laid.give (by simp)

theorem typeArgumentStep (lays : g.Lays text) (context : Context) (chained : Bool) (term : Term)
    {before : List Place} {cursor : Cursor} (laid : Laid text (before ++ term.places) cursor) :
    (g.typeArgumentStep context term chained).Yields text cursor
      fun longer => before ++ (longer.getD term).places := by
  refine laid.skip fun types _ laid => ?_
  split
  · exact laid.give (.refl _)
  · refine laid.skip fun called _ laid => ?_
    split
    · refine laid.read (lays.arguments _) fun items _ laid => ?_
      exact laid.give (by simp)
    · refine laid.skip fun kind _ laid => ?_
      split
      · exact (lays.taggedTemplate _ _ _ laid).bind fun tagged _ laid => laid.give (.refl _)
      · exact laid.give (by simp)

theorem memberStep (lays : g.Lays text) (context : Context) (allowOptional : Bool)
    {state : Term × Bool} {before : List Place} {cursor : Cursor}
    (laid : Laid text (before ++ state.1.places) cursor) :
    (g.memberStep context allowOptional state).Yields text cursor
      fun next => before ++ next.1.1.places := by
  refine laid.skip fun cursor _ laid => ?_
  split
  · refine laid.skip fun _ _ laid => (dotMember _ laid).bind fun term _ laid => ?_
    exact laid.give (.refl _)
  · split
    · refine laid.skip fun _ _ laid => laid.skip fun _ _ laid => ?_
      exact (dotMember _ laid).bind fun term _ laid => laid.give (.refl _)
    · refine laid.skip fun _ _ laid => laid.skip fun _ _ laid => ?_
      exact (dotMember _ laid).bind fun term _ laid => laid.give (.refl _)
    · refine laid.skip fun _ _ laid => laid.skip fun _ _ laid => laid.skip fun _ _ laid => ?_
      exact (lays.computedMember _ _ laid).bind fun term _ laid => laid.give (.refl _)
    · exact Reader.yields_fail
    · exact laid.give (.refl _)
  · refine laid.skip fun _ _ laid => ?_
    exact (lays.computedMember _ _ laid).bind fun term _ laid => laid.give (.refl _)
  · exact (lays.taggedTemplate _ _ _ laid).bind fun term _ laid => laid.give (.refl _)
  · split
    · exact laid.give (.refl _)
    · exact laid.skip fun _ _ laid => laid.give (by simp)
  · refine (lays.typeArgumentStep _ _ _ laid).bind fun longer _ laid => ?_
    split
    · exact laid.give (.refl _)
    · exact laid.give (.refl _)
  · refine (lays.typeArgumentStep _ _ _ laid).bind fun longer _ laid => ?_
    split
    · exact laid.give (.refl _)
    · exact laid.give (.refl _)
  · exact laid.give (.refl _)

theorem constructTerm (lays : g.Lays text) (context : Context) {primary : Reader Term}
    (first : primary.Lays text Term.places) :
    (g.constructTerm context primary).Lays text Term.places := by
  intro before cursor laid
  refine laid.skip fun dot _ laid => ?_
  split
  · exact laid.skip fun _ _ laid => laid.give (by simp)
  · refine laid.skip fun _ _ laid => laid.skip fun _ _ laid => ?_
    refine laid.read first fun callee _ laid => ?_
    refine laid.loop (fun state => before ++ state.1.places) rfl ?_ ?_
    · intro state _ laid
      refine laid.skip fun kind _ laid => ?_
      split
      · refine laid.skip fun types _ laid => ?_
        split
        · exact laid.give (.refl _)
        · exact laid.give (.refl _)
      · refine laid.skip fun types _ laid => ?_
        split
        · exact laid.give (.refl _)
        · exact laid.give (.refl _)
      · exact lays.memberStep _ _ laid
    · intro state _ laid
      refine laid.skip fun _ _ laid => laid.skip fun _ _ laid => laid.skip fun called _ laid => ?_
      split
      · refine laid.read (lays.arguments _) fun items _ laid => ?_
        exact laid.give (by simp)
      · exact laid.give (by simp)

theorem primaryTerm (lays : g.Lays text) (context : Context) (bound : Nat) :
    (g.primaryTerm context bound).Lays text Term.places := by
  induction bound with
  | zero => exact fun _ => Reader.yields_fail
  | succ bound ih =>
    intro before cursor laid
    refine Reader.yields_cursor ?_
    split
    · exact laid.skip fun _ _ laid => laid.give (by simp)
    · exact laid.skip fun _ _ laid => laid.give (by simp)
    · exact laid.read (lays.templateTerms _ _) fun parts _ laid => laid.give (.refl _)
    · exact lays.parenthesizedTerm _ laid
    · exact laid.skip fun _ _ laid => lays.arrayTerm _ laid
    · refine laid.skip fun _ _ laid => ?_
      refine laid.read (Reader.lays_commaList (lays.property _)) fun properties _ laid => ?_
      exact laid.give (by simp [placesOfProperties_eq])
    · exact regexTerm laid
    · exact regexTerm laid
    · exact laid.skip fun _ _ laid => laid.skip fun _ _ laid => classTerm _ laid
    · rename_i word escaped kind
      split
      · split
        · exact laid.skip fun _ _ laid => laid.skip fun _ _ laid => lays.functionTerm _ laid
        · exact Reader.yields_advance ((laid.word kind).give (by simp))
      · refine laid.skip fun _ _ laid => ?_
        split
        · exact laid.skip fun _ _ laid => laid.give (by simp)
        · exact laid.skip fun _ _ laid => laid.give (by simp)
        · exact laid.skip fun _ _ laid => laid.give (by simp)
        · exact laid.skip fun _ _ laid => laid.give (by simp)
        · exact laid.skip fun _ _ laid => lays.functionTerm _ laid
        · exact laid.skip fun _ _ laid => classTerm _ laid
        · exact laid.skip fun _ _ laid => lays.constructTerm _ ih laid
        · refine laid.skip fun _ _ laid => laid.skip fun _ _ laid => laid.skip fun _ _ laid => ?_
          refine laid.skip fun _ _ laid => laid.skip fun _ _ laid => ?_
          exact laid.give (by simp)
        · exact importTerm _ laid
        · exact Reader.yields_fail
    · exact Reader.yields_fail

theorem accessStep (lays : g.Lays text) (context : Context) {state : Term × Bool}
    {before : List Place} {cursor : Cursor} (laid : Laid text (before ++ state.1.places) cursor) :
    (g.accessStep context state).Yields text cursor fun next => before ++ next.1.1.places := by
  refine (lays.memberStep _ _ laid).bind fun next _ laid => ?_
  obtain ⟨state, more⟩ := next
  cases more
  case true => exact laid.give (.refl _)
  case false =>
    refine laid.skip fun called _ laid => ?_
    split
    · refine laid.read (lays.arguments _) fun items _ laid => ?_
      exact laid.give (by simp)
    · refine laid.skip fun optional _ laid => ?_
      split
      · refine laid.skip fun _ _ laid => laid.skip fun _ _ laid => ?_
        refine laid.read (lays.arguments _) fun items _ laid => ?_
        exact laid.give (by simp)
      · exact laid.give (.refl _)

theorem places_asChain (state : Term × Bool) : (asChain state).places = state.1.places := by
  fun_cases asChain state <;> simp

theorem accessTerm (lays : g.Lays text) (context : Context) :
    (g.accessTerm context).Lays text Term.places := by
  intro before cursor laid
  refine laid.skip fun _ _ laid => laid.read (lays.primaryTerm _ _) fun first _ laid => ?_
  refine laid.loop (fun state => before ++ state.1.places) rfl ?_ ?_
  · exact fun state _ laid => lays.accessStep _ laid
  · exact fun state _ laid => laid.give (by simp [places_asChain])

theorem updateTerm (lays : g.Lays text) (context : Context) :
    (g.updateTerm context).Lays text Term.places := by
  intro before cursor laid
  refine laid.skip fun cursor _ laid => ?_
  split
  · refine laid.skip fun _ _ laid => laid.read (lays.unary _) fun target _ laid => ?_
    exact laid.skip fun _ _ laid => laid.give (by simp)
  · refine laid.skip fun _ _ laid => laid.read (lays.unary _) fun target _ laid => ?_
    exact laid.skip fun _ _ laid => laid.give (by simp)
  · exact laid.skip fun _ _ laid => laid.skip fun _ _ laid => laid.give (by simp)
  · refine laid.read (lays.accessTerm _) fun term _ laid => laid.skip fun _ _ laid => ?_
    refine laid.skip fun _ _ laid => laid.skip fun _ _ laid => ?_
    split
    · refine laid.skip fun _ _ laid => laid.skip fun _ _ laid => ?_
      exact laid.give (by simp)
    · exact laid.give (.refl _)

theorem readUnary (lays : g.Lays text) (context : Context) :
    (g.readUnary context).Lays text Term.places := by
  intro before cursor laid
  have prefixed : ∀ {cursor : Cursor}, Laid text before cursor →
      (do
        Reader.advance
        return Term.unary (← g.unary context)).Yields text cursor
        fun term => before ++ term.places := by
    intro cursor laid
    refine laid.skip fun _ _ laid => laid.read (lays.unary _) fun operand _ laid => ?_
    exact laid.give (by simp)
  refine laid.skip fun kind _ laid => ?_
  split
  · exact prefixed laid
  · exact prefixed laid
  · exact prefixed laid
  · exact prefixed laid
  · exact prefixed laid
  · exact prefixed laid
  · exact prefixed laid
  · split
    · refine laid.skip fun _ _ laid => laid.read (lays.unary _) fun operand _ laid => ?_
      exact laid.give (by simp)
    · exact lays.updateTerm _ laid
  · exact lays.updateTerm _ laid

theorem firstOperand (lays : g.Lays text) (context : Context) (level : Nat) :
    (g.firstOperand context level).Lays text Term.places := by
  intro before cursor laid
  refine laid.skip fun kind _ laid => ?_
  split
  · refine laid.skip fun _ _ laid => laid.skip fun _ _ laid => laid.skip fun _ _ laid => ?_
    exact laid.skip fun _ _ laid => laid.give (by simp)
  · exact lays.unary _ laid

theorem readBinary (lays : g.Lays text) (context : Context) (level : Nat) :
    (g.readBinary context level).Lays text Term.places := by
  intro before cursor laid
  refine laid.read (lays.firstOperand _ _) fun first _ laid => ?_
  refine Reader.yields_repeating laid fun left _ laid => ?_
  refine laid.skip fun _ _ laid => laid.skip fun cursor _ laid => ?_
  split
  · exact laid.give (.refl _)
  · split
    · exact laid.give (.refl _)
    · split
      · exact laid.give (.refl _)
      · split
        · split
          · exact laid.give (.refl _)
          · refine laid.skip fun _ _ laid => laid.skip fun _ _ laid => ?_
            exact laid.give (by simp)
        · refine laid.skip fun _ _ laid => laid.read (lays.binary _ _) fun right _ laid => ?_
          exact laid.skip fun _ _ laid => laid.give (by simp)

theorem yieldTerm (context : Context) : (g.yieldTerm context).Lays text Term.places := by
  intro before cursor laid
  exact laid.skip fun _ _ laid => laid.skip fun _ _ laid => laid.give (by simp)

theorem assignmentRest (lays : g.Lays text) (context : Context) (allowResult : Bool) :
    Grows text (g.assignmentRest context allowResult) := by
  intro left before cursor laid
  refine laid.skip fun _ _ laid => laid.skip fun cursor _ laid => ?_
  split
  · refine laid.skip fun _ _ laid => laid.read (lays.arrowBody _ _) fun body _ laid => ?_
    exact laid.give (by simp)
  · split
    · refine laid.skip fun _ _ laid => laid.skip fun _ _ laid => ?_
      refine laid.read (lays.assignment _ _) fun value _ laid => ?_
      exact laid.give (by simp)
    · split
      · refine laid.skip fun _ _ laid => laid.read (lays.assignment _ _) fun consequent _ laid => ?_
        refine laid.skip fun _ _ laid => laid.read (lays.assignment _ _) fun alternate _ laid => ?_
        exact laid.give (by simp)
      · exact laid.give (.refl _)
  · exact laid.give (.refl _)

theorem readAssignment (lays : g.Lays text) (context : Context) (allowResult : Bool) :
    (g.readAssignment context allowResult).Lays text Term.places := by
  intro before cursor laid
  refine laid.skip fun _ _ laid => ?_
  split
  · exact yieldTerm _ laid
  · refine laid.read (lays.tryParenthesizedArrow _ _) fun arrow _ laid => ?_
    split
    · exact laid.give (.refl _)
    · refine laid.read (lays.tryAsyncArrow _ _) fun arrow _ laid => ?_
      split
      · exact laid.give (by simp)
      · refine laid.read (lays.binary _ _) fun left _ laid => ?_
        exact lays.assignmentRest _ _ left (by simpa [placesOfOption] using laid)

/-! ## Statements -/

theorem declarator (lays : g.Lays text) (context : Context) (constant inHead : Bool) :
    (g.declarator context constant inHead).Lays text fun item => placesOfOption item.2 := by
  intro before cursor laid
  refine laid.skip fun pattern _ laid => laid.skip fun _ _ laid => laid.skip fun _ _ laid => ?_
  refine laid.read (lays.initializer _) fun value _ laid => laid.skip fun _ _ laid => ?_
  exact laid.give (.refl _)

theorem declarations (lays : g.Lays text) (context : Context) (constant inHead : Bool) :
    (g.declarations context constant inHead).Lays text placesOfDeclarations := by
  intro before cursor laid
  rw [funext placesOfDeclarations_eq]
  refine laid.loop
    (fun items => before ++ items.reverse.flatMap (placesOfOption ·.2)) (by simp) ?_ ?_
  · intro items _ laid
    refine laid.read (lays.declarator _ _ _) fun item _ laid => laid.skip fun comma _ laid => ?_
    exact laid.give (by simp)
  · exact fun items _ laid => laid.give (.refl _)

theorem tryResources (lays : g.Lays text) (context : Context) (inHead : Bool) :
    (g.tryResources context inHead).Lays text
      fun found => placesOfDeclarations (found.getD []) := by
  intro before cursor laid
  refine laid.skip fun words _ laid => ?_
  split
  · refine laid.read (lays.declarations _ _ _) fun items _ laid => laid.skip fun _ _ laid => ?_
    exact laid.give (.refl _)
  · exact laid.give (by simp)

theorem block (lays : g.Lays text) (context : Context) :
    (g.block context).Lays text placesOfStatements := by
  intro before cursor laid
  rw [funext placesOfStatements_eq]
  exact laid.skip fun _ _ laid => Reader.lays_listUntil (lays.statement _ _) laid

theorem condition (lays : g.Lays text) (context : Context) :
    (g.condition context).Lays text Term.places := by
  intro before cursor laid
  refine laid.skip fun _ _ laid => laid.read (lays.expression _) fun test _ laid => ?_
  exact laid.skip fun _ _ laid => laid.give (.refl _)

theorem enumeration (context : Context) : (g.enumeration context).Lays text Statement.places := by
  intro before cursor laid
  refine laid.skip fun _ _ laid => laid.skip fun _ _ laid => laid.skip fun _ _ laid => ?_
  exact laid.give (by simp)

theorem classDeclaration (context : Context) :
    (g.classDeclaration context).Lays text Statement.places := by
  intro before cursor laid
  exact laid.skip fun _ _ laid => laid.skip fun _ _ laid => laid.give (by simp)

theorem functionDeclaration (context : Context) (async : Bool) :
    (g.functionDeclaration context async).Lays text Statement.places := by
  intro before cursor laid
  refine laid.skip fun _ _ laid => laid.skip fun _ _ laid => laid.skip fun _ _ laid => ?_
  refine laid.skip fun _ _ laid => laid.skip fun _ _ laid => laid.skip fun _ _ laid => ?_
  split
  · exact laid.skip fun _ _ laid => laid.give (by simp)
  · exact laid.skip fun _ _ laid => laid.give (by simp)

theorem tryTypeDeclaration (context : Context) :
    (g.tryTypeDeclaration context).Lays text placesOfAlternate := by
  intro before cursor laid
  refine laid.skip fun named _ laid => laid.skip fun _ _ laid => laid.skip fun _ _ laid => ?_
  split
  · refine laid.skip fun _ _ laid => laid.skip fun _ _ laid => laid.give ?_
    simp
  · refine laid.skip fun _ _ laid => ?_
    split
    · refine laid.skip fun _ _ laid => laid.skip fun _ _ laid => laid.give ?_
      simp
    · refine laid.skip fun enum _ laid => ?_
      split
      · exact laid.read (enumeration _) fun statement _ laid => laid.give (.refl _)
      · refine laid.skip fun abstract _ laid => ?_
        split
        · refine laid.skip fun _ _ laid => laid.skip fun _ _ laid => ?_
          exact laid.read (classDeclaration _) fun statement _ laid => laid.give (.refl _)
        · exact laid.give (by simp)

theorem plainStatement (lays : g.Lays text) (context : Context) :
    (g.plainStatement context).Lays text Statement.places := by
  intro before cursor laid
  refine laid.read (lays.expression _) fun term _ laid => ?_
  split
  · refine laid.skip fun colon _ laid => ?_
    split
    · refine laid.skip fun _ _ laid => laid.give ?_
      simp
    · exact laid.skip fun _ _ laid => laid.give (.refl _)
  · exact laid.skip fun _ _ laid => laid.give (.refl _)

theorem tryKeywordStatement (lays : g.Lays text) (context : Context) (single : Bool) :
    (g.tryKeywordStatement context single).Lays text placesOfAlternate := by
  intro before cursor laid
  refine laid.skip fun kind _ laid => ?_
  split
  · refine laid.skip fun _ _ laid => laid.read (lays.declarations _ _ _) fun items _ laid => ?_
    exact laid.skip fun _ _ laid => laid.give (.refl _)
  · refine laid.skip fun _ _ laid => laid.skip fun _ _ laid => laid.skip fun enum _ laid => ?_
    split
    · refine laid.skip fun _ _ laid => laid.read (enumeration _) fun statement _ laid => ?_
      exact laid.give (.refl _)
    · refine laid.read (lays.declarations _ _ _) fun items _ laid => ?_
      exact laid.skip fun _ _ laid => laid.give (.refl _)
  · refine laid.skip fun _ _ laid => laid.read (functionDeclaration _ _) fun function _ laid => ?_
    exact laid.give (.refl _)
  · refine laid.skip fun _ _ laid => laid.skip fun _ _ laid => ?_
    exact laid.read (classDeclaration _) fun statement _ laid => laid.give (.refl _)
  · refine laid.skip fun _ _ laid => laid.read (lays.condition _) fun test _ laid => ?_
    refine laid.read (lays.statement _ _) fun consequent _ laid => laid.skip fun _ _ laid => ?_
    split
    · refine laid.read (lays.statement _ _) fun alternate _ laid => laid.give ?_
      simp
    · exact laid.give (by simp)
  · refine laid.skip fun _ _ laid => laid.skip fun _ _ laid => laid.skip fun _ _ laid => ?_
    refine laid.skip fun _ _ laid => laid.skip fun _ _ laid => laid.give ?_
    simp
  · refine laid.skip fun _ _ laid => laid.skip fun _ _ laid => laid.skip fun _ _ laid => ?_
    exact laid.give (by simp)
  · refine laid.skip fun _ _ laid => laid.skip fun _ _ laid => laid.skip fun _ _ laid => ?_
    exact laid.give (by simp)
  · refine laid.skip fun _ _ laid => laid.skip fun _ _ laid => laid.skip fun _ _ laid => ?_
    refine laid.skip fun _ _ laid => laid.skip fun _ _ laid => laid.give ?_
    simp
  · refine laid.skip fun _ _ laid => laid.skip fun _ _ laid => laid.skip fun cursor _ laid => ?_
    split
    · refine laid.skip fun _ _ laid => laid.give ?_
      simp
    · refine laid.read (lays.expression _) fun value _ laid => laid.skip fun _ _ laid => ?_
      exact laid.give (by simp)
  · refine laid.skip fun _ _ laid => laid.skip fun _ _ laid => laid.skip fun _ _ laid => ?_
    refine laid.skip fun _ _ laid => laid.skip fun _ _ laid => laid.give ?_
    simp
  · refine laid.skip fun _ _ laid => laid.skip fun _ _ laid => laid.skip fun _ _ laid => ?_
    exact laid.give (by simp)
  · refine laid.skip fun _ _ laid => laid.skip fun _ _ laid => laid.skip fun _ _ laid => ?_
    exact laid.skip fun _ _ laid => laid.give (by simp)
  · refine laid.skip fun _ _ laid => laid.skip fun _ _ laid => laid.give ?_
    simp
  · refine laid.skip fun _ _ laid => laid.skip fun _ _ laid => laid.skip fun _ _ laid => ?_
    exact laid.give (by simp)
  · refine laid.skip fun _ _ laid => laid.skip fun _ _ laid => laid.skip fun _ _ laid => ?_
    exact laid.give (by simp)
  · exact laid.give (by simp)

theorem readStatement (lays : g.Lays text) (context : Context) (single : Bool) :
    (g.readStatement context single).Lays text Statement.places := by
  intro before cursor laid
  refine laid.skip fun cursor _ laid => laid.skip fun _ _ laid => ?_
  split
  · exact laid.read (lays.block _) fun body _ laid => laid.give (.refl _)
  · refine laid.skip fun empty _ laid => ?_
    split
    · exact laid.give (by simp)
    · refine laid.read (lays.tryKeywordStatement _ _) fun found _ laid => ?_
      split
      · exact laid.give (.refl _)
      · rw [placesOfAlternate, List.append_nil] at laid
        refine laid.skip fun _ _ laid => laid.skip fun _ _ laid => ?_
        split
        · refine laid.skip fun _ _ laid => laid.skip fun _ _ laid => ?_
          refine laid.read (lays.declarations _ _ _) fun items _ laid => ?_
          exact laid.skip fun _ _ laid => laid.give (by simp)
        · refine laid.read (lays.tryResources _ _) fun resources _ laid => ?_
          cases resources with
          | some items =>
              refine laid.skip fun _ _ laid => laid.skip fun _ _ laid => laid.give ?_
              simp
          | none =>
              rw [Option.getD_none, placesOfDeclarations, List.append_nil] at laid
              refine laid.skip fun _ _ laid => ?_
              split
              · refine laid.skip fun _ _ laid => laid.skip fun _ _ laid => ?_
                exact laid.skip fun _ _ laid => functionDeclaration _ _ laid
              · refine laid.read (tryTypeDeclaration _) fun found _ laid => ?_
                split
                · exact laid.give (by simp)
                · exact lays.plainStatement _ (by simpa [placesOfAlternate] using laid)

end Lays

/-- The grammar lays out what it reads, whatever the depth of nesting. -/
theorem lays_grammar (text : List Char) (depth : Nat) : (grammar depth).Lays text := by
  induction depth with
  | zero =>
    exact ⟨fun _ _ _ _ _ => Reader.yields_fail, fun _ _ _ _ _ => Reader.yields_fail,
      fun _ _ _ _ => Reader.yields_fail, fun _ _ _ _ _ => Reader.yields_fail⟩
  | succ depth ih =>
    exact ⟨ih.readAssignment, ih.readBinary, ih.readUnary, ih.readStatement⟩

end Grammar

/-- The places in a program that was read stand in its text in order. -/
theorem readProgram_inOrder {text : List Char} {statements : List Statement}
    (read : readProgram text = some statements) :
    ∃ stop, InOrder text (placesOfStatements statements) stop := by
  have laid : Laid text [] (Cursor.ofText text 0) := ⟨by simp [Cursor.ofText], .nil⟩
  obtain ⟨⟨statements, after⟩, found, rfl⟩ := Option.map_eq_some_iff.1 read
  suffices done : Laid text (placesOfStatements statements) after from ⟨after.start, done.order⟩
  refine laid.loop (fun items => items.reverse.flatMap Statement.places) rfl ?_ ?_ _ _ found
  · intro items _ laid
    refine laid.skip fun kind _ laid => ?_
    split
    · exact laid.give (.refl _)
    · refine laid.read ((Grammar.lays_grammar _ _).statement _ _) fun statement _ laid => ?_
      exact laid.give (by simp)
  · intro items _ laid
    refine laid.skip fun _ _ laid => laid.skip fun _ _ laid => laid.give ?_
    simp [placesOfStatements_eq]

end Script
end ReactiveTemplate
