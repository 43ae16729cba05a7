import ReactiveTemplate.Script.Statements

/-!
# The layout of terms

A term keeps the places of its names and parentheses.  Here is what it means that these places stand
in the text in the order in which the term lists them, and how a reader that goes through the text
token by token preserves this: every part of the grammar adds the places of what it reads behind
those that were read before.
-/

namespace ReactiveTemplate
namespace Script

/-- An escape is a part of the text. -/
theorem codePoint?_length_le {text : List Char} {point length : Nat}
    (found : codePoint? text = some (point, length)) : length ≤ text.length := by
  revert found
  fun_cases codePoint? text with
  | case2 rest digits _ _ rest' =>
    rintro ⟨⟩
    have after := congrArg List.length rest'
    simp only [List.length_drop, List.length_cons] at after ⊢
    omega
  | case4 => rintro ⟨⟩; simp
  | _ => rintro ⟨⟩

/-- A word is a part of the text. -/
theorem wordFrom_length_le {bound length : Nat} {begun escaped : Bool} {text chars : List Char}
    (word : wordFrom bound begun text = some (chars, length, escaped)) :
    length ≤ text.length := by
  fun_induction wordFrom bound begun text generalizing chars length escaped with
  | case5 bound begun escape point size code c starts chars' more escaped' tail =>
    rename_i ih
    cases word
    have size_le := codePoint?_length_le code
    have more_le := ih tail
    simp only [List.length_drop, List.length_cons] at more_le ⊢
    omega
  | case9 bound begun c rest _ starts chars' more escaped' tail =>
    rename_i ih
    cases word
    simpa using ih tail
  | case1 | case2 | case10 => cases word; exact Nat.zero_le _
  | _ => cases word

/-- A token that is a word is a part of the text. -/
theorem tokenAt_word_le {text : List Char} {word : String} {escaped : Bool} {length : Nat}
    (token : tokenAt text = (.word word escaped, length)) : length ≤ text.length := by
  revert token
  fun_cases tokenAt text with
  | case9 c rest _ _ _ _ starts chars size own found =>
    rw [found]
    rintro ⟨⟩
    exact wordFrom_length_le found
  | _ => simp_all

/-- An escape holds no parentheses. -/
theorem codePoint?_plain {text : List Char} {point length : Nat}
    (found : codePoint? text = some (point, length)) {c : Char} (paren : c = '(' ∨ c = ')') :
    c ∉ text.take length := by
  have noDigit : isHexDigit c = false := by rcases paren with rfl | rfl <;> decide
  revert found
  fun_cases codePoint? text with
  | case2 rest digits _ _ after =>
    rintro ⟨⟩ mem
    have whole : rest.take (digits.length + 1) = digits ++ ['\x7d'] := by
      rw [List.take_add, after]
      exact congrArg (· ++ ['\x7d'])
        (List.prefix_iff_eq_take.mp (List.takeWhile_prefix isHexDigit)).symm
    rw [List.take_succ_cons, whole] at mem
    rcases List.mem_cons.mp mem with rfl | mem
    · exact absurd paren (by decide)
    rcases List.mem_append.mp mem with mem | mem
    · rw [List.all_eq_true.mp List.all_takeWhile c mem] at noDigit
      cases noDigit
    · obtain rfl := List.mem_singleton.mp mem
      exact absurd paren (by decide)
  | case4 a b d e _ _ digits =>
    rintro ⟨⟩ mem
    have mem : c ∈ [a, b, d, e] := by exact mem
    have digit : isHexDigit c = true := by
      simp only [List.mem_cons, List.not_mem_nil, or_false] at mem
      rcases mem with rfl | rfl | rfl | rfl <;> simp_all
    rw [digit] at noDigit
    cases noDigit
  | _ => rintro ⟨⟩

/-- A word holds no parentheses. -/
theorem wordFrom_plain {bound length : Nat} {begun escaped : Bool} {text chars : List Char}
    (word : wordFrom bound begun text = some (chars, length, escaped)) {c : Char}
    (paren : c = '(' ∨ c = ')') : c ∉ text.take length := by
  have noPart : (Text.isIdentifierStart c || Text.isIdentifierPart c) = false := by
    rcases paren with rfl | rfl <;> decide
  fun_induction wordFrom bound begun text generalizing chars length escaped with
  | case5 bound begun escape point size code d starts chars' more escaped' tail =>
    rename_i ih
    cases word
    have outside := codePoint?_plain code paren
    have later := ih tail
    have cut : ('\\' :: 'u' :: escape).take (more + size + 2) =
        '\\' :: 'u' :: (escape.take size ++ (escape.drop size).take more) := by
      rw [← List.take_add, Nat.add_comm size]
      rfl
    rw [cut]
    rintro (_ | ⟨_, _ | ⟨_, mem⟩⟩)
    · exact absurd paren (by decide)
    · exact absurd paren (by decide)
    · rcases List.mem_append.mp mem with mem | mem
      · exact outside mem
      · exact later mem
  | case9 bound begun d rest _ starts chars' more escaped' tail =>
    rename_i ih
    cases word
    rintro (_ | ⟨_, mem⟩)
    · simp_all
    · exact ih tail mem
  | case1 | case2 | case10 =>
    cases word
    simp
  | _ => cases word

/-- A token that is a word holds no parentheses. -/
theorem tokenAt_word_plain {text : List Char} {word : String} {escaped : Bool} {length : Nat}
    (token : tokenAt text = (.word word escaped, length)) {c : Char} (paren : c = '(' ∨ c = ')') :
    c ∉ text.take length := by
  revert token
  fun_cases tokenAt text with
  | case9 c rest _ _ _ _ starts chars size own found =>
    rw [found]
    rintro ⟨⟩
    exact wordFrom_plain found paren
  | _ => simp_all

/-! ## Places -/

/-- A stretch of the text that a term keeps, with the word that stands there, if it is one. -/
structure Place where
  /-- The stretch. -/
  extent : Extent
  /-- The word that it consists of. -/
  word : Option String

namespace Place

/-- The place of a word. -/
def ofWord (extent : Extent) (word : String) : Place := ⟨extent, some word⟩

/-- The place of a parenthesis. -/
def ofMark (index : Nat) : Place := ⟨⟨index, index + 1⟩, none⟩

/-- The place is one of the text, and its word is read there. -/
structure Stands (text : List Char) (place : Place) : Prop where
  /-- The place is not empty. -/
  start_lt : place.extent.start < place.extent.stop
  /-- It ends inside the text. -/
  stop_le : place.extent.stop ≤ text.length
  /-- The word is the token that starts there, and it ends where the place does. -/
  reads : ∀ word, place.word = some word →
    ∃ escaped, tokenAt (text.drop place.extent.start) =
      (.word word escaped, place.extent.stop - place.extent.start)

/-- The first place ends before the second one begins. -/
def Before (first second : Place) : Prop := first.extent.stop ≤ second.extent.start

end Place

/-- The places stand in the text one after the other, all of them before an index. -/
structure InOrder (text : List Char) (places : List Place) (stop : Nat) : Prop where
  /-- None of them reaches into a later one. -/
  pairwise : places.Pairwise Place.Before
  /-- They are places of the text. -/
  stands : ∀ place ∈ places, place.Stands text
  /-- The last one ends before the index. -/
  stop_le : ∀ place ∈ places, place.extent.stop ≤ stop

namespace InOrder

variable {text : List Char} {places : List Place} {stop : Nat}

theorem nil : InOrder text [] stop := ⟨.nil, by simp, by simp⟩

theorem mono {later : Nat} (order : InOrder text places stop) (le : stop ≤ later) :
    InOrder text places later :=
  ⟨order.pairwise, order.stands, fun place mem => Nat.le_trans (order.stop_le place mem) le⟩

theorem sublist {fewer : List Place} (order : InOrder text places stop)
    (sub : fewer.Sublist places) : InOrder text fewer stop :=
  ⟨order.pairwise.sublist sub, fun place mem => order.stands place (sub.subset mem),
    fun place mem => order.stop_le place (sub.subset mem)⟩

/-- Another place may follow. -/
theorem concat {place : Place} {later : Nat} (order : InOrder text places stop)
    (stands : place.Stands text) (start : stop ≤ place.extent.start)
    (le : place.extent.stop ≤ later) : InOrder text (places ++ [place]) later := by
  have stop_le : stop ≤ later := by
    have := stands.start_lt
    omega
  refine ⟨?_, ?_, ?_⟩
  · refine List.pairwise_append.2 ⟨order.pairwise, List.pairwise_singleton _ _, ?_⟩
    intro first mem second last
    rw [List.mem_singleton.1 last]
    exact Nat.le_trans (order.stop_le first mem) start
  · simpa [or_imp, forall_and] using And.intro order.stands stands
  · simpa [or_imp, forall_and] using And.intro (order.mono stop_le).stop_le le

end InOrder

mutual

/-- The places that a term keeps, in the order of the text. -/
@[simp]
def Term.places : Term → List Place
  | .name extent name => [.ofWord extent name]
  | .binary _ left right => left.places ++ right.places
  | .conditional test consequent alternate =>
    test.places ++ consequent.places ++ alternate.places
  | .unary operand | .update operand | .await operand | .chain operand | .typed operand =>
    operand.places
  | .assignment target value => target.places ++ value.places
  | .parenthesized opening closing inner => .ofMark opening :: inner.places ++ [.ofMark closing]
  | .sequence terms | .template terms => placesOfTerms terms
  | .tagged tag parts => tag.places ++ placesOfTerms parts
  | .call callee arguments | .construct callee arguments =>
    callee.places ++ placesOfItems arguments
  | .member object extent name => object.places ++ [.ofWord extent name]
  | .index object key => object.places ++ key.places
  | .object properties => placesOfProperties properties
  | .array elements => placesOfItems elements
  | .arrow _ body | .function _ _ body => placesOfStatements body
  | .literal | .other => []

/-- The places in a list of terms. -/
@[simp]
def placesOfTerms : List Term → List Place
  | [] => []
  | term :: rest => term.places ++ placesOfTerms rest

/-- The places in an argument or an element. -/
@[simp]
def Item.places : Item → List Place
  | .single term | .spread term => term.places
  | .hole => []

/-- The places in arguments or elements. -/
@[simp]
def placesOfItems : List Item → List Place
  | [] => []
  | item :: rest => item.places ++ placesOfItems rest

/-- The places in a property of an object. -/
@[simp]
def Property.places : Property → List Place
  | .shorthand extent name => [.ofWord extent name]
  | .defaulted _ _ value | .spread value => value.places
  | .keyed key value => placesOfOption key ++ value.places

/-- The places in the properties of an object. -/
@[simp]
def placesOfProperties : List Property → List Place
  | [] => []
  | property :: rest => property.places ++ placesOfProperties rest

/-- The places in a statement. -/
@[simp]
def Statement.places : Statement → List Place
  | .declaration _ declarations => placesOfDeclarations declarations
  | .expression term => term.places
  | .block body => placesOfStatements body
  | .branch test consequent alternate =>
    test.places ++ consequent.places ++ placesOfAlternate alternate
  | .return value => placesOfOption value
  | .named _ | .empty | .other _ => []

/-- The places in a list of statements. -/
@[simp]
def placesOfStatements : List Statement → List Place
  | [] => []
  | statement :: rest => statement.places ++ placesOfStatements rest

/-- The places in the second branch of a choice. -/
@[simp]
def placesOfAlternate : Option Statement → List Place
  | none => []
  | some statement => statement.places

/-- The places in a term that may be absent. -/
@[simp]
def placesOfOption : Option Term → List Place
  | none => []
  | some term => term.places

/-- The places in declarations. -/
@[simp]
def placesOfDeclarations : List (Pattern × Option Term) → List Place
  | [] => []
  | (_, value) :: rest => placesOfOption value ++ placesOfDeclarations rest

end

theorem placesOfTerms_eq (terms : List Term) : placesOfTerms terms = terms.flatMap Term.places := by
  induction terms with
  | nil => rfl
  | cons term rest ih => rw [placesOfTerms, ih, List.flatMap_cons]

theorem placesOfItems_eq (items : List Item) : placesOfItems items = items.flatMap Item.places := by
  induction items with
  | nil => rfl
  | cons item rest ih => rw [placesOfItems, ih, List.flatMap_cons]

theorem placesOfProperties_eq (properties : List Property) :
    placesOfProperties properties = properties.flatMap Property.places := by
  induction properties with
  | nil => rfl
  | cons property rest ih => rw [placesOfProperties, ih, List.flatMap_cons]

theorem placesOfStatements_eq (statements : List Statement) :
    placesOfStatements statements = statements.flatMap Statement.places := by
  induction statements with
  | nil => rfl
  | cons statement rest ih => rw [placesOfStatements, ih, List.flatMap_cons]

theorem placesOfOption_eq (term : Option Term) :
    placesOfOption term = (term.map Term.places).getD [] := by
  cases term <;> rfl

theorem placesOfDeclarations_eq (declarations : List (Pattern × Option Term)) :
    placesOfDeclarations declarations = declarations.flatMap (placesOfOption ·.2) := by
  induction declarations with
  | nil => rfl
  | cons item rest ih => rw [placesOfDeclarations, ih, List.flatMap_cons]

/-! ## Readers -/

/-- The cursor stands in the text behind the places. -/
structure Laid (text : List Char) (places : List Place) (cursor : Cursor) : Prop where
  /-- What is left is the rest of the text. -/
  text_eq : cursor.text = text.drop cursor.start
  /-- The places are in order before the cursor. -/
  order : InOrder text places cursor.start

/-- From a cursor on, the reader only stops behind the places of what it gives. -/
def Reader.Yields {α : Type} (text : List Char) (cursor : Cursor) (reader : Reader α)
    (places : α → List Place) : Prop :=
  ∀ value after, reader.read cursor = some (value, after) → Laid text (places value) after

/-- The reader adds the places of what it gives to those that were read before. -/
def Reader.Lays {α : Type} (text : List Char) (reader : Reader α) (places : α → List Place) : Prop :=
  ∀ {before : List Place} {cursor : Cursor}, Laid text before cursor →
    reader.Yields text cursor fun value => before ++ places value

namespace Laid

variable {α β : Type} {text : List Char} {before : List Place} {cursor after : Cursor}
  {places : β → List Place}

theorem sublist {fewer : List Place} (laid : Laid text before cursor)
    (sub : fewer.Sublist before) : Laid text fewer cursor :=
  ⟨laid.text_eq, laid.order.sublist sub⟩

/-- Going on keeps the places. -/
theorem leads (laid : Laid text before cursor) (leads : cursor.Leads after) :
    Laid text before after := by
  refine ⟨?_, laid.order.mono leads.start_le⟩
  rw [leads.text_eq, laid.text_eq, List.drop_drop, Nat.add_sub_cancel' leads.start_le]

/-- A word or a mark at the cursor begins inside the text. -/
theorem inside (laid : Laid text before cursor) (solid : cursor.kind.isSolid = true) :
    cursor.start < text.length := by
  have nonempty := (cursor.solid solid).2
  rw [laid.text_eq] at nonempty
  exact Nat.lt_of_not_le fun reached => nonempty (List.drop_eq_nil_of_le reached)

/-- A word at the cursor becomes a place. -/
theorem word {word : String} {escaped : Bool} (laid : Laid text before cursor)
    (kind : cursor.kind = .word word escaped) :
    Laid text
      (before ++ [.ofWord ⟨cursor.start, cursor.start + cursor.length⟩ word]) cursor.next := by
  have solid : cursor.kind.isSolid = true := by rw [kind]; rfl
  have token : tokenAt (text.drop cursor.start) = (.word word escaped, cursor.length) := by
    rw [← laid.text_eq, cursor.reads word escaped kind, kind]
  have length_le : cursor.length ≤ text.length - cursor.start := by
    simpa using tokenAt_word_le token
  have stands : (Place.ofWord ⟨cursor.start, cursor.start + cursor.length⟩ word).Stands text := by
    refine ⟨Nat.lt_add_of_pos_right (cursor.solid solid).1, ?_, ?_⟩
    · have inside := laid.inside solid
      dsimp only [Place.ofWord]
      omega
    · rintro _ ⟨⟩
      dsimp only [Place.ofWord]
      exact ⟨escaped, by rw [token, Nat.add_sub_cancel_left]⟩
  refine ⟨(laid.leads (.jump cursor cursor.length)).text_eq, ?_⟩
  exact laid.order.concat stands (Nat.le_refl _) (Nat.le_add_right _ _)

/-- A mark at the cursor becomes a place. -/
theorem mark {mark : String} (laid : Laid text before cursor) (kind : cursor.kind = .mark mark) :
    Laid text (before ++ [.ofMark cursor.start]) cursor.next := by
  have solid : cursor.kind.isSolid = true := by rw [kind]; rfl
  have stands : (Place.ofMark cursor.start).Stands text :=
    ⟨Nat.lt_succ_self _, laid.inside solid, by rintro _ ⟨⟩⟩
  have le : cursor.start + 1 ≤ cursor.next.start :=
    Nat.le_trans (Nat.add_le_add_left (cursor.solid solid).1 _) (Nat.le_add_right _ _)
  exact ⟨(laid.leads (.jump cursor cursor.length)).text_eq,
    laid.order.concat stands (Nat.le_refl _) le⟩

/-- Giving a value whose places have been read. -/
theorem give (laid : Laid text before cursor) {value : β}
    (sub : (places value).Sublist before) :
    (pure value : Reader β).Yields text cursor places := by
  rintro _ _ ⟨⟩
  exact laid.sublist sub

end Laid

namespace Reader

variable {α β : Type} {text : List Char} {before : List Place} {cursor : Cursor}
  {places : β → List Place}

theorem read_bind {first : Reader α} {rest : α → Reader β} :
    (first >>= rest).read cursor =
      match first.read cursor with
      | some (value, after) => (rest value).read after
      | none => none := rfl

/-- One reader goes on where the other one stops. -/
theorem Yields.bind {first : Reader α} {rest : α → Reader β} {own : α → List Place}
    (one : first.Yields text cursor own)
    (next : ∀ value {after}, Laid text (own value) after → (rest value).Yields text after places) :
    (first >>= rest).Yields text cursor places := by
  intro value after found
  rw [read_bind] at found
  split at found
  · rename_i between middle same
    exact next _ (one _ _ same) value after found
  · cases found

theorem yields_fail : (fail : Reader β).Yields text cursor places := by rintro _ _ ⟨⟩

theorem yields_cursor {rest : Cursor → Reader β}
    (next : (rest cursor).Yields text cursor places) :
    (Reader.cursor >>= rest).Yields text cursor places := next

theorem yields_kind {rest : TokenKind → Reader β}
    (next : (rest cursor.kind).Yields text cursor places) :
    (kind >>= rest).Yields text cursor places := next

theorem yields_advance {rest : Unit → Reader β}
    (next : (rest ()).Yields text cursor.next places) :
    (advance >>= rest).Yields text cursor places := next

/-- An expected mark is the current token, and is taken. -/
theorem expect_read {mark : String} {after : Cursor}
    (found : (expect mark).read cursor = some ((), after)) :
    cursor.kind = .mark mark ∧ after = cursor.next := by
  have eaten : (eat mark).read cursor =
      if cursor.kind == .mark mark then some (true, cursor.next) else some (false, cursor) := by
    change (ite (cursor.kind == .mark mark) _ _ : Reader Bool).read cursor = _
    split <;> rfl
  rw [expect, read_bind, eaten] at found
  by_cases kind : cursor.kind = .mark mark
  · rw [if_pos (by simpa using kind)] at found
    cases found
    exact ⟨kind, rfl⟩
  · rw [if_neg (by simpa using kind)] at found
    cases found

/-- A step that keeps the layout may be repeated. -/
theorem yields_repeating {initial : β} {step : β → Reader (β × Bool)}
    (laid : Laid text (places initial) cursor)
    (each : ∀ state {cursor}, Laid text (places state) cursor →
      (step state).Yields text cursor fun next => places next.1) :
    (repeating initial step).Yields text cursor places := by
  have iterated : ∀ bound {state : β} {cursor : Cursor}, Laid text (places state) cursor →
      (iterate step bound state).Yields text cursor places := by
    intro bound
    induction bound with
    | zero => exact fun _ => yields_fail
    | succ bound ih =>
      intro state cursor laid
      refine (each state laid).bind fun next _ laid => ?_
      obtain ⟨next, more⟩ := next
      cases more
      · exact laid.give (.refl _)
      · exact ih laid
  exact fun value after found => iterated (cursor.text.length + 2) laid value after found

end Reader

namespace Laid

variable {α β : Type} {text : List Char} {before : List Place} {cursor : Cursor}
  {places : β → List Place}

/-- The places of what is read first stay, and the rest goes on behind them. -/
theorem read (laid : Laid text before cursor) {first : Reader α} {rest : α → Reader β}
    {own : α → List Place} (lays : first.Lays text own)
    (next : ∀ value {after}, Laid text (before ++ own value) after →
      (rest value).Yields text after places) :
    (first >>= rest).Yields text cursor places :=
  (lays laid).bind next

/-- What is read first may be without places. -/
theorem skip (laid : Laid text before cursor) {first : Reader α} {rest : α → Reader β}
    (next : ∀ value {after}, Laid text before after → (rest value).Yields text after places) :
    (first >>= rest).Yields text cursor places := by
  have kept : first.Yields text cursor fun _ => before :=
    fun _ _ found => laid.leads (first.onward found)
  exact kept.bind next

/-- An expected mark becomes a place. -/
theorem expect (laid : Laid text before cursor) {mark : String} {rest : Unit → Reader β}
    (next : ∀ {after}, Laid text (before ++ [.ofMark cursor.start]) after →
      (rest ()).Yields text after places) :
    (Reader.expect mark >>= rest).Yields text cursor places := by
  have taken : (Reader.expect mark).Yields text cursor
      fun _ => before ++ [.ofMark cursor.start] := by
    intro _ after found
    obtain ⟨kind, rfl⟩ := Reader.expect_read found
    exact laid.mark kind
  exact taken.bind fun _ _ laid => next laid

/-- A loop goes on behind what was read, and the rest behind the loop. -/
theorem loop (laid : Laid text before cursor) (kept : α → List Place) {initial : α}
    {step : α → Reader (α × Bool)} {rest : α → Reader β} (start : kept initial = before)
    (each : ∀ state {cursor}, Laid text (kept state) cursor →
      (step state).Yields text cursor fun next => kept next.1)
    (next : ∀ state {after}, Laid text (kept state) after →
      (rest state).Yields text after places) :
    (Reader.repeating initial step >>= rest).Yields text cursor places :=
  (Reader.yields_repeating (start ▸ laid) each).bind next

end Laid

namespace Reader

variable {α : Type} {text : List Char} {own : α → List Place} {item : Reader α}

theorem lays_attempt (lays : item.Lays text own) :
    (attempt item).Lays text fun value => (value.map own).getD [] := by
  intro before cursor laid value after found
  change (match item.read cursor with
    | some (value, after) => some (some value, after)
    | none => some (none, cursor)) = some (value, after) at found
  split at found <;> cases found
  · rename_i same
    exact lays laid _ _ same
  · simpa using laid

theorem lays_commaList {close : String} (lays : item.Lays text own) :
    (commaList close item).Lays text fun values => values.flatMap own := by
  intro before cursor laid
  refine laid.loop (fun values => before ++ values.reverse.flatMap own) (by simp) ?_ ?_
  · intro values _ laid
    refine laid.skip fun closed _ laid => ?_
    split
    · exact laid.give (.refl _)
    · refine laid.read lays fun value _ laid => laid.skip fun comma _ laid => ?_
      split
      · exact laid.give (by simp)
      · exact laid.skip fun _ _ laid => laid.give (by simp)
  · exact fun _ _ laid => laid.give (.refl _)

theorem lays_listUntil {close : String} (lays : item.Lays text own) :
    (listUntil close item).Lays text fun values => values.flatMap own := by
  intro before cursor laid
  refine laid.loop (fun values => before ++ values.reverse.flatMap own) (by simp) ?_ ?_
  · intro values _ laid
    refine laid.skip fun closed _ laid => ?_
    split
    · exact laid.give (.refl _)
    · exact laid.read lays fun value _ laid => laid.give (by simp)
  · exact fun _ _ laid => laid.give (.refl _)

end Reader
end Script
end ReactiveTemplate
