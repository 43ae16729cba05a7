import ReactiveTemplate.Proofs.Markup.Token

/-!
# Texts that bring tokens

A text brings some tokens if reading it between tags hands them over and ends between tags again,
whatever comes next and whoever takes the tokens, as long as the text after each of them is to be
read as before.  Such texts can be put one after the other.  Among them are characters of text,
character references with a closing semicolon, tags and document types.
-/

namespace ReactiveTemplate
namespace Markup

variable {σ : Type} {consumer : Consumer σ} {state next : σ} {text first second : List Char}
  {tokens left right : List Token} {s : TokenizerState}

/-- The state of a consumer after some tokens, if it has the text after each of them read as
before. -/
def Consumer.accept (consumer : Consumer σ) : σ → List Token → Option σ
  | state, [] => some state
  | state, token :: rest =>
    match consumer.take state token with
    | (next, .proceed) => consumer.accept next rest
    | (_, .raw _) | (_, .plaintext) => none

theorem Consumer.accept_append (left right : List Token) (state : σ) :
    consumer.accept state (left ++ right) =
      (consumer.accept state left).bind fun next => consumer.accept next right := by
  induction left generalizing state with
  | nil => rfl
  | cons token rest induction =>
      rw [List.cons_append, Consumer.accept, Consumer.accept]
      split
      · exact induction _
      · rfl
      · rfl

/-- Reading the text between tags brings the tokens. -/
def Delivers (text : List Char) (tokens : List Token) : Prop :=
  ∀ s : TokenizerState, s.Ready → ∃ s' : TokenizerState, s'.Ready ∧
    ∀ (σ : Type) (consumer : Consumer σ) (state next : σ) (more : List Char),
      consumer.accept state tokens = some next →
        consumer.runFrom s state (text ++ more) = consumer.runFrom s' next more

namespace Delivers

theorem nil : Delivers [] [] := by
  intro s ready
  refine ⟨s, ready, ?_⟩
  intro σ consumer state next more accepted
  cases accepted
  rfl

theorem append (before : Delivers first left) (after : Delivers second right) :
    Delivers (first ++ second) (left ++ right) := by
  intro s ready
  obtain ⟨s₁, ready₁, reads₁⟩ := before s ready
  obtain ⟨s₂, ready₂, reads₂⟩ := after s₁ ready₁
  refine ⟨s₂, ready₂, ?_⟩
  intro σ consumer state next more accepted
  rw [Consumer.accept_append, Option.bind_eq_some_iff] at accepted
  obtain ⟨middle, accepted₁, accepted₂⟩ := accepted
  rw [List.append_assoc, reads₁ σ consumer state middle _ accepted₁,
    reads₂ σ consumer middle next more accepted₂]

theorem flatMap {α : Type} {write : α → List Char} {bring : α → List Token} {items : List α}
    (each : ∀ item ∈ items, Delivers (write item) (bring item)) :
    Delivers (items.flatMap write) (items.flatMap bring) := by
  induction items with
  | nil => exact nil
  | cons item rest induction =>
      rw [List.forall_mem_cons] at each
      exact each.1.append (induction each.2)

/-- A text that yields one token wherever tags may stand. -/
theorem of_yields {token : Token}
    (yields : ∀ s : TokenizerState, s.Ready → ∃ s', s'.Ready ∧ Yields s text token s') :
    Delivers text [token] := by
  intro s ready
  obtain ⟨s', ready', yielded⟩ := yields s ready
  refine ⟨s', ready', ?_⟩
  intro σ consumer state next more accepted
  rw [Consumer.accept] at accepted
  split at accepted
  · rename_i taken
    cases accepted
    exact yielded.proceed consumer taken more
  · cases accepted
  · cases accepted

/-- A whole text: after its tokens comes the end. -/
theorem run_eq (delivers : Delivers text tokens) (prepared : prepare text = text)
    (accepted : consumer.accept state tokens = some next) :
    consumer.run state text = (consumer.take next .ending).1 := by
  obtain ⟨s, ready, reads⟩ := delivers {} ⟨rfl, rfl⟩
  have ended : s.finish = [.ending] := by
    rw [TokenizerState.finish, ready.reading]
    rfl
  have read := reads σ consumer state next [] accepted
  rw [List.append_nil] at read
  rw [Consumer.run, prepared, read, Consumer.runFrom, ended, Consumer.takeAll]
  split <;> simp_all [Consumer.takeAll]

end Delivers

/-! ## Character references -/

/-- Characters that belong to what has been read already are passed over. -/
theorem runFrom_skip (consumer : Consumer σ) (state : σ) (text more : List Char)
    (skipped : s.skip = text.length) :
    consumer.runFrom s state (text ++ more) = consumer.runFrom { s with skip := 0 } state more := by
  induction text generalizing s with
  | nil =>
      have same : { s with skip := 0 } = s := by
        rw [← show s.skip = 0 from skipped]
      rw [same, List.nil_append]
  | cons c rest induction =>
      rw [List.length_cons] at skipped
      rw [List.cons_append, Consumer.runFrom, if_pos (by omega)]
      exact induction (by simp [skipped])

/-- A name is found in the same way whatever comes behind the text, if no name goes on there. -/
theorem longestName_append {names : List (String × List Nat)}
    (bounded : ∀ entry ∈ names, text <+: entry.1.toList → entry.1.toList <+: text)
    (more : List Char) : longestName (text ++ more) names = longestName text names := by
  induction names with
  | nil => rfl
  | cons entry rest induction =>
      rw [List.forall_mem_cons] at bounded
      have same : entry.1.toList.isPrefixOf (text ++ more) = entry.1.toList.isPrefixOf text := by
        rw [Bool.eq_iff_iff, List.isPrefixOf_iff_prefix, List.isPrefixOf_iff_prefix]
        constructor
        · intro starts
          rcases List.prefix_or_prefix_of_prefix starts (List.prefix_append text more) with
            inside | beyond
          · exact inside
          · exact bounded.1 beyond
        · exact fun inside => inside.trans (List.prefix_append text more)
      rw [longestName, longestName, same, induction bounded.2]

/-- The text is known as a reference, and no longer name starts with it. -/
def isReference (letter : Char) (name : List Char) (c : Char) : Bool :=
  letter != '#' && longestName (name ++ [';']) (namedReferences letter) ==
      some (name.length + 1, [c.toNat]) &&
    (namedReferences letter).all fun entry =>
      !(name ++ [';']).isPrefixOf entry.1.toList || entry.1.toList.isPrefixOf (name ++ [';'])

/-- A known name with a closing semicolon is a reference, in text and in attributes. -/
theorem reference?_closed {letter c : Char} {name : List Char}
    (known : isReference letter name c = true) (inAttribute : Bool) (more : List Char) :
    reference? inAttribute (letter :: (name ++ ';' :: more)) = some ([c], name.length + 2) := by
  simp only [isReference, Bool.and_eq_true, bne_iff_ne, beq_iff_eq, List.all_eq_true,
    Bool.or_eq_true, Bool.not_eq_true', ← Bool.not_eq_true, List.isPrefixOf_iff_prefix] at known
  obtain ⟨⟨letter_ne, found⟩, bounded⟩ := known
  have named : reference? inAttribute (letter :: (name ++ ';' :: more)) =
      namedReference? inAttribute (letter :: (name ++ ';' :: more)) := by
    unfold reference?
    split <;> simp_all
  have found' : longestName (name ++ ';' :: more) (namedReferences letter) =
      some (name.length + 1, [c.toNat]) := by
    rw [List.append_cons, longestName_append _ more, found]
    intro entry member starts
    exact (bounded entry member).resolve_left (fun absent => absent starts)
  have closed : ((name ++ ';' :: more).take (name.length + 1)).getLast? = some ';' := by
    simp [List.take_append]
  rw [named, namedReference?, found']
  simp [closed]

/-- A reference with a closing semicolon, in text, brings the character it stands for. -/
theorem Delivers.reference {letter c : Char} {name : List Char}
    (known : isReference letter name c = true) :
    Delivers ('&' :: letter :: (name ++ [';'])) [.character c] := by
  intro s ready
  refine ⟨s, ready, ?_⟩
  intro σ consumer state next more accepted
  have taken : consumer.take state (.character c) = (next, .proceed) := by
    simp only [Consumer.accept] at accepted
    split at accepted <;> simp_all
  have same : { s with reading := .data, skip := 0 } = s := by
    rw [← ready.reading, ← ready.fresh]
  have step (foreign : Bool) : s.step foreign '&' (letter :: (name ++ ';' :: more)) =
      ({ s with reading := .data, skip := name.length + 2 }, [.character c]) := by
    simp [TokenizerState.step, ready.reading, TokenizerState.readData,
      TokenizerState.dataReference, reference?_closed known]
  have passed := runFrom_skip (s := { s with reading := .data, skip := name.length + 2 }) consumer
    next (letter :: (name ++ [';'])) more (by simp)
  simp only [List.cons_append, List.append_assoc, List.nil_append] at passed ⊢
  rw [Consumer.runFrom, if_neg (by rw [ready.fresh]; exact Nat.lt_irrefl 0), step]
  simp only [Consumer.takeAll, taken]
  rw [passed, same]

/-- A reference with a closing semicolon, in a value, stands for its character. -/
theorem silent_reference {letter c : Char} {name : List Char} (fresh : s.skip = 0)
    (reading : s.reading = .attributeValue .double) (known : isReference letter name c = true) :
    Silent s ('&' :: letter :: (name ++ [';'])) { s with attributeValue := c :: s.attributeValue } := by
  intro σ consumer state more
  have step (foreign : Bool) : s.step foreign '&' (letter :: (name ++ ';' :: more)) =
      ({ s with skip := name.length + 2, attributeValue := c :: s.attributeValue }, []) := by
    simp [TokenizerState.step, reading, TokenizerState.readTag,
      TokenizerState.readAttributeValue, reference?_closed known]
  have passed := runFrom_skip
    (s := { s with skip := name.length + 2, attributeValue := c :: s.attributeValue }) consumer
    state (letter :: (name ++ [';'])) more (by simp)
  simp only [List.cons_append, List.append_assoc, List.nil_append] at passed ⊢
  rw [Consumer.runFrom, if_neg (by rw [fresh]; exact Nat.lt_irrefl 0), step]
  simp only [Consumer.takeAll]
  rw [passed, ← fresh]

/-! ## Document types -/

theorem readDeclaration_doctype (foreign : Bool) (more : List Char) :
    s.readDeclaration foreign ("DOCTYPE".toList ++ more) =
      ({ s with reading := .doctype, skip := 7, comment := [], doctype := {} }, []) := by
  have announced : startsWithWord ("DOCTYPE".toList ++ more) "doctype" = true := by
    have taken : ("DOCTYPE".toList ++ more).take "doctype".length = "DOCTYPE".toList := rfl
    rw [startsWithWord, taken]
    decide
  unfold TokenizerState.readDeclaration
  dsimp only
  split
  · rename_i dashes
    cases dashes
  · exact if_pos announced

/-- The word that announces a document type. -/
theorem silent_doctypeWord (fresh : s.skip = 0) (reading : s.reading = .tagOpen) :
    Silent s ('!' :: "DOCTYPE".toList)
      { s with reading := .doctype, comment := [], doctype := {} } := by
  intro σ consumer state more
  have step (foreign : Bool) : s.step foreign '!' ("DOCTYPE".toList ++ more) =
      ({ s with reading := .doctype, skip := 7, comment := [], doctype := {} }, []) := by
    rw [TokenizerState.step, reading]
    exact readDeclaration_doctype foreign more
  have passed := runFrom_skip
    (s := { s with reading := .doctype, skip := 7, comment := [], doctype := {} }) consumer state
    "DOCTYPE".toList more rfl
  rw [List.cons_append, Consumer.runFrom, if_neg (by rw [fresh]; exact Nat.lt_irrefl 0), step]
  refine passed.trans ?_
  rw [← fresh]

/-- The name of a document type, with the space before it. -/
theorem silent_doctypeName {name : List Char} (fresh : s.skip = 0) (reading : s.reading = .doctype)
    (unnamed : s.doctype = {}) (nonempty : name ≠ []) (named : name.all isNamePart = true) :
    Silent s (' ' :: name)
      { s with
        reading := .doctypeName, doctype := { name := some (String.ofList (lowered name)) } } := by
  obtain ⟨letter, rest, rfl⟩ := List.exists_cons_of_ne_nil nonempty
  rw [List.all_cons, Bool.and_eq_true] at named
  have space : Silent s [' '] { s with reading := .beforeDoctypeName } :=
    Silent.single fresh fun foreign rest => by
      simp [TokenizerState.step, TokenizerState.readDoctype, reading,
        TokenizerState.readBeforeDoctypeName, TokenizerState.go, isSpace]
  let collected (read : List Char) : TokenizerState := { s with
    reading := .doctypeName, doctype := { name := some (forwards read) } }
  have start : Silent { s with reading := .beforeDoctypeName } [letter]
      (collected [letter.toLower]) := by
    obtain ⟨solid, -, -, angle, null⟩ := isNamePart_iff.mp named.1
    refine Silent.single (by exact fresh) ?_
    intro foreign rest
    simp [TokenizerState.step, TokenizerState.readDoctype, TokenizerState.readBeforeDoctypeName,
      TokenizerState.pushDoctypeName, TokenizerState.go, replaceNull_toLower, solid, angle, null,
      unnamed, collected, forwards]
  have others := Silent.collect (fun c => [c]) Char.toLower collected ?_ named.2 [letter.toLower]
  · rw [List.flatMap_singleton'] at others
    have whole := space.append (start.append others)
    simpa [collected, forwards, lowered] using whole
  · intro c part read
    obtain ⟨solid, -, -, angle, null⟩ := isNamePart_iff.mp part
    refine Silent.single (by exact fresh) ?_
    intro foreign rest
    simp [TokenizerState.step, TokenizerState.readDoctype, TokenizerState.pushDoctypeName,
      replaceNull_toLower, solid, angle, null, collected, forwards]

/-- A document type with a name alone is a token. -/
theorem Delivers.doctype {name : List Char} (nonempty : name ≠ [])
    (named : name.all isNamePart = true) :
    Delivers ('<' :: '!' :: ("DOCTYPE".toList ++ ' ' :: (name ++ ['>'])))
      [.doctype { name := some (String.ofList (lowered name)) }] := by
  apply of_yields
  intro s ready
  let opened : TokenizerState := { s with reading := .doctype, comment := [], doctype := {} }
  let complete : TokenizerState := { opened with
    reading := .doctypeName, doctype := { name := some (String.ofList (lowered name)) } }
  have announced : Silent { s with reading := .tagOpen } ('!' :: "DOCTYPE".toList) opened :=
    silent_doctypeWord ready.fresh rfl
  have read : Silent opened (' ' :: name) complete :=
    silent_doctypeName ready.fresh rfl rfl nonempty named
  have closed : Yields complete ['>']
      (.doctype { name := some (String.ofList (lowered name)) })
      { complete with reading := .data } :=
    Yields.single ready.fresh fun foreign rest => by
      simp [TokenizerState.step, TokenizerState.readDoctype, TokenizerState.emitDoctype,
        TokenizerState.go, isSpace, complete]
  have whole := (TokenizerState.silent_angle ready).yields (announced.yields (read.yields closed))
  refine ⟨{ complete with reading := .data }, ⟨rfl, ready.fresh⟩, ?_⟩
  simpa only [List.cons_append, List.append_assoc, List.nil_append] using whole

end Markup
end ReactiveTemplate
