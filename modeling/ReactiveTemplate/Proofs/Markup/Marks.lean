import ReactiveTemplate.Proofs.Markup.Taking

/-!
# Texts that bring attributes into a document

A text plants attributes if reading it between tags puts elements with them into whatever document is
under construction, and ends between tags again.  Such texts can be put one after the other, and what
is planted is found in the finished document.
-/

namespace ReactiveTemplate
namespace Markup

open Construction (consumer)

variable {text first second content : List Char} {marks left right : List (String × String)}
  {tokens : List Token} {c : Construction} {tag : Tag}

/-- Reading the text between tags puts the attributes into the document, whatever comes next. -/
def Plants (text : List Char) (marks : List (String × String)) : Prop :=
  ∀ (s : TokenizerState) (c : Construction) (more : List Char), s.Ready → c.Calm →
    ∃ (s' : TokenizerState) (c' : Construction), s'.Ready ∧ c'.Calm ∧ c.store.Keeps c'.store ∧
      (∀ entry ∈ marks, c'.store.Carries entry) ∧
        consumer.runFrom s c (text ++ more) = consumer.runFrom s' c' more

/-- Whoever builds a document takes such tokens and has the text after each of them read as before. -/
theorem Construction.Calm.accept (calm : c.Calm)
    (plain : ∀ token ∈ tokens, token.Plain ∧ ¬token.OpensRaw) :
    ∃ next, consumer.accept c tokens = some next ∧ next.Calm ∧ c.store.Keeps next.store ∧
      ∀ entry ∈ tokens.flatMap Token.marks, next.store.Carries entry := by
  induction tokens generalizing c with
  | nil => exact ⟨c, rfl, calm, .refl _, nofun⟩
  | cons token rest induction =>
      rw [List.forall_mem_cons] at plain
      obtain ⟨taken, carries⟩ := calm.take plain.1.1
      obtain ⟨proceeds, calm'⟩ := taken.outcome.resolve_right fun raw => plain.1.2 raw.1
      obtain ⟨next, accepted, calm'', keeps, others⟩ := induction calm' plain.2
      refine ⟨next, ?_, calm'', taken.keeps.trans keeps, ?_⟩
      · have pair : consumer.take c token = ((c.take token).1, .proceed) := by
          rw [← proceeds]
          rfl
        rw [Consumer.accept, pair]
        exact accepted
      · rw [List.flatMap_cons, List.forall_mem_append]
        exact ⟨fun entry member => keeps.carries (carries entry member), others⟩

namespace Plants

theorem nil : Plants [] [] :=
  fun s c _ ready calm => ⟨s, c, ready, calm, .refl _, nofun, rfl⟩

theorem append (before : Plants first left) (after : Plants second right) :
    Plants (first ++ second) (left ++ right) := by
  intro s c more ready calm
  obtain ⟨s₁, c₁, ready₁, calm₁, keeps₁, carries₁, reads₁⟩ := before s c (second ++ more) ready calm
  obtain ⟨s₂, c₂, ready₂, calm₂, keeps₂, carries₂, reads₂⟩ := after s₁ c₁ more ready₁ calm₁
  refine ⟨s₂, c₂, ready₂, calm₂, keeps₁.trans keeps₂, ?_, ?_⟩
  · rw [List.forall_mem_append]
    exact ⟨fun entry member => keeps₂.carries (carries₁ entry member), carries₂⟩
  · rw [List.append_assoc, reads₁, reads₂]

theorem mono (plants : Plants text left) (part : right ⊆ left) : Plants text right := by
  intro s c more ready calm
  obtain ⟨s', c', ready', calm', keeps, carries, reads⟩ := plants s c more ready calm
  exact ⟨s', c', ready', calm', keeps, fun entry member => carries entry (part member), reads⟩

/-- A text that brings tokens plants what the tokens have. -/
theorem of_delivers (delivers : Delivers text tokens)
    (plain : ∀ token ∈ tokens, token.Plain ∧ ¬token.OpensRaw) :
    Plants text (tokens.flatMap Token.marks) := by
  intro s c more ready calm
  obtain ⟨s', ready', reads⟩ := delivers s ready
  obtain ⟨next, accepted, calm', keeps, carries⟩ := calm.accept plain
  exact ⟨s', next, ready', calm', keeps, carries, reads Construction consumer c next more accepted⟩

/-- Text without angle brackets and the tag behind it that closes the element around it: characters
keep the document in some good state, and the tag makes it calm again. -/
theorem content_closing (good : Construction → Prop) (s : TokenizerState)
    (takes : ∀ d token, token.isText = true → good d →
      ∃ next, d.take token = (next, .proceed) ∧ good next ∧ d.store.Keeps next.store)
    (ends : ∀ d tag, good d →
      ∃ next, d.take (.endTag tag) = (next, .proceed) ∧ next.Calm ∧ d.store.Keeps next.store)
    (reading : s.reading.takesText = true) (fresh : s.skip = 0) {closing : List Char}
    (closed : ∃ s' tag, s'.Ready ∧ Yields s ('<' :: closing) (.endTag tag) s') (free : '<' ∉ content)
    (holds : good c) (more : List Char) :
    ∃ (s' : TokenizerState) (c' : Construction), s'.Ready ∧ c'.Calm ∧ c.store.Keeps c'.store ∧
      consumer.runFrom s c (content ++ '<' :: (closing ++ more)) = consumer.runFrom s' c' more := by
  have takes' (d : Construction) (token : Token) (isText : token.isText = true)
      (kept : good d ∧ c.store.Keeps d.store) : ∃ next, consumer.take d token = (next, .proceed) ∧
        good next ∧ c.store.Keeps next.store := by
    obtain ⟨next, taken, good', keeps⟩ := takes d token isText kept.1
    exact ⟨next, taken, good', kept.2.trans keeps⟩
  obtain ⟨d, ⟨good', keeps⟩, read⟩ := runFrom_plainText (fun d => good d ∧ c.store.Keeps d.store)
    takes' reading (by rw [fresh]; exact Nat.zero_le _) free ⟨holds, .refl _⟩ (closing ++ more)
  obtain ⟨s', tag, ready, yields⟩ := closed
  obtain ⟨next, taken, calm, keeps'⟩ := ends d tag good'
  have same : { s with skip := 0 } = s := by
    rw [← fresh]
  refine ⟨s', next, ready, calm, keeps.trans keeps', ?_⟩
  rw [read, same]
  exact yields.proceed consumer taken more

/-- An element that holds text without angle brackets plants its attributes, whether the text is read
as text alone or, among foreign elements, as text between tags. -/
theorem rawElement {start name : List Char} (opening : ∀ s : TokenizerState, s.Ready →
      ∃ s', s'.Ready ∧ s'.lastStart = String.ofList (lowered name) ∧
        Yields s start (.startTag tag) s')
    (plain : (Token.startTag tag).Plain) (nonempty : name ≠ [])
    (letters : name.all Char.isAlpha = true) (free : '<' ∉ content) :
    Plants (start ++ (content ++ '<' :: '/' :: (name ++ ['>']))) (Token.startTag tag).marks := by
  intro s c more ready calm
  obtain ⟨s₁, ready₁, started, opened⟩ := opening s ready
  obtain ⟨taken, carries⟩ := calm.take plain
  obtain ⟨next, feedback, take_eq⟩ : ∃ next feedback, c.take (.startTag tag) = (next, feedback) :=
    ⟨_, _, rfl⟩
  rw [take_eq] at taken carries
  have read := opened Construction consumer c next feedback
    (content ++ '<' :: ('/' :: (name ++ ['>']) ++ more)) take_eq
  have text_eq : start ++ (content ++ '<' :: '/' :: (name ++ ['>'])) ++ more =
      start ++ (content ++ '<' :: ('/' :: (name ++ ['>']) ++ more)) := by
    simp
  have rest : ∃ (s' : TokenizerState) (c' : Construction), s'.Ready ∧ c'.Calm ∧
      next.store.Keeps c'.store ∧ consumer.runFrom (s₁.heed feedback) next
        (content ++ '<' :: ('/' :: (name ++ ['>']) ++ more)) = consumer.runFrom s' c' more := by
    rcases taken.outcome with ⟨rfl, calm₁⟩ | ⟨-, raw, kind, rfl, first⟩
    · obtain ⟨s₂, ready₂, closed⟩ :=
        ready₁.closing (TokenizerState.isTagName_of_letters nonempty letters)
      refine content_closing Construction.Calm s₁ ?_ ?_ (by rw [ready₁.reading]; rfl) ready₁.fresh
        ⟨s₂, _, ready₂, closed⟩ free calm₁ more
      · intro d token isText calm₂
        cases token with
        | character char => exact calm₂.takeOther trivial id
        | null => exact calm₂.takeOther trivial id
        | _ => cases isText
      · exact fun d tag calm₂ => calm₂.takeOther trivial id
    · let s₂ : TokenizerState := { s₁ with reading := .raw kind }
      obtain ⟨s₃, ready₃, closed⟩ := TokenizerState.closingRaw (show s₂.reading = .raw kind from rfl)
        first ready₁.fresh nonempty letters started
      exact content_closing Construction.Raw s₂ (fun d token isText raw => raw.takeText isText)
        (fun d tag raw => raw.takeEnd tag) first ready₁.fresh ⟨s₃, _, ready₃, closed⟩ free raw more
  obtain ⟨s', c', ready', calm', keeps, read'⟩ := rest
  refine ⟨s', c', ready', calm', taken.keeps.trans keeps,
    fun entry member => keeps.carries (carries entry member), ?_⟩
  rw [text_eq, read, read']

end Plants

/-- What a text plants is found in the document that it describes. -/
theorem Plants.document (plants : Plants text marks) (prepared : prepare text = text) :
    ∀ entry ∈ marks, Dom.anyCarries entry (Markup.document text) = true := by
  intro entry member
  obtain ⟨s, c, ready, calm, -, carries, read⟩ :=
    plants {} {} [] ⟨rfl, rfl⟩ Construction.calm_empty
  have ended : s.finish = [.ending] := by
    rw [TokenizerState.finish, ready.reading]
    rfl
  obtain ⟨next, taken, calm', keeps⟩ := calm.takeOther (show Token.Plain .ending from trivial) id
  have pair : consumer.take c .ending = (next, .proceed) := taken
  have whole : Markup.document text = next.store.finish := by
    rw [List.append_nil] at read
    rw [Markup.document, Consumer.run, prepared, read, Consumer.runFrom, ended]
    simp only [Consumer.takeAll, pair]
  obtain ⟨rank, graded, -⟩ := calm'.sound.ranked
  obtain ⟨n, vocabulary, name, attributes, contents, content_eq, listed⟩ :=
    keeps.carries (carries entry member)
  rw [whole]
  exact graded.finish_carries content_eq listed

end Markup
end ReactiveTemplate
