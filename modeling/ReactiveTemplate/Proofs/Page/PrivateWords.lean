import ReactiveTemplate.Proofs.Page.Hoisting
import ReactiveTemplate.Proofs.Page.PrivateNames
import ReactiveTemplate.Proofs.Template.PrivateWords

/-!
# Private words in the page

Sources made of chunks bring none of the words of a draft into the page.  The templates that are
read from them have no such word, and their texts are made of the characters of texts.  Wherever the
nodes of these templates and of the markup in their code end up, no attribute has such a word in its
name, and a text is still made of these characters or written out in code.
-/

namespace ReactiveTemplate

open Node (Everywhere)

/-! ## Sources -/

namespace Template

variable {letters : List Char} {chunks : List Chunk} {source file : String}

/-- The source is made of chunks, behind a script block if it starts with one, none of the words of a
draft is in it, and its texts are made of the letters. -/
structure MadeOf (letters : List Char) (chunks : List Chunk) (source : String) : Prop where
  /-- The text of the source. -/
  source_eq : ∃ lead, source.toList = lead ++ sourceOf chunks ∧
    (lead = [] ∨ ∃ script, staysOpen script = true ∧ lead = scriptText script)
  /-- The chunks are read as what they are. -/
  sound : chunks.all Chunk.isSound = true
  /-- Code in quotes leaves placeholders. -/
  filled : chunks.all Chunk.isFilled = true
  /-- The chunks need no preparation. -/
  steady : (sourceOf chunks).all Markup.isSteady = true
  /-- None of the words is in the source. -/
  hides : Hides source.toList
  /-- The texts are made of the letters. -/
  part : chunks.flatMap Chunk.letters ⊆ letters

namespace MadeOf

/-- The markup of the draft is that of the chunks. -/
theorem markup_eq (made : MadeOf letters chunks source) {draft : Draft}
    (read : Draft.ofSource source.toList = .ok draft) :
    ∃ location, draft.markup = markupOf location 0 chunks := by
  obtain ⟨lead, source_eq, rfl | ⟨script, stays, rfl⟩⟩ := made.source_eq
  · rw [source_eq, List.nil_append, Draft.ofSource] at read
    have stands : ({} : Draft).Stands ⟨.content, Location.start, 0⟩ := ⟨rfl, rfl, rfl, rfl⟩
    have written := Draft.markup_of_chunks made.sound rfl stands rfl read
    exact ⟨_, written⟩
  · rw [source_eq] at read
    exact ⟨_, Draft.markup_behindScript stays made.sound read⟩

/-- The template has none of the words, and its texts are made of the letters. -/
theorem template_hides (made : MadeOf letters chunks source) {registry after : Registry}
    {template : Template} (ok : parse source file registry = .ok (template, after)) :
    Everywhere (Hiding letters) template.nodes := by
  obtain ⟨draft, read⟩ := exists_draft ok
  obtain ⟨location, written⟩ := made.markup_eq read
  obtain ⟨lead, source_eq, -⟩ := made.source_eq
  have inside : sourceOf chunks <:+: source.toList :=
    source_eq ▸ (List.suffix_append lead (sourceOf chunks)).isInfix
  exact parse_hiding made.sound made.filled made.steady made.part inside made.hides read written ok

end MadeOf

/-! ## Names and texts -/

/-- A name in code has a word only where the code has it. -/
theorem hides_attributeName {word : List Char} (hides : Hides word) :
    Hides (Fragment.attributeName word).toList := by
  have renamed : Hides "class".toList ∧ Hides "for".toList := by decide
  unfold Fragment.attributeName
  split
  · split
    · rw [String.toList_ofList]
      exact hides_lowered_iff.mpr hides
    · rwa [String.toList_ofList]
  · dsimp only
    split
    · exact renamed.1
    split
    · exact renamed.2
    · rwa [String.toList_ofList]

/-- The text is made of the letters, or written out in code without the words. -/
def Said (letters : List Char) (value : String) : Prop :=
  (∀ c ∈ value.toList, Stays letters c) ∨
    ∃ code, Hides code ∧ value = String.ofList (Markup.decodeText code)

/-- Names and code without the words, and texts made of the letters. -/
def wordless (letters : List Char) : Node.Naming where
  name name := Hides name.toList
  text := Said letters
  code := Hides
  part hides inside := hides.part inside
  spelled := hides_attributeName
  written hides := .inr ⟨_, hides, rfl⟩

theorem Hiding.obeys {nodes : List Node} (hides : Everywhere (Hiding letters) nodes) :
    Everywhere (Node.Obeys (wordless letters)) nodes := by
  intro node member
  have own := hides node member
  cases node with
  | element | component => exact fun attr listed => (own attr listed).1
  | text => exact .inl own
  | expression => exact own
  | _ => trivial

end Template

/-! ## Tags -/

namespace Page

open Component Template

/-- The field is the handler of an event whose name starts like the end of a private name. -/
def StartsHandler (attr : Attribute) (field : Field) : Prop :=
  field = Field.ofAttribute attr ∧
    ∃ event, eventName? attr.name = some event ∧ "loc".toList <+: event

/-- The name of an event is in lower case. -/
theorem lowered_eventName? {name : String} {event : List Char}
    (found : eventName? name = some event) : Markup.lowered event = event := by
  unfold eventName? at found
  dsimp only at found
  split at found
  · split at found
    · cases found
      exact lowered_lowered _
    · cases found
  · cases found

/-- A text without the words may be put behind a lead in which none of them starts. -/
theorem hides_append {lead rest : List Char}
    (apart : ∀ word ∈ privateWords, ∀ tail ∈ (Markup.lowered lead).tails, tail ≠ [] →
      ¬word.toList <+: tail ++ Markup.lowered rest) (hides : Hides rest) :
    Hides (lead ++ rest) := by
  intro word member found
  have starts := apart word member
  rw [Markup.lowered, List.map_append] at found
  change _ <:+: Markup.lowered lead ++ Markup.lowered rest at found
  generalize Markup.lowered lead = lead at starts found
  induction lead with
  | nil => exact hides word member found
  | cons c lead induction =>
      rw [List.tails_cons, List.forall_mem_cons] at starts
      refine induction starts.2 ((List.infix_cons_iff.mp found).resolve_left ?_)
      exact starts.1 (List.cons_ne_nil c lead)

theorem hides_marker {target : List Char} (hides : Hides target) :
    Hides ("data-zen-attr-".toList ++ target) := by
  refine hides_append ?_ hides
  simp [privateWords, locationAttribute, nameAttribute, Markup.lowered]

theorem hides_event {name : String} {event : List Char} (found : eventName? name = some event) :
    Hides event := by
  refine Hides.of_all Char.isAlpha (by decide) ?_
  rw [lowered_eventName? found]
  exact eventName?_letters found

theorem hides_handler {name : String} {event : List Char} (found : eventName? name = some event)
    (other : ¬"loc".toList <+: event) : Hides ("data-zen-".toList ++ event) := by
  have letters : ¬"orig-name".toList <+: event := by
    intro starts
    have letter := List.all_eq_true.mp (eventName?_letters found) '-' (starts.subset (by decide))
    cases letter
  have apart : ∀ word ∈ privateWords, ∀ tail ∈ (Markup.lowered "data-zen-".toList).tails,
      tail ≠ [] → ¬word.toList <+: tail ++ event := by
    simpa [privateWords, locationAttribute, nameAttribute, Markup.lowered] using
      And.intro other letters
  refine hides_append ?_ (hides_event found)
  rwa [lowered_eventName? found]

/-- A field has a word in its name only if it handles such an event. -/
theorem ofAttribute_hides {attr : Attribute} (hides : Hides attr.name.toList)
    (other : ¬StartsHandler attr (Field.ofAttribute attr)) :
    Hides (Field.ofAttribute attr).name := by
  have handler {event : List Char} (found : eventName? attr.name = some event) :
      Hides ("data-zen-".toList ++ event) :=
    hides_handler found fun starts => other ⟨rfl, event, found, starts⟩
  have marker {event : List Char} (found : eventName? attr.name = some event) :
      Hides ("data-zen-attr-".toList ++ ("on".toList ++ event)) := by
    refine hides_marker (hides_append ?_ (hides_event found))
    simp [privateWords, locationAttribute, nameAttribute, Markup.lowered]
  unfold Field.ofAttribute formOf
  cases attr.value with
  | fixed value =>
      cases found : eventName? attr.name with
      | none =>
          dsimp only
          by_cases empty : value.isEmpty = true
          · rw [if_pos empty]
            exact hides
          · rw [if_neg empty]
            exact hides
      | some event => exact handler found
  | dynamic e =>
      cases found : eventName? attr.name with
      | none => exact hides_marker hides
      | some event =>
          dsimp only
          by_cases named : isName e.code.toList = true
          · rw [if_pos named]
            exact handler found
          · rw [if_neg named]
            exact marker found

/-! ## Compiled pages -/

/-- If the sources are made of chunks, then no attribute of the resolved tree has a word in its
name, and its texts are made of the letters of their texts or written out in their code; a field of
the page has a word in its name only where an event with such a name is handled.  The template of the
page has no word in any name, fixed value or code. -/
theorem compile_hides_words {source file : String} {library : Library} {page : Compiled}
    {letters : List Char} {chunks : List Chunk} (made : MadeOf letters chunks source)
    (written : ∀ entry ∈ library.entries, ∃ key path text chunks,
      MadeOf letters chunks text ∧ Definition.ofSource key path text = .ok entry.2)
    (ok : compile source file library = .ok page) :
    ∃ template parsed nodes registry resolution after,
      Template.parse source file {} = .ok (template, parsed) ∧
      Fragment.lower template.nodes file parsed = .ok (nodes, registry) ∧
      resolve library file nodes registry = .ok (resolution, after) ∧
      page.html.toList = (nodesPieces resolution.nodes).flatMap Piece.html ∧
      Everywhere (Hiding letters) template.nodes ∧
      (∀ node ∈ Node.allNodesOfList resolution.nodes, ∀ attr ∈ node.attributes,
        Hides attr.name.toList) ∧
      (∀ value site, .text value site ∈ Node.allNodesOfList resolution.nodes →
        Said letters value) ∧
      ∀ field ∈ (nodesPieces resolution.nodes).flatMap Piece.fields, ¬Hides field.name →
        ∃ node ∈ Node.allNodesOfList resolution.nodes, ∃ attr ∈ node.attributes,
          StartsHandler attr field := by
  obtain ⟨template, parsed, nodes, registry, resolution, after, parse_ok, lower_ok, resolve_ok,
    html, -, -⟩ := compile_steps ok
  have hides := made.template_hides parse_ok
  have mark : Hides ownerAttribute.toList := by decide
  have definitions : ∀ entry ∈ library.entries, ∀ nodes after,
      Component.template entry.2 = .ok (nodes, after) →
        Everywhere (Node.Obeys (wordless letters)) nodes := by
    intro entry there nodes after template_ok
    obtain ⟨key, path, text, chunks, own, read⟩ := written entry there
    exact template_obeys (fun parsed => Hiding.obeys (own.template_hides parsed)) read
      template_ok
  obtain ⟨names, texts⟩ := resolve_obeys (wordless letters) mark definitions (Hiding.obeys hides)
    lower_ok resolve_ok
  refine ⟨template, parsed, nodes, registry, resolution, after, parse_ok, lower_ok, resolve_ok, ?_,
    hides, names, texts, nodesPieces_fields ?_ ?_⟩
  · rw [html, emit, String.toList_ofList, nodesHtml_eq]
  · intro name site value found
    have apart : ∀ name ∈ siteNames, Hides name.toList := by decide
    exact absurd (apart name site) found
  · intro node member attr listed found
    refine ⟨node, member, attr, listed, ?_⟩
    by_contra other
    exact found (ofAttribute_hides (names node member attr listed) other)

/-- A paragraph with code in a value, in a tag and between the tags. -/
example :
    let chunks : List Chunk :=
      [.opening "p".toList
          [⟨[' '], "title".toList, .quoted [.text "a ".toList, .braced "b".toList]⟩,
            ⟨[' '], "on:click".toList, .braced "go".toList⟩] [] false,
        .text "Hi ".toList, .braced "name".toList, .closing "p".toList]
    sourceOf chunks = "<p title=\"a \x7bb\x7d\" on:click=\x7bgo\x7d>Hi \x7bname\x7d</p>".toList ∧
      chunks.all Chunk.isSound = true ∧ chunks.all Chunk.isFilled = true ∧
      (sourceOf chunks).all Markup.isSteady = true ∧ Hides (sourceOf chunks) := by
  decide +kernel

end Page
end ReactiveTemplate
