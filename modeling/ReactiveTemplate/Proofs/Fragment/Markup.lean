import ReactiveTemplate.Fragment.Markup
import ReactiveTemplate.Proofs.Diagnostic
import ReactiveTemplate.Proofs.Tree.Coverage
import ReactiveTemplate.Proofs.Tree.Enclosure

/-!
# What is read from markup inside code

Reading markup registers the code it meets and makes nodes of it, and that is all it does: `Reads`
says so without the positions, the nesting of tags and the ways to fail.  Every expression that is
read is new to the registry, and every site has the scope that the markup is read in.
-/

namespace ReactiveTemplate
namespace Fragment

variable {scope : Option Scope} {registry after : Registry} {location : Location}

/-! ## Attributes -/

/-- What reading attributes in a scope can give. -/
inductive ReadsAttributes (scope : Option Scope) :
    Registry → List Attribute → Registry → Prop where
  /-- No attribute. -/
  | nil {registry : Registry} : ReadsAttributes scope registry [] registry
  /-- An attribute with fixed text. -/
  | fixed {registry after : Registry} {rest : List Attribute} (name text : String)
      (place : Location) :
      ReadsAttributes scope registry rest after →
      ReadsAttributes scope registry (⟨name, .fixed text, ⟨place, scope⟩⟩ :: rest) after
  /-- An attribute with code. -/
  | dynamic {registry after : Registry} {rest : List Attribute} (name : String)
      (place location : Location) (raw : List Char) :
      ReadsAttributes scope (registerCode scope registry location raw).2 rest after →
      ReadsAttributes scope registry
        (⟨name, .dynamic (registerCode scope registry location raw).1, ⟨place, scope⟩⟩ :: rest)
        after

/-- A value is fixed text, or code that has just been registered. -/
theorem readValue_cases {name : String} {nameLocation : Location} {text : List Char}
    {read : ReadValue}
    (ok : readValue scope registry name nameLocation location text = .ok read) :
    (∃ value, read.value = .fixed value ∧ read.registry = registry) ∨
      ∃ place raw, read.value = .dynamic (registerCode scope registry place raw).1 ∧
        read.registry = (registerCode scope registry place raw).2 := by
  unfold readValue at ok
  split at ok
  · split at ok
    · cases ok
    · cases ok
      exact .inr ⟨_, _, rfl, rfl⟩
  · cases ok
    exact .inl ⟨_, rfl, rfl⟩
  · split at ok
    · cases ok
      exact .inl ⟨_, rfl, rfl⟩
    · split at ok
      · cases ok
        exact .inl ⟨_, rfl, rfl⟩
      · cases ok
        exact .inl ⟨_, rfl, rfl⟩

theorem readAssignment_cases {name : String} {nameLocation : Location} {text : List Char}
    {read : ReadValue}
    (ok : readAssignment scope registry name nameLocation location text = .ok read) :
    (∃ value, read.value = .fixed value ∧ read.registry = registry) ∨
      ∃ place raw, read.value = .dynamic (registerCode scope registry place raw).1 ∧
        read.registry = (registerCode scope registry place raw).2 := by
  unfold readAssignment at ok
  dsimp only at ok
  split at ok
  · split at ok
    · rename_i value read_ok
      have value_cases := readValue_cases read_ok
      cases ok
      exact value_cases
    · cases ok
  · cases ok
    exact .inl ⟨_, rfl, rfl⟩

theorem readHeader_reads {skip : Nat} {text : List Char} {header : Header}
    (ok : readHeader scope registry location skip text = .ok header) :
    ReadsAttributes scope registry header.attributes header.registry := by
  fun_induction readHeader scope registry location skip text generalizing header with
  | case1 | case4 | case5 =>
      cases ok
      exact .nil
  | case2 | case9 =>
      rename_i later inner induction
      have rest := induction inner
      cases ok
      exact rest
  | case7 =>
      rename_i read read_ok later inner induction
      have rest := induction inner
      cases ok
      rcases readAssignment_cases read_ok with ⟨value, fixed, same⟩ | ⟨place, raw, dynamic, same⟩
      · rw [same] at rest
        rw [Header.cons, fixed]
        exact .fixed _ value _ rest
      · rw [same] at rest
        rw [Header.cons, dynamic]
        exact .dynamic _ _ place raw rest
  | case3 | case6 | case8 | case10 => cases ok

theorem registerCode_pass (scope : Option Scope) (reachable : registry.Reachable)
    (location : Location) (raw : List Char) :
    Pass Anything registry [] (registerCode scope registry location raw).2
      [(registerCode scope registry location raw).1] :=
  .register reachable "expr" _ _ _ scope

theorem ReadsAttributes.pass {attributes : List Attribute}
    (reads : ReadsAttributes scope registry attributes after) (reachable : registry.Reachable) :
    Pass Anything registry [] after (Attribute.expressions attributes) := by
  induction reads with
  | nil => exact .refl (.nil reachable)
  | fixed name text place reads induction => exact induction reachable
  | dynamic name place location raw reads induction =>
      have code := registerCode_pass scope reachable location raw
      exact code.append_nil (induction code.keeps.reachable)

theorem ReadsAttributes.scope_eq {attributes : List Attribute}
    (reads : ReadsAttributes scope registry attributes after) :
    ∀ e ∈ Attribute.expressions attributes, e.scope = scope := by
  induction reads with
  | nil => exact fun e member => by cases member
  | fixed name text place reads induction => exact induction
  | dynamic name place location raw reads induction =>
      intro e member
      rcases List.mem_cons.mp member with rfl | member
      · rfl
      · exact induction e member

theorem ReadsAttributes.enclosed {attributes : List Attribute} {loops : List String}
    (reads : ReadsAttributes scope registry attributes after) (inside : Scope.Inside loops scope) :
    ∀ attr ∈ attributes, attr.Enclosed loops := by
  induction reads with
  | nil => exact fun attr member => by cases member
  | fixed name text place reads induction =>
      rw [List.forall_mem_cons]
      exact ⟨⟨inside, by simp [AttributeValue.expressions]⟩, induction⟩
  | dynamic name place location raw reads induction =>
      rw [List.forall_mem_cons]
      refine ⟨⟨inside, ?_⟩, induction⟩
      rw [AttributeValue.expressions, List.forall_mem_singleton]
      exact inside

/-! ## Children -/

/-- What reading markup in a scope can give. -/
inductive Reads (scope : Option Scope) : Registry → List Node → Registry → Prop where
  /-- No node. -/
  | nil {registry : Registry} : Reads scope registry [] registry
  /-- Plain text. -/
  | text {registry : Registry} (value : String) (location : Location) :
      Reads scope registry [.text value ⟨location, scope⟩] registry
  /-- Code in braces. -/
  | code {registry : Registry} (location : Location) (raw : List Char) :
      Reads scope registry [.expression (registerCode scope registry location raw).1]
        (registerCode scope registry location raw).2
  /-- An element or a usage. -/
  | element {registry middle after : Registry} {attributes : List Attribute}
      {children : List Node} (name : String) (location : Location) :
      ReadsAttributes scope registry attributes middle → Reads scope middle children after →
      Reads scope registry [elementNode name attributes children ⟨location, scope⟩] after
  /-- One part after the other. -/
  | append {registry middle after : Registry} {left right : List Node} :
      Reads scope registry left middle → Reads scope middle right after →
      Reads scope registry (left ++ right) after

theorem textNodes_reads (scope : Option Scope) (registry : Registry) (location : Location)
    (raw : List Char) : Reads scope registry (textNodes scope location raw) registry := by
  unfold textNodes
  dsimp only
  by_cases empty : (if raw.contains '\n' then Text.trim raw else raw).isEmpty
  · rw [if_pos empty]
    exact .nil
  · rw [if_neg empty]
    exact .text _ _

/-- The nodes of code in braces: none if there is no code. -/
def codeNodes (scope : Option Scope) (registry : Registry) (location : Location)
    (raw : List Char) : List Node × Registry :=
  if (Text.trim raw).isEmpty || isComment (Text.trim raw) then ([], registry)
  else
    ([.expression (registerCode scope registry location raw).1],
      (registerCode scope registry location raw).2)

/-- Where the children of an element with the given header stand. -/
def insideRange (closed : Bool) (element name : List Char) (header : Header) : Nat × Nat :=
  if header.selfClosing || Markup.isVoidElement (String.ofList name) then (0, 0)
  else childrenRange closed element (1 + name.length + header.length)

/-- The rest of an opening tag after its first character; a tag without a name has nothing more. -/
def readOpening (scope : Option Scope) (registry : Registry) (location : Location)
    (inside : List Char) : Except Misstep Header :=
  if (tagName inside).isEmpty then .ok { length := 1, registry }
  else
    readHeader scope registry (location.advance (tagName inside)) 0
      (inside.drop (tagName inside).length)

section

variable (scope : Option Scope) (closed : Bool) (registry : Registry) (location : Location)
variable {text rest : List Char}

/-- There is plain text only. -/
theorem readChildren_ended (ended : afterLead text = []) :
    readChildren scope closed registry location text =
      .ok (textNodes scope location (plainLead text), registry) := by
  rw [readChildren]
  split
  · rfl
  · rename_i found
    rw [ended] at found
    cases found
  · rename_i found
    rw [ended] at found
    cases found

/-- After plain text there is code in braces. -/
theorem readChildren_code (brace : afterLead text = '{' :: rest) :
    let plain := plainLead text
    let start := location.advance plain
    readChildren scope closed registry location text =
      match Code.closingFrom .afterOpening rest with
      | none => .error (.openMarkupExpression, start)
      | some length => (do
        let own := codeNodes scope registry (start.next '{') (rest.take length)
        let (nodes, after) ←
          readChildren scope (closed || hasClosing plain || hasClosing (rest.take length)) own.2
            (start.advance ('{' :: rest.take (length + 1))) (rest.drop (length + 1))
        pure (textNodes scope location plain ++ own.1 ++ nodes, after)) := by
  dsimp only
  rw [readChildren]
  split
  · rename_i found
    rw [brace] at found
    cases found
  · rename_i found
    rw [brace] at found
    cases found
    cases Code.closingFrom .afterOpening rest with
    | none => rfl
    | some length =>
        dsimp only
        rw [codeNodes]
        cases readChildren scope _ _ _ (rest.drop (length + 1)) with
        | error misstep => rfl
        | ok read => rfl
  · rename_i other found
    rw [brace] at found
    cases found
    exact absurd rfl other

/-- After plain text there is an element. -/
theorem readChildren_element {c : Char} (other : c ≠ '{') (element : afterLead text = c :: rest) :
    let plain := plainLead text
    let start := location.advance plain
    let closed' := closed || hasClosing plain
    readChildren scope closed registry location text =
      match Code.markupEndFrom {} (c :: rest) with
      | none => .error (.openMarkup (String.ofList (c :: rest)), start)
      | some stop => (do
        let inside := rest.take (stop - 1)
        let name := tagName inside
        let header ← readOpening scope registry (start.next c) inside
        let range := insideRange closed' (c :: inside) name header
        let (children, middle) ←
          readChildren scope (closed' || hasClosing ((c :: inside).take range.1)) header.registry
            (start.advance ((c :: inside).take range.1))
            (Text.slice inside (range.1 - 1) (range.2 - 1))
        let (nodes, after) ←
          readChildren scope (closed' || hasClosing (c :: inside)) middle
            (start.advance (c :: inside)) (rest.drop (stop - 1))
        pure (textNodes scope location plain ++ (if name.isEmpty then children
          else [elementNode (String.ofList name) header.attributes children ⟨start, scope⟩]) ++
            nodes, after)) := by
  dsimp only
  rw [readChildren]
  split
  · rename_i found
    rw [element] at found
    cases found
  · rename_i found
    rw [element] at found
    cases found
    exact absurd rfl other
  · rename_i found
    rw [element] at found
    cases found
    cases Code.markupEndFrom {} (c :: rest) with
    | none => rfl
    | some stop =>
        dsimp only
        have opening : (if (tagName (rest.take (stop - 1))).isEmpty = true
            then Except.ok { length := 1, registry }
            else readHeader scope registry ((location.advance (plainLead text)).advance
              (c :: tagName (rest.take (stop - 1)))) 0
              ((rest.take (stop - 1)).drop (tagName (rest.take (stop - 1))).length)) =
            readOpening scope registry ((location.advance (plainLead text)).next c)
              (rest.take (stop - 1)) := rfl
        rw [opening]
        cases readOpening scope registry ((location.advance (plainLead text)).next c)
            (rest.take (stop - 1)) with
        | error misstep => rfl
        | ok header =>
            dsimp only [bind, Except.bind]
            rw [insideRange]
            cases readChildren scope _ header.registry _ _ with
            | error misstep => rfl
            | ok read =>
                dsimp only
                cases readChildren scope _ read.2 _ (rest.drop (stop - 1)) with
                | error misstep => rfl
                | ok read => rfl

end

/-- What reading a text comes to: plain text, code in braces, or an element, and what follows.  Each
time what is left to read is shorter than the text. -/
theorem readChildren_steps {closed : Bool} {text : List Char} {nodes : List Node}
    (ok : readChildren scope closed registry location text = .ok (nodes, after)) :
    let plain := textNodes scope location (plainLead text)
    let start := location.advance (plainLead text)
    let closed' := closed || hasClosing (plainLead text)
    (afterLead text = [] ∧ nodes = plain ∧ after = registry) ∨
      (∃ rest length tail, afterLead text = '{' :: rest ∧
        Code.closingFrom .afterOpening rest = some length ∧
        (rest.drop (length + 1)).length < text.length ∧
        let own := codeNodes scope registry (start.next '{') (rest.take length)
        readChildren scope (closed' || hasClosing (rest.take length)) own.2
          (start.advance ('{' :: rest.take (length + 1))) (rest.drop (length + 1)) =
            .ok (tail, after) ∧
        nodes = plain ++ own.1 ++ tail) ∨
      ∃ c rest stop header children middle tail, c ≠ '{' ∧ afterLead text = c :: rest ∧
        Code.markupEndFrom {} (c :: rest) = some stop ∧
        let inside := rest.take (stop - 1)
        let name := tagName inside
        (if name.isEmpty then .ok { length := 1, registry }
          else readHeader scope registry (start.advance (c :: name)) 0 (inside.drop name.length)) =
            .ok header ∧
        let range := insideRange closed' (c :: inside) name header
        let below := Text.slice inside (range.1 - 1) (range.2 - 1)
        below.length < text.length ∧ (rest.drop (stop - 1)).length < text.length ∧
        readChildren scope (closed' || hasClosing ((c :: inside).take range.1)) header.registry
          (start.advance ((c :: inside).take range.1)) below = .ok (children, middle) ∧
        readChildren scope (closed' || hasClosing (c :: inside)) middle
          (start.advance (c :: inside)) (rest.drop (stop - 1)) = .ok (tail, after) ∧
        nodes = plain ++ (if name.isEmpty then children
          else [elementNode (String.ofList name) header.attributes children ⟨start, scope⟩]) ++
            tail := by
  have lead := length_afterLead_le text
  dsimp only
  cases found : afterLead text with
  | nil =>
      rw [readChildren_ended _ _ _ _ found] at ok
      cases ok
      exact .inl ⟨rfl, rfl, rfl⟩
  | cons c rest =>
      rw [found, List.length_cons] at lead
      by_cases brace : c = '{'
      · subst brace
        rw [readChildren_code _ _ _ _ found] at ok
        cases closing : Code.closingFrom .afterOpening rest with
        | none =>
            rw [closing] at ok
            cases ok
        | some length =>
            simp only [closing, bind_eq_ok] at ok
            obtain ⟨⟨tail, last⟩, tail_ok, ok⟩ := ok
            cases ok
            have behind : (rest.drop (length + 1)).length < text.length := by
              rw [List.length_drop]
              omega
            exact .inr (.inl ⟨rest, length, tail, rfl, closing, behind, tail_ok, rfl⟩)
      · rw [readChildren_element _ _ _ _ brace found] at ok
        cases ends : Code.markupEndFrom {} (c :: rest) with
        | none =>
            rw [ends] at ok
            cases ok
        | some stop =>
            simp only [ends, bind_eq_ok] at ok
            obtain ⟨header, header_ok, ⟨children, middle⟩, children_ok, ⟨tail, last⟩, tail_ok,
              ok⟩ := ok
            cases ok
            have behind : (rest.drop (stop - 1)).length < text.length := by
              rw [List.length_drop]
              omega
            refine .inr (.inr ⟨c, rest, stop, header, children, middle, tail, brace, rfl, ends,
              header_ok, ?_, behind, children_ok, tail_ok, rfl⟩)
            simp only [Text.slice, List.length_drop, List.length_take]
            omega

theorem codeNodes_reads (scope : Option Scope) (registry : Registry) (location : Location)
    (raw : List Char) :
    Reads scope registry (codeNodes scope registry location raw).1
      (codeNodes scope registry location raw).2 := by
  rw [codeNodes]
  split
  · exact .nil
  · exact .code _ _

theorem readChildren_reads {closed : Bool} {text : List Char} {nodes : List Node}
    (ok : readChildren scope closed registry location text = .ok (nodes, after)) :
    Reads scope registry nodes after := by
  induction size : text.length using Nat.strongRecOn
    generalizing closed text registry location nodes after with
  | _ size induction =>
  subst size
  have plain := textNodes_reads scope registry location (plainLead text)
  rcases readChildren_steps ok with ⟨-, rfl, rfl⟩ |
    ⟨rest, length, tail, -, -, shorter, rest_ok, rfl⟩ |
    ⟨c, rest, stop, header, children, middle, tail, -, -, -, header_ok, smaller, shorter,
      inside_ok, rest_ok, rfl⟩
  · exact plain
  · have behind := induction _ shorter rest_ok rfl
    exact (plain.append (codeNodes_reads scope registry _ _)).append behind
  · have below := induction _ smaller inside_ok rfl
    have behind := induction _ shorter rest_ok rfl
    refine (plain.append ?_).append behind
    split at header_ok
    · rename_i nameless
      cases header_ok
      rw [if_pos nameless]
      exact below
    · rename_i named
      rw [if_neg named]
      exact .element _ _ (readHeader_reads header_ok) below

theorem elementNode_expressions (name : String) (attributes : List Attribute)
    (children : List Node) (site : Site) :
    (elementNode name attributes children site).expressions =
      Attribute.expressions attributes ++ Node.expressionsOfList children := by
  rw [elementNode]
  split <;> rw [Node.expressions]

theorem elementNode_covers {required : List String} {name : String}
    {attributes : List Attribute} {children : List Node} {site : Site} :
    (elementNode name attributes children site).Covers required ↔
      required ⊆ Scope.names site.scope ∧
        (∀ e ∈ Attribute.expressions attributes, required ⊆ Scope.names e.scope) ∧
        Node.CoversAll required children := by
  rw [elementNode]
  split <;> rw [Node.Covers]

/-- Every expression of nodes read from markup is new. -/
theorem Reads.pass {nodes : List Node} (reads : Reads scope registry nodes after)
    (reachable : registry.Reachable) :
    Pass Anything registry [] after (Node.expressionsOfList nodes) := by
  induction reads with
  | nil | text => exact .refl (.nil reachable)
  | code location raw => exact registerCode_pass scope reachable location raw
  | element name location attributes children induction =>
      have header := attributes.pass reachable
      rw [Node.expressionsOfList_singleton, elementNode_expressions]
      exact header.append_nil (induction header.keeps.reachable)
  | append left right induction_left induction_right =>
      have first := induction_left reachable
      rw [Node.expressionsOfList_append]
      exact first.append_nil (induction_right first.keeps.reachable)

/-- Nodes read from markup see the scope it is read in. -/
theorem Reads.covers {nodes : List Node} (reads : Reads scope registry nodes after) :
    Node.CoversAll (Scope.names scope) nodes := by
  induction reads with
  | nil => exact Node.coversAll_nil _
  | text value location => simp [Node.Covers]
  | code location raw => simp [Node.Covers, registerCode]
  | element name location attributes children induction =>
      refine Node.coversAll_cons.mpr ⟨elementNode_covers.mpr ⟨List.Subset.refl _, ?_, induction⟩,
        Node.coversAll_nil _⟩
      intro e member
      rw [attributes.scope_eq e member]
      exact List.Subset.refl _
  | append left right induction_left induction_right =>
      exact Node.coversAll_append.mpr ⟨induction_left, induction_right⟩

/-- Nodes read from markup name no loop but that of the scope it is read in. -/
theorem Reads.enclosed {nodes : List Node} {loops : List String}
    (reads : Reads scope registry nodes after) (inside : Scope.Inside loops scope) :
    Node.EnclosedAll loops nodes := by
  induction reads with
  | nil => exact Node.enclosedAll_nil _
  | text value location | code location raw =>
      rw [Node.enclosedAll_cons, Node.Enclosed]
      exact ⟨inside, Node.enclosedAll_nil _⟩
  | element name location attributes children induction =>
      rw [Node.enclosedAll_cons, elementNode]
      refine ⟨?_, Node.enclosedAll_nil _⟩
      split <;> rw [Node.Enclosed] <;> exact ⟨inside, attributes.enclosed inside, induction⟩
  | append left right induction_left induction_right =>
      exact Node.enclosedAll_append.mpr ⟨induction_left, induction_right⟩

end Fragment
end ReactiveTemplate
