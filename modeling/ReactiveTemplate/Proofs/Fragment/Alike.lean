import ReactiveTemplate.Proofs.Diagnostic
import ReactiveTemplate.Fragment.Lowering
import ReactiveTemplate.Proofs.Fragment.Markup
import ReactiveTemplate.Proofs.Tree.Alike

/-!
# Lowering does not depend on the registry

What becomes of code is decided by its text.  Read in another scope, at another place and with
another registry, it gives nodes that are alike.
-/

namespace ReactiveTemplate

namespace Fragment

variable {scope scope' : Option Scope} {registry registry' after after' : Registry}
variable {location location' : Location}

theorem readValue_alike {name : String} {nameLocation nameLocation' : Location} {text : List Char}
    {read read' : ReadValue}
    (ok : readValue scope registry name nameLocation location text = .ok read)
    (ok' : readValue scope' registry' name nameLocation' location' text = .ok read') :
    read.value.Alike SameCode read'.value ∧ read.length = read'.length := by
  unfold readValue at ok ok'
  split at ok
  · split at ok
    · cases ok
    · rename_i length closing
      simp only [closing] at ok'
      cases ok
      cases ok'
      exact ⟨.dynamic rfl, rfl⟩
  · cases ok
    cases ok'
    exact ⟨.fixed _, rfl⟩
  · rename_i c rest other
    split at ok'
    · rename_i same
      cases same
      exact (other rfl).elim
    · rename_i empty
      cases empty
    · rename_i same
      cases same
      split at ok
      · rename_i quote
        rw [if_pos quote] at ok'
        cases ok
        cases ok'
        exact ⟨.fixed _, rfl⟩
      · rename_i plain
        rw [if_neg plain] at ok'
        split at ok
        · rename_i stop
          rw [if_pos stop] at ok'
          cases ok
          cases ok'
          exact ⟨.fixed _, rfl⟩
        · rename_i bare
          rw [if_neg bare] at ok'
          cases ok
          cases ok'
          exact ⟨.fixed _, rfl⟩

theorem readAssignment_alike {name : String} {nameLocation nameLocation' : Location}
    {text : List Char} {read read' : ReadValue}
    (ok : readAssignment scope registry name nameLocation location text = .ok read)
    (ok' : readAssignment scope' registry' name nameLocation' location' text = .ok read') :
    read.value.Alike SameCode read'.value ∧ read.length = read'.length := by
  unfold readAssignment at ok ok'
  dsimp only at ok ok'
  split at ok
  · rename_i rest assigned
    simp only [assigned] at ok'
    split at ok
    · rename_i value value_ok
      split at ok'
      · rename_i value' value_ok'
        obtain ⟨alike, length⟩ := readValue_alike value_ok value_ok'
        cases ok
        cases ok'
        exact ⟨alike, by simp only [length]⟩
      · cases ok'
    · cases ok
  · rename_i absent
    split at ok'
    · rename_i rest assigned
      exact (absent rest assigned).elim
    · cases ok
      cases ok'
      exact ⟨.fixed _, rfl⟩

/-- Two headers are alike and take up the same characters. -/
structure Header.Alike (header header' : Header) : Prop where
  attributes : Attribute.Alike SameCode header.attributes header'.attributes
  selfClosing : header.selfClosing = header'.selfClosing
  length : header.length = header'.length

theorem Header.Alike.later {header header' : Header} (alike : header.Alike header') :
    header.later.Alike header'.later :=
  ⟨alike.attributes, alike.selfClosing, congrArg (· + 1) alike.length⟩

private theorem later_ok {outcome : Except Misstep Header} {header : Header}
    (ok : (match outcome with
      | .ok header => .ok header.later
      | .error misstep => .error misstep) = Except.ok header) :
    ∃ inner, outcome = .ok inner ∧ header = inner.later := by
  cases outcome with
  | ok inner =>
      cases ok
      exact ⟨inner, rfl, rfl⟩
  | error misstep => cases ok

theorem readHeader_alike {skip : Nat} {text : List Char} {header header' : Header}
    (ok : readHeader scope registry location skip text = .ok header)
    (ok' : readHeader scope' registry' location' skip text = .ok header') :
    header.Alike header' := by
  induction text generalizing skip registry registry' location location' header header' with
  | nil =>
      cases skip with
      | zero | succ skip =>
          cases ok
          cases ok'
          exact ⟨.nil, rfl, rfl⟩
  | cons c rest induction =>
      cases skip with
      | succ skip =>
          obtain ⟨inner, inner_ok, rfl⟩ := later_ok ok
          obtain ⟨inner', inner_ok', rfl⟩ := later_ok ok'
          exact (induction inner_ok inner_ok').later
      | zero =>
          rw [readHeader] at ok ok'
          by_cases stop : c = '>'
          · rw [if_pos stop] at ok ok'
            cases ok
            cases ok'
            exact ⟨.nil, rfl, rfl⟩
          rw [if_neg stop] at ok ok'
          by_cases slash : c = '/' ∧ rest.head? = some '>'
          · rw [if_pos slash] at ok ok'
            cases ok
            cases ok'
            exact ⟨.nil, rfl, rfl⟩
          rw [if_neg slash] at ok ok'
          by_cases named : startsName c = true
          · rw [if_pos named] at ok ok'
            dsimp only at ok ok'
            split at ok
            · cases ok
            · rename_i read read_ok
              split at ok'
              · cases ok'
              · rename_i read' read_ok'
                obtain ⟨value, length⟩ := readAssignment_alike read_ok read_ok'
                rw [← length] at ok'
                split at ok
                · rename_i inner inner_ok
                  split at ok'
                  · rename_i inner' inner_ok'
                    have alike := induction inner_ok inner_ok'
                    cases ok
                    cases ok'
                    exact ⟨.cons ⟨rfl, value⟩ alike.attributes, alike.selfClosing,
                      alike.later.length⟩
                  · cases ok'
                · cases ok
          · rw [if_neg named] at ok ok'
            obtain ⟨inner, inner_ok, rfl⟩ := later_ok ok
            obtain ⟨inner', inner_ok', rfl⟩ := later_ok ok'
            exact (induction inner_ok inner_ok').later

theorem textNodes_alike (scope scope' : Option Scope) (location location' : Location)
    (raw : List Char) :
    Node.Alike SameCode (textNodes scope location raw) (textNodes scope' location' raw) := by
  unfold textNodes
  dsimp only
  by_cases empty : (if raw.contains '\n' then Text.trim raw else raw).isEmpty
  · rw [if_pos empty, if_pos empty]
    exact .nil
  · rw [if_neg empty, if_neg empty]
    exact .text .nil

theorem codeNodes_alike (scope scope' : Option Scope) (registry registry' : Registry)
    (location location' : Location) (raw : List Char) :
    Node.Alike SameCode (codeNodes scope registry location raw).1
      (codeNodes scope' registry' location' raw).1 := by
  rw [codeNodes, codeNodes]
  split
  · exact .nil
  · exact .expression rfl .nil

theorem elementNode_alike {name : String} {attributes attributes' : List Attribute}
    {children children' : List Node} (site site' : Site)
    (own : Attribute.Alike SameCode attributes attributes')
    (below : Node.Alike SameCode children children') :
    Node.Alike SameCode [elementNode name attributes children site]
      [elementNode name attributes' children' site'] := by
  rw [elementNode, elementNode]
  split
  · exact .component own below .nil
  · exact .element own below .nil

theorem readChildren_alike {closed : Bool} {text : List Char} {nodes nodes' : List Node}
    (ok : readChildren scope closed registry location text = .ok (nodes, after))
    (ok' : readChildren scope' closed registry' location' text = .ok (nodes', after')) :
    Node.Alike SameCode nodes nodes' := by
  -- what is read inside and behind the first element is shorter than the text
  induction size : text.length using Nat.strongRecOn
    generalizing closed text registry registry' location location' nodes nodes' after after' with
  | _ size induction =>
  subst size
  have plain := textNodes_alike scope scope' location location' (plainLead text)
  rcases readChildren_steps ok' with ⟨ended', rfl, -⟩ |
    ⟨rest', length', tail', brace', closing', -, rest_ok', rfl⟩ |
    ⟨c', rest', stop', header', children', middle', tail', other', element', ends', header_ok',
      -, -, inside_ok', rest_ok', rfl⟩
  · rcases readChildren_steps ok with ⟨-, rfl, -⟩ | ⟨rest, length, tail, brace, -⟩ |
      ⟨c, rest, stop, header, children, middle, tail, -, element, -⟩
    · exact plain
    · rw [ended'] at brace
      cases brace
    · rw [ended'] at element
      cases element
  · rcases readChildren_steps ok with ⟨ended, -⟩ |
      ⟨rest, length, tail, brace, closing, shorter, rest_ok, rfl⟩ |
      ⟨c, rest, stop, header, children, middle, tail, other, element, -⟩
    · rw [ended] at brace'
      cases brace'
    · rw [brace'] at brace
      cases brace
      rw [closing', Option.some_inj] at closing
      subst closing
      have behind := induction _ shorter rest_ok rest_ok' rfl
      exact (plain.append (codeNodes_alike _ _ _ _ _ _ _)).append behind
    · rw [brace'] at element
      cases element
      exact (other rfl).elim
  · rcases readChildren_steps ok with ⟨ended, -⟩ | ⟨rest, length, tail, brace, -⟩ |
      ⟨c, rest, stop, header, children, middle, tail, other, element, ends, header_ok, smaller,
        shorter, inside_ok, rest_ok, rfl⟩
    · rw [ended] at element'
      cases element'
    · rw [brace] at element'
      cases element'
      exact (other' rfl).elim
    · rw [element'] at element
      cases element
      rw [ends', Option.some_inj] at ends
      subst ends
      have headers : header.Alike header' := by
        split at header_ok
        · rename_i nameless
          rw [if_pos nameless] at header_ok'
          cases header_ok
          cases header_ok'
          exact ⟨.nil, rfl, rfl⟩
        · rename_i named
          rw [if_neg named] at header_ok'
          exact readHeader_alike header_ok header_ok'
      have range (closed : Bool) (element name : List Char) :
          insideRange closed element name header' = insideRange closed element name header := by
        rw [insideRange, insideRange, headers.selfClosing, headers.length]
      rw [range] at inside_ok'
      have below := induction _ smaller inside_ok inside_ok' rfl
      have behind := induction _ shorter rest_ok rest_ok' rfl
      refine (plain.append ?_).append behind
      split
      · exact below
      · exact elementNode_alike _ _ headers.attributes below

/-! ## Lowering -/

/-- What an expression is turned into depends on its code only. -/
def Uniform (lowerOne : Expression → Action (List Node)) : Prop :=
  ∀ {e e' registry registry' nodes nodes' after after'}, SameCode e e' →
    lowerOne e registry = .ok (nodes, after) → lowerOne e' registry' = .ok (nodes', after') →
    Node.Alike SameCode nodes nodes'

variable {lowerOne : Expression → Action (List Node)}

theorem lowerNodes_alike (uniform : Uniform lowerOne) {nodes nodes' result result' : List Node}
    (alike : Node.Alike SameCode nodes nodes')
    (ok : lowerNodes lowerOne nodes registry = .ok (result, after))
    (ok' : lowerNodes lowerOne nodes' registry' = .ok (result', after')) :
    Node.Alike SameCode result result' := by
  induction alike generalizing registry registry' result result' after after' with
  | nil =>
      cases ok
      cases ok'
      exact .nil
  | element attributes _ _ below behind =>
      simp only [lowerNodes, lowerNode, bind_eq_ok] at ok ok'
      obtain ⟨⟨_, _⟩, ⟨-, -, ⟨_, _⟩, inside, first⟩, ⟨_, _⟩, second, whole⟩ := ok
      obtain ⟨⟨_, _⟩, ⟨-, -, ⟨_, _⟩, inside', first'⟩, ⟨_, _⟩, second', whole'⟩ := ok'
      cases first
      cases first'
      cases whole
      cases whole'
      exact .element attributes (below inside inside') (behind second second')
  | component attributes _ _ below behind =>
      simp only [lowerNodes, lowerNode, bind_eq_ok] at ok ok'
      obtain ⟨⟨_, _⟩, ⟨-, -, ⟨_, _⟩, inside, first⟩, ⟨_, _⟩, second, whole⟩ := ok
      obtain ⟨⟨_, _⟩, ⟨-, -, ⟨_, _⟩, inside', first'⟩, ⟨_, _⟩, second', whole'⟩ := ok'
      cases first
      cases first'
      cases whole
      cases whole'
      exact .component attributes (below inside inside') (behind second second')
  | text _ behind =>
      simp only [lowerNodes, lowerNode, bind_eq_ok] at ok ok'
      obtain ⟨⟨_, _⟩, first, ⟨_, _⟩, second, whole⟩ := ok
      obtain ⟨⟨_, _⟩, first', ⟨_, _⟩, second', whole'⟩ := ok'
      cases first
      cases first'
      cases whole
      cases whole'
      exact .text (behind second second')
  | expression same _ behind =>
      simp only [lowerNodes, lowerNode, bind_eq_ok] at ok ok'
      obtain ⟨⟨_, _⟩, first, ⟨_, _⟩, second, whole⟩ := ok
      obtain ⟨⟨_, _⟩, first', ⟨_, _⟩, second', whole'⟩ := ok'
      cases whole
      cases whole'
      exact (uniform same first first').append (behind second second')
  | conditional same _ _ _ left right behind =>
      simp only [lowerNodes, lowerNode, bind_eq_ok] at ok ok'
      obtain ⟨⟨_, _⟩, ⟨⟨_, _⟩, one, ⟨_, _⟩, two, first⟩, ⟨_, _⟩, second, whole⟩ := ok
      obtain ⟨⟨_, _⟩, ⟨⟨_, _⟩, one', ⟨_, _⟩, two', first'⟩, ⟨_, _⟩, second', whole'⟩ := ok'
      cases first
      cases first'
      cases whole
      cases whole'
      exact .conditional same (left one one') (right two two') (behind second second')
  | optional same _ _ below behind =>
      simp only [lowerNodes, lowerNode, bind_eq_ok] at ok ok'
      obtain ⟨⟨_, _⟩, ⟨⟨_, _⟩, inside, first⟩, ⟨_, _⟩, second, whole⟩ := ok
      obtain ⟨⟨_, _⟩, ⟨⟨_, _⟩, inside', first'⟩, ⟨_, _⟩, second', whole'⟩ := ok'
      cases first
      cases first'
      cases whole
      cases whole'
      exact .optional same (below inside inside') (behind second second')
  | loop same _ _ below behind =>
      simp only [lowerNodes, lowerNode, bind_eq_ok] at ok ok'
      obtain ⟨⟨_, _⟩, ⟨⟨_, _⟩, inside, first⟩, ⟨_, _⟩, second, whole⟩ := ok
      obtain ⟨⟨_, _⟩, ⟨⟨_, _⟩, inside', first'⟩, ⟨_, _⟩, second', whole'⟩ := ok'
      cases first
      cases first'
      cases whole
      cases whole'
      exact .loop same (below inside inside') (behind second second')
  | doctype _ behind =>
      simp only [lowerNodes, lowerNode, bind_eq_ok] at ok ok'
      obtain ⟨⟨_, _⟩, first, ⟨_, _⟩, second, whole⟩ := ok
      obtain ⟨⟨_, _⟩, first', ⟨_, _⟩, second', whole'⟩ := ok'
      cases first
      cases first'
      cases whole
      cases whole'
      exact .doctype (behind second second')

theorem readBranch_alike (uniform : Uniform lowerOne) {code : List Char}
    {nodes nodes' : List Node}
    (ok : readBranch lowerOne code location scope registry = .ok (nodes, after))
    (ok' : readBranch lowerOne code location' scope' registry' = .ok (nodes', after')) :
    Node.Alike SameCode nodes nodes' := by
  unfold readBranch at ok ok'
  dsimp only at ok ok'
  split at ok
  · rename_i empty
    rw [if_pos empty] at ok'
    cases ok
    cases ok'
    exact .nil
  · rename_i shown
    rw [if_neg shown] at ok'
    split at ok
    · rename_i markup
      rw [if_pos markup] at ok'
      simp only [bind_eq_ok] at ok ok'
      obtain ⟨⟨read, middle⟩, read_ok, ok⟩ := ok
      obtain ⟨⟨read', middle'⟩, read_ok', ok'⟩ := ok'
      exact lowerNodes_alike uniform (readChildren_alike read_ok read_ok') ok ok'
    · rename_i plain
      rw [if_neg plain] at ok'
      refine uniform ?_ ok ok'
      exact rfl

theorem lowerShape_alike (uniform : Uniform lowerOne) {e e' : Expression} (same : SameCode e e')
    {shape : Code.Shape} {nodes nodes' : List Node}
    (ok : lowerShape lowerOne e shape registry = .ok (nodes, after))
    (ok' : lowerShape lowerOne e' shape registry' = .ok (nodes', after')) :
    Node.Alike SameCode nodes nodes' := by
  cases shape with
  | primitive =>
      cases ok
      cases ok'
      exact .expression same .nil
  | unknown | crash => cases ok
  | fragment markup =>
      simp only [lowerShape, bind_eq_ok] at ok ok'
      obtain ⟨⟨_, _⟩, branch, whole⟩ := ok
      obtain ⟨⟨_, _⟩, branch', whole'⟩ := ok'
      cases whole
      cases whole'
      exact readBranch_alike uniform branch branch'
  | conditional condition consequent alternate =>
      simp only [lowerShape, bind_eq_ok] at ok ok'
      obtain ⟨⟨_, _⟩, first, ⟨_, _⟩, second, whole⟩ := ok
      obtain ⟨⟨_, _⟩, first', ⟨_, _⟩, second', whole'⟩ := ok'
      cases whole
      cases whole'
      exact .conditional rfl (readBranch_alike uniform first first')
        (readBranch_alike uniform second second') .nil
  | optional condition branch =>
      simp only [lowerShape, bind_eq_ok] at ok ok'
      obtain ⟨⟨_, _⟩, below, whole⟩ := ok
      obtain ⟨⟨_, _⟩, below', whole'⟩ := ok'
      cases whole
      cases whole'
      exact .optional rfl (readBranch_alike uniform below below') .nil
  | loop source binder body =>
      simp only [lowerShape, bind_eq_ok] at ok ok'
      obtain ⟨⟨_, _⟩, below, whole⟩ := ok
      obtain ⟨⟨_, _⟩, below', whole'⟩ := ok'
      cases whole
      cases whole'
      exact .loop rfl (readBranch_alike uniform below below') .nil

theorem lowerWithin_uniform (depth : Nat) : Uniform (lowerWithin depth) := by
  induction depth with
  | zero => exact fun _ ok => (nomatch ok)
  | succ depth induction =>
      intro e e' registry registry' nodes nodes' after after' same ok ok'
      rw [lowerWithin] at ok ok'
      rw [same] at ok'
      exact lowerShape_alike induction same ok ok'

/-- Nodes that are alike are lowered to nodes that are alike, whatever the registries. -/
theorem lower_alike {nodes nodes' result result' : List Node} {file file' : String}
    (alike : Node.Alike SameCode nodes nodes')
    (ok : lower nodes file registry = .ok (result, after))
    (ok' : lower nodes' file' registry' = .ok (result', after')) :
    Node.Alike SameCode result result' := by
  have uniform : Uniform lowerExpression := by
    intro e e' registry registry' nodes nodes' after after' same ok ok'
    rw [lowerExpression] at ok ok'
    rw [same] at ok'
    exact lowerWithin_uniform _ same ok ok'
  exact lowerNodes_alike uniform alike (reportIn_eq_ok.mp ok) (reportIn_eq_ok.mp ok')

end Fragment
end ReactiveTemplate
