import ReactiveTemplate.Fragment.Lowering
import ReactiveTemplate.Proofs.Fragment.Markup
import ReactiveTemplate.Proofs.Tree.Rewriting

/-!
# Lowering

Turning expressions into fragments takes over each expression, registers the head of the fragment
and what its branches contain, and removes the id of the expression.  The nodes it makes see all
that the expression saw, and inside a loop the variables of the loop; they name the loop that the
expression named, or the one that they are made inside.
-/

namespace ReactiveTemplate
namespace Fragment

/-- The nodes made of an expression hand on its registration and see what it saw. -/
def Sound (lowerOne : Expression → Action (List Node)) : Prop :=
  ∀ {e registry nodes after}, lowerOne e registry = .ok (nodes, after) →
    Stage.Leads Anything { registry } [.expression e] { registry := after } nodes

variable {lowerOne : Expression → Action (List Node)} {registry after : Registry}

theorem Sound.pass (sound : Sound lowerOne) {e : Expression} {nodes : List Node}
    (keeps : registry.Keeps [e]) (ok : lowerOne e registry = .ok (nodes, after)) :
    Pass Anything registry [e] after (Node.expressionsOfList nodes) :=
  (sound ok).pass keeps

theorem Sound.covers (sound : Sound lowerOne) {e : Expression} {nodes : List Node}
    {required : List String} (seen : required ⊆ Scope.names e.scope)
    (ok : lowerOne e registry = .ok (nodes, after)) : Node.CoversAll required nodes := by
  refine (sound ok).covers trivial required ?_
  rw [Node.coversAll_cons, Node.Covers]
  exact ⟨seen, Node.coversAll_nil _⟩

theorem Sound.encloses (sound : Sound lowerOne) {e : Expression} {nodes : List Node}
    {loops : List String} (keeps : registry.Keeps [e]) (apart : registry.Apart loops [e])
    (inside : Scope.Inside loops e.scope) (ok : lowerOne e registry = .ok (nodes, after)) :
    Node.EnclosedAll loops nodes := by
  refine (sound ok).encloses loops loops trivial (List.Subset.refl _) keeps apart ?_
  rw [Node.enclosedAll_cons, Node.Enclosed]
  exact ⟨inside, Node.enclosedAll_nil _⟩

mutual

theorem lowerNode_leads (sound : Sound lowerOne) :
    ∀ {node : Node} {registry after : Registry} {nodes : List Node},
      lowerNode lowerOne node registry = .ok (nodes, after) →
      Stage.Leads Anything { registry } [node] { registry := after } nodes
  | .expression e, registry, after, nodes, ok => by
      rw [lowerNode] at ok
      exact sound ok
  | .element tag attributes children site, registry, after, nodes, ok => by
      simp only [lowerNode, bind_eq_ok] at ok
      obtain ⟨-, -, ⟨children', after'⟩, below, ok⟩ := ok
      cases ok
      exact (lowerNodes_leads sound below).element tag attributes site
  | .component name attributes children site, registry, after, nodes, ok => by
      simp only [lowerNode, bind_eq_ok] at ok
      obtain ⟨-, -, ⟨children', after'⟩, below, ok⟩ := ok
      cases ok
      exact (lowerNodes_leads sound below).component name attributes site
  | .conditional id condition consequent alternate site, registry, after, nodes, ok => by
      simp only [lowerNode, bind_eq_ok] at ok
      obtain ⟨⟨consequent', middle⟩, first, ⟨alternate', after'⟩, second, ok⟩ := ok
      cases ok
      exact (lowerNodes_leads sound first).conditional id condition site
        (lowerNodes_leads sound second)
  | .optional id condition branch site, registry, after, nodes, ok => by
      simp only [lowerNode, bind_eq_ok] at ok
      obtain ⟨⟨branch', after'⟩, below, ok⟩ := ok
      cases ok
      exact (lowerNodes_leads sound below).optional id condition site
  | .loop id source binder body site, registry, after, nodes, ok => by
      simp only [lowerNode, bind_eq_ok] at ok
      obtain ⟨⟨body', after'⟩, below, ok⟩ := ok
      cases ok
      exact (lowerNodes_leads sound below).loop id source binder site
  | .text .., registry, after, nodes, ok | .doctype .., registry, after, nodes, ok => by
      rw [lowerNode] at ok
      cases ok
      exact .refl _ _

theorem lowerNodes_leads (sound : Sound lowerOne) :
    ∀ {nodes : List Node} {registry after : Registry} {result : List Node},
      lowerNodes lowerOne nodes registry = .ok (result, after) →
      Stage.Leads Anything { registry } nodes { registry := after } result
  | [], registry, after, result, ok => by
      rw [lowerNodes] at ok
      cases ok
      exact .refl _ _
  | node :: rest, registry, after, result, ok => by
      simp only [lowerNodes, bind_eq_ok] at ok
      obtain ⟨⟨first', middle⟩, first, ⟨rest', after'⟩, second, ok⟩ := ok
      cases ok
      exact (lowerNode_leads sound first).append (lowerNodes_leads sound second)

end

/-! ## Branches and shapes -/

/-- A branch shows nothing, is markup, or is an expression of its own. -/
theorem readBranch_cases {code : List Char} {location : Location} {scope : Option Scope}
    {nodes : List Node}
    (ok : readBranch lowerOne code location scope registry = .ok (nodes, after)) :
    (nodes = [] ∧ after = registry) ∨
      (∃ read middle, Reads scope registry read middle ∧
        lowerNodes lowerOne read middle = .ok (nodes, after)) ∨
      ∃ text place, lowerOne ⟨(registry.register "expr" text place scope).1, text, place, scope⟩
        (registry.register "expr" text place scope).2 = .ok (nodes, after) := by
  unfold readBranch at ok
  dsimp only at ok
  split at ok
  · cases ok
    exact .inl ⟨rfl, rfl⟩
  · split at ok
    · simp only [bind_eq_ok] at ok
      obtain ⟨⟨read, middle⟩, read_ok, ok⟩ := ok
      exact .inr (.inl ⟨read, middle, readChildren_reads read_ok, ok⟩)
    · exact .inr (.inr ⟨_, _, ok⟩)

theorem readBranch_pass (sound : Sound lowerOne) {code : List Char} {location : Location}
    {scope : Option Scope} {nodes : List Node} (reachable : registry.Reachable)
    (ok : readBranch lowerOne code location scope registry = .ok (nodes, after)) :
    Pass Anything registry [] after (Node.expressionsOfList nodes) := by
  rcases readBranch_cases ok with ⟨rfl, rfl⟩ | ⟨read, middle, reads, ok⟩ | ⟨text, place, ok⟩
  · exact .refl (.nil reachable)
  · have markup := reads.pass reachable
    exact markup.trans ((lowerNodes_leads sound ok).pass markup.keeps)
  · have code : Pass Anything registry [] _ _ := .register reachable "expr" text place place scope
    exact code.trans (sound.pass code.keeps ok)

theorem readBranch_covers (sound : Sound lowerOne) {code : List Char} {location : Location}
    {scope : Option Scope} {nodes : List Node}
    (ok : readBranch lowerOne code location scope registry = .ok (nodes, after)) :
    Node.CoversAll (Scope.names scope) nodes := by
  rcases readBranch_cases ok with ⟨rfl, -⟩ | ⟨read, middle, reads, ok⟩ | ⟨text, place, ok⟩
  · exact Node.coversAll_nil _
  · exact (lowerNodes_leads sound ok).covers trivial _ reads.covers
  · exact sound.covers (List.Subset.refl _) ok

theorem readBranch_encloses (sound : Sound lowerOne) {code : List Char} {location : Location}
    {scope : Option Scope} {nodes : List Node} {loops : List String}
    (reachable : registry.Reachable) (issued : ∀ id ∈ loops, registry.Issued id)
    (inside : Scope.Inside loops scope)
    (ok : readBranch lowerOne code location scope registry = .ok (nodes, after)) :
    Node.EnclosedAll loops nodes := by
  have apart := Registry.Apart.of_issued issued
  rcases readBranch_cases ok with ⟨rfl, -⟩ | ⟨read, middle, reads, ok⟩ | ⟨text, place, ok⟩
  · exact Node.enclosedAll_nil _
  · have markup := reads.pass reachable
    exact (lowerNodes_leads sound ok).encloses loops loops trivial (List.Subset.refl _)
      markup.keeps (apart.pass markup) (reads.enclosed inside)
  · have code : Pass Anything registry [] _ _ := .register reachable "expr" text place place scope
    exact sound.encloses code.keeps (apart.pass code) inside ok

/-- The old expression goes once the fragment is there. -/
private theorem replace_pass {e : Expression} {fragment : List Expression}
    (keeps : registry.Keeps [e]) (made : Pass Anything registry [] after fragment) :
    Pass Anything registry [e] (after.remove e.id) fragment := by
  have both : Pass Anything registry ([] ++ [e]) after (fragment ++ [e]) := made.beside_left keeps
  have gone : Pass Anything after [e] (after.removeAll [e.id]) [] :=
    .removeAll both.keeps.reachable (by simp)
  have replaced := both.trans (gone.beside_right both.keeps)
  rwa [List.nil_append, List.append_nil] at replaced

/-- An expression stays as it is, or the fragment is made of new expressions and takes its place. -/
theorem lowerShape_made (sound : Sound lowerOne) {e : Expression} {shape : Code.Shape}
    {nodes : List Node} (reachable : registry.Reachable)
    (ok : lowerShape lowerOne e shape registry = .ok (nodes, after)) :
    (nodes = [.expression e] ∧ after = registry) ∨
      ∃ made, Pass Anything registry [] made (Node.expressionsOfList nodes) ∧
        after = made.remove e.id := by
  cases shape with
  | primitive =>
      cases ok
      exact .inl ⟨rfl, rfl⟩
  | unknown | crash => cases ok
  | fragment markup =>
      simp only [lowerShape, bind_eq_ok] at ok
      obtain ⟨⟨branch, middle⟩, branch_ok, ok⟩ := ok
      cases ok
      exact .inr ⟨middle, readBranch_pass sound reachable branch_ok, rfl⟩
  | conditional condition consequent alternate =>
      simp only [lowerShape, bind_eq_ok] at ok
      obtain ⟨⟨first, middle⟩, first_ok, ⟨second, last⟩, second_ok, ok⟩ := ok
      cases ok
      have head : Pass Anything registry [] _ _ := .register reachable "cond"
        (segmentText condition) (segmentLocation e condition) e.location e.scope
      have left := readBranch_pass sound head.keeps.reachable first_ok
      have right := readBranch_pass sound left.keeps.reachable second_ok
      rw [Node.expressionsOfList_singleton, Node.expressions]
      exact .inr ⟨last, head.append_nil (left.append_nil right), rfl⟩
  | optional condition branch =>
      simp only [lowerShape, bind_eq_ok] at ok
      obtain ⟨⟨below, middle⟩, below_ok, ok⟩ := ok
      cases ok
      have head : Pass Anything registry [] _ _ := .register reachable "opt"
        (segmentText condition) (segmentLocation e condition) e.location e.scope
      have branch := readBranch_pass sound head.keeps.reachable below_ok
      rw [Node.expressionsOfList_singleton, Node.expressions]
      exact .inr ⟨middle, head.append_nil branch, rfl⟩
  | loop source binder body =>
      simp only [lowerShape, bind_eq_ok] at ok
      obtain ⟨⟨below, middle⟩, below_ok, ok⟩ := ok
      cases ok
      have head : Pass Anything registry [] _ _ := .register reachable "loop"
        (segmentText source) (segmentLocation e source) e.location e.scope
      have body := readBranch_pass sound head.keeps.reachable below_ok
      rw [Node.expressionsOfList_singleton, Node.expressions]
      exact .inr ⟨middle, head.append_nil body, rfl⟩

theorem lowerShape_pass (sound : Sound lowerOne) {e : Expression} {shape : Code.Shape}
    {nodes : List Node} (keeps : registry.Keeps [e])
    (ok : lowerShape lowerOne e shape registry = .ok (nodes, after)) :
    Pass Anything registry [e] after (Node.expressionsOfList nodes) := by
  rcases lowerShape_made sound keeps.reachable ok with ⟨rfl, rfl⟩ | ⟨made, pass, rfl⟩
  · exact .refl keeps
  · exact replace_pass keeps pass

theorem lowerShape_covers (sound : Sound lowerOne) {e : Expression} {shape : Code.Shape}
    {nodes : List Node} {required : List String} (seen : required ⊆ Scope.names e.scope)
    (ok : lowerShape lowerOne e shape registry = .ok (nodes, after)) :
    Node.CoversAll required nodes := by
  cases shape with
  | primitive =>
      cases ok
      rw [Node.coversAll_cons, Node.Covers]
      exact ⟨seen, Node.coversAll_nil _⟩
  | unknown | crash => cases ok
  | fragment markup =>
      simp only [lowerShape, bind_eq_ok] at ok
      obtain ⟨⟨branch, middle⟩, branch_ok, ok⟩ := ok
      cases ok
      exact Node.CoversAll.mono seen _ (readBranch_covers sound branch_ok)
  | conditional condition consequent alternate =>
      simp only [lowerShape, bind_eq_ok] at ok
      obtain ⟨⟨first, middle⟩, first_ok, ⟨second, last⟩, second_ok, ok⟩ := ok
      cases ok
      rw [Node.coversAll_cons, Node.Covers]
      exact ⟨⟨seen, Node.CoversAll.mono seen _ (readBranch_covers sound first_ok),
        Node.CoversAll.mono seen _ (readBranch_covers sound second_ok)⟩, Node.coversAll_nil _⟩
  | optional condition branch =>
      simp only [lowerShape, bind_eq_ok] at ok
      obtain ⟨⟨below, middle⟩, below_ok, ok⟩ := ok
      cases ok
      rw [Node.coversAll_cons, Node.Covers]
      exact ⟨⟨seen, Node.CoversAll.mono seen _ (readBranch_covers sound below_ok)⟩,
        Node.coversAll_nil _⟩
  | loop source binder body =>
      simp only [lowerShape, bind_eq_ok] at ok
      obtain ⟨⟨below, middle⟩, below_ok, ok⟩ := ok
      cases ok
      rw [Node.coversAll_cons, Node.Covers]
      -- the body is read in a scope that has the loop's own variables besides those of `e`
      exact ⟨⟨seen, Node.CoversAll.mono (Node.addNames_subset seen) _
        (readBranch_covers sound below_ok)⟩, Node.coversAll_nil _⟩

theorem lowerShape_encloses (sound : Sound lowerOne) {e : Expression} {shape : Code.Shape}
    {nodes : List Node} {loops : List String} (keeps : registry.Keeps [e])
    (issued : ∀ id ∈ loops, registry.Issued id) (inside : Scope.Inside loops e.scope)
    (ok : lowerShape lowerOne e shape registry = .ok (nodes, after)) :
    Node.EnclosedAll loops nodes := by
  -- loops that have been issued stay issued while the head and the branches are registered
  have later {middle : Registry} (le : registry.next ≤ middle.next) :
      ∀ id ∈ loops, middle.Issued id := fun id member => (issued id member).mono le
  cases shape with
  | primitive =>
      cases ok
      rw [Node.enclosedAll_cons, Node.Enclosed]
      exact ⟨inside, Node.enclosedAll_nil _⟩
  | unknown | crash => cases ok
  | fragment markup =>
      simp only [lowerShape, bind_eq_ok] at ok
      obtain ⟨⟨branch, middle⟩, branch_ok, ok⟩ := ok
      cases ok
      exact readBranch_encloses sound keeps.reachable issued inside branch_ok
  | conditional condition consequent alternate =>
      simp only [lowerShape, bind_eq_ok] at ok
      obtain ⟨⟨first, middle⟩, first_ok, ⟨second, last⟩, second_ok, ok⟩ := ok
      cases ok
      have head : Pass Anything registry [] _ _ := .register keeps.reachable "cond"
        (segmentText condition) (segmentLocation e condition) e.location e.scope
      have left := readBranch_pass sound head.keeps.reachable first_ok
      rw [Node.enclosedAll_cons, Node.Enclosed]
      exact ⟨⟨inside,
        readBranch_encloses sound head.keeps.reachable (later head.next_le) inside first_ok,
        readBranch_encloses sound left.keeps.reachable
          (later (Nat.le_trans head.next_le left.next_le)) inside second_ok⟩,
        Node.enclosedAll_nil _⟩
  | optional condition branch =>
      simp only [lowerShape, bind_eq_ok] at ok
      obtain ⟨⟨below, middle⟩, below_ok, ok⟩ := ok
      cases ok
      have head : Pass Anything registry [] _ _ := .register keeps.reachable "opt"
        (segmentText condition) (segmentLocation e condition) e.location e.scope
      rw [Node.enclosedAll_cons, Node.Enclosed]
      exact ⟨⟨inside,
        readBranch_encloses sound head.keeps.reachable (later head.next_le) inside below_ok⟩,
        Node.enclosedAll_nil _⟩
  | loop source binder body =>
      simp only [lowerShape, bind_eq_ok] at ok
      obtain ⟨⟨below, middle⟩, below_ok, ok⟩ := ok
      cases ok
      have head : Pass Anything registry [] _ _ := .register keeps.reachable "loop"
        (segmentText source) (segmentLocation e source) e.location e.scope
      rw [Node.enclosedAll_cons, Node.Enclosed]
      refine ⟨⟨inside, readBranch_encloses sound head.keeps.reachable ?_
        (Scope.inside_insideLoop _ _ _ _) below_ok⟩, Node.enclosedAll_nil _⟩
      -- the body names the loop that has just been registered
      rw [List.forall_mem_cons]
      exact ⟨head.keeps.issued List.mem_cons_self, later head.next_le⟩

theorem lowerWithin_sound (depth : Nat) : Sound (lowerWithin depth) := by
  induction depth with
  | zero => exact fun ok => (nomatch ok)
  | succ depth induction =>
      intro e registry nodes after ok
      refine .of_pass (fun keeps => lowerShape_pass induction keeps ok) ?_ ?_
      · intro required covers
        rw [Node.coversAll_cons, Node.Covers] at covers
        exact lowerShape_covers induction covers.1 ok
      · intro loops keeps apart enclosed
        rw [Node.enclosedAll_cons, Node.Enclosed] at enclosed
        exact lowerShape_encloses induction keeps (fun id member => (apart id member).1)
          enclosed.1 ok

/-- Lowering hands back expressions that agree with the registry, and nodes that see what the nodes
saw. -/
theorem lower_leads {nodes result : List Node} {file : String}
    (ok : lower nodes file registry = .ok (result, after)) :
    Stage.Leads Anything { registry } nodes { registry := after } result := by
  have sound : Sound lowerExpression := fun ok => lowerWithin_sound _ ok
  exact lowerNodes_leads sound (reportIn_eq_ok.mp ok)

end Fragment
end ReactiveTemplate
