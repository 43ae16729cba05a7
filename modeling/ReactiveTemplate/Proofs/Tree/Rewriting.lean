import ReactiveTemplate.Proofs.Tree.Coverage
import ReactiveTemplate.Proofs.Tree.Enclosure

/-!
# Rewriting trees

Turning expressions into fragments, placing content and instantiating components all replace nodes
of a tree by others, children first, and keep the registry in step.  What they have in common is the
relation `Leads`: the expressions are handed on by a pass, the new nodes see what the old ones saw
and stay inside the loops they name, and expectations stay met.  It holds of a whole tree as soon as
it holds where nodes are replaced.
-/

namespace ReactiveTemplate

open Registry

/-! ## Expectations -/

/-- Every expectation is about an id that has been issued, and is met by its entry. -/
def Met (registry : Registry) (expectations : List (String × List String)) : Prop :=
  ∀ expected ∈ expectations, registry.Issued expected.1 ∧
    ∀ entry, registry.get? expected.1 = some entry → expected.2 ⊆ Scope.names entry.scope

/-- Expectations stay met while scopes grow. -/
theorem Met.pass {before after : Registry} {old new : List Expression}
    {expectations : List (String × List String)} (met : Met before expectations)
    (pass : Pass Grown before old after new) : Met after expectations := by
  intro expected member
  obtain ⟨issued, meets⟩ := met expected member
  refine ⟨issued.mono pass.next_le, ?_⟩
  intro entry found
  obtain ⟨former, held, -, -, grown⟩ := pass.allows expected.1 entry issued found
  exact List.Subset.trans (meets former held) grown.1

/-! ## Loops around a part -/

/-- The ids have been issued, and none of the expressions has one of them. -/
def Registry.Apart (registry : Registry) (ids : List String) (es : List Expression) : Prop :=
  ∀ id ∈ ids, registry.Issued id ∧ id ∉ es.map Expression.id

theorem Registry.Apart.subset {registry : Registry} {ids : List String} {es fs : List Expression}
    (apart : registry.Apart ids es) (part : fs ⊆ es) : registry.Apart ids fs :=
  fun id member => ⟨(apart id member).1, fun listed =>
    (apart id member).2 (List.map_subset _ part listed)⟩

/-- A pass hands back none of the ids that it did not take over. -/
theorem Registry.Apart.pass {allowed : Expression → Expression → Prop} {before after : Registry}
    {ids : List String} {old new : List Expression} (apart : before.Apart ids old)
    (pass : Pass allowed before old after new) : after.Apart ids new := fun id member =>
  ⟨(apart id member).1.mono pass.next_le, pass.notMem_new (apart id member).1 (apart id member).2⟩

/-- Ids that have been issued are apart from whatever is new. -/
theorem Registry.Apart.of_issued {registry : Registry} {ids : List String}
    (issued : ∀ id ∈ ids, registry.Issued id) : registry.Apart ids [] :=
  fun id member => ⟨issued id member, by simp⟩

/-! ## Rewriting -/

/-- What a tree is rewritten with. -/
structure Stage where
  /-- The registry. -/
  registry : Registry
  /-- Expressions that are to be put into the tree. -/
  held : List Expression := []
  /-- The variables that the scope of an id has to contain. -/
  expectations : List (String × List String) := []
  /-- What the nodes that are put into the tree see. -/
  seen : Prop := True
  /-- The nodes that are put into the tree stand inside the given loops. -/
  around : List String → Prop := fun _ => True

namespace Stage

/-- Nodes are rewritten from one stage to another. -/
structure Leads (allowed : Expression → Expression → Prop) (before : Stage) (old : List Node)
    (after : Stage) (new : List Node) : Prop where
  /-- What is held and the nodes are taken over. -/
  pass : before.registry.Keeps (before.held ++ Node.expressionsOfList old) →
    Pass allowed before.registry (before.held ++ Node.expressionsOfList old) after.registry
      (after.held ++ Node.expressionsOfList new)
  /-- What is still to be put into the tree sees as much as before. -/
  seen : before.seen → after.seen
  /-- The new nodes see what the old ones saw. -/
  covers : before.seen → ∀ required, Node.CoversAll required old → Node.CoversAll required new
  /-- Expectations stay met. -/
  met : before.seen → before.registry.Keeps (before.held ++ Node.expressionsOfList old) →
    Node.CoversAll [] old → Met before.registry before.expectations →
    Met after.registry after.expectations
  /-- What is still to be put into the tree stands inside the same loops as before. -/
  around : ∀ outer, before.around outer → after.around outer
  /-- The new nodes stand inside the loops that the old ones stood inside. -/
  encloses : ∀ outer loops, before.around outer → outer ⊆ loops →
    before.registry.Keeps (before.held ++ Node.expressionsOfList old) →
    before.registry.Apart loops (before.held ++ Node.expressionsOfList old) →
    Node.EnclosedAll loops old → Node.EnclosedAll loops new

namespace Leads

variable {allowed : Expression → Expression → Prop} [IsPreorder Expression allowed]
variable {before middle after : Stage} {first first' rest rest' old new outer outer' : List Node}

theorem refl (stage : Stage) (nodes : List Node) : Leads allowed stage nodes stage nodes where
  pass := .refl
  seen seen := seen
  covers _ _ covers := covers
  met _ _ _ met := met
  around _ around := around
  encloses _ _ _ _ _ _ enclosed := enclosed

omit [IsPreorder Expression allowed] in
/-- Where nothing is expected, it is enough to hand on expressions, to see as much and to stay inside
the same loops. -/
theorem of_pass {registry registry' : Registry}
    (pass : registry.Keeps (Node.expressionsOfList old) →
      Pass allowed registry (Node.expressionsOfList old) registry' (Node.expressionsOfList new))
    (covers : ∀ required, Node.CoversAll required old → Node.CoversAll required new)
    (encloses : ∀ loops, registry.Keeps (Node.expressionsOfList old) →
      registry.Apart loops (Node.expressionsOfList old) → Node.EnclosedAll loops old →
      Node.EnclosedAll loops new) :
    Leads allowed { registry } old { registry := registry' } new where
  pass := pass
  seen seen := seen
  covers _ := covers
  met _ _ _ _ _ member := by cases member
  around _ around := around
  encloses _ loops _ _ := encloses loops

/-- The first nodes, then the rest. -/
theorem append (left : Leads allowed before first middle first')
    (right : Leads allowed middle rest after rest') :
    Leads allowed before (first ++ rest) after (first' ++ rest') := by
  have halfway (keeps : before.registry.Keeps
      (before.held ++ Node.expressionsOfList (first ++ rest))) :
      Pass allowed before.registry (before.held ++ Node.expressionsOfList (first ++ rest))
        middle.registry (Node.expressionsOfList first' ++
          (middle.held ++ Node.expressionsOfList rest)) := by
    rw [Node.expressionsOfList_append, ← List.append_assoc] at keeps ⊢
    refine ((left.pass keeps.left).beside_left keeps).perm ?_
    rw [List.append_assoc]
    exact List.perm_append_comm_assoc _ _ _
  have kept (keeps : before.registry.Keeps
      (before.held ++ Node.expressionsOfList (first ++ rest))) :
      before.registry.Keeps (before.held ++ Node.expressionsOfList first) := by
    rw [Node.expressionsOfList_append, ← List.append_assoc] at keeps
    exact keeps.left
  refine ⟨?_, fun seen => right.seen (left.seen seen), ?_, ?_,
    fun outer around => right.around outer (left.around outer around), ?_⟩
  · intro keeps
    have start := halfway keeps
    refine (start.trans ((right.pass start.keeps.right).beside_right start.keeps)).perm ?_
    rw [Node.expressionsOfList_append]
    exact List.perm_append_comm_assoc _ _ _
  · intro seen required covers
    rw [Node.coversAll_append] at covers ⊢
    exact ⟨left.covers seen required covers.1,
      right.covers (left.seen seen) required covers.2⟩
  · intro seen keeps covers met
    rw [Node.coversAll_append] at covers
    exact right.met (left.seen seen) (halfway keeps).keeps.right covers.2
      (left.met seen (kept keeps) covers.1 met)
  · intro outer loops around part keeps apart enclosed
    rw [Node.enclosedAll_append] at enclosed ⊢
    have apart' := apart.pass (halfway keeps)
    have here : before.held ++ Node.expressionsOfList first ⊆
        before.held ++ Node.expressionsOfList (first ++ rest) := by
      rw [Node.expressionsOfList_append, ← List.append_assoc]
      exact List.subset_append_left _ _
    exact ⟨left.encloses outer loops around part (kept keeps) (apart.subset here) enclosed.1,
      right.encloses outer loops (left.around outer around) part (halfway keeps).keeps.right
        (apart'.subset (List.subset_append_right _ _)) enclosed.2⟩

/-- Nodes inside others, of which `head` stays; whatever else the outer nodes had is dropped. -/
theorem within (leads : Leads allowed before old after new) (head : List Expression)
    (taken : (head ++ Node.expressionsOfList old).Subperm (Node.expressionsOfList outer))
    (made : Node.expressionsOfList outer' = head ++ Node.expressionsOfList new)
    (covers : ∀ required, Node.CoversAll required outer →
      ∃ inner, Node.CoversAll inner old ∧
        (Node.CoversAll inner new → Node.CoversAll required outer'))
    (encloses : ∀ loops, Node.EnclosedAll loops outer →
      ∃ inner, loops ⊆ inner ∧ inner ⊆ head.map Expression.id ++ loops ∧
        Node.EnclosedAll inner old ∧
        (Node.EnclosedAll inner new → Node.EnclosedAll loops outer')) :
    Leads allowed before outer after outer' := by
  have part : (head ++ (before.held ++ Node.expressionsOfList old)).Subperm
      (before.held ++ Node.expressionsOfList outer) :=
    (List.perm_append_comm_assoc _ _ _).subperm.trans ((List.subperm_append_left _).mpr taken)
  refine ⟨?_, leads.seen, ?_, ?_, leads.around, ?_⟩
  · intro keeps
    have kept := keeps.subperm part
    have inside := ((leads.pass kept.right).beside_right kept).of_subset part.subset
    rw [made]
    exact inside.perm (List.perm_append_comm_assoc _ _ _)
  · intro seen required outside
    obtain ⟨inner, inside, back⟩ := covers required outside
    exact back (leads.covers seen inner inside)
  · intro seen keeps outside
    obtain ⟨inner, inside, -⟩ := covers [] outside
    exact leads.met seen (keeps.subperm part).right
      (Node.CoversAll.mono (List.nil_subset inner) old inside)
  · intro around loops stands outside keeps apart enclosed
    obtain ⟨inner, grown, made_of, inside, back⟩ := encloses loops enclosed
    have kept := keeps.subperm part
    have apart' := apart.subset part.subset
    refine back (leads.encloses around inner stands (List.Subset.trans outside grown) kept.right ?_
      inside)
    intro id member
    rcases List.mem_append.mp (made_of member) with own | outer
    · refine ⟨kept.issued ?_, fun listed => kept.disjoint own listed⟩
      rw [List.map_append]
      exact List.mem_append_left _ own
    · exact apart'.subset (List.subset_append_right _ _) id outer

/-! ### Nodes around others -/

/-- Only the nodes inside an element are left of it. -/
theorem unwrap {tag : String} {attributes : List Attribute} {site : Site}
    (leads : Leads allowed before old after new) :
    Leads allowed before [.element tag attributes old site] after new := by
  refine leads.within [] ?_ rfl ?_ ?_
  · rw [Node.expressionsOfList_singleton, Node.expressions]
    exact (List.sublist_append_right _ _).subperm
  · intro required covers
    rw [Node.coversAll_cons, Node.Covers] at covers
    exact ⟨required, covers.1.2.2, fun covers => covers⟩
  · intro loops enclosed
    rw [Node.enclosedAll_cons, Node.Enclosed] at enclosed
    exact ⟨loops, List.Subset.refl _, List.subset_append_right _ _, enclosed.1.2.2,
      fun enclosed => enclosed⟩

theorem element (tag : String) (attributes : List Attribute) (site : Site)
    (leads : Leads allowed before old after new) :
    Leads allowed before [.element tag attributes old site] after
      [.element tag attributes new site] := by
  refine leads.within (Attribute.expressions attributes) ?_ ?_ ?_ ?_
  · rw [Node.expressionsOfList_singleton, Node.expressions]
  · rw [Node.expressionsOfList_singleton, Node.expressions]
  · intro required covers
    rw [Node.coversAll_cons, Node.Covers] at covers
    refine ⟨required, covers.1.2.2, fun new => ?_⟩
    rw [Node.coversAll_cons, Node.Covers]
    exact ⟨⟨covers.1.1, covers.1.2.1, new⟩, covers.2⟩
  · intro loops enclosed
    rw [Node.enclosedAll_cons, Node.Enclosed] at enclosed
    refine ⟨loops, List.Subset.refl _, List.subset_append_right _ _, enclosed.1.2.2, fun new => ?_⟩
    rw [Node.enclosedAll_cons, Node.Enclosed]
    exact ⟨⟨enclosed.1.1, enclosed.1.2.1, new⟩, enclosed.2⟩

theorem component (name : String) (attributes : List Attribute) (site : Site)
    (leads : Leads allowed before old after new) :
    Leads allowed before [.component name attributes old site] after
      [.component name attributes new site] := by
  refine leads.within (Attribute.expressions attributes) ?_ ?_ ?_ ?_
  · rw [Node.expressionsOfList_singleton, Node.expressions]
  · rw [Node.expressionsOfList_singleton, Node.expressions]
  · intro required covers
    rw [Node.coversAll_cons, Node.Covers] at covers
    refine ⟨required, covers.1.2.2, fun new => ?_⟩
    rw [Node.coversAll_cons, Node.Covers]
    exact ⟨⟨covers.1.1, covers.1.2.1, new⟩, covers.2⟩
  · intro loops enclosed
    rw [Node.enclosedAll_cons, Node.Enclosed] at enclosed
    refine ⟨loops, List.Subset.refl _, List.subset_append_right _ _, enclosed.1.2.2, fun new => ?_⟩
    rw [Node.enclosedAll_cons, Node.Enclosed]
    exact ⟨⟨enclosed.1.1, enclosed.1.2.1, new⟩, enclosed.2⟩

theorem conditional (id condition : String) (site : Site)
    (left : Leads allowed before first middle first')
    (right : Leads allowed middle rest after rest') :
    Leads allowed before [.conditional id condition first rest site] after
      [.conditional id condition first' rest' site] := by
  refine (left.append right).within [⟨id, condition, site.location, site.scope⟩] ?_ ?_ ?_ ?_
  · rw [Node.expressionsOfList_singleton, Node.expressions, Node.expressionsOfList_append,
      List.singleton_append]
  · rw [Node.expressionsOfList_singleton, Node.expressions, Node.expressionsOfList_append,
      List.singleton_append]
  · intro required covers
    rw [Node.coversAll_cons, Node.Covers] at covers
    refine ⟨required, Node.coversAll_append.mpr covers.1.2, fun new => ?_⟩
    rw [Node.coversAll_cons, Node.Covers]
    exact ⟨⟨covers.1.1, Node.coversAll_append.mp new⟩, covers.2⟩
  · intro loops enclosed
    rw [Node.enclosedAll_cons, Node.Enclosed] at enclosed
    refine ⟨loops, List.Subset.refl _, List.subset_append_right _ _,
      Node.enclosedAll_append.mpr enclosed.1.2, fun new => ?_⟩
    rw [Node.enclosedAll_cons, Node.Enclosed]
    exact ⟨⟨enclosed.1.1, Node.enclosedAll_append.mp new⟩, enclosed.2⟩

theorem optional (id condition : String) (site : Site)
    (leads : Leads allowed before old after new) :
    Leads allowed before [.optional id condition old site] after
      [.optional id condition new site] := by
  refine leads.within [⟨id, condition, site.location, site.scope⟩] ?_ ?_ ?_ ?_
  · rw [Node.expressionsOfList_singleton, Node.expressions, List.singleton_append]
  · rw [Node.expressionsOfList_singleton, Node.expressions, List.singleton_append]
  · intro required covers
    rw [Node.coversAll_cons, Node.Covers] at covers
    refine ⟨required, covers.1.2, fun new => ?_⟩
    rw [Node.coversAll_cons, Node.Covers]
    exact ⟨⟨covers.1.1, new⟩, covers.2⟩
  · intro loops enclosed
    rw [Node.enclosedAll_cons, Node.Enclosed] at enclosed
    refine ⟨loops, List.Subset.refl _, List.subset_append_right _ _, enclosed.1.2, fun new => ?_⟩
    rw [Node.enclosedAll_cons, Node.Enclosed]
    exact ⟨⟨enclosed.1.1, new⟩, enclosed.2⟩

theorem loop (id source : String) (binder : LoopBinder) (site : Site)
    (leads : Leads allowed before old after new) :
    Leads allowed before [.loop id source binder old site] after
      [.loop id source binder new site] := by
  refine leads.within [⟨id, source, site.location, site.scope⟩] ?_ ?_ ?_ ?_
  · rw [Node.expressionsOfList_singleton, Node.expressions, List.singleton_append]
  · rw [Node.expressionsOfList_singleton, Node.expressions, List.singleton_append]
  · intro required covers
    rw [Node.coversAll_cons, Node.Covers] at covers
    -- the body has to see the variables of the loop as well
    refine ⟨Scope.addNames required binder.bound, covers.1.2, fun new => ?_⟩
    rw [Node.coversAll_cons, Node.Covers]
    exact ⟨⟨covers.1.1, new⟩, covers.2⟩
  · intro loops enclosed
    rw [Node.enclosedAll_cons, Node.Enclosed] at enclosed
    -- the body stands inside the loop as well
    refine ⟨id :: loops, List.subset_cons_self _ _, List.Subset.refl _, enclosed.1.2,
      fun new => ?_⟩
    rw [Node.enclosedAll_cons, Node.Enclosed]
    exact ⟨⟨enclosed.1.1, new⟩, enclosed.2⟩

end Leads
end Stage
end ReactiveTemplate
