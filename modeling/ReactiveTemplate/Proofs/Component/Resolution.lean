import ReactiveTemplate.Component.Resolution
import ReactiveTemplate.Proofs.Component.Forwarding
import ReactiveTemplate.Proofs.Component.Slots
import ReactiveTemplate.Proofs.Fragment.Lowering

/-!
# Resolution

An instance is made of new expressions, of the content of the usage and of its forwarded attributes;
the values of props leave the registry.  By induction on how deep usages are nested, in content and
in definitions, a resolved tree agrees with the registry again, and every part of it sees what it
saw and stays inside the loops it names.
-/

namespace ReactiveTemplate

open Registry

namespace Library

/-- The loops of every definition are in reach of what they repeat. -/
def Scoped (library : Library) : Prop :=
  ∀ entry ∈ library.entries, Node.CoversAll [] entry.2.nodes

/-- Every definition has each id once and names no loop but its own. -/
def Closed (library : Library) : Prop :=
  ∀ entry ∈ library.entries, (Node.idsOfList entry.2.nodes).Nodup ∧
    Node.EnclosedAll [] entry.2.nodes

private theorem foldl_smaller_mem (first : String × Definition)
    (rest : List (String × Definition)) : rest.foldl smaller first ∈ first :: rest := by
  induction rest generalizing first with
  | nil => exact List.mem_cons_self
  | cons entry rest induction =>
      rw [List.foldl_cons]
      rcases List.mem_cons.mp (induction (smaller first entry)) with same | member
      · rw [same, smaller]
        split
        · exact List.mem_cons_of_mem _ List.mem_cons_self
        · exact List.mem_cons_self
      · exact List.mem_cons_of_mem _ (List.mem_cons_of_mem _ member)

/-- What a name refers to is one of the definitions. -/
theorem mem_of_lookup? {library : Library} {name : String} {definition : Definition}
    (found : library.lookup? name = some definition) :
    ∃ key, (key, definition) ∈ library.entries := by
  rw [lookup?, Option.or_eq_some_iff] at found
  rcases found with found | ⟨-, found⟩
  · exact ⟨name, mem_of_lookup found⟩
  · rw [Option.map_eq_some_iff] at found
    obtain ⟨⟨key, same⟩, found, rfl⟩ := found
    refine ⟨key, ?_⟩
    cases near : library.entries.filter fun entry => Text.equalIgnoringAsciiCase entry.1 name with
    | nil =>
        rw [near] at found
        cases found
    | cons first rest =>
        rw [near, smallest?, Option.some_inj] at found
        have member := foldl_smaller_mem first rest
        rw [found, ← near] at member
        exact (List.mem_filter.mp member).1

end Library

namespace Component

/-! ## Copies -/

/-- The attributes of a usage that give the values of props. -/
def Usage.given (usage : Usage) (definition : Definition) : List Attribute :=
  usage.attributes.filter definition.isProp

/-- The other attributes of a usage. -/
def Usage.forwarded (usage : Usage) (definition : Definition) : List Attribute :=
  usage.attributes.filter fun attr => !definition.isProp attr

theorem Usage.attributes_perm (usage : Usage) (definition : Definition) :
    (Attribute.expressions usage.attributes).Perm
      (Attribute.expressions (usage.given definition) ++
        Attribute.expressions (usage.forwarded definition)) := by
  rw [← Attribute.expressions_append]
  exact List.Perm.flatMap_right _ (List.filter_append_perm _ usage.attributes).symm

/-- A usage whose content has been taken out is left with its attributes. -/
theorem Usage.expressions_bare (usage : Usage) :
    Node.expressionsOfList [.component usage.name usage.attributes [] usage.site] =
      Attribute.expressions usage.attributes := by
  rw [Node.expressionsOfList_singleton, Node.expressions, Node.expressionsOfList,
    List.append_nil]

variable {definition : Definition} {usage : Usage} {registry after : Registry}
variable {nodes : List Node}

/-- The steps in which a copy is made. -/
theorem copy_steps (ok : copy definition usage registry = .ok (nodes, after)) :
    ∃ lowered middle,
      Fragment.lower (Node.rekey registry definition.nodes).1 definition.path
        (Node.rekey registry definition.nodes).2 = .ok (lowered, middle) ∧
      let filled := Definition.substitute (definition.propValues (usage.given definition))
        (middle.removeAll (Attribute.ids (usage.given definition))) lowered
      nodes = (Node.relocate usage.site.location filled.2 filled.1).1 ∧
        after = (Node.relocate usage.site.location filled.2 filled.1).2 := by
  simp only [copy, bind_eq_ok] at ok
  obtain ⟨⟨lowered, middle⟩, lower_ok, ok⟩ := ok
  have same := Except.ok.inj ok
  exact ⟨lowered, middle, lower_ok, (congrArg Prod.fst same).symm, (congrArg Prod.snd same).symm⟩

/-- A copy is made of new expressions, and the values of props are gone. -/
theorem copy_pass (keeps : registry.Keeps (Attribute.expressions (usage.given definition)))
    (ok : copy definition usage registry = .ok (nodes, after)) :
    Pass Grown registry (Attribute.expressions (usage.given definition)) after
      (Node.expressionsOfList nodes) := by
  obtain ⟨lowered, middle, lower_ok, rfl, rfl⟩ := copy_steps ok
  have rekeyed := Node.rekey_pass keeps.reachable definition.nodes
  have made := rekeyed.trans ((Fragment.lower_leads lower_ok).pass rekeyed.keeps)
  have beside := made.beside_left keeps
  have ids : Attribute.ids (usage.given definition) =
      (Attribute.expressions (usage.given definition)).map Expression.id := Attribute.ids_eq _
  -- the values of props go while the copy is being made
  have removed : Pass Anything middle (Attribute.expressions (usage.given definition))
      (middle.removeAll (Attribute.ids (usage.given definition))) [] :=
    .removeAll beside.keeps.reachable (ids ▸ List.Subset.refl _)
  have without := beside.trans (removed.beside_right beside.keeps)
  rw [List.append_nil] at without
  have substituted := Definition.substitute_pass
    (definition.propValues (usage.given definition)) without.keeps
  have finished := substituted.trans
    (Node.relocate_pass usage.site.location substituted.keeps)
  refine (without.trans finished).of_gone ?_
  intro id taken
  refine finished.stays_gone ?_ (get?_removeAll_of_mem (ids ▸ taken))
  exact (keeps.issued taken).mono without.next_le

theorem copy_covers (covers : Node.CoversAll [] definition.nodes)
    (ok : copy definition usage registry = .ok (nodes, after)) : Node.CoversAll [] nodes := by
  obtain ⟨lowered, middle, lower_ok, rfl, rfl⟩ := copy_steps ok
  have rekeyed := Node.rekey_covers registry covers
  have made := (Fragment.lower_leads lower_ok).covers trivial [] rekeyed
  exact Node.relocate_covers _ _ (Definition.substitute_covers _ _ made)

theorem copy_enclosed (reachable : registry.Reachable)
    (distinct : (Node.idsOfList definition.nodes).Nodup)
    (enclosed : Node.EnclosedAll [] definition.nodes)
    (ok : copy definition usage registry = .ok (nodes, after)) : Node.EnclosedAll [] nodes := by
  obtain ⟨lowered, middle, lower_ok, rfl, rfl⟩ := copy_steps ok
  have rekeyed := Node.rekey_enclosed registry (List.disjoint_nil_left _) distinct enclosed
  have made := (Fragment.lower_leads lower_ok).encloses [] [] trivial (List.Subset.refl _)
    (Node.rekey_pass reachable definition.nodes).keeps (fun id member => by cases member) rekeyed
  exact Node.relocate_enclosed _ _ (Definition.substitute_enclosed _ _ made)

/-! ## Instances -/

variable {context : Context} {slots : Slots} {progress progress' : Progress}

/-- Nothing is held besides the tree, and definitions see and name their own loops. -/
def Progress.stage (library : Library) (progress : Progress) : Stage where
  registry := progress.registry
  expectations := progress.expectations
  seen := library.Scoped
  around := fun _ => library.Closed

/-- The steps in which an instance is put together. -/
theorem assemble_steps
    (ok : assemble context definition usage slots progress = .ok (nodes, progress')) :
    ∃ made middle forwarded last,
      copy definition usage progress.registry = .ok (made, middle) ∧
      let placed := placeNodes usage.site.scope ⟨slots, middle, progress.expectations⟩ made
      forward definition usage.site.location (usage.forwarded definition)
        (placed.2.registry.removeAll placed.2.slots.unplacedIds) placed.1 =
          .ok (forwarded, last) ∧
      nodes = (Node.rebind usage.site.scope last forwarded).1 ∧
      progress' = { progress with
        registry := (Node.rebind usage.site.scope last forwarded).2
        expectations := placed.2.expectations } := by
  simp only [assemble, bind_eq_ok, reportIn_eq_ok] at ok
  obtain ⟨⟨made, middle⟩, copy_ok, ⟨forwarded, last⟩, forward_ok, ok⟩ := ok
  have same := Except.ok.inj ok
  exact ⟨made, middle, forwarded, last, copy_ok, forward_ok, (congrArg Prod.fst same).symm,
    (congrArg Prod.snd same).symm⟩

/-- The copy joins the content and the forwarded attributes. -/
private theorem copied_pass {content : List Expression}
    (keeps : registry.Keeps (content ++ Attribute.expressions usage.attributes))
    (ok : copy definition usage registry = .ok (nodes, after)) :
    Pass Grown registry (content ++ Attribute.expressions usage.attributes) after
      (Attribute.expressions (usage.forwarded definition) ++
        (content ++ Node.expressionsOfList nodes)) := by
  have order : (content ++ Attribute.expressions usage.attributes).Perm
      (Attribute.expressions (usage.given definition) ++
        (Attribute.expressions (usage.forwarded definition) ++ content)) := by
    rw [← List.append_assoc]
    exact List.perm_append_comm.trans
      ((usage.attributes_perm definition).append_right content)
  have kept := keeps.perm order
  have joined := ((copy_pass kept.left ok).beside_left kept).of_subset order.symm.subset
  refine joined.perm ?_
  rw [← List.append_assoc (Attribute.expressions _)]
  exact List.perm_append_comm

/-- Content that stands nowhere goes, and the root takes the forwarded attributes. -/
private theorem finished_pass {pending : List Expression} {result : List Node} {last : Registry}
    (keeps : registry.Keeps (Attribute.expressions (usage.forwarded definition) ++
      (pending ++ Node.expressionsOfList nodes)))
    (ok : forward definition usage.site.location (usage.forwarded definition)
      (registry.removeAll (pending.map Expression.id)) nodes = .ok (result, last)) :
    Pass Grown registry (Attribute.expressions (usage.forwarded definition) ++
        (pending ++ Node.expressionsOfList nodes))
      (Node.rebind usage.site.scope last result).2
      (Node.expressionsOfList (Node.rebind usage.site.scope last result).1) := by
  have gone : Pass Grown registry pending (registry.removeAll (pending.map Expression.id)) [] :=
    .removeAll keeps.reachable (List.Subset.refl _)
  have discarded := (gone.beside_left keeps.right).beside_right keeps
  rw [List.nil_append] at discarded
  have rooted := discarded.trans (forward_pass discarded.keeps ok)
  exact rooted.trans (Node.rebind_pass usage.site.scope rooted.keeps)

/-- A usage whose content is held gives way to its instance. -/
theorem assemble_leads {library : Library} {key : String}
    (known : (key, definition) ∈ library.entries) (unplaced : slots.Unplaced)
    (ok : assemble context definition usage slots progress = .ok (nodes, progress')) :
    Stage.Leads Grown
      { registry := progress.registry
        held := slots.expressions
        expectations := progress.expectations
        seen := library.Scoped ∧ slots.Cover (Scope.names usage.site.scope)
        around := fun loops => library.Closed ∧ slots.Enclosed loops }
      [.component usage.name usage.attributes [] usage.site] (progress'.stage library) nodes := by
  obtain ⟨made, middle, forwarded, last, copy_ok, forward_ok, rfl, rfl⟩ := assemble_steps ok
  have placing := placeNodes_leads usage.site.scope made ⟨slots, middle, progress.expectations⟩
  rw [Slots.unplacedIds_eq] at forward_ok
  have start (keeps : progress.registry.Keeps
      (slots.expressions ++ Attribute.expressions usage.attributes)) :
      Pass Grown progress.registry (slots.expressions ++ Attribute.expressions usage.attributes)
        middle (Attribute.expressions (usage.forwarded definition) ++
          (slots.pending ++ Node.expressionsOfList made)) := by
    rw [unplaced.pending_eq]
    exact copied_pass keeps copy_ok
  refine ⟨?_, fun seen => seen.1, ?_, ?_, fun _ around => around.1, ?_⟩
  · intro keeps
    rw [usage.expressions_bare] at keeps ⊢
    have copied := start keeps
    have placed := copied.trans
      ((placing.pass copied.keeps.right).beside_right copied.keeps)
    exact placed.trans (finished_pass placed.keeps forward_ok)
  · intro seen required covers
    rw [Node.coversAll_cons, Node.Covers] at covers
    have own := copy_covers (seen.1 _ known) copy_ok
    have whole := forward_covers (placing.covers seen.2 [] own) forward_ok
    exact Node.CoversAll.mono covers.1.1 _ (Node.rebind_covers usage.site.scope last whole)
  · intro seen keeps _ met
    rw [usage.expressions_bare] at keeps
    have copied := start keeps
    have placed := (placing.pass copied.keeps.right).beside_right copied.keeps
    have own := copy_covers (seen.1 _ known) copy_ok
    have expected := placing.met seen.2 copied.keeps.right own (met.pass copied)
    exact expected.pass (finished_pass placed.keeps forward_ok)
  · intro outer loops around part keeps apart enclosed
    rw [usage.expressions_bare] at keeps apart
    rw [Node.enclosedAll_cons, Node.Enclosed] at enclosed
    have copied := start keeps
    obtain ⟨distinct, closed⟩ := around.1 _ known
    have own := Node.EnclosedAll.mono (List.nil_subset loops) _
      (copy_enclosed keeps.reachable distinct closed copy_ok)
    have whole := placing.encloses outer loops around.2 part copied.keeps.right
      ((apart.pass copied).subset (List.subset_append_right _ _)) own
    have given : ∀ attr ∈ usage.forwarded definition, attr.Enclosed loops :=
      fun attr member => enclosed.1.2.1 attr (List.mem_filter.mp member).1
    exact Node.rebind_enclosed usage.site.scope last enclosed.1.1
      (forward_enclosed given whole forward_ok)

/-! ## Trees -/

/-- The nodes that an action makes agree with the registry and see what the given nodes saw. -/
def Resolves (library : Library) (action : Action (List Node)) (old : List Node) : Prop :=
  ∀ {progress result progress'}, action progress = .ok (result, progress') →
    Stage.Leads Grown (progress.stage library) old (progress'.stage library) result

mutual

theorem resolveNode_leads {library : Library} {one : Usage → Action (List Node)}
    (sound : ∀ usage : Usage, Resolves library (one usage)
      [.component usage.name usage.attributes usage.children usage.site]) :
    ∀ node : Node, Resolves library (resolveNode one node) [node]
  | .component name attributes children site, progress, result, progress', ok => by
      rw [resolveNode] at ok
      exact sound ⟨name, attributes, children, site⟩ ok
  | .element tag attributes children site, progress, result, progress', ok => by
      simp only [resolveNode, bind_eq_ok] at ok
      obtain ⟨⟨children', last⟩, below, ok⟩ := ok
      cases ok
      exact (resolveNodes_leads sound children below).element tag attributes site
  | .conditional id condition consequent alternate site, progress, result, progress', ok => by
      simp only [resolveNode, bind_eq_ok] at ok
      obtain ⟨⟨consequent', middle⟩, first, ⟨alternate', last⟩, second, ok⟩ := ok
      cases ok
      exact (resolveNodes_leads sound consequent first).conditional id condition site
        (resolveNodes_leads sound alternate second)
  | .optional id condition branch site, progress, result, progress', ok => by
      simp only [resolveNode, bind_eq_ok] at ok
      obtain ⟨⟨branch', last⟩, below, ok⟩ := ok
      cases ok
      exact (resolveNodes_leads sound branch below).optional id condition site
  | .loop id source binder body site, progress, result, progress', ok => by
      simp only [resolveNode, bind_eq_ok] at ok
      obtain ⟨⟨body', last⟩, below, ok⟩ := ok
      cases ok
      exact (resolveNodes_leads sound body below).loop id source binder site
  | .text .., progress, result, progress', ok | .expression _, progress, result, progress', ok
  | .doctype .., progress, result, progress', ok => by
      rw [resolveNode] at ok
      cases ok
      exact .refl _ _

theorem resolveNodes_leads {library : Library} {one : Usage → Action (List Node)}
    (sound : ∀ usage : Usage, Resolves library (one usage)
      [.component usage.name usage.attributes usage.children usage.site]) :
    ∀ nodes : List Node, Resolves library (resolveNodes one nodes) nodes
  | [], progress, result, progress', ok => by
      rw [resolveNodes] at ok
      cases ok
      exact .refl _ _
  | node :: rest, progress, result, progress', ok => by
      simp only [resolveNodes, bind_eq_ok] at ok
      obtain ⟨⟨first', middle⟩, first, ⟨rest', last⟩, second, ok⟩ := ok
      cases ok
      exact (resolveNode_leads sound node first).append (resolveNodes_leads sound rest second)

end

theorem resolveNamed_leads {library : Library} {resolve : List Node → Action (List Node)}
    (sound : ∀ nodes, Resolves library (resolve nodes) nodes)
    {named named' : List (String × SlotContent)}
    (ok : resolveNamed resolve named progress = .ok (named', progress')) :
    Stage.Leads Grown (progress.stage library)
      ((named.map (·.2)).flatMap SlotContent.nodes) (progress'.stage library)
      ((named'.map (·.2)).flatMap SlotContent.nodes) := by
  induction named generalizing progress named' with
  | nil =>
      cases ok
      exact .refl _ _
  | cons entry rest induction =>
      simp only [resolveNamed, bind_eq_ok] at ok
      obtain ⟨⟨nodes, middle⟩, first, ⟨others, last⟩, second, ok⟩ := ok
      cases ok
      exact (sound _ first).append (induction second)

theorem resolveNamed_unplaced {resolve : List Node → Action (List Node)}
    {named named' : List (String × SlotContent)}
    (unplaced : ∀ content ∈ named.map (·.2), content.placed = false)
    (ok : resolveNamed resolve named progress = .ok (named', progress')) :
    ∀ content ∈ named'.map (·.2), content.placed = false := by
  induction named generalizing progress named' with
  | nil =>
      cases ok
      exact unplaced
  | cons entry rest induction =>
      simp only [resolveNamed, bind_eq_ok] at ok
      obtain ⟨⟨nodes, middle⟩, first, ⟨others, last⟩, second, ok⟩ := ok
      cases ok
      rw [List.map_cons, List.forall_mem_cons] at unplaced ⊢
      exact ⟨unplaced.1, induction unplaced.2 second⟩

/-- Content is resolved in an order of its own. -/
theorem resolveSlots_leads {library : Library} {resolve : List Node → Action (List Node)}
    (sound : ∀ nodes, Resolves library (resolve nodes) nodes) {slots' : Slots}
    (ok : resolveSlots resolve slots progress = .ok (slots', progress')) :
    Stage.Leads Grown (progress.stage library) slots.nodes (progress'.stage library)
      slots'.nodes := by
  simp only [resolveSlots, bind_eq_ok] at ok
  obtain ⟨⟨nodes, middle⟩, first, ⟨named, last⟩, second, ok⟩ := ok
  cases ok
  have order : (slots.default.nodes ++
      ((slots.named.mergeSort fun a b => a.1 ≤ b.1).map (·.2)).flatMap SlotContent.nodes).Perm
      slots.nodes := by
    refine List.Perm.append_left _ (List.Perm.flatMap_right _ (List.Perm.map _ ?_))
    exact List.mergeSort_perm _ _
  refine ((sound _ first).append (resolveNamed_leads sound second)).within [] ?_ rfl ?_ ?_
  · exact (Node.expressionsOfList_perm order).subperm
  · intro required covers
    rw [Node.coversAll_iff] at covers
    exact ⟨required, Node.coversAll_iff.mpr fun node member => covers node (order.subset member),
      fun new => new⟩
  · intro loops enclosed
    rw [Node.enclosedAll_iff] at enclosed
    exact ⟨loops, List.Subset.refl _, List.subset_append_right _ _,
      Node.enclosedAll_iff.mpr fun node member => enclosed node (order.subset member),
      fun new => new⟩

theorem resolveSlots_unplaced {resolve : List Node → Action (List Node)} {slots' : Slots}
    (unplaced : slots.Unplaced)
    (ok : resolveSlots resolve slots progress = .ok (slots', progress')) : slots'.Unplaced := by
  simp only [resolveSlots, bind_eq_ok] at ok
  obtain ⟨⟨nodes, middle⟩, first, ⟨named, last⟩, second, ok⟩ := ok
  cases ok
  rw [Slots.Unplaced, Slots.contents, List.forall_mem_cons] at unplaced ⊢
  refine ⟨unplaced.1, resolveNamed_unplaced ?_ second⟩
  intro content member
  refine unplaced.2 content (List.Perm.subset ?_ member)
  exact List.Perm.map _ (List.mergeSort_perm _ _)

/-! ## Usages -/

theorem definitionOf_lookup {stack : List String}
    (ok : definitionOf context stack usage = .ok definition) :
    context.library.lookup? usage.name = some definition := by
  rw [definitionOf] at ok
  split at ok
  · cases ok
  · split at ok
    · cases ok
    · rename_i found
      split at ok
      · cases ok
      · cases ok
        exact found

@[simp]
theorem Progress.use_registry (progress : Progress) (definition : Definition) :
    (progress.use definition).registry = progress.registry := by
  rw [Progress.use]
  split <;> rfl

@[simp]
theorem Progress.use_expectations (progress : Progress) (definition : Definition) :
    (progress.use definition).expectations = progress.expectations := by
  rw [Progress.use]
  split <;> rfl

/-- The steps in which a usage is replaced. -/
theorem instantiate_steps {inside : List String → List Node → Action (List Node)}
    {stack : List String} {depth : Nat}
    (ok : instantiate context inside stack (depth + 1) usage progress = .ok (nodes, progress')) :
    ∃ definition slots middle slots' resolved made assembled,
      definitionOf context stack usage = .ok definition ∧
      Slots.divide definition usage.site.scope {} progress.registry usage.children =
        .ok (slots, middle) ∧
      resolveSlots (resolveNodes (instantiate context inside stack depth)) slots
        { progress.use definition with registry := middle } = .ok (slots', resolved) ∧
      assemble context definition usage slots' resolved = .ok (made, assembled) ∧
      inside (stack ++ [definition.name]) made assembled = .ok (nodes, progress') := by
  simp only [instantiate, bind_eq_ok, reportIn_eq_ok, Progress.use_registry] at ok
  obtain ⟨definition, found, ⟨slots, middle⟩, divided, ⟨slots', resolved⟩, content,
    ⟨made, assembled⟩, assemble_ok, ok⟩ := ok
  exact ⟨definition, slots, middle, slots', resolved, made, assembled, found, divided, content,
    assemble_ok, ok⟩

/-- The content of a usage is divided and resolved beside its attributes. -/
private theorem content_pass {library : Library} {slots' : Slots} {attributes : List Attribute}
    {scope : Option Scope} {children : List Node}
    (keeps : registry.Keeps (Attribute.expressions attributes ++ Node.expressionsOfList children))
    (divided : Slots.divide definition scope {} registry children =
      .ok (slots, progress.registry))
    (filling : Stage.Leads Grown (progress.stage library) slots.nodes (progress'.stage library)
      slots'.nodes) :
    Pass Grown registry (Attribute.expressions attributes ++ Node.expressionsOfList children)
        progress.registry (Attribute.expressions attributes ++ slots.expressions) ∧
      Pass Grown registry (Attribute.expressions attributes ++ Node.expressionsOfList children)
        progress'.registry (slots'.expressions ++ Attribute.expressions attributes) := by
  have dividing := (Slots.divide_pass keeps.right divided).beside_right keeps
  refine ⟨dividing, ?_⟩
  have held := dividing.keeps
  rw [Slots.expressions_eq slots] at dividing held
  rw [Slots.expressions_eq slots']
  exact (dividing.trans ((filling.pass held.right).beside_right held)).perm List.perm_append_comm

/-- The content of a usage is resolved, the instance put together, and what it contains resolved. -/
theorem instantiate_leads {inside : List String → List Node → Action (List Node)}
    (sound : ∀ stack nodes, Resolves context.library (inside stack nodes) nodes)
    (stack : List String) (depth : Nat) :
    ∀ usage : Usage, Resolves context.library (instantiate context inside stack depth usage)
      [.component usage.name usage.attributes usage.children usage.site] := by
  induction depth with
  | zero => exact fun usage _ _ _ ok => (nomatch ok)
  | succ depth induction =>
      intro usage progress result progress' ok
      obtain ⟨definition, slots, middle, slots', resolved, made, assembled, found, divided, content,
        assemble_ok, ok⟩ := instantiate_steps ok
      obtain ⟨key, known⟩ := Library.mem_of_lookup? (definitionOf_lookup found)
      have empty : ({} : Slots).Unplaced := by simp [Slots.Unplaced, Slots.contents]
      have unplaced := resolveSlots_unplaced (Slots.divide_unplaced empty divided) content
      have filling := resolveSlots_leads (resolveNodes_leads induction) content
      have putting := assemble_leads known unplaced assemble_ok
      have rest := sound _ _ ok
      -- content covers the scope of the usage, whatever the usage itself covers
      have cover (required : List String) (covers : Node.CoversAll required
          [.component usage.name usage.attributes usage.children usage.site]) :
          slots.Cover (Scope.names usage.site.scope) := by
        rw [Node.coversAll_cons, Node.Covers] at covers
        refine Slots.divide_cover ?_ ?_ divided
        · exact Node.CoversAll.mono (List.nil_subset _) _ covers.1.2.2
        · simp [Slots.Cover, Slots.contents]
      have filled (seen : context.library.Scoped)
          (covers : slots.Cover (Scope.names usage.site.scope)) :
          slots'.Cover (Scope.names usage.site.scope) := by
        rw [Slots.cover_iff] at covers ⊢
        exact filling.covers seen _ covers
      have bare (required : List String) (covers : Node.CoversAll required
          [.component usage.name usage.attributes usage.children usage.site]) :
          Node.CoversAll required [.component usage.name usage.attributes [] usage.site] := by
        rw [Node.coversAll_cons, Node.Covers] at covers ⊢
        exact ⟨⟨covers.1.1, covers.1.2.1, Node.coversAll_nil _⟩, covers.2⟩
      have usage_eq : Node.expressionsOfList
          [.component usage.name usage.attributes usage.children usage.site] =
          Attribute.expressions usage.attributes ++ Node.expressionsOfList usage.children := by
        rw [Node.expressionsOfList_singleton, Node.expressions]
      have replacing (keeps : progress.registry.Keeps
          (Attribute.expressions usage.attributes ++ Node.expressionsOfList usage.children)) :
          resolved.registry.Keeps (slots'.expressions ++ Node.expressionsOfList
            [.component usage.name usage.attributes [] usage.site]) := by
        rw [usage.expressions_bare]
        exact (content_pass keeps divided filling).2.keeps
      refine ⟨?_, fun seen => seen, ?_, ?_, fun _ closed => closed, ?_⟩
      · intro keeps
        rw [usage_eq] at keeps ⊢
        have ready := (content_pass keeps divided filling).2
        have replaced := putting.pass (replacing keeps)
        rw [usage.expressions_bare] at replaced
        exact (ready.trans replaced).trans (rest.pass replaced.keeps)
      · intro seen required covers
        have whole := putting.covers ⟨seen, filled seen (cover required covers)⟩ required
          (bare required covers)
        exact rest.covers seen required whole
      · intro seen keeps covers met
        rw [usage_eq] at keeps
        have dividing := (content_pass keeps divided filling).1
        have held := dividing.keeps.right
        rw [Slots.expressions_eq] at held
        have own := cover [] covers
        have content_met := filling.met seen held
          (Node.CoversAll.mono (List.nil_subset _) _ (Slots.cover_iff.mp own))
          (by simpa [Progress.stage] using met.pass dividing)
        have ready := replacing keeps
        have seen' := And.intro seen (filled seen own)
        have whole_met := putting.met seen' ready (bare [] covers) content_met
        exact rest.met seen (putting.pass ready).keeps
          (putting.covers seen' [] (bare [] covers)) whole_met
      · intro outer loops closed part keeps apart enclosed
        rw [usage_eq] at keeps apart
        rw [Node.enclosedAll_cons, Node.Enclosed] at enclosed
        obtain ⟨⟨inside, attributes, below⟩, -⟩ := enclosed
        obtain ⟨dividing, ready⟩ := content_pass keeps divided filling
        have held := dividing.keeps.right
        have apart' := (apart.pass dividing).subset (List.subset_append_right _ _)
        rw [Slots.expressions_eq] at held apart'
        -- the content stands inside the loops around the usage, and stays there when it is resolved
        have given := Slots.divide_enclosed inside below (by simp [Slots.contents]) divided
        have resolved_content := filling.encloses outer loops closed part held apart'
          (Slots.enclosedAll_nodes.mpr given)
        have stands : slots'.Enclosed loops := Slots.enclosed_of_keeps ready.keeps.left
          ((apart.pass ready).subset (List.subset_append_left _ _)) resolved_content
        have replaced := replacing keeps
        have apart'' := apart.pass ready
        rw [← usage.expressions_bare] at apart''
        have whole := putting.encloses loops loops ⟨closed, stands⟩ (List.Subset.refl _) replaced
          apart'' (by simpa [Node.Enclosed, inside] using attributes)
        have assembled_pass := putting.pass replaced
        exact rest.encloses outer loops closed part assembled_pass.keeps
          (apart''.pass assembled_pass) whole

/-- Replacing all usages leads to a tree that agrees with the registry again. -/
theorem resolveWithin_leads (context : Context) (levels : Nat) (stack : List String)
    (nodes : List Node) :
    Resolves context.library (resolveWithin context levels stack nodes) nodes := by
  induction levels generalizing stack nodes with
  | zero => exact fun ok => (nomatch ok)
  | succ levels induction =>
      intro progress result progress' ok
      rw [resolveWithin] at ok
      exact resolveNodes_leads (instantiate_leads induction stack _) nodes ok

theorem resolve_leads {library : Library} {file : String} {resolution : Resolution}
    (ok : resolve library file nodes registry = .ok (resolution, after)) :
    Stage.Leads Grown
      { registry, seen := library.Scoped, around := fun _ => library.Closed } nodes
      { registry := after
        expectations := resolution.expectations
        seen := library.Scoped
        around := fun _ => library.Closed }
      resolution.nodes := by
  rw [resolve] at ok
  split at ok
  · cases ok
  · rename_i resolved
    cases ok
    exact resolveWithin_leads ⟨library, file⟩ _ _ _ resolved

end Component
end ReactiveTemplate
