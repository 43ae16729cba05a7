import ReactiveTemplate.Proofs.Page.Check

/-!
# Resolved trees

Main statements: resolution keeps tree and registry in agreement, whatever the definitions are; of a
page that was read and lowered, with definitions that were read, no scope is ever narrowed; and the
expressions of such a page keep their code and their place, whatever the definitions are.
-/

namespace ReactiveTemplate

open Registry

/-- The ids of a tree are distinct, and each is registered with the code and the scope of the site
that carries it. -/
structure Registry.Agrees (registry : Registry) (nodes : List Node) : Prop where
  /-- No id occurs twice. -/
  distinct : (Node.idsOfList nodes).Nodup
  /-- Every id is registered. -/
  registered : ∀ id ∈ Node.idsOfList nodes, registry.contains id = true
  /-- Entries and sites have the same code and the same scope. -/
  sites : ∀ e ∈ Node.expressionsOfList nodes, registry.Holds e

instance (registry : Registry) (e : Expression) : Decidable (registry.Holds e) :=
  match found : registry.get? e.id with
  | none => .isFalse fun ⟨_, held, _⟩ => by simp [found] at held
  | some entry =>
    decidable_of_iff (entry.code = e.code ∧ entry.scope = e.scope)
      ⟨fun agrees => ⟨entry, found, agrees⟩, fun ⟨_, held, agrees⟩ => by
        rw [found, Option.some_inj] at held
        exact held ▸ agrees⟩

instance (registry : Registry) (nodes : List Node) : Decidable (registry.Agrees nodes) :=
  decidable_of_iff ((Node.idsOfList nodes).Nodup ∧
      (∀ id ∈ Node.idsOfList nodes, registry.contains id = true) ∧
      ∀ e ∈ Node.expressionsOfList nodes, registry.Holds e)
    ⟨fun ⟨distinct, registered, sites⟩ => ⟨distinct, registered, sites⟩,
      fun ⟨distinct, registered, sites⟩ => ⟨distinct, registered, sites⟩⟩

theorem Registry.Agrees.keeps {registry : Registry} {nodes : List Node}
    (agrees : registry.Agrees nodes) (reachable : registry.Reachable) :
    registry.Keeps (Node.expressionsOfList nodes) :=
  ⟨reachable, Node.idsOfList_eq nodes ▸ agrees.distinct, agrees.sites⟩

theorem Registry.contains_of_get? {registry : Registry} {id : String} {entry : Expression}
    (found : registry.get? id = some entry) : registry.contains id = true := by
  rw [contains, List.any_eq_true]
  exact ⟨entry, List.mem_of_find?_eq_some found, by simp [id_of_get? found]⟩

theorem Registry.Keeps.agrees {registry : Registry} {nodes : List Node}
    (keeps : registry.Keeps (Node.expressionsOfList nodes)) : registry.Agrees nodes := by
  refine ⟨Node.idsOfList_eq nodes ▸ keeps.distinct, ?_, keeps.held⟩
  intro id member
  rw [Node.idsOfList_eq] at member
  obtain ⟨e, listed, rfl⟩ := List.mem_map.mp member
  obtain ⟨entry, found, -⟩ := keeps.held e listed
  exact contains_of_get? found

namespace Component

variable {library : Library} {file : String} {nodes : List Node} {registry after : Registry}
variable {resolution : Resolution}

/-- Resolution keeps tree and registry in agreement, so that every binding of a resolved tree is
registered once. -/
theorem resolve_agrees (reachable : registry.Reachable) (agrees : registry.Agrees nodes)
    (ok : resolve library file nodes registry = .ok (resolution, after)) :
    after.Reachable ∧ after.Agrees resolution.nodes ∧
      ∀ expectations path report,
        Page.check resolution.nodes after expectations path = .error report →
          report.rule ≠ .registeredOnce := by
  have pass := (resolve_leads ok).pass (agrees.keeps reachable)
  have resolved : after.Agrees resolution.nodes := pass.keeps.agrees
  refine ⟨pass.keeps.reachable, resolved, ?_⟩
  intro expectations path report failed
  refine Page.rule_ne_of_check (Page.checkNodes_unmet ⟨after, expectations⟩ ?_) failed
  exact ⟨resolved.distinct, fun id member => ⟨resolved.registered id member, by simp⟩⟩

/-- A card that shows its content twice. -/
def doubleCard : Definition where
  name := "Card"
  path := "Card.zen"
  nodes := [.element "div" [⟨"class", .fixed "card", {}⟩]
    [.element "slot" [] [] {}, .element "slot" [] [] {}] {}]
  slots := ["default"]
  props := []
  styles := []
  script := none

/-- A usage of the card with a class of its own. -/
def cardUsage : List Node :=
  [.component "Card" [⟨"class", .dynamic ⟨"expr_0", "a", {}, none⟩, {}⟩]
    [.expression ⟨"expr_1", "b", {}, none⟩] {}]

/-- The registry that the usage agrees with. -/
def cardRegistry : Registry :=
  ((({} : Registry).register "expr" "a" {} none).2.register "expr" "b" {} none).2

theorem resolve_agrees_doubleCard :
    cardRegistry.Reachable ∧ cardRegistry.Agrees cardUsage ∧ ∃ resolution after,
      resolve ⟨[("Card", doubleCard)]⟩ "page.zen" cardUsage cardRegistry =
        .ok (resolution, after) ∧
      Node.idsOfList resolution.nodes = ["expr_3", "expr_1", "expr_2"] ∧
      after.Agrees resolution.nodes := by
  have reachable : cardRegistry.Reachable := (Reachable.empty.register _ _ _ _).register _ _ _ _
  have agrees : cardRegistry.Agrees cardUsage := by decide +kernel
  have evaluates : (resolve ⟨[("Card", doubleCard)]⟩ "page.zen" cardUsage cardRegistry
      ).toOption.any (fun value => Node.idsOfList value.1.nodes == ["expr_3", "expr_1", "expr_2"]) =
        true := by decide +kernel
  obtain ⟨⟨resolution, after⟩, ok, same⟩ := exists_ok _ evaluates
  exact ⟨reachable, agrees, resolution, after, ok, by simpa using same,
    (resolve_agrees reachable agrees ok).2.1⟩

/-! ## Scopes -/

/-- A page that has been read and lowered agrees with its registry and sees its own loops. -/
theorem lowered_page {source : String} {template : Template} {start parsed : Registry}
    (reachable : start.Reachable)
    (parse_ok : Template.parse source file start = .ok (template, parsed))
    (lower_ok : Fragment.lower template.nodes file parsed = .ok (nodes, registry)) :
    registry.Keeps (Node.expressionsOfList nodes) ∧ Node.CoversAll [] nodes := by
  have parsing := Template.parse_pass reachable parse_ok
  have lowering := Fragment.lower_leads lower_ok
  exact ⟨(lowering.pass parsing.keeps).keeps,
    lowering.covers trivial [] (Template.parse_covers parse_ok)⟩

/-- Definitions that have been read see their own loops. -/
theorem scoped_of_ofSource
    (read : ∀ entry ∈ library.entries,
      ∃ name path source, Definition.ofSource name path source = .ok entry.2) :
    library.Scoped := by
  intro entry member
  obtain ⟨name, path, source, ok⟩ := read entry member
  rw [Definition.ofSource] at ok
  split at ok
  · cases ok
  · rename_i template registry parse_ok
    have same := Except.ok.inj ok
    rw [← same]
    exact Template.parse_covers parse_ok

/-- No scope is narrowed: every site of a resolved page sees the variables of all loops around it,
and every id those that are expected of it. -/
theorem resolve_keeps_scopes {source : String} {template : Template} {start parsed : Registry}
    (reachable : start.Reachable)
    (read : ∀ entry ∈ library.entries,
      ∃ name path source, Definition.ofSource name path source = .ok entry.2)
    (parse_ok : Template.parse source file start = .ok (template, parsed))
    (lower_ok : Fragment.lower template.nodes file parsed = .ok (nodes, registry))
    (ok : resolve library file nodes registry = .ok (resolution, after)) :
    Node.CoversAll [] resolution.nodes ∧
      (∀ id expected, resolution.expectations.lookup id = some expected →
        (∀ e ∈ Node.expressionsOfList resolution.nodes,
          e.id = id → expected ⊆ Scope.names e.scope) ∧
        ∀ entry, after.get? id = some entry → expected ⊆ Scope.names entry.scope) ∧
      ∀ path report,
        Page.check resolution.nodes after resolution.expectations path = .error report →
          report.rule ≠ .scopeKept := by
  obtain ⟨keeps, covers⟩ := lowered_page reachable parse_ok lower_ok
  have leads := resolve_leads ok
  have seen := scoped_of_ofSource read
  have resolved := leads.covers seen [] covers
  have met : Met after resolution.expectations :=
    leads.met seen keeps covers fun _ member => by cases member
  have entries : ∀ id expected, resolution.expectations.lookup id = some expected →
      ∀ entry, after.get? id = some entry → expected ⊆ Scope.names entry.scope := by
    intro id expected found
    exact (met (id, expected) (mem_of_lookup found)).2
  have sites : ∀ e ∈ Node.expressionsOfList resolution.nodes,
      Page.Terms.Satisfied ⟨after, resolution.expectations⟩ e := by
    intro e member expected found
    obtain ⟨entry, registered, -, same⟩ := (leads.pass keeps).keeps.held e member
    exact same ▸ entries e.id expected found entry registered
  refine ⟨resolved, fun id expected found => ⟨?_, entries id expected found⟩, ?_⟩
  · rintro e member rfl
    exact sites e member expected found
  · intro path report failed
    exact Page.rule_ne_of_check (Page.checkNodes_covered _ resolved sites) failed

/-- Content from a loop of the page, placed in a loop of the definition. -/
theorem resolve_keeps_scopes_nested :
    ∃ definition template parsed nodes registry resolution after,
      Definition.ofSource "Rows" "Rows.zen" "<ul>{items.map(item => <li><slot/></li>)}</ul>" =
        .ok definition ∧
      Template.parse "{rows.map(row => <Rows>{row.name}</Rows>)}" "page.zen" {} =
        .ok (template, parsed) ∧
      Fragment.lower template.nodes "page.zen" parsed = .ok (nodes, registry) ∧
      resolve ⟨[("Rows", definition)]⟩ "page.zen" nodes registry = .ok (resolution, after) ∧
      resolution.expectations.map Prod.snd = [["row"]] ∧ Node.CoversAll [] resolution.nodes := by
  have evaluates : (do
      let definition ← Definition.ofSource "Rows" "Rows.zen"
        "<ul>{items.map(item => <li><slot/></li>)}</ul>"
      let page ← Template.parse "{rows.map(row => <Rows>{row.name}</Rows>)}" "page.zen" {}
      let lowered ← Fragment.lower page.1.nodes "page.zen" page.2
      resolve ⟨[("Rows", definition)]⟩ "page.zen" lowered.1 lowered.2).toOption.any
        (fun value : Resolution × Registry => value.1.expectations.map Prod.snd == [["row"]]) =
          true := by
    decide +kernel
  obtain ⟨⟨resolution, after⟩, ok, same⟩ := exists_ok _ evaluates
  simp only [bind_eq_ok] at ok
  obtain ⟨definition, read, ⟨template, parsed⟩, parse_ok, ⟨nodes, registry⟩, lower_ok, ok⟩ := ok
  have known : ∀ entry ∈ (⟨[("Rows", definition)]⟩ : Library).entries,
      ∃ name path source, Definition.ofSource name path source = .ok entry.2 := by
    intro entry member
    obtain rfl := List.mem_singleton.mp member
    exact ⟨_, _, _, read⟩
  exact ⟨definition, template, parsed, nodes, registry, resolution, after, read, parse_ok, lower_ok,
    ok, by simpa using same, (resolve_keeps_scopes .empty known parse_ok lower_ok ok).1⟩

/-! ## Expressions of the page -/

/-- An expression of a page that is still there after resolution is what it was: its site and its
entry have the code and the place they had, and scopes that have only grown.  The components around
it neither substitute in it nor move it. -/
theorem resolve_keeps_page {source : String} {template : Template} {start parsed : Registry}
    (reachable : start.Reachable)
    (parse_ok : Template.parse source file start = .ok (template, parsed))
    (lower_ok : Fragment.lower template.nodes file parsed = .ok (nodes, registry))
    (ok : resolve library file nodes registry = .ok (resolution, after)) :
    ∀ e ∈ Node.expressionsOfList nodes, ∀ e' ∈ Node.expressionsOfList resolution.nodes,
      e'.id = e.id →
        Grown e e' ∧
          ∃ entry entry', registry.get? e.id = some entry ∧ after.get? e.id = some entry' ∧
            Grown entry entry' := by
  intro e member e' member' same
  obtain ⟨keeps, -⟩ := lowered_page reachable parse_ok lower_ok
  have pass := (resolve_leads ok).pass keeps
  have listed : e.id ∈ (Node.expressionsOfList nodes).map Expression.id :=
    List.mem_map_of_mem member
  have issued : registry.Issued e.id := keeps.issued listed
  constructor
  · -- the site comes from a site of the page, and ids of the page are distinct
    rcases pass.origin e' member' with ⟨former, taken, same', grown⟩ | unissued
    · have equal : former = e := List.inj_on_of_nodup_map keeps.distinct taken member
        (same'.trans same)
      exact equal ▸ grown
    · exact (unissued (same ▸ issued)).elim
  · obtain ⟨entry', found', -⟩ := pass.keeps.held e' member'
    rw [same] at found'
    obtain ⟨entry, found, grown⟩ := pass.allows e.id entry' issued found'
    exact ⟨entry, entry', found, found', grown⟩

/-- A heading with a prop, around content that uses a variable of the same name and an attribute that
is passed on: neither is touched, though the definition is substituted in and moved. -/
theorem resolve_keeps_page_heading :
    ∃ definition template parsed nodes registry resolution after,
      Definition.ofSource "Head" "Head.zen"
        "<script>prop name</script><h1>{name}<slot/></h1>" = .ok definition ∧
      Template.parse "{rows.map(row => <Head name={row} id={name}>{name}</Head>)}" "page.zen" {} =
        .ok (template, parsed) ∧
      Fragment.lower template.nodes "page.zen" parsed = .ok (nodes, registry) ∧
      resolve ⟨[("Head", definition)]⟩ "page.zen" nodes registry = .ok (resolution, after) ∧
      Node.idsOfList nodes = ["loop_1", "expr_2", "expr_3", "expr_4"] ∧
      Node.idsOfList resolution.nodes = ["loop_1", "expr_3", "expr_5", "expr_4"] ∧
      (Node.expressionsOfList resolution.nodes).map Expression.code =
        ["rows", "name", "(row)", "name"] ∧
      ∀ e ∈ Node.expressionsOfList nodes, ∀ e' ∈ Node.expressionsOfList resolution.nodes,
        e'.id = e.id → Grown e e' := by
  have evaluates : (do
      let definition ← Definition.ofSource "Head" "Head.zen"
        "<script>prop name</script><h1>{name}<slot/></h1>"
      let page ← Template.parse "{rows.map(row => <Head name={row} id={name}>{name}</Head>)}"
        "page.zen" {}
      let lowered ← Fragment.lower page.1.nodes "page.zen" page.2
      let resolved ← resolve ⟨[("Head", definition)]⟩ "page.zen" lowered.1 lowered.2
      pure (lowered.1, resolved.1.nodes)).toOption.any
        (fun value : List Node × List Node =>
          Node.idsOfList value.1 == ["loop_1", "expr_2", "expr_3", "expr_4"] &&
          Node.idsOfList value.2 == ["loop_1", "expr_3", "expr_5", "expr_4"] &&
          (Node.expressionsOfList value.2).map Expression.code ==
            ["rows", "name", "(row)", "name"]) = true := by
    decide +kernel
  obtain ⟨value, ok, same⟩ := exists_ok _ evaluates
  simp only [bind_eq_ok] at ok
  obtain ⟨definition, read, ⟨template, parsed⟩, parse_ok, ⟨nodes, registry⟩, lower_ok,
    ⟨resolution, after⟩, ok, result⟩ := ok
  cases result
  simp only [Bool.and_eq_true, beq_iff_eq] at same
  exact ⟨definition, template, parsed, nodes, registry, resolution, after, read, parse_ok, lower_ok,
    ok, same.1.1, same.1.2, same.2, fun e member e' member' equal =>
      (resolve_keeps_page .empty parse_ok lower_ok ok e member e' member' equal).1⟩

end Component
end ReactiveTemplate
