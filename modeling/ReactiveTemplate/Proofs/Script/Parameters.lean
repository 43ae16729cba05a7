import ReactiveTemplate.Proofs.Code.Derivation
import ReactiveTemplate.Proofs.Fragment.Lowering
import ReactiveTemplate.Proofs.Script.Patterns
import ReactiveTemplate.Script.Parameters

/-!
# The names that a loop binds

The parameters of the function that a loop applies to each item are read as those of an arrow
function.  The names that the loop brings into scope are the ones that these parameters bind outside
of defaults, each at its first occurrence; a parameter that takes all further arguments adds none.
-/

namespace ReactiveTemplate
namespace Script

theorem read_of_loopParameters? {params : List Char} {loop : LoopParameters}
    (read : loopParameters? params = some loop) :
    ∃ parameters body rest,
      readProgram ('(' :: params ++ ") => 0".toList) =
        some (.expression (.arrow parameters body) :: rest) ∧
      loop.names = parameters.items.foldl (fun names item => item.pattern.addNames names) [] := by
  unfold loopParameters? at read
  dsimp only at read
  split at read
  · rename_i parameters body rest program
    split at read <;> cases read
    exact ⟨parameters, body, rest, program, rfl⟩
  · cases read

/-! ## Loops in expressions -/

/-- If the shape is a loop, its variables are the names of parameters that were read. -/
def BindsRead (shape : Code.Shape) : Prop :=
  ∀ source binder body, shape = .loop source binder body →
    ∃ params loop, loopParameters? params = some loop ∧ binder.bound = loop.names

theorem bindsRead_analyze (code : List Char) : BindsRead (Code.analyze code) := by
  intro source binder body same
  rw [Code.analyze_eq_shift] at same
  have derives := Code.analyzeBare_derives (Code.unwrapped code)
  generalize Code.analyzeBare (Code.unwrapped code) = shape at derives same
  cases derives with
  | loop _ _ _ _ _ _ read =>
    cases same
    exact ⟨_, _, read, rfl⟩
  | _ => cases same

/-- An expression that is a loop becomes a single node, and everything in its body sees the
variables of the loop. -/
theorem lowered_loop {e : Expression} {registry after : Registry} {nodes : List Node}
    {source body : Code.Segment} {binder : LoopBinder}
    (shape : Code.analyze e.code.toList = .loop source binder body)
    (lowered : Fragment.lowerExpression e registry = .ok (nodes, after)) :
    ∃ id text inner site, nodes = [.loop id text binder inner site] ∧
      Node.CoversAll binder.bound inner := by
  rw [Fragment.lowerExpression, Fragment.lowerWithin, shape] at lowered
  have covers := Fragment.lowerShape_covers (Fragment.lowerWithin_sound _) (List.nil_subset _)
    lowered
  simp only [Fragment.lowerShape, bind_eq_ok] at lowered
  obtain ⟨⟨inner, middle⟩, -, ok⟩ := lowered
  cases ok
  rw [Node.coversAll_cons, Node.Covers] at covers
  refine ⟨_, _, inner, _, rfl, Node.CoversAll.mono ?_ _ covers.1.2⟩
  exact fun name mem => Scope.mem_addNames.mpr (.inr mem)

/-! ## Main statement -/

/-- The names that are read from the parameters of a loop are those bound outside of defaults and of
a parameter that takes all further arguments, without repetition and in order of first occurrence;
they are all names if the parameters have neither.  Whatever expression becomes a loop with these
names, everything in the body of the loop sees them; and every loop gets its names in this way. -/
theorem loopParameters?_names {params : List Char} {loop : LoopParameters}
    (read : loopParameters? params = some loop) :
    (∃ parameters body rest,
      readProgram ('(' :: params ++ ") => 0".toList) =
        some (.expression (.arrow parameters body) :: rest) ∧
      loop.names = parameters.plainNames.eraseDups ∧ loop.names.Nodup ∧
      loop.names ⊆ parameters.names ∧
      (parameters.isPlain = true → loop.names = parameters.names.eraseDups)) ∧
    ∀ {e : Expression} {registry after : Registry} {nodes : List Node}
      {source body : Code.Segment} {binder : LoopBinder},
      Code.analyze e.code.toList = .loop source binder body →
      Fragment.lowerExpression e registry = .ok (nodes, after) →
      (∃ params loop, loopParameters? params = some loop ∧ binder.bound = loop.names) ∧
      (binder.bound = loop.names → ∃ id text inner site,
        nodes = [.loop id text binder inner site] ∧ Node.CoversAll loop.names inner) := by
  constructor
  · obtain ⟨parameters, body, rest, program, collected⟩ := read_of_loopParameters? read
    rw [foldl_addNames_eq] at collected
    have names : loop.names = parameters.plainNames.eraseDups := by
      rw [collected, addNames_eq_append, List.nil_append, Parameters.plainNames]
      simp [List.removeAll]
    refine ⟨parameters, body, rest, program, names, ?_, ?_, ?_⟩
    · rw [collected]
      exact nodup_addNames .nil _
    · rw [names]
      exact fun name mem => parameters.plainNames_sublist.subset (List.mem_eraseDups.mp mem)
    · intro plain
      rw [names, Parameters.plainNames_eq plain]
  · intro e registry after nodes source body binder shape lowered
    refine ⟨bindsRead_analyze _ _ _ _ shape, fun same => ?_⟩
    rw [← same]
    exact lowered_loop shape lowered

/-- A loop whose first parameter is taken apart. -/
theorem loopParameters?_names_rows :
    ∃ loop, loopParameters? "{ title, tags: [first, ...others] }, i".toList = some loop ∧
      loop.names = ["title", "first", "others", "i"] ∧
      ∃ e nodes after,
        e.code = "rows.map(({ title, tags: [first, ...others] }, i) => <li>{title}</li>)" ∧
        Fragment.lowerExpression e {} = .ok (nodes, after) ∧
        ∃ id text binder inner site, nodes = [.loop id text binder inner site] ∧
          Node.CoversAll ["title", "first", "others", "i"] inner := by
  let e : Expression :=
    ⟨"expr_0", "rows.map(({ title, tags: [first, ...others] }, i) => <li>{title}</li>)",
      ⟨1, 1⟩, none⟩
  have read : loopParameters? "{ title, tags: [first, ...others] }, i".toList =
      some ⟨["{ title, tags: [first, ...others] }", "i"], ["title", "first", "others", "i"]⟩ := by
    decide +kernel
  have program : readProgram ('(' :: "{ title, tags: [first, ...others] }, i".toList ++
      ") => 0".toList) =
        some [.expression (.arrow
          ⟨[⟨⟨1, 36⟩,
              .object [.name "title", .array [some (.name "first")] (some (.name "others"))] none,
              false⟩, ⟨⟨38, 39⟩, .name "i", false⟩], none⟩ [.expression .literal])] := by
    rfl
  have shape : Code.analyze e.code.toList =
      .loop ⟨"rows".toList, 0⟩ ⟨"{ title, tags: [first, ...others] }", some "i",
        ["title", "first", "others", "i"]⟩ ⟨"<li>{title}</li>".toList, 53⟩ := by
    decide +kernel
  have evaluates : (Fragment.lowerExpression e {}).toOption.any
      (fun result : List Node × Registry => result.1.length == 1) = true := by
    decide +kernel
  obtain ⟨⟨nodes, after⟩, lowered, -⟩ := exists_ok _ evaluates
  obtain ⟨⟨parameters, body, rest, same, -, -, -, all⟩, scopes⟩ := loopParameters?_names read
  rw [program] at same
  cases same
  obtain ⟨id, text, inner, site, node, covers⟩ := (scopes shape lowered).2 rfl
  exact ⟨_, read, (all (by decide)).trans (by decide), e, nodes, after, rfl, lowered, id, text, _,
    inner, site, node, covers⟩

end Script
end ReactiveTemplate
