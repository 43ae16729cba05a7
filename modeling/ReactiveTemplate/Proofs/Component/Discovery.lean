import Mathlib.Data.List.Induction
import ReactiveTemplate.Component.Discovery
import ReactiveTemplate.Proofs.Lookup

/-!
# Libraries of paths

Discovery and the cache both make a library from the definitions at a list of paths.  Of two with
one name the later counts, in either.
-/

namespace ReactiveTemplate

namespace Library

theorem get?_insert (library : Library) (definition : Definition) (key : String) :
    (library.insert definition).get? key =
      if key = definition.name then some definition else library.get? key := by
  have others := lookup_filter (· != definition.name) library.entries key
  rw [get?, insert, List.lookup_append, others]
  by_cases same : key = definition.name
  · simp [same]
  · have differs : (key == definition.name) = false := by simpa using same
    simp [same, differs, List.lookup_cons, get?]

theorem ofList_append (definitions : List Definition) (last : Definition) :
    ofList (definitions ++ [last]) = (ofList definitions).insert last :=
  List.foldl_append

/-- What is under a key is one of the definitions, and the key is its name. -/
theorem mem_of_get?_ofList {definitions : List Definition} {key : String}
    {definition : Definition} (found : (ofList definitions).get? key = some definition) :
    definition ∈ definitions ∧ definition.name = key := by
  induction definitions using List.reverseRecOn with
  | nil => cases found
  | append_singleton front last induction =>
      rw [ofList_append, get?_insert] at found
      split at found
      · rename_i named
        cases found
        exact ⟨by simp, named.symm⟩
      · obtain ⟨member, named⟩ := induction found
        exact ⟨List.mem_append_left _ member, named⟩

/-- Two ways to read definitions give the same library if the first reads whatever the second does,
and the second agrees wherever the library of the first has a definition from. -/
theorem get?_ofList_congr {first second : String → Option Definition} {name : String → String}
    {paths : List String}
    (named : ∀ path definition, first path = some definition → definition.name = name path)
    (named' : ∀ path definition, second path = some definition → definition.name = name path)
    (missed : ∀ path ∈ paths, first path = none → second path = none) {key : String}
    (agree : ∀ path ∈ paths, ∀ definition, first path = some definition →
      (ofList (paths.filterMap first)).get? key = some definition →
        second path = some definition) :
    (ofList (paths.filterMap first)).get? key = (ofList (paths.filterMap second)).get? key := by
  induction paths using List.reverseRecOn with
  | nil => rfl
  | append_singleton front last induction =>
      have earlier := induction fun path member => missed path (List.mem_append_left _ member)
      rw [List.filterMap_append] at agree
      rw [List.filterMap_append, List.filterMap_append]
      cases own : first last with
      | none =>
          have other : second last = none := missed last (by simp) own
          simp only [own, other, List.filterMap_cons, List.filterMap_nil, List.append_nil]
            at agree ⊢
          exact earlier fun path member => agree path (List.mem_append_left _ member)
      | some definition =>
          simp only [own, List.filterMap_cons, List.filterMap_nil, ofList_append, get?_insert]
            at agree ⊢
          by_cases mine : key = definition.name
          · have same : second last = some definition :=
              agree last (by simp) definition own (by rw [if_pos mine])
            simp [same, ofList_append, get?_insert, mine]
          · rw [if_neg mine] at agree ⊢
            rw [earlier fun path member => agree path (List.mem_append_left _ member)]
            cases other : second last with
            | none => simp
            | some definition' =>
                have differs : key ≠ definition'.name := by
                  rw [named' last definition' other, ← named last definition own]
                  exact mine
                simp [ofList_append, get?_insert, differs]

end Library

namespace Definition

/-- A definition has the name and the path that it is read for. -/
theorem ofSource_fields {name path source : String} {definition : Definition}
    (ok : ofSource name path source = .ok definition) :
    definition.name = name ∧ definition.path = path := by
  rw [ofSource] at ok
  split at ok
  · cases ok
  · cases ok
    exact ⟨rfl, rfl⟩

end Definition

namespace Component

variable {tree : Files.Tree} {path : String} {definition : Definition}

theorem readDefinition_eq_ok :
    readDefinition tree path = .ok definition ↔ ∃ source, tree.read path = .ok source ∧
      Definition.ofSource (Files.componentName path) path source = .ok definition := by
  rw [readDefinition]
  split
  · rename_i fault failed
    simp [failed]
  · rename_i source read
    simp [read]

/-- The definition in a file, if it can be read. -/
def definitionAt? (tree : Files.Tree) (path : String) : Option Definition :=
  (readDefinition tree path).toOption

theorem definitionAt?_eq_some :
    definitionAt? tree path = some definition ↔ readDefinition tree path = .ok definition := by
  rw [definitionAt?]
  cases readDefinition tree path <;> simp [Except.toOption]

/-- A definition that is read has the name of its file. -/
theorem definitionAt?_name (found : definitionAt? tree path = some definition) :
    definition.name = Files.componentName path := by
  obtain ⟨source, -, ok⟩ := readDefinition_eq_ok.mp (definitionAt?_eq_some.mp found)
  exact (Definition.ofSource_fields ok).1

theorem discover_eq (tree : Files.Tree) (directory : String) :
    discover tree directory =
      .ofList ((tree.definitionPaths directory).filterMap (definitionAt? tree)) := by
  rw [discover, Library.ofList, List.foldl_filterMap]
  congr 1
  funext library path
  rw [discoverFile, definitionAt?]
  cases readDefinition tree path <;> rfl

end Component
end ReactiveTemplate
