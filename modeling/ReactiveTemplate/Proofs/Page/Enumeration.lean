import ReactiveTemplate.Page.Compile
import ReactiveTemplate.Proofs.Component.Library
import ReactiveTemplate.Proofs.Component.Termination
import ReactiveTemplate.Proofs.Tree.Table

/-!
# The order of maps

Definitions and the content for named slots are kept under distinct keys, and nothing in a compiled
page depends on the order in which the keys are gone through: definitions are looked up, content is
resolved in the order of its names, and the ids of content that stands nowhere can be removed in any
order.
-/

namespace ReactiveTemplate
namespace Component

/-! ## Content for named slots -/

section

variable {slots : Slots} {named : List (String × SlotContent)}

theorem Slots.unplacedIds_perm (same : slots.named.Perm named) :
    ({ slots with named } : Slots).unplacedIds.Perm slots.unplacedIds :=
  List.Perm.flatMap_right _ (((same.map _).symm).cons _)

/-- Where keys are distinct, sorting by them does not depend on the order before. -/
theorem mergeSort_perm_eq {α : Type} {entries entries' : List (String × α)}
    (distinct : (entries.map Prod.fst).Nodup) (same : entries.Perm entries') :
    entries.mergeSort (fun a b => a.1 ≤ b.1) = entries'.mergeSort (fun a b => a.1 ≤ b.1) := by
  have sorted (entries : List (String × α)) :
      (entries.mergeSort fun a b => a.1 ≤ b.1).Pairwise fun a b => decide (a.1 ≤ b.1) = true := by
    refine List.pairwise_mergeSort ?_ ?_ entries
    · intro a b c
      simp only [decide_eq_true_eq]
      exact String.le_trans
    · intro a b
      rw [Bool.or_eq_true, decide_eq_true_eq, decide_eq_true_eq]
      exact String.le_total a.1 b.1
  refine List.Perm.eq_of_pairwise ?_ (sorted entries) (sorted entries') ?_
  · intro a b member member' before after
    rw [decide_eq_true_eq] at before after
    have listed := (List.mergeSort_perm _ _).mem_iff.mp member
    have listed' := same.mem_iff.mpr ((List.mergeSort_perm _ _).mem_iff.mp member')
    exact List.inj_on_of_nodup_map distinct listed listed' (String.le_antisymm before after)
  · exact (List.mergeSort_perm _ _).trans (same.trans (List.mergeSort_perm _ _).symm)

/-- Where slots have one content each, their order does not matter when content is resolved. -/
theorem resolveSlots_perm (resolve : List Node → Action (List Node))
    (distinct : (slots.named.map Prod.fst).Nodup) (same : slots.named.Perm named) :
    resolveSlots resolve { slots with named } = resolveSlots resolve slots := by
  funext progress
  rw [resolveSlots, resolveSlots, mergeSort_perm_eq distinct same]

end

/-! ## Libraries -/

section

variable {library library' : Library} {file : String}

theorem definitionOf_congr (same : ∀ name, library.lookup? name = library'.lookup? name)
    (stack : List String) (usage : Usage) :
    definitionOf ⟨library, file⟩ stack usage = definitionOf ⟨library', file⟩ stack usage := by
  rw [definitionOf, definitionOf]
  dsimp only
  rw [same]

/-- Of the library, a usage needs what names refer to. -/
theorem instantiate_congr (same : ∀ name, library.lookup? name = library'.lookup? name)
    {inside inside' : List String → List Node → Action (List Node)} (below : inside = inside')
    (stack : List String) (depth : Nat) :
    instantiate ⟨library, file⟩ inside stack depth =
      instantiate ⟨library', file⟩ inside' stack depth := by
  subst below
  induction depth with
  | zero => rfl
  | succ depth induction =>
      funext usage progress
      rw [instantiate_succ, instantiate_succ, replace, replace, induction, definitionOf_congr same]
      rfl

theorem resolveWithin_congr (same : ∀ name, library.lookup? name = library'.lookup? name)
    (levels : Nat) :
    resolveWithin ⟨library, file⟩ levels = resolveWithin ⟨library', file⟩ levels := by
  induction levels with
  | zero => rfl
  | succ levels induction =>
      funext stack nodes progress
      rw [resolveWithin, resolveWithin, instantiate_congr same induction]

/-- Resolution does not depend on the order of the definitions. -/
theorem resolve_perm (distinct : (library.entries.map Prod.fst).Nodup)
    (same : library.entries.Perm library'.entries) :
    resolve library = resolve library' := by
  funext file nodes registry
  rw [resolve, resolve, resolveWithin_congr (Library.lookup?_perm distinct same), same.length_eq]

end

end Component

namespace Page

open Component

theorem compile_perm {library library' : Library} (distinct : (library.entries.map Prod.fst).Nodup)
    (same : library.entries.Perm library'.entries) (source file : String) :
    compile source file library = compile source file library' := by
  rw [compile, compile, resolve_perm distinct same]

/-- The order in which maps are gone through does not show.  For the content of slots: removing the
ids of what stands nowhere leaves the same table, positions included, and this is what removing
them leaves of the registry; and content is resolved to the same result.  For definitions: names
refer to the same ones, and pages compile to the same result.  Every registry that comes up belongs
to a table. -/
theorem order_irrelevant :
    (∀ (table : Table) (slots : Slots) (named : List (String × SlotContent)),
      table.Reachable → slots.named.Perm named →
        let left := table.removeAll slots.unplacedIds
        table.removeAll ({ slots with named } : Slots).unplacedIds = left ∧
        left.registry = table.registry.removeAll slots.unplacedIds ∧
        (∀ id, left.get? id = left.registry.get? id) ∧
        (∀ id, left.contains id = left.registry.contains id)) ∧
    (∀ registry : Registry, registry.Reachable →
      ∃ table : Table, table.Reachable ∧ table.registry = registry) ∧
    (∀ (resolve : List Node → Action (List Node)) (slots : Slots)
      (named : List (String × SlotContent)),
      (slots.named.map Prod.fst).Nodup → slots.named.Perm named →
        resolveSlots resolve { slots with named } = resolveSlots resolve slots) ∧
    ∀ library library' : Library,
      (library.entries.map Prod.fst).Nodup → library.entries.Perm library'.entries →
        (∀ name, library'.lookup? name = library.lookup? name) ∧
        ∀ source file, compile source file library' = compile source file library := by
  refine ⟨fun table slots named reachable same => ?_, fun registry => Table.exists_of_reachable,
    fun resolve slots named => resolveSlots_perm resolve, fun library library' distinct same => ?_⟩
  · obtain ⟨indexed, -⟩ := reachable.indexed
    obtain ⟨left, leaves⟩ := indexed.removeAll slots.unplacedIds
    have members (id : String) := (Slots.unplacedIds_perm same).mem_iff (a := id)
    exact ⟨indexed.removeAll_congr members, leaves, left.get?, left.contains⟩
  · exact ⟨fun name => (Library.lookup?_perm distinct same name).symm,
      fun source file => (compile_perm distinct same source file).symm⟩

/-- Four pieces of code, registered one after the other. -/
def fourRows : Table :=
  ["a", "b", "c", "d"].foldl (fun table code => (table.register "expr" code {} none).2) {}

/-- Content that stands nowhere, for a head and for a foot. -/
def headAndFoot : Slots where
  named := [("head", { nodes := [.expression ⟨"expr_0", "a", {}, none⟩] }),
    ("foot", { nodes := [.expression ⟨"expr_2", "c", {}, none⟩] })]

/-- Two cards whose keys differ in case only. -/
def twoCards : Library where
  entries := [("card", { (default : Definition) with name := "card" }),
    ("CARD", { (default : Definition) with name := "CARD" })]

/-- The last of four expressions moves up twice, whichever content is removed first; and a name that
two keys are spelled like refers to the smaller key, whichever stands first. -/
theorem order_irrelevant_rows :
    let table := fourRows
    let slots := headAndFoot
    let named := slots.named.reverse
    let library := twoCards
    let library' : Library := ⟨library.entries.reverse⟩
    table.Reachable ∧ slots.named.Perm named ∧ (library.entries.map Prod.fst).Nodup ∧
    library.entries.Perm library'.entries ∧
    slots.unplacedIds = ["expr_0", "expr_2"] ∧
    ({ slots with named } : Slots).unplacedIds = ["expr_2", "expr_0"] ∧
    table.removeAll ({ slots with named } : Slots).unplacedIds = table.removeAll slots.unplacedIds ∧
    (table.removeAll slots.unplacedIds).position "expr_3" = some 1 ∧
    library.lookup? "Card" = library'.lookup? "Card" ∧
    (library'.lookup? "Card").map Definition.name = some "CARD" := by
  intro table slots named library library'
  have reachable : table.Reachable :=
    ((((Table.Reachable.empty.register "expr" "a" {} none).register "expr" "b" {} none).register
      "expr" "c" {} none).register "expr" "d" {} none)
  have same : slots.named.Perm named := (List.reverse_perm _).symm
  have distinct : (library.entries.map Prod.fst).Nodup := by decide +kernel
  have same' : library.entries.Perm library'.entries := (List.reverse_perm _).symm
  have equal {left right : String}
      (same : left.toList.map Char.toLower = right.toList.map Char.toLower) :
      Text.equalIgnoringAsciiCase left right = true := by
    rw [Text.equalIgnoringAsciiCase, beq_iff_eq, Text.asciiLowercase, Text.asciiLowercase,
      ← String.toList_inj, String.toList_map, String.toList_map]
    exact same
  have lower : Text.equalIgnoringAsciiCase "card" "Card" = true := equal (by decide)
  have upper : Text.equalIgnoringAsciiCase "CARD" "Card" = true := equal (by decide)
  obtain ⟨tables, -, -, libraries⟩ := order_irrelevant
  have names := (libraries library library' distinct same').1
  refine ⟨reachable, same, distinct, same', ?_, ?_, (tables table slots named reachable same).1, ?_,
    (names "Card").symm, ?_⟩
  · decide +kernel
  · decide +kernel
  · decide +kernel
  · have spelled : library'.entries.filter
        (fun entry => Text.equalIgnoringAsciiCase entry.1 "Card") = library'.entries := by
      simp [library', library, twoCards, lower, upper]
    have absent : library'.get? "Card" = none := by decide +kernel
    rw [Library.lookup?, absent, spelled]
    decide +kernel

end Page
end ReactiveTemplate
