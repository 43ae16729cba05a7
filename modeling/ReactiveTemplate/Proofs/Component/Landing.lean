import ReactiveTemplate.Proofs.Component.Balance
import ReactiveTemplate.Proofs.Component.Classes
import ReactiveTemplate.Proofs.Component.Marks

/-!
# Attributes on the root

What becomes of a root when attributes are put on it.  The names that are new follow those that were
there, in order; an attribute takes the place of the first one of its name, and the last one given
stays.  Only classes are combined, one after the other, into a text as long as all are fixed and into
an expression of its own otherwise.  The ids that the registry loses are those of the values that
the root does not have in the end.
-/

namespace ReactiveTemplate

/-! ## Names that are added -/

namespace Scope

/-- A name is not repeated by adding names. -/
theorem count_addNames_le (name : String) (names added : List String) :
    (addNames names added).count name ≤ max 1 (names.count name) := by
  induction added generalizing names with
  | nil => exact Nat.le_max_right _ _
  | cons first rest induction =>
      have step : (addNames names [first]).count name ≤ max 1 (names.count name) := by
        rw [addNames_singleton]
        split
        · exact Nat.le_max_right _ _
        · rename_i absent
          rw [List.count_append]
          by_cases same : name = first
          · subst same
            simp [List.count_eq_zero_of_not_mem absent]
          · rw [List.count_singleton, if_neg (by simpa using Ne.symm same)]
            exact Nat.le_max_right _ _
      exact (induction (addNames names [first])).trans (by omega)

end Scope

/-! ## Ids that are gone -/

open Registry in
/-- A step that takes registered ids over loses those of them that it does not hand back. -/
theorem Balance.ids {before after : Registry} {old new : List String}
    (balance : Balance before old after new) (reachable : before.Reachable) (distinct : old.Nodup)
    (listed : old ⊆ before.ids) :
    new ⊆ after.ids ∧ ∀ id ∈ before.ids, (id ∉ after.ids ↔ id ∈ old ∧ id ∉ new) := by
  obtain ⟨others, whole⟩ : ∃ others, before.ids.Perm (old ++ others) := by
    refine ⟨_, (List.subperm_append_diff_self_of_count_le fun id member => ?_).symm⟩
    rw [List.count_eq_one_of_mem distinct member]
    exact List.one_le_count_iff.mpr (listed member)
  have final := balance others ⟨reachable, whole⟩
  refine ⟨fun id member => final.same.mem_iff.mpr (List.mem_append_left _ member), ?_⟩
  intro id member
  have former := List.mem_append.mp (whole.mem_iff.mp member)
  have disjoint := (List.nodup_append.mp (whole.nodup_iff.mp reachable.distinct)).2.2 id
  rw [final.same.mem_iff, List.mem_append, not_or]
  constructor
  · rintro ⟨gone, other⟩
    exact ⟨former.resolve_right other, gone⟩
  · rintro ⟨taken, gone⟩
    exact ⟨gone, fun other => disjoint taken id other rfl⟩

/-- The site of an element or a usage. -/
def Node.site? : Node → Option Site
  | element _ _ _ site | component _ _ _ site => some site
  | _ => none

namespace Component

/-! ## Names and places -/

section

variable {registry : Registry} {incoming own attr : Attribute}
variable {attributes forwarded : List Attribute} {name : String}

theorem find?_cons (attr : Attribute) (rest : List Attribute) (name : String) :
    Attribute.find? (attr :: rest) name =
      if attr.name = name then some attr else Attribute.find? rest name := by
  rw [Attribute.find?, List.find?_cons]
  by_cases same : attr.name = name
  · simp [same]
  · rw [if_neg same, beq_false_of_ne same]
    rfl

theorem find?_forwardOne_of_ne (other : name ≠ incoming.name) :
    Attribute.find? (forwardOne registry incoming attributes).1 name =
      Attribute.find? attributes name := by
  induction attributes with
  | nil =>
      rw [forwardOne, find?_cons, if_neg other.symm]
  | cons own rest induction =>
      by_cases same : own.name = incoming.name
      · rw [forwardOne_of_eq same, find?_cons, find?_cons, name_landing, if_neg other.symm,
          if_neg (same ▸ other.symm)]
      · rw [forwardOne_of_ne same, find?_cons, find?_cons, induction]

/-- An attribute lands where the first one of its name is, if there is one. -/
theorem find?_forwardOne (registry : Registry) (incoming : Attribute)
    (attributes : List Attribute) :
    Attribute.find? (forwardOne registry incoming attributes).1 incoming.name =
        some (landing registry incoming (Attribute.find? attributes incoming.name)).1 ∧
      (forwardOne registry incoming attributes).2 =
        (landing registry incoming (Attribute.find? attributes incoming.name)).2 := by
  induction attributes with
  | nil =>
      rw [forwardOne, find?_cons, if_pos rfl]
      exact ⟨rfl, rfl⟩
  | cons own rest induction =>
      by_cases same : own.name = incoming.name
      · rw [forwardOne_of_eq same, find?_cons, find?_cons, name_landing, if_pos rfl, if_pos same]
        exact ⟨rfl, rfl⟩
      · rw [forwardOne_of_ne same, find?_cons, find?_cons, if_neg same, if_neg same]
        exact induction

/-- An attribute stays in its place unless it is the first one of the name. -/
theorem getElem?_forwardOne (registry : Registry) {i : Nat} (there : attributes[i]? = some attr)
    (later : attr.name = incoming.name → attr.name ∈ namesOf (attributes.take i)) :
    (forwardOne registry incoming attributes).1[i]? = some attr := by
  induction attributes generalizing i with
  | nil => cases there
  | cons own rest induction =>
      by_cases same : own.name = incoming.name
      · rw [forwardOne_of_eq same]
        cases i with
        | zero =>
            cases there
            cases later same
        | succ i => exact there
      · rw [forwardOne_of_ne same]
        cases i with
        | zero => exact there
        | succ i =>
            refine induction there fun equal => ?_
            have listed := later equal
            rw [List.take_succ_cons, namesOf, List.map_cons, List.mem_cons] at listed
            exact listed.resolve_left fun first => same (first.symm.trans equal)

/-- The last attribute of a name stays, unless it is a class. -/
theorem find?_forwardAll (other : name ≠ "class") :
    Attribute.find? (forwardAll registry attributes forwarded).1 name =
      (Attribute.find? forwarded.reverse name).or (Attribute.find? attributes name) := by
  induction forwarded generalizing registry attributes with
  | nil => rfl
  | cons incoming rest induction =>
      have given : Attribute.find? (forwardOne registry incoming attributes).1 name =
          (Attribute.find? [incoming] name).or (Attribute.find? attributes name) := by
        rw [find?_cons]
        by_cases same : incoming.name = name
        · subst same
          rw [(find?_forwardOne registry incoming attributes).1, if_pos rfl]
          cases Attribute.find? attributes incoming.name with
          | none => rfl
          | some own => rw [landing, if_neg other]; rfl
        · rw [find?_forwardOne_of_ne (Ne.symm same), if_neg same]
          rfl
      rw [forwardAll, induction, given, ← Option.or_assoc]
      congr 1
      rw [List.reverse_cons, Attribute.find?, Attribute.find?, Attribute.find?, List.find?_append]

theorem getElem?_forwardAll (registry : Registry) {i : Nat} (there : attributes[i]? = some attr)
    (later : attr.name ∈ namesOf forwarded → attr.name ∈ namesOf (attributes.take i)) :
    (forwardAll registry attributes forwarded).1[i]? = some attr := by
  induction forwarded generalizing registry attributes with
  | nil => exact there
  | cons incoming rest induction =>
      rw [namesOf, List.map_cons, ← namesOf, List.mem_cons] at later
      -- the names in front of the attribute are still the same
      have same : namesOf ((forwardOne registry incoming attributes).1.take i) =
          namesOf (attributes.take i) := by
        obtain ⟨inside, -⟩ := List.getElem?_eq_some_iff.mp there
        have names := namesOf_forwardOne registry incoming attributes
        obtain ⟨more, longer⟩ := Scope.prefix_addNames (namesOf attributes) [incoming.name]
        rw [← names] at longer
        have short : i ≤ (namesOf attributes).length := by
          rw [namesOf, List.length_map]
          exact Nat.le_of_lt inside
        rw [namesOf, List.map_take, ← namesOf, ← longer, List.take_append_of_le_length short,
          namesOf, namesOf, List.map_take]
      have given := getElem?_forwardOne registry there fun equal => later (.inl equal)
      refine induction _ given fun listed => ?_
      rw [same]
      exact later (.inr listed)

end

/-! ## Classes -/

/-- The class of a root and the classes that are forwarded, in order. -/
def classesOf (attributes forwarded : List Attribute) : List Attribute :=
  (Attribute.find? attributes "class").toList ++ forwarded.filter (·.name == "class")

/-- The classes have become the class that is found, if one is. -/
structure Combines (registry : Registry) (classes : List Attribute) (found : Option Attribute) :
    Prop where
  /-- The classes are joined in order. -/
  joined : found.map (Wording.ofValue ·.value) =
    Wording.joinAll? (classes.map (Wording.ofValue ·.value))
  /-- A single class stays what it is. -/
  single : classes.length ≤ 1 → found = classes.head?
  /-- Several classes become a text or an expression with a new id. -/
  fresh : 2 ≤ classes.length →
    ∀ attr ∈ found, ∀ e ∈ attr.value.expressions, ¬ registry.Issued e.id

section

variable {registry registry' : Registry} {incoming own attr : Attribute} {found : Option Attribute}
variable {attributes forwarded classes : List Attribute}

theorem next_forget (registry : Registry) (value : AttributeValue) :
    (forget registry value).next = registry.next := by
  cases value <;> rfl

theorem next_le_mergeClass (registry : Registry) (own incoming : Attribute) :
    registry.next ≤ (mergeClass registry own incoming).2.next := by
  rw [mergeClass]
  split
  · exact Nat.le_refl _
  · dsimp only
    rw [Registry.next_register, next_forget, next_forget]
    exact Nat.le_succ _

theorem next_le_forwardOne (registry : Registry) (incoming : Attribute)
    (attributes : List Attribute) :
    registry.next ≤ (forwardOne registry incoming attributes).2.next := by
  rw [(find?_forwardOne registry incoming attributes).2]
  cases Attribute.find? attributes incoming.name with
  | none => exact Nat.le_refl _
  | some own =>
      rw [landing]
      split
      · exact next_le_mergeClass registry own incoming
      · exact (next_forget registry own.value).ge

theorem wording_mergeClass (registry : Registry) (own incoming : Attribute) :
    Wording.ofValue (mergeClass registry own incoming).1.value =
      (Wording.ofValue own.value).join (Wording.ofValue incoming.value) := by
  rw [mergeClass]
  cases own.value <;> cases incoming.value <;> rfl

theorem not_issued_mergeClass {e : Expression}
    (member : e ∈ (mergeClass registry own incoming).1.value.expressions) :
    ¬ registry.Issued e.id := by
  rw [mergeClass] at member
  split at member
  · cases member
  · have same := List.mem_singleton.mp member
    subst same
    dsimp only
    rw [Registry.register_fst, next_forget, next_forget]
    exact registry.not_issued_next "expr"

namespace Combines

theorem self (registry : Registry) (found : Option Attribute) :
    Combines registry found.toList found where
  joined := by cases found <;> rfl
  single _ := by cases found <;> rfl
  fresh several := by cases found <;> simp at several

theorem mono (combines : Combines registry' classes found)
    (next_le : registry.next ≤ registry'.next) : Combines registry classes found where
  joined := combines.joined
  single := combines.single
  fresh several attr member e inside issued :=
    combines.fresh several attr member e inside (issued.mono next_le)

/-- The first two classes are combined before the others. -/
theorem merge {rest : List Attribute}
    (combines : Combines (mergeClass registry own incoming).2
      ((mergeClass registry own incoming).1 :: rest) found) :
    Combines registry (own :: incoming :: rest) found where
  joined := by
    rw [combines.joined, List.map_cons, List.map_cons, List.map_cons, wording_mergeClass]
    rfl
  single short := by simp at short
  fresh _ attr member e inside := by
    cases rest with
    | nil =>
        rw [combines.single (Nat.le_refl 1)] at member
        cases member
        exact not_issued_mergeClass inside
    | cons other others =>
        intro issued
        exact combines.fresh (by simp) attr member e inside
          (issued.mono (next_le_mergeClass registry own incoming))

end Combines

theorem combines_forwardAll (registry : Registry) (attributes forwarded : List Attribute) :
    Combines registry (classesOf attributes forwarded)
      (Attribute.find? (forwardAll registry attributes forwarded).1 "class") := by
  induction forwarded generalizing registry attributes with
  | nil =>
      rw [classesOf, List.filter_nil, List.append_nil]
      exact .self registry _
  | cons incoming rest induction =>
      have later := induction (forwardOne registry incoming attributes).2
        (forwardOne registry incoming attributes).1
      rw [forwardAll]
      rw [classesOf] at later ⊢
      by_cases isClass : incoming.name = "class"
      · rw [List.filter_cons_of_pos (by simpa using isClass)]
        obtain ⟨landed, registered⟩ := find?_forwardOne registry incoming attributes
        rw [isClass] at landed registered
        rw [landed] at later
        cases found : Attribute.find? attributes "class" with
        | none =>
            rw [found, landing] at later
            exact later.mono (next_le_forwardOne registry incoming attributes)
        | some own =>
            rw [found, landing, if_pos isClass] at later registered
            exact Combines.merge (registered ▸ later)
      · rw [List.filter_cons_of_neg (by simpa using isClass)]
        rw [find?_forwardOne_of_ne (Ne.symm isClass)] at later
        exact later.mono (next_le_forwardOne registry incoming attributes)

end

/-! ## Entries of the registry -/

/-- The entries of a registry are former ones, and possibly the class of the root. -/
def Originates (registry : Registry) (attributes : List Attribute) (after : Registry) : Prop :=
  ∀ e ∈ after.expressions, e ∈ registry.expressions ∨
    ¬ registry.Issued e.id ∧
      ∃ attr, Attribute.find? attributes "class" = some attr ∧ attr.value = .dynamic e

section

variable {registry middle : Registry} {own incoming : Attribute}
variable {attributes forwarded : List Attribute}

theorem mem_forget {value : AttributeValue} {e : Expression}
    (member : e ∈ (forget registry value).expressions) :
    e ∈ registry.expressions ∧ value ≠ .dynamic e := by
  cases value with
  | fixed text => exact ⟨member, fun same => by cases same⟩
  | dynamic held =>
      rw [forget, Registry.remove, List.mem_filter] at member
      refine ⟨member.1, ?_⟩
      rintro ⟨⟩
      simp at member

theorem mem_mergeClass {e : Expression}
    (member : e ∈ (mergeClass registry own incoming).2.expressions) :
    e ∈ registry.expressions ∧ own.value ≠ .dynamic e ∨
      (mergeClass registry own incoming).1.value = .dynamic e := by
  rw [mergeClass] at member ⊢
  split at member
  · rename_i first second first_eq second_eq
    refine .inl ⟨member, ?_⟩
    rw [first_eq]
    exact fun same => by cases same
  · rcases List.mem_append.mp member with former | new
    · obtain ⟨former, -⟩ := mem_forget former
      exact .inl (mem_forget former)
    · exact .inr (congrArg AttributeValue.dynamic (List.mem_singleton.mp new).symm)

/-- The class that an earlier step made is given up when it is combined with another one. -/
theorem originates_forwardOne (origin : Originates registry attributes middle)
    (next_le : registry.next ≤ middle.next) :
    Originates registry (forwardOne middle incoming attributes).1
      (forwardOne middle incoming attributes).2 := by
  intro e member
  obtain ⟨landed, registered⟩ := find?_forwardOne middle incoming attributes
  rw [registered] at member
  by_cases isClass : incoming.name = "class"
  · rw [isClass] at landed member
    rw [landed]
    cases found : Attribute.find? attributes "class" with
    | none =>
        rw [found] at member
        refine (origin e member).imp_right ?_
        rintro ⟨-, attr, there, -⟩
        rw [found] at there
        cases there
    | some own =>
        rw [found, landing, if_pos isClass] at member
        rw [landing, if_pos isClass]
        rcases mem_mergeClass member with ⟨former, other⟩ | new
        · refine (origin e former).imp_right ?_
          rintro ⟨-, attr, there, value⟩
          rw [found] at there
          cases there
          exact absurd value other
        · have inside : e ∈ (mergeClass middle own incoming).1.value.expressions := by
            rw [new]
            exact List.mem_cons_self
          exact .inr ⟨fun issued => not_issued_mergeClass inside (issued.mono next_le), _, rfl, new⟩
  · have former : e ∈ middle.expressions := by
      cases found : Attribute.find? attributes incoming.name with
      | none => rwa [found] at member
      | some own =>
          rw [found, landing, if_neg isClass] at member
          exact (mem_forget member).1
    rw [find?_forwardOne_of_ne (Ne.symm isClass)]
    exact origin e former

theorem originates_forwardAll (registry : Registry) (attributes forwarded : List Attribute) :
    Originates registry (forwardAll registry attributes forwarded).1
      (forwardAll registry attributes forwarded).2 := by
  have run (middle : Registry) (attributes : List Attribute) (next_le : registry.next ≤ middle.next)
      (origin : Originates registry attributes middle) :
      Originates registry (forwardAll middle attributes forwarded).1
        (forwardAll middle attributes forwarded).2 := by
    induction forwarded generalizing middle attributes with
    | nil => exact origin
    | cons incoming rest induction =>
        exact induction _ _ (next_le.trans (next_le_forwardOne middle incoming attributes))
          (originates_forwardOne origin next_le)
  exact run registry attributes (Nat.le_refl _) fun e member => .inl member

/-- A former entry is still there as long as its id is. -/
theorem Originates.stays {e : Expression} (origin : Originates registry attributes middle)
    (reachable : registry.Reachable) (member : e ∈ registry.expressions)
    (still : e.id ∈ middle.ids) : e ∈ middle.expressions := by
  obtain ⟨e', there, same⟩ := List.mem_map.mp still
  rcases origin e' there with former | ⟨new, -⟩
  · have first := reachable.get?_of_mem member
    rw [← same, reachable.get?_of_mem former] at first
    cases first
    exact there
  · rw [same] at new
    exact absurd (reachable.issued_of_mem (List.mem_map_of_mem member)) new

/-- A class with a new id has an entry of its own. -/
theorem Originates.registered {e : Expression} {attr : Attribute}
    (origin : Originates registry attributes middle) (reachable : registry.Reachable)
    (new : ¬ registry.Issued e.id) (found : Attribute.find? attributes "class" = some attr)
    (value : attr.value = .dynamic e) (listed : e.id ∈ middle.ids) : e ∈ middle.expressions := by
  obtain ⟨e', there, same⟩ := List.mem_map.mp listed
  rcases origin e' there with former | ⟨-, attr', found', value'⟩
  · rw [← same] at new
    exact absurd (reachable.issued_of_mem (List.mem_map_of_mem former)) new
  · rw [found] at found'
    cases found'
    rw [value] at value'
    cases value'
    exact there

theorem mem_ids {e : Expression} {attr : Attribute} (member : attr ∈ attributes)
    (value : attr.value = .dynamic e) : e.id ∈ Attribute.ids attributes := by
  rw [Attribute.ids_eq]
  refine List.mem_map_of_mem (List.mem_flatMap.mpr ⟨attr, member, ?_⟩)
  rw [value]
  exact List.mem_cons_self

end

/-! ## The root in the end -/

/-- The root is to be marked with the name of its component. -/
def needsMark (definition : Definition) (own forwarded : List Attribute) : Bool :=
  definition.hasScript && !(namesOf own ++ namesOf forwarded).contains ownerAttribute

/-- The attributes of a root on which attributes have been put. -/
structure Landed (definition : Definition) (site : Site) (registry : Registry)
    (own forwarded attributes : List Attribute) : Prop where
  /-- New names follow the former ones, each once, and the mark is the last. -/
  names : namesOf attributes = Scope.addNames (namesOf own) (namesOf forwarded) ++
    if needsMark definition own forwarded then [ownerAttribute] else []
  /-- The mark names the component. -/
  mark : needsMark definition own forwarded = true →
    attributes.getLast? = some ⟨ownerAttribute, .fixed definition.name, site⟩
  /-- An attribute stays as it is and where it is, unless it is the first of a forwarded name. -/
  kept : ∀ i attr, own[i]? = some attr →
    (attr.name ∈ namesOf forwarded → attr.name ∈ namesOf (own.take i)) → attributes[i]? = some attr
  /-- What was forwarded last under a name has landed, unless it is a class. -/
  last : ∀ name ∈ namesOf forwarded, name ≠ "class" →
    Attribute.find? attributes name = Attribute.find? forwarded.reverse name
  /-- The classes have been combined. -/
  classes : Combines registry (classesOf own forwarded) (Attribute.find? attributes "class")
  /-- Texts have become one text. -/
  texts : classesOf own forwarded ≠ [] →
    (∀ attr ∈ classesOf own forwarded, (Wording.ofValue attr.value).isFixed = true) →
    ∃ attr text, Attribute.find? attributes "class" = some attr ∧ attr.value = .fixed text ∧
      Text.words text =
        (classesOf own forwarded).flatMap fun attr => (Wording.ofValue attr.value).words
  /-- Anything else has become one expression. -/
  expression : (∃ attr ∈ classesOf own forwarded, (Wording.ofValue attr.value).isFixed = false) →
    ∃ attr e, Attribute.find? attributes "class" = some attr ∧ attr.value = .dynamic e
  /-- No name is there twice that was not before. -/
  once : ∀ name, (namesOf own).count name ≤ 1 → (namesOf attributes).count name ≤ 1

/-- The registry after attributes have been put on a root. -/
structure Accounted (registry : Registry) (own forwarded : List Attribute) (after : Registry)
    (attributes : List Attribute) : Prop where
  /-- The ids that are gone are those that the root does not have in the end. -/
  gone : ∀ id ∈ registry.ids,
    (id ∉ after.ids ↔
      id ∈ Attribute.ids own ++ Attribute.ids forwarded ∧ id ∉ Attribute.ids attributes)
  /-- What is still registered is as it was. -/
  stays : ∀ e ∈ registry.expressions, e.id ∈ after.ids → e ∈ after.expressions
  /-- A combined class that is an expression is registered, with a new id. -/
  registered : 2 ≤ (classesOf own forwarded).length →
    ∀ attr e, Attribute.find? attributes "class" = some attr → attr.value = .dynamic e →
      ¬ registry.Issued e.id ∧ e ∈ after.expressions
  /-- Nothing else is registered. -/
  new : ∀ e ∈ after.expressions, e ∉ registry.expressions →
    2 ≤ (classesOf own forwarded).length ∧
      ∃ attr, Attribute.find? attributes "class" = some attr ∧ attr.value = .dynamic e

namespace Combines

variable {registry : Registry} {classes : List Attribute} {found : Option Attribute}

theorem texts (combines : Combines registry classes found) (some : classes ≠ [])
    (fixed : ∀ attr ∈ classes, (Wording.ofValue attr.value).isFixed = true) :
    ∃ attr text, found = Option.some attr ∧ attr.value = .fixed text ∧
      Text.words text = classes.flatMap fun attr => (Wording.ofValue attr.value).words := by
  obtain ⟨first, rest, rfl⟩ := List.exists_cons_of_ne_nil some
  obtain ⟨attr, rfl, joined⟩ := Option.map_eq_some_iff.mp combines.joined
  have whole := Wording.foldl_join_fixed
    (Wording.ofValue first.value) (rest.map (Wording.ofValue ·.value))
    (by rwa [← List.map_cons (f := fun attr : Attribute => Wording.ofValue attr.value),
      List.forall_mem_map])
  rw [← joined] at whole
  obtain ⟨name, value, site⟩ := attr
  cases value with
  | dynamic e => cases whole.1
  | fixed text =>
      refine ⟨_, text, rfl, rfl, whole.2.trans ?_⟩
      rw [List.flatMap_cons, List.flatMap_cons, List.flatMap_map]

theorem expression (combines : Combines registry classes found)
    (dynamic : ∃ attr ∈ classes, (Wording.ofValue attr.value).isFixed = false) :
    ∃ attr e, found = some attr ∧ attr.value = .dynamic e := by
  obtain ⟨other, member, code⟩ := dynamic
  obtain ⟨first, rest, rfl⟩ := List.exists_cons_of_ne_nil (List.ne_nil_of_mem member)
  obtain ⟨attr, rfl, joined⟩ := Option.map_eq_some_iff.mp combines.joined
  have whole := Wording.foldl_join_dynamic
    (Wording.ofValue first.value) (rest.map (Wording.ofValue ·.value))
    ⟨_, List.mem_map_of_mem (f := fun attr : Attribute => Wording.ofValue attr.value) member, code⟩
  rw [← joined] at whole
  obtain ⟨name, value, site⟩ := attr
  cases value with
  | fixed text => cases whole
  | dynamic e => exact ⟨_, e, rfl, rfl⟩

end Combines

section

variable {registry after : Registry} {definition : Definition} {site : Site}
variable {own forwarded attributes : List Attribute}

/-- The attribute that marks a root, if it is to be marked. -/
def markOf (definition : Definition) (site : Site) (own forwarded : List Attribute) :
    List Attribute :=
  if needsMark definition own forwarded then
    [⟨ownerAttribute, .fixed definition.name, site⟩]
  else []

theorem rootAttributes_eq :
    rootAttributes definition registry forwarded own site =
      ((forwardAll registry own forwarded).1 ++ markOf definition site own forwarded,
        (forwardAll registry own forwarded).2) := by
  have named : (forwardAll registry own forwarded).1.any (·.name == ownerAttribute) =
      (namesOf own ++ namesOf forwarded).contains ownerAttribute := by
    rw [Bool.eq_iff_iff, List.contains_iff_mem, List.mem_append, ← Scope.mem_addNames,
      ← namesOf_forwardAll registry]
    simp [namesOf]
  rw [rootAttributes, markOf, needsMark, ← named]
  generalize forwardAll registry own forwarded = given
  obtain ⟨given, registry'⟩ := given
  dsimp only
  split <;> simp

/-- The mark is found under no other name. -/
theorem find?_append_markOf (definition : Definition) (site : Site) {name : String}
    (other : name ≠ ownerAttribute ∨ name ∈ namesOf own ++ namesOf forwarded) :
    Attribute.find? (attributes ++ markOf definition site own forwarded) name =
      Attribute.find? attributes name := by
  have none : Attribute.find? (markOf definition site own forwarded) name = none := by
    rw [markOf]
    split
    · rename_i needed
      rw [find?_cons, if_neg]
      · rfl
      rintro rfl
      rw [needsMark, Bool.and_eq_true, Bool.not_eq_true', ← Bool.not_eq_true,
        List.contains_iff_mem] at needed
      exact other.elim (fun differs => differs rfl) needed.2
    · rfl
  rw [Attribute.find?, List.find?_append, ← Attribute.find?, ← Attribute.find?, none,
    Option.or_none]

theorem landed_rootAttributes (definition : Definition) (site : Site) (registry : Registry)
    (own forwarded : List Attribute) :
    Landed definition site registry own forwarded
      (rootAttributes definition registry forwarded own site).1 := by
  have noMark : "class" ≠ ownerAttribute ∨ "class" ∈ namesOf own ++ namesOf forwarded :=
    .inl (by decide)
  have classes := combines_forwardAll registry own forwarded
  rw [← find?_append_markOf definition site noMark] at classes
  have markName : namesOf (markOf definition site own forwarded) =
      if needsMark definition own forwarded then [ownerAttribute] else [] := by
    rw [markOf]
    split <;> rfl
  have names : namesOf ((forwardAll registry own forwarded).1 ++
      markOf definition site own forwarded) =
      Scope.addNames (namesOf own) (namesOf forwarded) ++
        if needsMark definition own forwarded then [ownerAttribute] else [] := by
    rw [namesOf, List.map_append, ← namesOf, ← namesOf, namesOf_forwardAll, markName]
  rw [rootAttributes_eq]
  refine ⟨names, fun needed => ?_, fun i attr there later => ?_, fun name given other => ?_,
    classes, classes.texts, classes.expression, fun name atMost => ?_⟩
  · rw [markOf, if_pos needed, List.getLast?_concat]
  · have stays := getElem?_forwardAll registry there later
    have inside := (List.getElem?_eq_some_iff.mp stays).1
    rwa [List.getElem?_append_left inside]
  · rw [find?_append_markOf _ _ (.inr (List.mem_append_right _ given)), find?_forwardAll other]
    obtain ⟨attr, member, rfl⟩ := List.mem_map.mp given
    cases found : Attribute.find? forwarded.reverse attr.name with
    | some last => rfl
    | none =>
        rw [Attribute.find?, List.find?_eq_none] at found
        exact absurd (beq_self_eq_true attr.name) (found attr (List.mem_reverse.mpr member))
  · have before := Scope.count_addNames_le name (namesOf own) (namesOf forwarded)
    rw [names, List.count_append]
    split
    · rename_i needed
      rw [needsMark, Bool.and_eq_true, Bool.not_eq_true', ← Bool.not_eq_true,
        List.contains_iff_mem, List.mem_append, ← Scope.mem_addNames] at needed
      rw [List.count_singleton]
      split
      · rename_i same
        rw [← beq_iff_eq.mp same, List.count_eq_zero_of_not_mem needed.2]
      · omega
    · rw [List.count_nil]
      omega

theorem accounted_rootAttributes (definition : Definition) (site : Site)
    (reachable : registry.Reachable)
    (distinct : (Attribute.ids own ++ Attribute.ids forwarded).Nodup)
    (listed : Attribute.ids own ++ Attribute.ids forwarded ⊆ registry.ids) :
    Accounted registry own forwarded (rootAttributes definition registry forwarded own site).2
      (rootAttributes definition registry forwarded own site).1 := by
  have noMark : "class" ≠ ownerAttribute ∨ "class" ∈ namesOf own ++ namesOf forwarded :=
    .inl (by decide)
  have balance := rootAttributes_balance definition registry forwarded own site
  have classes := (landed_rootAttributes definition site registry own forwarded).classes
  have origin : Originates registry
      ((forwardAll registry own forwarded).1 ++ markOf definition site own forwarded)
      (forwardAll registry own forwarded).2 := by
    rw [Originates, find?_append_markOf definition site noMark]
    exact originates_forwardAll registry own forwarded
  obtain ⟨present, gone⟩ := (balance.perm List.perm_append_comm (List.Perm.refl _)).ids reachable
    distinct listed
  rw [rootAttributes_eq] at present gone classes ⊢
  generalize (forwardAll registry own forwarded).1 ++ markOf definition site own forwarded =
    attributes at present gone classes origin ⊢
  generalize (forwardAll registry own forwarded).2 = after at present gone origin ⊢
  refine ⟨gone, fun e => origin.stays reachable, fun several attr e found value => ?_,
    fun e member absent => ?_⟩
  · have inside : e ∈ attr.value.expressions := by
      rw [value]
      exact List.mem_cons_self
    have new := classes.fresh several attr found e inside
    have held := mem_ids (List.mem_of_find?_eq_some found) value
    exact ⟨new, origin.registered reachable new found value (present held)⟩
  · obtain ⟨new, attr, found, value⟩ := (origin e member).resolve_left absent
    refine ⟨?_, attr, found, value⟩
    by_contra short
    -- a single class has the id that it had
    have given := classes.single (by omega)
    rw [found] at given
    have single := List.mem_of_head? given.symm
    rw [classesOf, List.mem_append] at single
    have old : e.id ∈ Attribute.ids own ++ Attribute.ids forwarded := by
      rcases single with first | later
      · have first := List.mem_of_find?_eq_some (Option.mem_toList.mp first)
        exact List.mem_append_left _ (mem_ids first value)
      · exact List.mem_append_right _ (mem_ids (List.mem_filter.mp later).1 value)
    exact new (reachable.issued_of_mem (listed old))

end

/-! ## Instances -/

section

variable {definition : Definition} {usage : Location} {forwarded : List Attribute}
variable {registry : Registry} {nodes : List Node}

theorem forward_of_root {front rest : List Node} {root : Node} {site : Site}
    (before : Node.root? front = none) (at_site : root.site? = some site) :
    forward definition usage forwarded registry (front ++ root :: rest) =
      .ok (front ++ root.withAttributes
          (rootAttributes definition registry forwarded root.attributes site).1 :: rest,
        (rootAttributes definition registry forwarded root.attributes site).2) := by
  induction front with
  | nil =>
      cases root with
      | element | component =>
          cases at_site
          rfl
      | _ => cases at_site
  | cons node others induction =>
      rw [Node.root?, List.find?_cons] at before
      cases shape : node.isRoot with
      | true => simp [shape] at before
      | false =>
          rw [shape] at before
          rw [List.cons_append, forward_cons shape, induction before]
          rfl

theorem forward_of_no_root (none : Node.root? nodes = none) :
    forward definition usage forwarded registry nodes =
      match forwarded with
      | [] => .ok (nodes, registry)
      | attr :: _ => .error (.noForwardRoot attr.name definition.name, usage) := by
  induction nodes with
  | nil => cases forwarded <;> rfl
  | cons node rest induction =>
      rw [Node.root?, List.find?_cons] at none
      cases shape : node.isRoot with
      | true => simp [shape] at none
      | false =>
          rw [shape] at none
          rw [forward_cons shape, induction none]
          cases forwarded <;> rfl

/-- Attributes cannot be forwarded exactly where there is no root for them.  Otherwise only the
attributes of the root change, and the registry keeps account of their ids. -/
theorem forward_lands (definition : Definition) (usage : Location) (forwarded : List Attribute)
    (registry : Registry) (nodes : List Node) :
    (∀ fault location,
      forward definition usage forwarded registry nodes = .error (fault, location) →
        fault.rule = .attributesForwarded ∧ location = usage) ∧
    ((∃ misstep, forward definition usage forwarded registry nodes = .error misstep) ↔
      forwarded ≠ [] ∧ Node.root? nodes = none) ∧
    ∀ result after, forward definition usage forwarded registry nodes = .ok (result, after) →
      (Node.root? nodes = none ∧ result = nodes ∧ after = registry) ∨
      ∃ front root rest site attributes, nodes = front ++ root :: rest ∧
        Node.root? front = none ∧ root.site? = some site ∧
        result = front ++ root.withAttributes attributes :: rest ∧
        Landed definition site registry root.attributes forwarded attributes ∧
        (registry.Reachable →
          (Attribute.ids root.attributes ++ Attribute.ids forwarded).Nodup →
          Attribute.ids root.attributes ++ Attribute.ids forwarded ⊆ registry.ids →
          Accounted registry root.attributes forwarded after attributes) := by
  cases found : Node.root? nodes with
  | none =>
      rw [forward_of_no_root found]
      cases forwarded with
      | nil =>
          refine ⟨fun fault location failed => (nomatch failed), ?_, fun result after ok => ?_⟩
          · exact ⟨fun ⟨_, failed⟩ => (nomatch failed), fun given => absurd rfl given.1⟩
          · cases ok
            exact .inl ⟨rfl, rfl, rfl⟩
      | cons first others =>
          refine ⟨fun fault location failed => ?_, ?_, fun result after ok => nomatch ok⟩
          · cases failed
            exact ⟨rfl, rfl⟩
          · exact ⟨fun _ => ⟨List.cons_ne_nil _ _, rfl⟩, fun _ => ⟨_, rfl⟩⟩
  | some root =>
      obtain ⟨isRoot, front, rest, rfl, before⟩ := List.find?_eq_some_iff_append.mp found
      have none : Node.root? front = none := by
        rw [Node.root?, List.find?_eq_none]
        exact fun node member => by simpa using before node member
      obtain ⟨site, at_site⟩ : ∃ site, root.site? = some site := by
        cases root with
        | element tag attributes children site | component name attributes children site =>
            exact ⟨site, rfl⟩
        | _ => cases isRoot
      rw [forward_of_root none at_site]
      refine ⟨fun fault location failed => (nomatch failed), ?_, fun result after ok => ?_⟩
      · exact ⟨fun ⟨_, failed⟩ => (nomatch failed), fun given => nomatch given.2⟩
      · cases ok
        exact .inr ⟨front, root, rest, site, _, rfl, none, at_site, rfl,
          landed_rootAttributes definition site registry root.attributes forwarded,
          accounted_rootAttributes definition site⟩

end

namespace Cards

/-- The root of a card, with a class and a title. -/
def root : List Attribute :=
  [⟨"class", .fixed "card", {}⟩, ⟨"title", .dynamic ⟨"expr_0", "title", {}, none⟩, {}⟩]

/-- A card with a script. -/
def card : Definition where
  name := "Card"
  path := "Card.zen"
  nodes := [.text "New" {}, .element "div" root [] {}]
  slots := []
  props := []
  styles := []
  script := some ⟨"let open = true", []⟩

/-- The attributes of a usage of the card: two classes and a title. -/
def given : List Attribute :=
  [⟨"class", .fixed "wide", {}⟩, ⟨"title", .fixed "Inbox", {}⟩,
    ⟨"class", .dynamic ⟨"expr_1", "kind", {}, none⟩, {}⟩]

def registry : Registry :=
  ((({} : Registry).register "expr" "title" {} none).2.register "expr" "kind" {} none).2

/-- The two classes of the usage are combined with that of the card, and its title is given up: of
the two ids there were none is left. -/
theorem forward_lands_card :
    ∃ attributes after,
      forward card {} given registry card.nodes =
        .ok ([.text "New" {}, .element "div" attributes [] {}], after) ∧
      namesOf attributes = ["class", "title", ownerAttribute] ∧
      Landed card {} registry root given attributes ∧
      Accounted registry root given after attributes ∧
      "expr_0" ∉ after.ids ∧ "expr_1" ∉ after.ids ∧ after.ids = ["expr_2"] := by
  have reachable : registry.Reachable := .register _ _ _ _ (.register _ _ _ _ .empty)
  have distinct : (Attribute.ids root ++ Attribute.ids given).Nodup := by decide +kernel
  have listed : Attribute.ids root ++ Attribute.ids given ⊆ registry.ids := by decide +kernel
  have ok : forward card {} given registry card.nodes =
      .ok ([.text "New" {}, .element "div" (rootAttributes card registry given root {}).1 [] {}],
        (rootAttributes card registry given root {}).2) := rfl
  have names : namesOf (rootAttributes card registry given root {}).1 =
      ["class", "title", ownerAttribute] := by decide +kernel
  have ids : (rootAttributes card registry given root {}).2.ids = ["expr_2"] := by decide +kernel
  rcases (forward_lands card {} given registry card.nodes).2.2 _ _ ok with
    ⟨none, -, -⟩ | ⟨front, node, rest, site, attributes, shape, before, at_site, result, landed,
      accounted⟩
  · cases none
  · -- the text is no root, so that the element is the only node that can be it
    cases front with
    | nil =>
        cases shape
        cases at_site
    | cons first others =>
        cases others with
        | nil =>
            cases shape
            cases at_site
            simp only [List.cons_append, List.nil_append, Node.withAttributes, List.cons.injEq,
              Node.element.injEq, true_and, and_true] at result
            subst result
            have account := accounted reachable distinct listed
            refine ⟨_, _, ok, names, landed, account, ?_, ?_, ids⟩
            · exact (account.gone "expr_0" (by decide +kernel)).mpr (by decide +kernel)
            · exact (account.gone "expr_1" (by decide +kernel)).mpr (by decide +kernel)
        | cons second more =>
            have length := congrArg List.length shape
            simp [card] at length

end Cards

end Component
end ReactiveTemplate
