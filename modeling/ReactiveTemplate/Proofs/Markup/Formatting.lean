import ReactiveTemplate.Proofs.Markup.Construction

/-!
# Formatting elements

Formatting elements are opened again where an element closed them, and a formatting element that is
closed while a block is open inside it is split: copies of it and of the formatting elements between
the two take in what belonged to it.  No element is lost on the way.
-/

namespace ReactiveTemplate
namespace Markup

/-- A new element takes in what is inside a block and is put into the block. -/
theorem Store.Graded.nest {store : Store} {rank : Nat → ℚ}
    (graded : store.Graded (fun _ => False) rank) {block : Nat}
    (element : (store.element? block).isSome = true) (plain : store.holder block = block)
    {inner : List Nat} (higher : ∀ n ∈ inner, n < store.entries.size ∧ rank block < rank n)
    {name : String} (ordinary : name ≠ "template") {attributes : List (String × String)}
    {copy : Nat} {created : Store}
    (create_eq : store.addElement .html name attributes = (copy, created)) :
    ∃ rank' : Nat → ℚ, (∀ n, n < store.entries.size → rank' n = rank n) ∧
      ((created.moveChildren block copy).append block copy).Graded (fun _ => False) rank' ∧
      store.Keeps ((created.moveChildren block copy).append block copy) ∧
      ((created.moveChildren block copy).append block copy).element? copy = some (.html, name) ∧
      rank' block < rank' copy ∧ ∀ n ∈ inner, rank' copy < rank' n := by
  have host : store.IsHost block := ⟨lt_of_element element, .inr element⟩
  have inside_eq : store.inside block = (store.get block).children := by
    rw [inside, plain]
  have children_higher (n : Nat) (member : n ∈ (store.get block).children) :
      store.IsShown n ∧ rank block < rank n := by
    rw [← inside_eq] at member
    exact ⟨graded.shown block host.isShown n member, graded.rises block host.isShown n member⟩
  -- The rank of the copy lies between the block and all that is inside the block.
  have room (n : Nat) (member : n ∈ (store.get block).children ++ inner) : rank block < rank n := by
    rcases List.mem_append.mp member with child | opened
    · exact (children_higher n child).2
    · exact (higher n opened).2
  obtain ⟨level, above, below⟩ := exists_below (rank block) room
  have added := added_addElement store .html name attributes
  obtain ⟨rank', old, new, graded'⟩ :=
    graded.addElement ((graded.zero_lt element).trans above) .html name attributes
  rw [create_eq] at added new graded'
  have rising : rank' block < rank' copy := by
    rw [old block host.1, new]
    exact above
  have copy_plain : created.holder copy = copy := by
    apply graded'.holder_eq_self
    rw [added.element_eq]
    simpa using ordinary
  have children_eq : (created.get block).children = (store.get block).children := by
    rw [added.get_eq block host.1]
  obtain ⟨graded'', same, keeps⟩ :
      (created.moveChildren block copy).Graded (fun n => False ∨ n = copy) rank' ∧
        created.SameKinds (created.moveChildren block copy) ∧
        created.Keeps (created.moveChildren block copy) := by
    apply graded'.moveAll added.isHost copy_plain
    intro n member
    rw [children_eq] at member
    have shown := (children_higher n member).1
    refine ⟨⟨shown.1.trans added.size_lt, ?_⟩, ?_⟩
    · rw [added.get_eq n shown.1]
      exact shown.2
    · rw [new, old n shown.1]
      exact below n (List.mem_append_left _ member)
  have block_host : (created.moveChildren block copy).IsHost block :=
    same.isHost_iff.mpr (added.host_old host)
  have copy_host : (created.moveChildren block copy).IsHost copy :=
    same.isHost_iff.mpr added.isHost
  have block_plain : (created.moveChildren block copy).holder block = block := by
    rw [same.holder_eq, added.holder_old host.1, plain]
  have placed : (created.moveChildren block copy).Placed block copy
      ((created.moveChildren block copy).append block copy) :=
    placed_append block_host.1 copy_host.1
  have moved := graded''.move block_host copy_host.isShown rising (by rwa [block_plain])
  have kept := keeps.trans (Keeps.placed placed)
  refine ⟨rank', old, ?_, added.keeps.trans kept, kept.element? added.element_eq, rising, ?_⟩
  · exact moved.weaken fun n _ free => free.2 (free.1.resolve_left id)
  · intro n opened
    rw [new, old n (higher n opened).1]
    exact below n (List.mem_append_right _ opened)

namespace Construction

variable {c c' : Construction} {rank : Nat → ℚ} {n node block : Nat} {tag : Tag}

/-- The entries are for ordinary elements that may be opened again. -/
def Entries (store : Store) (entries : List Formatting) : Prop :=
  ∀ n tag, .element n tag ∈ entries →
    store.element? n = some (.html, tag.name) ∧ tag.name ∈ reopened

theorem Entries.keep {store store' : Store} {entries : List Formatting}
    (listed : Entries store entries) (keeps : store.Keeps store') : Entries store' entries :=
  fun n tag member => ⟨keeps.element? (listed n tag member).1, (listed n tag member).2⟩

theorem Entries.cons {store : Store} {entries : List Formatting} (listed : Entries store entries)
    (element : store.element? n = some (.html, tag.name)) (named : tag.name ∈ reopened) :
    Entries store (.element n tag :: entries) := by
  intro m other member
  rcases List.mem_cons.mp member with same | old
  · cases same
    exact ⟨element, named⟩
  · exact listed m other old

/-- The list of formatting elements is another one. -/
theorem Leads.relist (leads : c.Leads c') {formatting : List Formatting}
    (listed : Entries c'.store formatting) : c.Leads { c' with formatting } :=
  ⟨⟨leads.sound.ranked, leads.sound.opened, leads.sound.head, listed⟩,
    leads.keeps, leads.mode_eq, leads.returnMode_eq, leads.templateModes_eq⟩

/-! ## Elements that are opened again -/

theorem element_insertOpen (sound : c.Sound) (vocabulary : Vocabulary) (name : String)
    (attributes : List (String × String)) :
    c.store.Keeps (c.insertOpen vocabulary name attributes).2.store ∧
      (c.insertOpen vocabulary name attributes).2.store.element?
        (c.insertOpen vocabulary name attributes).1 = some (vocabulary, name) := by
  obtain ⟨keeps, element, -⟩ :=
    sound.inserted (inserts_insertClosed sound.isOpen vocabulary name attributes)
  exact ⟨keeps, element⟩

theorem Leads.reopen (leads : c.Leads c') {done pending : List Formatting}
    (listed : Entries c'.store done)
    (named : ∀ n tag, .element n tag ∈ pending → tag.name ∈ reopened) :
    c.Leads (c'.reopen done pending) := by
  induction pending generalizing c' done with
  | nil => exact leads.relist listed
  | cons entry rest induction =>
      have rest_named (n : Nat) (tag : Tag) (member : .element n tag ∈ rest) :=
        named n tag (List.mem_cons_of_mem _ member)
      cases entry with
      | marker =>
          apply induction leads ?_ rest_named
          intro n tag member
          exact listed n tag (by simpa using member)
      | element n tag =>
          have name_mem := named n tag List.mem_cons_self
          have opened := leads.insertOpen .html tag.name
            (fun _ => not_avoided_of_reopened name_mem) tag.attributes
          obtain ⟨keeps, element⟩ := element_insertOpen leads.sound .html tag.name tag.attributes
          exact induction opened ((listed.keep keeps).cons element name_mem) rest_named

theorem Leads.reopenFormatting (leads : c.Leads c') :
    c.Leads c'.reopenFormatting := by
  apply leads.reopen
  · intro n tag member
    exact leads.sound.formatting n tag (List.mem_of_mem_drop member)
  · intro n tag member
    have pending := (List.takeWhile_sublist _).subset (List.mem_reverse.mp member)
    exact (leads.sound.formatting n tag pending).2

theorem Leads.openFormatting (leads : c.Leads c') (named : tag.name ∈ reopened) :
    c.Leads (c'.openFormatting tag) ∧
      ∀ entry ∈ tag.attributes, (c'.openFormatting tag).store.Carries entry := by
  unfold Construction.openFormatting
  extract_lets alike recent kept trimmed
  have fewer (entry : Formatting) (member : entry ∈ kept) : entry ∈ c'.formatting := by
    have here : entry ∈ recent := by
      unfold kept at member
      split at member
      · exact List.mem_reverse.mp (List.eraseP_sublist.subset (List.mem_reverse.mp member))
      · exact member
    exact (List.takeWhile_sublist _).subset here
  have thinned : c.Leads trimmed := leads.thin fun n other member =>
    (List.mem_append.mp member).elim (fewer _) List.mem_of_mem_drop
  have opened := thinned.insertOpen .html tag.name
    (fun _ => not_avoided_of_reopened named) tag.attributes
  obtain ⟨-, element⟩ := element_insertOpen thinned.sound .html tag.name tag.attributes
  exact ⟨opened.relist (Entries.cons opened.sound.formatting element named),
    fun _ member => thinned.sound.carries_insertClosed .html tag.name member⟩

/-! ## Formatting elements that are split -/

theorem Entries.replace {store : Store} {entries : List Formatting} (listed : Entries store entries)
    (element : store.element? n = some (.html, tag.name)) (named : tag.name ∈ reopened)
    (node : Nat) : Entries store (replaceFormatting node (.element n tag) entries) := by
  intro m other member
  obtain ⟨entry, old, same⟩ := List.mem_map.mp member
  split at same
  · cases same
    exact ⟨element, named⟩
  · subst same
    exact listed m other old

theorem mem_insertFormatting {entry added : Formatting} {entries : List Formatting}
    (member : entry ∈ insertFormatting node added entries) : entry = added ∨ entry ∈ entries := by
  induction entries with
  | nil => cases member
  | cons first rest induction =>
      rw [insertFormatting] at member
      split at member
      · exact List.mem_cons.mp member
      · rcases List.mem_cons.mp member with rfl | later
        · exact .inr List.mem_cons_self
        · exact (induction later).imp_right (List.mem_cons_of_mem _)

/-- An element that may be opened again is neither a template nor a table. -/
theorem isOneOf_of_reopened (element : c.store.element? n = some (.html, tag.name))
    (named : tag.name ∈ reopened) : c.isOneOf ["template", "table"] n = false := by
  obtain ⟨template, table⟩ := ne_of_reopened named
  rw [Bool.eq_false_iff]
  intro found
  obtain ⟨name, member, named⟩ := isOneOf_iff.mp found
  rw [nameOf_eq element] at named
  cases named
  simp [template, table] at member

theorem isNamed_of_isOneOf {names : List String} {name : String}
    (other : c.isOneOf names n = false) (member : name ∈ names) : c.isNamed name n = false := by
  rw [Bool.eq_false_iff] at other ⊢
  exact fun named => other (isOneOf_iff.mpr ⟨name, member, isNamed_iff.mp named⟩)

/-- A node between two parts of a list of falling ranks. -/
theorem pairwise_insert {R : Nat → Nat → Prop} {left right : List Nat} {m : Nat}
    (falling : (left ++ right).Pairwise R) (before : ∀ x ∈ left, R x m)
    (after : ∀ y ∈ right, R m y) : (left ++ m :: right).Pairwise R := by
  obtain ⟨left_falling, right_falling, apart⟩ := List.pairwise_append.mp falling
  rw [List.pairwise_append, List.pairwise_cons]
  refine ⟨left_falling, ⟨after, right_falling⟩, fun x x_mem y y_mem => ?_⟩
  rcases List.mem_cons.mp y_mem with rfl | later
  · exact before x x_mem
  · exact apart x x_mem y later

theorem mem_of_not_mem {left right : List Nat} (middle : List Nat) (member : n ∈ left ++ middle ++ right)
    (other : n ∉ middle) : n ∈ left ++ right := by
  rw [List.mem_append, List.mem_append] at member
  exact List.mem_append.mpr (member.imp_left fun inside => inside.resolve_right other)

/-- What the copies between a block and the formatting element around it have come to: the latest
copy waits for its place, and ranks fall from the block over the copies to the formatting element. -/
structure Adopting (c : Construction) (inner : List Nat) (block node : Nat) (outer : List Nat)
    (state : Adoption) (rank : Nat → ℚ) : Prop where
  same : ∃ store formatting, state.construction = { c with store, formatting }
  keeps : c.store.Keeps state.construction.store
  graded : state.construction.store.Graded (· = state.last) rank
  listed : Entries state.construction.store state.construction.formatting
  kept : ∀ n ∈ state.kept, ∃ tag : Tag, tag.name ∈ reopened ∧
    state.construction.store.element? n = some (.html, tag.name)
  last : state.last ∈ block :: state.kept
  falling : (inner ++ block :: state.kept.reverse ++ node :: outer).Pairwise fun x y =>
    rank y < rank x

namespace Adopting

variable {inner outer : List Nat} {state : Adoption}
  (adopting : Adopting c inner block node outer state rank)
include adopting

theorem element (elements : ∀ n ∈ inner ++ block :: node :: outer,
      (c.store.element? n).isSome = true)
    (member : n ∈ inner ++ block :: state.kept.reverse ++ node :: outer) :
    (state.construction.store.element? n).isSome = true := by
  by_cases copied : n ∈ state.kept
  · obtain ⟨tag, -, element⟩ := adopting.kept n copied
    rw [element]
    rfl
  · have old : n ∈ inner ++ [block] ++ node :: outer := by
      refine mem_of_not_mem state.kept.reverse (by simpa using member) ?_
      rwa [List.mem_reverse]
    rw [List.append_assoc] at old
    obtain ⟨kind, element⟩ := Option.isSome_iff_exists.mp (elements n old)
    rw [adopting.keeps.element? element]
    rfl

theorem last_mem : state.last ∈ inner ++ block :: state.kept.reverse := by
  rw [List.mem_append, List.mem_cons, List.mem_reverse, ← List.mem_cons]
  exact .inr adopting.last

/-- The latest copy has a higher rank than the formatting element and what is around it. -/
theorem outer_lt (member : n ∈ node :: outer) : rank n < rank state.last :=
  (List.pairwise_append.mp adopting.falling).2.2 state.last adopting.last_mem n member

/-- One more copy takes in the latest one. -/
theorem copy (elements : ∀ n ∈ inner ++ block :: node :: outer,
      (c.store.element? n).isSome = true) {copy : Nat} {store : Store}
    {attributes : List (String × String)} (named : tag.name ∈ reopened)
    (added : state.construction.store.Added .html tag.name attributes copy store)
    (grade : ∀ level, rank 0 < level → ∃ rank' : Nat → ℚ,
      (∀ n, n < state.construction.store.entries.size → rank' n = rank n) ∧ rank' copy = level ∧
        store.Graded (fun n => n = state.last ∨ n = copy) rank')
    (original : Nat) (first : Option Nat) :
    ∃ rank', Adopting c inner block node outer
      { construction := { state.construction with
          store := store.append copy state.last
          formatting := replaceFormatting original (.element copy tag)
            state.construction.formatting }
        kept := copy :: state.kept
        last := copy
        first } rank' := by
  have bound {n : Nat} (member : n ∈ inner ++ block :: state.kept.reverse ++ node :: outer) :
      n < state.construction.store.entries.size :=
    Store.lt_of_element (adopting.element elements member)
  have node_mem : node ∈ inner ++ block :: state.kept.reverse ++ node :: outer := by simp
  have last_mem := List.mem_append_left (node :: outer) adopting.last_mem
  have apart := (List.pairwise_append.mp adopting.falling).2.2
  -- The rank of the copy lies between the formatting element and all that is further in.
  obtain ⟨level, above, below⟩ := Store.exists_below (rank node)
    fun n member => apart n member node List.mem_cons_self
  have zero_lt := adopting.graded.zero_lt (adopting.element elements node_mem)
  obtain ⟨rank', old, new, graded⟩ := grade level (zero_lt.trans above)
  have last_host : store.IsHost state.last :=
    added.host_old ⟨bound last_mem, .inr (adopting.element elements last_mem)⟩
  have plain : store.holder copy = copy :=
    holder_eq_self (c := { state.construction with store }) graded
      (isNamed_of_isOneOf (isOneOf_of_reopened added.element_eq named) (by simp))
  have placed : store.Placed copy state.last (store.append copy state.last) :=
    Store.placed_append added.bound last_host.1
  have higher : rank' copy < rank' state.last := by
    rw [new, old _ (bound last_mem)]
    exact below _ adopting.last_mem
  have moved := graded.move added.isHost last_host.isShown higher (by rwa [plain])
  have keeps : state.construction.store.Keeps (store.append copy state.last) :=
    added.keeps.trans (Store.Keeps.placed placed)
  have element : (store.append copy state.last).element? copy = some (.html, tag.name) :=
    (Store.Keeps.placed placed).element? added.element_eq
  refine ⟨rank', ?_, ?_, ?_, ?_, ?_, ?_, ?_⟩
  · obtain ⟨old_store, formatting, same⟩ := adopting.same
    exact ⟨_, _, by rw [same]⟩
  · exact adopting.keeps.trans keeps
  · exact moved.weaken fun n _ free => free.1.resolve_left free.2
  · exact (adopting.listed.keep keeps).replace element named original
  · intro n member
    rcases List.mem_cons.mp member with rfl | former
    · exact ⟨tag, named, element⟩
    · obtain ⟨other, other_named, other_element⟩ := adopting.kept n former
      exact ⟨other, other_named, keeps.element? other_element⟩
  · exact List.mem_cons_of_mem _ List.mem_cons_self
  · have falling' : (inner ++ block :: state.kept.reverse ++ node :: outer).Pairwise fun x y =>
        rank' y < rank' x := by
      apply adopting.falling.imp_of_mem
      intro x y x_mem y_mem lower
      rw [old x (bound x_mem), old y (bound y_mem)]
      exact lower
    have inserted := pairwise_insert falling' (m := copy) ?_ ?_
    · simpa using inserted
    · intro x x_mem
      rw [new, old x (bound (List.mem_append_left _ x_mem))]
      exact below x x_mem
    · intro y y_mem
      rw [new, old y (bound (List.mem_append_right _ y_mem))]
      rcases List.mem_cons.mp y_mem with rfl | outside
      · exact above
      · exact (List.rel_of_pairwise_cons (List.pairwise_append.mp adopting.falling).2.1
          outside).trans above

theorem adopt (elements : ∀ n ∈ inner ++ block :: node :: outer,
      (c.store.element? n).isSome = true) (original distance : Nat) :
    ∃ rank', Adopting c inner block node outer (adopt state original distance) rank' := by
  unfold Construction.adopt
  dsimp only
  split
  · rename_i found tag found_eq
    have listed := adopting.listed found tag (List.mem_of_find?_eq_some found_eq)
    split
    · obtain ⟨store, formatting, same⟩ := adopting.same
      exact ⟨rank, ⟨⟨store, _, by rw [same]; rfl⟩, adopting.keeps, adopting.graded,
        fun n other member => adopting.listed n other (List.mem_filter.mp member).1,
        adopting.kept, adopting.last, adopting.falling⟩⟩
    · simp only [create_eq]
      exact adopting.copy elements listed.2 (Store.added_addElement _ _ _ _)
        (fun level above => adopting.graded.addElement above _ _ _) original _
  · exact ⟨rank, adopting⟩

theorem adoptAll (elements : ∀ n ∈ inner ++ block :: node :: outer,
      (c.store.element? n).isSome = true) (between : List Nat) (distance : Nat) :
    ∃ rank', Adopting c inner block node outer (adoptAll state distance between) rank' := by
  induction between generalizing state rank distance with
  | nil => exact ⟨rank, adopting⟩
  | cons first rest induction =>
      obtain ⟨rank', adopted⟩ := adopting.adopt elements first distance
      exact induction adopted (distance + 1)

/-- The latest copy finds its place around the formatting element, for there is no template and no
table between the two. -/
theorem settle (elements : ∀ n ∈ inner ++ block :: node :: outer,
      (c.store.element? n).isSome = true)
    (free : ∀ n ∈ inner ++ [block, node], c.isOneOf ["template", "table"] n = false)
    (placing : Construction) (store_eq : placing.store = state.construction.store.detach state.last)
    (opened_eq : placing.opened = inner ++ block :: state.kept.reverse ++ node :: outer) :
    (placing.put (placing.placeIn (outer.headD 0)) state.last).store.Graded (fun _ => False) rank ∧
      state.construction.store.SameKinds
        (placing.put (placing.placeIn (outer.headD 0)) state.last).store ∧
      state.construction.store.Keeps
        (placing.put (placing.placeIn (outer.headD 0)) state.last).store := by
  have detached := Store.SameKinds.detach state.construction.store state.last
  have graded := adopting.graded.detach state.last
  rw [← store_eq] at detached graded
  have placing_element {n : Nat} (member : n ∈ placing.opened) :
      (placing.store.element? n).isSome = true := by
    rw [opened_eq] at member
    rw [detached.element_eq]
    exact adopting.element elements member
  have last_mem : state.last ∈ placing.opened := by
    rw [opened_eq]
    exact List.mem_append_left _ adopting.last_mem
  -- Whatever is inside the elements around is neither a template nor a table.
  have free' {n : Nat} (member : n ∈ inner ++ block :: state.kept.reverse ++ [node]) :
      placing.isOneOf ["template", "table"] n = false := by
    by_cases copied : n ∈ state.kept
    · obtain ⟨tag, named, element⟩ := adopting.kept n copied
      exact isOneOf_of_reopened ((detached.element_eq n).trans element) named
    · have old : n ∈ inner ++ [block] ++ [node] := by
        refine mem_of_not_mem state.kept.reverse (by simpa using member) ?_
        rwa [List.mem_reverse]
      rw [List.append_assoc] at old
      have present : n ∈ inner ++ block :: node :: outer := by
        simpa using List.mem_append_left outer old
      obtain ⟨kind, element⟩ := Option.isSome_iff_exists.mp (elements n present)
      have name_eq : placing.nameOf n = c.nameOf n := by
        rw [nameOf_eq element, nameOf_eq]
        rw [detached.element_eq]
        exact adopting.keeps.element? element
      rw [isOneOf, name_eq, ← isOneOf]
      exact free n old
  have isOpen : placing.Open fun n => n = state.last ∨ n = state.last := by
    refine ⟨fun n member => placing_element member, ?_⟩
    rintro n - table loose
    have same : n = state.last := loose.elim id id
    rw [same, isNamed_of_isOneOf (free' (List.mem_append_left _ adopting.last_mem)) (by simp)]
      at table
    cases table
  have marked (n : Nat) (member : n ∈ placing.opened)
      (found : placing.isOneOf ["template", "table"] n = true) : rank n < rank state.last := by
    apply adopting.outer_lt
    by_contra outside
    rw [opened_eq] at member
    have inside := (List.mem_append.mp member).resolve_right outside
    rw [free' (List.mem_append_left _ inside)] at found
    cases found
  have outermost : rank (placing.opened.getLastD 0) < rank state.last := by
    apply adopting.outer_lt
    rw [opened_eq, List.getLastD_eq_getLast?, List.getLast?_append_of_ne_nil _ (List.cons_ne_nil _ _),
      List.getLast?_eq_some_getLast (List.cons_ne_nil _ _)]
    exact List.getLast_mem _
  have part : outer ⊆ placing.opened := by
    rw [opened_eq]
    exact fun n member => List.mem_append_right _ (List.mem_cons_of_mem _ member)
  have low : rank (outer.headD 0) < rank state.last := by
    cases outer_eq : outer with
    | nil => exact graded.zero_lt (placing_element last_mem)
    | cons first rest =>
        apply adopting.outer_lt
        simp [outer_eq]
  obtain ⟨a, aims, lower⟩ := placeIn_aims isOpen graded (isOpen.isHost_headD graded part) low
    marked outermost
  have placed := aims.placed graded (isOpen.isHost last_mem).1 fun _ =>
    isNamed_of_isOneOf (free' (List.mem_append_left _ adopting.last_mem)) (by simp)
  have moved := graded.move aims.1 (isOpen.isHost last_mem).isShown lower placed
  refine ⟨moved.weaken fun n _ free => free.2 (free.1.elim id id),
    detached.trans (Store.SameKinds.placed placed), ?_⟩
  have keeps := Store.Keeps.detach state.construction.store state.last
  rw [← store_eq] at keeps
  exact keeps.trans (Store.Keeps.placed placed)

end Adopting

/-- All copies but the one inside the block have found their places. -/
structure Adopted (c : Construction) (inner : List Nat) (block node : Nat) (outer kept : List Nat)
    (c' : Construction) (rank : Nat → ℚ) : Prop where
  same : ∃ store formatting opened, c' = { c with store, formatting, opened }
  keeps : c.store.Keeps c'.store
  graded : c'.store.Graded (fun _ => False) rank
  listed : Entries c'.store c'.formatting
  copies : ∀ n ∈ kept, ∃ tag : Tag, tag.name ∈ reopened ∧
    c'.store.element? n = some (.html, tag.name)
  falling : (inner ++ block :: kept ++ node :: outer).Pairwise fun x y => rank y < rank x

/-- The last copy takes in what is inside the block, and comes to stand inside it. -/
theorem Adopted.leads {inner outer kept : List Nat}
    (adopted : Adopted c inner block node outer kept c' rank) (sound : c.Sound)
    (part : (inner ++ block :: node :: outer).Sublist c.opened)
    (free : c.isOneOf ["template", "table"] block = false) (named : tag.name ∈ reopened)
    {copy : Nat} {created : Store}
    (create_pair : c'.store.addElement .html tag.name tag.attributes = (copy, created))
    {formatting : List Formatting}
    (entries : ∀ entry ∈ formatting, entry = .element copy tag ∨ entry ∈ c'.formatting) :
    c.Leads { c' with
      store := (created.moveChildren block copy).append block copy
      opened := inner ++ copy :: block :: kept ++ outer
      formatting } := by
  have element {n : Nat} (member : n ∈ inner ++ block :: node :: outer) :
      (c'.store.element? n).isSome = true := by
    obtain ⟨kind, element, -⟩ := sound.opened n (part.subset member)
    rw [adopted.keeps.element? element]
    rfl
  have former {n : Nat} (member : n ∈ inner ++ (block :: kept ++ outer)) (old : n ∉ kept) :
      n ∈ inner ++ block :: node :: outer := by
    have outside : n ∈ inner ++ [block] ++ outer :=
      mem_of_not_mem kept (by simpa using member) old
    have wider : (inner ++ [block] ++ outer).Sublist (inner ++ [block] ++ node :: outer) :=
      (List.Sublist.refl _).append (List.sublist_cons_self node outer)
    simpa using wider.subset outside
  have bound {n : Nat} (member : n ∈ inner ++ (block :: kept ++ outer)) :
      n < c'.store.entries.size := by
    apply Store.lt_of_element
    by_cases copied : n ∈ kept
    · obtain ⟨other, -, element⟩ := adopted.copies n copied
      rw [element]
      rfl
    · exact element (former member copied)
  have block_plain : c'.store.holder block = block := by
    apply adopted.graded.holder_eq_self
    intro template
    obtain ⟨kind, element, -⟩ := sound.opened block (part.subset (by simp))
    rw [adopted.keeps.element? element] at template
    have found : c.isOneOf ["template", "table"] block = true := by
      rw [isOneOf_iff, nameOf_eq element]
      exact ⟨"template", by simp, Option.some.inj template⟩
    rw [free] at found
    cases found
  have fewer : (inner ++ (block :: kept ++ outer)).Sublist
      (inner ++ block :: kept ++ node :: outer) := by
    rw [← List.append_assoc]
    exact (List.Sublist.refl _).append (List.sublist_cons_self node outer)
  have falling := adopted.falling.sublist fewer
  have higher (n : Nat) (member : n ∈ inner) :
      n < c'.store.entries.size ∧ rank block < rank n :=
    ⟨bound (List.mem_append_left _ member),
      (List.pairwise_append.mp falling).2.2 n member block List.mem_cons_self⟩
  obtain ⟨rank', old, graded, keeps', copy_element, above, below⟩ :=
    adopted.graded.nest (element (by simp)) block_plain higher (ne_of_reopened named).1 create_pair
  have keeps := adopted.keeps.trans keeps'
  obtain ⟨store, old_formatting, opened, rfl⟩ := adopted.same
  refine ⟨⟨⟨rank', graded, ?_⟩, ?_, ?_, ?_⟩, keeps, rfl, rfl, rfl⟩
  · have falling' : (inner ++ (block :: kept ++ outer)).Pairwise fun x y => rank' y < rank' x := by
      apply falling.imp_of_mem
      intro x y x_mem y_mem lower
      rw [old x (bound x_mem), old y (bound y_mem)]
      exact lower
    have inserted := pairwise_insert falling' (m := copy) below ?_
    · simpa using inserted
    · intro y y_mem
      rcases List.mem_cons.mp y_mem with rfl | outside
      · exact above
      · have block_falling := (List.pairwise_append.mp falling').2.1
        exact (List.rel_of_pairwise_cons block_falling outside).trans above
  · intro n member
    by_cases copied : n = copy
    · rw [copied]
      exact ⟨_, copy_element, fun _ => not_avoided_of_reopened named⟩
    have member' : n ∈ inner ++ (block :: kept ++ outer) :=
      mem_of_not_mem [copy] (by simpa using member) (by simpa using copied)
    by_cases other : n ∈ kept
    · obtain ⟨other, other_named, element⟩ := adopted.copies n other
      exact ⟨_, keeps'.element? element, fun _ => not_avoided_of_reopened other_named⟩
    · obtain ⟨kind, element, allowed⟩ := sound.opened n (part.subset (former member' other))
      exact ⟨kind, keeps.element? element, allowed⟩
  · exact fun n head => keeps.element? (sound.head n head)
  · intro n other member
    rcases entries _ member with added | former
    · cases added
      exact ⟨copy_element, named⟩
    · exact (adopted.listed.keep keeps') n other former

theorem Sound.splitFormatting (sound : c.Sound) {inner between outer : List Nat}
    (opened_eq : c.opened = inner ++ block :: between ++ node :: outer)
    (free : ∀ n ∈ inner ++ [block], c.isOneOf ["template", "table"] n = false)
    (listed : c.store.element? node = some (.html, tag.name)) (named : tag.name ∈ reopened) :
    c.Leads (c.splitFormatting node tag inner block between outer) := by
  obtain ⟨rank, graded, falling⟩ := sound.ranked
  have part : (inner ++ block :: node :: outer).Sublist c.opened := by
    rw [opened_eq, List.append_assoc, List.cons_append]
    exact (List.Sublist.refl inner).append
      ((List.sublist_append_right between (node :: outer)).cons_cons block)
  have elements (n : Nat) (member : n ∈ inner ++ block :: node :: outer) :
      (c.store.element? n).isSome = true := sound.isOpen.element n (part.subset member)
  have free' (n : Nat) (member : n ∈ inner ++ [block, node]) :
      c.isOneOf ["template", "table"] n = false := by
    by_cases itself : n = node
    · rw [itself]
      exact isOneOf_of_reopened listed named
    · have inside : n ∈ inner ++ [block] ++ [node] := by simpa using member
      exact free n ((List.mem_append.mp inside).resolve_right (by simpa using itself))
  have start : Adopting c inner block node outer ⟨c, [], block, none⟩ rank :=
    ⟨⟨c.store, c.formatting, rfl⟩, .refl _, graded.weaken fun _ _ => False.elim, sound.formatting,
      by simp, List.mem_cons_self, by simpa using falling.sublist part⟩
  obtain ⟨rank', adopting⟩ := start.adoptAll elements between 1
  unfold Construction.splitFormatting
  extract_lets state kept around widened placing settled
  change Adopting c inner block node outer state rank' at adopting
  clear_value state
  have adopted : Adopted c inner block node outer kept settled rank' := by
    obtain ⟨graded', kinds, keeps⟩ :=
      adopting.settle elements free' placing rfl rfl
    have settled_eq : settled = { placing with store := settled.store } := put_eq _ _ _
    obtain ⟨store, formatting, same⟩ := adopting.same
    refine ⟨?_, adopting.keeps.trans keeps, graded', ?_, ?_, adopting.falling⟩
    · refine ⟨settled.store, formatting, placing.opened, ?_⟩
      rw [settled_eq]
      simp only [placing, widened, around, same]
    · rw [settled_eq]
      exact adopting.listed.keep keeps
    · intro n member
      obtain ⟨other, other_named, element⟩ := adopting.kept n (List.mem_reverse.mp member)
      exact ⟨other, other_named, keeps.element? element⟩
  clear_value settled kept
  rw [create_eq]
  cases create_pair : settled.store.addElement .html tag.name tag.attributes with
  | mk copy created =>
      apply adopted.leads sound part (free block (by simp)) named create_pair
      intro entry member
      cases first_eq : state.first with
      | none =>
          simp only [first_eq] at member
          obtain ⟨former, former_mem, same⟩ := List.mem_map.mp member
          split at same
          · exact .inl same.symm
          · exact .inr (same ▸ former_mem)
      | some first =>
          simp only [first_eq] at member
          exact mem_insertFormatting (List.mem_filter.mp member).1

/-! ## Formatting elements that are closed -/

theorem reachable_takeWhile {found bound : Nat → Bool} {nodes : List Nat}
    (reached : reachable found bound nodes = true) (member : n ∈ nodes.takeWhile (!found ·)) :
    bound n = false := by
  induction nodes with
  | nil => cases member
  | cons first rest induction =>
      rw [List.takeWhile_cons] at member
      split at member
      · rename_i other
        rw [Bool.not_eq_true'] at other
        rw [reachable, other, Bool.false_or, Bool.and_eq_true, Bool.not_eq_true'] at reached
        rcases List.mem_cons.mp member with rfl | later
        · exact reached.1
        · exact induction reached.2 later
      · cases member

theorem dropWhile_ne {nodes : List Nat} (member : node ∈ nodes) :
    nodes.dropWhile (· != node) = node :: (nodes.dropWhile (· != node)).tail := by
  induction nodes with
  | nil => cases member
  | cons first rest induction =>
      by_cases same : first = node
      · simp [same]
      · have later := (List.mem_cons.mp member).resolve_left (Ne.symm same)
        have passed : (first :: rest).dropWhile (· != node) = rest.dropWhile (· != node) := by
          simp [same]
        rw [passed]
        exact induction later

theorem isOneOf_of_isBound (free : c.isBound n = false) :
    c.isOneOf ["template", "table"] n = false := by
  rw [isBound, Bool.or_eq_false_iff, Bool.or_eq_false_iff] at free
  rw [Bool.eq_false_iff]
  intro found
  obtain ⟨name, member, named⟩ := isOneOf_iff.mp found
  have bounding : name ∈ scopeBounds := by
    revert member
    simp only [List.mem_cons, List.not_mem_nil, or_false]
    rintro (rfl | rfl) <;> decide
  rw [isOneOf_iff.mpr ⟨name, bounding, named⟩] at free
  cases free.1.1

theorem Leads.closeFormattingOnce (leads : c.Leads c') (name : String) :
    c.Leads (c'.closeFormattingOnce name).1 := by
  unfold Construction.closeFormattingOnce
  dsimp only
  split
  · rename_i node tag found_eq
    have member : .element node tag ∈ c'.formatting :=
      (List.takeWhile_sublist _).subset (List.mem_of_find?_eq_some found_eq)
    obtain ⟨element, named⟩ := leads.sound.formatting node tag member
    split
    · exact leads.forgetFormatting node
    · rename_i opened
      have opened_mem : node ∈ c'.opened := by simpa using opened
      split
      · exact leads
      · rename_i scope
        have reached : reachable (· == node) c'.isBound c'.opened = true := by
          simpa [inScopeWhere] using scope
        have opened_eq : c'.opened = c'.opened.takeWhile (· != node) ++
            node :: (c'.opened.dropWhile (· != node)).tail := by
          rw [← dropWhile_ne opened_mem, List.takeWhile_append_dropWhile]
        generalize inside_eq : c'.opened.takeWhile (· != node) = inside at opened_eq ⊢
        have free (n : Nat) (inner : n ∈ inside) : c'.isOneOf ["template", "table"] n = false := by
          rw [← inside_eq] at inner
          exact isOneOf_of_isBound (reachable_takeWhile reached inner)
        split
        · apply Leads.forgetFormatting
          exact leads.shrink ((List.tail_sublist _).trans (List.dropWhile_sublist _))
        · rename_i block innerReversed rest_eq
          generalize between_eq :
            inside.reverse.takeWhile (fun n => !c'.isOneOf specialElements n) = between at rest_eq ⊢
          have whole : between ++ block :: innerReversed = inside.reverse := by
            rw [← rest_eq]
            apply (List.prefix_iff_eq_append.mp _)
            rw [← between_eq]
            exact List.takeWhile_prefix _
          have inside_split : inside = innerReversed.reverse ++ block :: between.reverse := by
            rw [← List.reverse_reverse inside, ← whole]
            simp
          apply leads.trans
          apply leads.sound.splitFormatting _ _ element named
          · rw [← inside_split]
            exact opened_eq
          · intro n inner
            apply free
            rw [inside_split, List.append_cons]
            exact List.mem_append_left _ inner
  · exact leads.closeOrdinary name

theorem Leads.closeFormattingRounds (leads : c.Leads c') (name : String) (rounds : Nat) :
    c.Leads (c'.closeFormattingRounds name rounds) := by
  induction rounds generalizing c' with
  | zero => exact leads
  | succ rounds induction =>
      have once := leads.closeFormattingOnce name
      rw [Construction.closeFormattingRounds]
      split
      · rename_i next_eq
        rw [next_eq] at once
        exact induction once
      · rename_i next_eq
        rw [next_eq] at once
        exact once

theorem Leads.closeFormatting (leads : c.Leads c') (name : String) :
    c.Leads (c'.closeFormatting name) := by
  unfold Construction.closeFormatting
  split
  · exact leads.pop
  · exact leads.closeFormattingRounds name 8

theorem Leads.closeOpenLink (leads : c.Leads c') : c.Leads c'.closeOpenLink := by
  unfold Construction.closeOpenLink
  dsimp only
  split
  · exact ((leads.closeFormatting "a").forgetFormatting _).close _
  · exact leads

end Construction
end Markup
end ReactiveTemplate
