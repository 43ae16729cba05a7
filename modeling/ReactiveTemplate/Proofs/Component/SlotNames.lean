import ReactiveTemplate.Component.Slots
import ReactiveTemplate.Proofs.Component.SlotTags
import ReactiveTemplate.Proofs.Fragment.Provenance

/-!
# Names of slots in code

A template declares the slots that the reader of slot names finds in the code of its expressions,
and places those that are read as markup when the expressions become fragments.  Where the tags of
slots are written plainly, every slot that is placed is declared.
-/

namespace ReactiveTemplate

open Fragment (Spelling Opening Delimits Gives)

namespace Definition

variable {after : List Char}

/-! ## Code -/

/-- The text behind the start of the tag of a slot is the rest of a plainly written tag. -/
def PlainTag (after : List Char) : Prop :=
  ∃ (more : List Char) (opening : Opening) (rest : List Char),
    after = more ++ (opening.text ++ rest) ∧
    more.all Code.isTagNamePart = true ∧ opening.isSound = true ∧
    isPlainTag opening.parts = true

/-- Every tag of a slot in the code is written plainly. -/
def PlainSlots (code : List Char) : Prop :=
  ∀ c rest, slotStart ++ c :: rest <:+ code → (c.isAlphanum || c == '_') = false →
    PlainTag (c :: rest)

theorem PlainSlots.of_suffix {code behind : List Char} (plain : PlainSlots code)
    (suffix : behind <:+ code) : PlainSlots behind :=
  fun c rest starts => plain c rest (starts.trans suffix)

/-- The name in the tag of a slot that starts a text. -/
def slotTag? (text : List Char) : Option (List Char × Nat) :=
  if Text.startsWith text "<slot" && !((text.drop 5).head?.any Text.isWordChar) then
    slotName? 't' (text.drop 5)
  else none

theorem slotNamesInCode_cons (c : Char) (rest : List Char) :
    slotNamesInCode 0 (c :: rest) =
      match slotTag? (c :: rest) with
      | some (value, length) => value :: slotNamesInCode (4 + length) rest
      | none => slotNamesInCode 0 rest := by
  rw [slotNamesInCode]
  rfl

/-- The tag of a slot in which a name is found has plain parts, and no other tag starts before the
end of the name. -/
theorem slotTag?_cases {text value : List Char} {length : Nat} (plain : PlainSlots text)
    (found : slotTag? text = some (value, length)) :
    ∃ front back, text = slotStart ++ (front ++ back) ∧ front.length = length ∧
      Along Clear 't' front back := by
  unfold slotTag? at found
  split at found
  · rename_i starts
    rw [Bool.and_eq_true, Bool.not_eq_true'] at starts
    obtain ⟨behind, rfl⟩ := List.isPrefixOf_iff_prefix.mp starts.1
    have cut : ("<slot".toList ++ behind).drop 5 = behind := rfl
    rw [cut] at starts found
    cases behind with
    | nil => cases found
    | cons c rest =>
        have other : (c.isAlphanum || c == '_') = false := by
          by_contra word
          have apart := starts.2
          rw [List.head?_cons, Option.any_some,
            isWordChar_of_ascii (Bool.not_eq_false _ ▸ word)] at apart
          cases apart
        obtain ⟨more, opening, rest', whole, named, sound, parts⟩ :=
          plain c rest (List.suffix_refl _) other
        rw [whole] at found ⊢
        rcases slotName?_opening 't' rest' named sound parts with
          ⟨-, nothing⟩ | ⟨value', front, back, -, same, here, clear⟩
        · rw [nothing] at found
          cases found
        · rw [here, Option.some_inj, Prod.mk.injEq] at found
          exact ⟨front, back, by rw [same]; rfl, found.2, clear⟩
  · cases found

/-- A name that the reader finds in a tag is found in the code, since no tag before it reaches over
it. -/
theorem mem_slotNamesInCode {before value : List Char} {skip length : Nat}
    (plain : PlainSlots (before ++ (slotStart ++ after))) (le : skip ≤ before.length)
    (found : slotTag? (slotStart ++ after) = some (value, length)) :
    value ∈ slotNamesInCode skip (before ++ (slotStart ++ after)) := by
  induction before generalizing skip with
  | nil =>
      obtain rfl := Nat.le_zero.mp le
      have here := slotNamesInCode_cons '<' (['s', 'l', 'o', 't'] ++ after)
      have shape : '<' :: (['s', 'l', 'o', 't'] ++ after) = slotStart ++ after := rfl
      rw [shape, found] at here
      rw [List.nil_append, here]
      exact List.mem_cons_self
  | cons c before induction =>
      have tail := plain.of_suffix (List.suffix_cons c (before ++ (slotStart ++ after)))
      rw [List.length_cons] at le
      rw [List.cons_append]
      cases skip with
      | succ skip => exact induction tail (Nat.le_of_succ_le_succ le)
      | zero =>
          rw [slotNamesInCode_cons]
          split
          · rename_i value' length' earlier
            refine List.mem_cons_of_mem _ (induction tail ?_)
            obtain ⟨front, back, same, rfl, clear⟩ := slotTag?_cases plain earlier
            -- otherwise the second tag would start inside the first
            by_contra short
            have letters : Along Clear c ['s', 'l', 'o', 't'] (front ++ back) :=
              ⟨clear_of_ne (by decide) _, clear_of_ne (by decide) _, clear_of_ne (by decide) _,
                clear_of_ne (by decide) _, trivial⟩
            have within : Along Clear c (['s', 'l', 'o', 't'] ++ front) back :=
              along_append.mpr ⟨letters, clear⟩
            have body : before ++ (slotStart ++ after) = ['s', 'l', 'o', 't'] ++ front ++ back := by
              rw [List.append_assoc]
              exact (List.cons.inj same).2
            have longer : before.length < (['s', 'l', 'o', 't'] ++ front).length := by
              simp only [List.length_append, List.length_cons, List.length_nil]
              omega
            have inside : before <+: ['s', 'l', 'o', 't'] ++ front :=
              List.prefix_of_prefix_length_le (List.prefix_append _ _)
                (body ▸ List.prefix_append _ back) (Nat.le_of_lt longer)
            obtain ⟨remainder, split_⟩ := inside
            cases remainder with
            | nil =>
                rw [← split_, List.append_nil] at longer
                exact absurd longer (Nat.lt_irrefl _)
            | cons first remainder =>
                rw [← split_, List.append_assoc, List.append_cancel_left_eq] at body
                exact within.at split_.symm ⟨after, body⟩
          · exact induction tail (Nat.zero_le _)

/-! ## Markup -/

/-- The name of the tag of a slot. -/
def slotWord : List Char := "slot".toList

/-- Only the word itself is the name of a slot in the document. -/
theorem eq_nameWord_of_attributeName {name : List Char}
    (same : Fragment.attributeName name = "name") : name = nameWord := by
  unfold Fragment.attributeName at same
  split at same
  · rename_i third rest
    have first : (if third.isUpper = true then
        String.ofList (('o' :: 'n' :: third :: rest).map Char.toLower)
        else String.ofList ('o' :: 'n' :: third :: rest)).toList.head? = some 'o' := by
      split <;> rw [String.toList_ofList] <;> rfl
    rw [same] at first
    cases first
  · dsimp only at same
    split at same
    · exact absurd same (by decide)
    · split at same
      · exact absurd same (by decide)
      · rw [← String.toList_ofList (l := name), same]
        rfl

/-- The fixed name that is read from a plainly written tag is its first plain name. -/
theorem firstName?_of_gives {parts : List Spelling} {attributes : List Attribute} {name : String}
    (gives : Gives parts attributes) (plain : isPlainTag parts = true)
    (fixed : Attribute.fixed? attributes "name" = some name) :
    firstName? parts = some name.toList := by
  induction gives with
  | nil => cases fixed
  | spread gives induction =>
      have unnamed {gap code : List Char} : plainName? (.spread gap code) = none := rfl
      rw [isPlainTag, unnamed, Option.isSome_none, Bool.false_or, Bool.and_eq_true] at plain
      rw [firstName?, List.findSome?_cons, unnamed]
      exact induction plain.2 fixed
  | @named gap key assigned value site parts attributes valued gives induction =>
      by_cases word : Fragment.attributeName key = "name"
      · obtain rfl := eq_nameWord_of_attributeName word
        have own : Attribute.find? (⟨Fragment.attributeName nameWord, value, site⟩ :: attributes)
            "name" = some ⟨Fragment.attributeName nameWord, value, site⟩ := by
          rw [Attribute.find?, List.find?_cons_of_pos]
          rw [word]
          rfl
        rw [Attribute.fixed?, own] at fixed
        have read : value = .fixed name := by
          split at fixed
          · rename_i same
            cases same
            rw [Option.some_inj] at fixed
            rw [fixed]
          · cases fixed
        subst read
        rcases assigned with _ | ⟨_, _, ⟨quote, text⟩ | _ | _⟩
        · simp [isPlainTag, plainName?, isQuietPart] at plain
        · have ends : nameWord.rtakeWhile Text.isWordChar = nameWord :=
            rtakeWhile_nameWord ' ' [] (.inr rfl)
          have found : isPlainName text = true := by
            simpa [isPlainTag, plainName?, isQuietPart, ends] using plain
          have decoded : Markup.decodeValue text = text := by
            simp only [isPlainName, Bool.and_eq_true, beq_iff_eq] at found
            exact found.2
          injection valued with valued
          rw [decoded] at valued
          rw [firstName?, List.findSome?_cons, plainName?, if_pos ⟨rfl, found⟩, valued,
            String.toList_ofList]
        · simp [isPlainTag, plainName?, isQuietPart] at plain
        · obtain ⟨e, dynamic⟩ := valued
          cases dynamic
      · have unnamed : plainName? (.named gap key assigned) = none := by
          unfold plainName?
          split
          · rename_i same
            cases same
            rw [if_neg]
            rintro ⟨rfl, -⟩
            exact word (by decide)
          · rfl
        have skipped : Attribute.fixed? (⟨Fragment.attributeName key, value, site⟩ :: attributes)
            "name" = Attribute.fixed? attributes "name" := by
          rw [Attribute.fixed?, Attribute.find?, List.find?_cons_of_neg (by simpa using word)]
          rfl
        rw [isPlainTag, unnamed, Option.isSome_none, Bool.false_or, Bool.and_eq_true] at plain
        rw [firstName?, List.findSome?_cons, unnamed]
        exact induction plain.2 (skipped ▸ fixed)

/-- Behind the name of a tag that is read there is a character that belongs to no name. -/
theorem exists_behind_tagName {rest : List Char} {stop : Nat}
    (ends : Code.markupEndFrom {} ('<' :: rest) = some stop)
    (named : Fragment.tagName (rest.take (stop - 1)) = slotWord) :
    ∃ c behind, rest = slotWord ++ c :: behind ∧ Code.isTagNamePart c = false := by
  obtain ⟨cut, cut_eq⟩ := named ▸ Fragment.tagName_prefix (rest.take (stop - 1))
  have starts : slotWord <+: rest :=
    ⟨cut ++ rest.drop (stop - 1), by rw [← List.append_assoc, cut_eq, List.take_append_drop]⟩
  obtain ⟨behind, rfl⟩ := starts
  have step : Code.MarkupState.step {} '<' (slotWord ++ behind) =
      .next (.enterTag 0 (slotWord ++ behind)) := rfl
  rw [Code.markupEndFrom_next rfl step] at ends
  obtain ⟨before, inner, rfl⟩ := Option.map_eq_some_iff.mp ends
  have bounds := Code.markupEndFrom_bounds inner
  have letters : ∀ c ∈ slotWord, Code.isTagNamePart c = true := by
    rw [← List.all_eq_true]
    decide
  have whole : (slotWord ++ behind).takeWhile Code.isTagNamePart =
      slotWord ++ behind.takeWhile Code.isTagNamePart :=
    List.takeWhile_append_of_pos letters
  have skipped : (Code.MarkupState.enterTag 0 (slotWord ++ behind)).skip =
      slotWord.length + (behind.takeWhile Code.isTagNamePart).length := by
    rw [Code.MarkupState.enterTag, whole, List.length_append]
  rw [skipped, List.length_append] at bounds
  cases behind with
  | nil =>
      rw [List.takeWhile_nil] at bounds
      exact absurd bounds.1 (by simpa using bounds.2)
  | cons c behind =>
      refine ⟨c, behind, rfl, ?_⟩
      -- otherwise the character would belong to the name
      by_contra part
      rw [Bool.not_eq_false] at part
      obtain ⟨more, rfl⟩ : ∃ more, before = slotWord.length + (more + 1) :=
        ⟨before - slotWord.length - 1, by omega⟩
      rw [Nat.add_sub_cancel, List.take_length_add_append, List.take_succ_cons] at named
      have longer : Fragment.tagName (slotWord ++ c :: behind.take more) =
          slotWord ++ (c :: behind.take more).takeWhile Code.isTagNamePart := by
        change Fragment.tagName ('s' :: (['l', 'o', 't'] ++ c :: behind.take more)) = _
        rw [Fragment.tagName, if_pos (by decide), List.takeWhile_append_of_pos]
        · rfl
        · exact fun d member => letters d (List.mem_cons_of_mem _ member)
      rw [longer, List.takeWhile_cons_of_pos part] at named
      have size := congrArg List.length named
      rw [List.length_append, List.length_cons] at size
      omega

/-- The fixed name of a slot that is read from code is found by the reader of slot names. -/
theorem name_mem_of_readFrom {code : List Char} {attributes : List Attribute} {name : String}
    (plain : PlainSlots code) (read : Fragment.ReadFrom code slotWord attributes)
    (fixed : Attribute.fixed? attributes "name" = some name) :
    name.toList ∈ slotNamesInCode 0 code := by
  obtain ⟨scope, registry, location, rest, stop, header, ⟨before, after, rfl⟩, ends, -, named,
    header_ok, rfl⟩ := read
  have inside := Code.markupEndFrom_bounds ends
  have ends_far := Code.markupEndFrom_append after _ ends
  obtain ⟨c, behind, rfl, other⟩ := exists_behind_tagName ends named
  have letter : (c.isAlphanum || c == '_') = false := by
    simp only [Code.isTagNamePart, Bool.or_eq_false_iff] at other ⊢
    exact ⟨other.1.1.1.1, other.1.2⟩
  have shape : before ++ '<' :: (slotWord ++ c :: behind) ++ after =
      before ++ (slotStart ++ c :: (behind ++ after)) := by
    rw [List.append_assoc]
    rfl
  rw [shape] at plain ⊢
  obtain ⟨more, opening, rest, whole, more_named, sound, parts⟩ :=
    plain c (behind ++ after) (List.suffix_append _ _) letter
  obtain rfl : more = [] := by
    cases more with
    | nil => rfl
    | cons first more =>
        obtain ⟨rfl, -⟩ := List.cons.inj whole
        rw [List.all_cons, other] at more_named
        cases more_named
  rw [List.nil_append] at whole
  -- the tag as a whole belongs to the element
  have long : slotWord.length + opening.text.length + 1 ≤ stop := by
    refine Opening.length_le rest (by decide) sound ?_
    rw [← whole]
    simpa using ends_far
  have size : stop - 1 - slotWord.length ≤ (c :: behind).length := by
    simp only [List.length_cons, List.length_append] at inside ⊢
    omega
  have within : opening.text <+: (c :: behind).take (stop - 1 - slotWord.length) := by
    have starts : opening.text <+: c :: (behind ++ after) := ⟨rest, whole.symm⟩
    refine List.prefix_of_prefix_length_le starts ?_ ?_
    · exact (List.take_prefix _ _).trans ⟨after, by simp⟩
    · rw [List.length_take, Nat.min_eq_left size]
      omega
  obtain ⟨remainder, taken⟩ := within
  have body : ((slotWord ++ c :: behind).take (stop - 1)).drop slotWord.length =
      opening.text ++ remainder := by
    rw [taken, List.drop_take, List.drop_left]
  rw [body] at header_ok
  obtain ⟨header', header'_ok, gives⟩ :=
    Fragment.readsParts_opening sound scope registry _ remainder
  rw [header_ok] at header'_ok
  obtain rfl := Except.ok.inj header'_ok
  have first := firstName?_of_gives gives parts fixed
  -- the reader of slot names finds the same name
  have unnamed : ([] : List Char).all Code.isTagNamePart = true := rfl
  rcases slotName?_opening 't' rest unnamed sound parts with
    ⟨nothing, -⟩ | ⟨value, front, back, some, -, found, -⟩
  · rw [first] at nothing
    cases nothing
  · rw [first, Option.some_inj] at some
    subst some
    rw [List.nil_append, ← whole] at found
    have starts : Text.startsWith (slotStart ++ c :: (behind ++ after)) "<slot" = true :=
      List.isPrefixOf_iff_prefix.mpr (List.prefix_append _ _)
    have apart : (c :: (behind ++ after)).head?.any Text.isWordChar = false := by
      rw [whole]
      exact any_isWordChar_of_follows ((Opening.follows sound).append rest)
    have cut : (slotStart ++ c :: (behind ++ after)).drop 5 = c :: (behind ++ after) := rfl
    have tagged : slotTag? (slotStart ++ c :: (behind ++ after)) =
        some (name.toList, front.length) := by
      rw [slotTag?, starts, cut, apart]
      exact found
    exact mem_slotNamesInCode plain (Nat.zero_le _) tagged

/-! ## Placed and declared slots -/

/-- The names that slots have in a tree, and those that the reader finds in its code, are among the
given ones. -/
def Declares (names : List String) : List Node → Prop :=
  Node.EachAll
    (fun tag attributes => tag = "slot" →
      ∀ name, Attribute.fixed? attributes "name" = some name → name ∈ names)
    (fun code => ∀ value ∈ slotNamesInCode 0 code, String.ofList value ∈ names)

mutual

theorem declares_of_placedSlots {names : List String} :
    ∀ {node : Node}, placedSlots node ⊆ names → Declares names [node]
  | .element tag attributes children site, placed => by
      rw [placedSlots, List.append_subset] at placed
      refine ⟨⟨fun slot name fixed => placed.1 ?_, declares_of_placedSlotsOfList placed.2⟩, trivial⟩
      rw [ownSlots, if_pos slot, fixed]
      exact List.mem_singleton_self name
  | .component .., placed | .optional .., placed | .loop .., placed => by
      rw [placedSlots] at placed
      exact ⟨declares_of_placedSlotsOfList placed, trivial⟩
  | .conditional .., placed => by
      rw [placedSlots, List.append_subset] at placed
      exact ⟨⟨declares_of_placedSlotsOfList placed.1, declares_of_placedSlotsOfList placed.2⟩,
        trivial⟩
  | .expression e, placed =>
      ⟨fun value member => placed (List.mem_map_of_mem member), trivial⟩
  | .text .., _ | .doctype .., _ => ⟨trivial, trivial⟩

/-- A template declares what it places itself. -/
theorem declares_of_placedSlotsOfList {names : List String} :
    ∀ {nodes : List Node}, placedSlotsOfList nodes ⊆ names → Declares names nodes
  | [], _ => trivial
  | node :: rest, placed => by
      rw [placedSlotsOfList, List.append_subset] at placed
      exact ⟨(declares_of_placedSlots placed.1).1, declares_of_placedSlotsOfList placed.2⟩

end

theorem mem_addName {names : List String} {name other : String} :
    name ∈ addName names other ↔ name ∈ names ∨ name = other := by
  rw [addName]
  split
  · rename_i there
    rw [List.contains_iff_mem] at there
    exact ⟨.inl, fun either => either.elim id fun same => same ▸ there⟩
  · rw [List.mem_append, List.mem_singleton]

theorem mem_foldl_addName {more names : List String} {name : String}
    (member : name ∈ names ∨ name ∈ more) : name ∈ more.foldl addName names := by
  induction more generalizing names with
  | nil => exact member.resolve_right List.not_mem_nil
  | cons first rest induction =>
      refine induction ?_
      rw [mem_addName]
      rcases member with old | new
      · exact .inl (.inl old)
      · rcases List.mem_cons.mp new with same | later
        · exact .inl (.inr same)
        · exact .inr later

/-- No usage is refused for a marker of the slot. -/
def Accepts (definition : Definition) (slot : String) : Prop :=
  ∀ (scope : Option Scope) (slots : Component.Slots) (registry : Registry) (children : List Node)
    (marker component : String) (declared : List String) (place : Location),
    Component.Slots.divide definition scope slots registry children ≠
      .error (.undeclaredSlot marker slot component declared, place)

theorem accepts_of_mem {definition : Definition} {slot : String}
    (declared : slot ∈ definition.slots) : definition.Accepts slot := by
  intro scope slots registry children marker component names place refused
  fun_induction Component.Slots.divide definition scope slots registry children with
  | case1 => cases refused
  | case2 =>
      rename_i induction
      exact induction refused
  | case3 =>
      rename_i undeclared
      cases refused
      exact undeclared (List.contains_iff_mem.mpr declared)
  | case4 | case5 =>
      rename_i induction
      exact induction refused

/-- Every slot that a lowered template places under a fixed name is declared, and no usage is refused
for a marker of it, if the tags of slots in the code of the template are written plainly. -/
theorem placed_slots_declared {name path source file : String} {definition : Definition}
    {registry after : Registry} {lowered : List Node}
    (read : ofSource name path source = .ok definition)
    (plain : Node.EachAll (fun _ _ => True) PlainSlots definition.nodes)
    (ok : Fragment.lower definition.nodes file registry = .ok (lowered, after)) :
    Node.EachAll
      (fun tag attributes => tag = "slot" →
        ∀ slot, Attribute.fixed? attributes "name" = some slot →
          Text.lowercase slot ∈ definition.slots ∧ definition.Accepts (Text.lowercase slot))
      (fun _ => True) lowered := by
  let names := placedSlotsOfList definition.nodes
  have slots_eq : definition.slots = slotsOf definition.nodes := by
    rw [ofSource] at read
    split at read <;> cases read
    rfl
  have listed {slot : String} (member : slot ∈ names) :
      Text.lowercase slot ∈ definition.slots := by
    rw [slots_eq, slotsOf]
    exact mem_foldl_addName (.inr (List.mem_map_of_mem member))
  -- code that comes from the template is part of code in which the reader finds declared names
  let shown (code : List Char) : Prop := ∃ root, PlainSlots root ∧
    (∀ value ∈ slotNamesInCode 0 root, String.ofList value ∈ names) ∧ code <:+: root
  have traces : Fragment.Traces (fun tag attributes => tag = "slot" →
      ∀ slot, Attribute.fixed? attributes "name" = some slot → slot ∈ names) shown := by
    refine ⟨?_, ?_⟩
    · rintro code part ⟨root, root_plain, found, inside⟩ within
      exact ⟨root, root_plain, found, within.trans inside⟩
    · rintro code word attributes ⟨root, root_plain, found, inside⟩
        ⟨scope, before, place, rest, stop, header, starts, ends, named⟩ same slot fixed
      have word_eq : word = slotWord := by
        rw [← String.toList_ofList (l := word), same]
        rfl
      subst word_eq
      have member := name_mem_of_readFrom root_plain
        ⟨scope, before, place, rest, stop, header, starts.trans inside, ends, named⟩ fixed
      have own := found _ member
      rwa [String.ofList_toList] at own
  have declares : Declares names definition.nodes :=
    declares_of_placedSlotsOfList (List.Subset.refl _)
  have each : Node.EachAll (fun tag attributes => tag = "slot" →
      ∀ slot, Attribute.fixed? attributes "name" = some slot → slot ∈ names) shown
      definition.nodes := by
    refine Node.EachAll.mono ?_ ?_ (Node.EachAll.and plain declares)
    · exact fun _ _ both => both.2
    · exact fun code both => ⟨code, both.1, both.2, List.infix_refl _⟩
  refine Node.EachAll.mono ?_ (fun _ _ => trivial) (Fragment.lower_each traces each ok)
  intro tag attributes own slot_tag slot fixed
  have declared := listed (own slot_tag slot fixed)
  exact ⟨declared, accepts_of_mem declared⟩

/-- Code of a loop in which a slot has a spread, a name with a capital letter and, behind the name, a
value with an angle bracket. -/
def rowsCode : String :=
  "rows.map(row => <li><slot \x7b...row\x7d title=\"a\" name='Cell' wide=\x7bx > 1\x7d /></li>)"

/-- The rest of the tag of the slot. -/
def rowsOpening : Opening where
  parts :=
    [.spread [' '] "...row".toList,
      .named [' '] "title".toList (some ⟨[], [], .quoted '"' ['a']⟩),
      .named [' '] "name".toList (some ⟨[], [], .quoted '\x27' "Cell".toList⟩),
      .named [' '] "wide".toList (some ⟨[], [], .braced "x > 1".toList⟩)]
  gap := [' ']
  selfClosing := true

theorem plainSlots_rowsCode : PlainSlots rowsCode.toList := by
  intro c rest starts _
  have only : ∀ tail ∈ rowsCode.toList.tails, slotStart.isPrefixOf tail = true →
      tail = slotStart ++ (rowsOpening.text ++ "</li>)".toList) := by
    decide +kernel
  have same := only _ ((List.mem_tails _ _).mpr starts)
    (List.isPrefixOf_iff_prefix.mpr (List.prefix_append _ _))
  rw [List.append_cancel_left_eq] at same
  exact ⟨[], rowsOpening, "</li>)".toList, same, rfl, by decide +kernel, by decide +kernel⟩

theorem placed_slots_declared_rows :
    ∃ definition lowered after,
      ofSource "Grid" "Grid.zen" ("<ul>\x7b" ++ rowsCode ++ "\x7d</ul>") = .ok definition ∧
      Node.EachAll (fun _ _ => True) PlainSlots definition.nodes ∧
      Fragment.lower definition.nodes "Grid.zen" {} = .ok (lowered, after) ∧
      definition.slots = ["default", "cell"] ∧
      Node.EachAll
        (fun tag attributes => tag = "slot" →
          ∀ slot, Attribute.fixed? attributes "name" = some slot →
            Text.lowercase slot ∈ definition.slots ∧ definition.Accepts (Text.lowercase slot))
        (fun _ => True) lowered := by
  have evaluates : (do
      let definition ← ofSource "Grid" "Grid.zen" ("<ul>\x7b" ++ rowsCode ++ "\x7d</ul>")
      let lowered ← Fragment.lower definition.nodes "Grid.zen" {}
      pure (definition, lowered)).toOption.any
        (fun value : Definition × (List Node × Registry) =>
          value.1.slots == ["default", "cell"] &&
          (Node.expressionsOfList value.1.nodes).all (·.code == rowsCode)) = true := by
    decide +kernel
  obtain ⟨value, ok, same⟩ := exists_ok _ evaluates
  simp only [bind_eq_ok] at ok
  obtain ⟨definition, read, ⟨lowered, after⟩, lower_ok, result⟩ := ok
  cases result
  simp only [Bool.and_eq_true, beq_iff_eq, List.all_eq_true] at same
  have plain : Node.EachAll (fun _ _ => True) PlainSlots definition.nodes := by
    refine Node.eachAll_of_expressions fun e member => ?_
    rw [same.2 e member]
    exact plainSlots_rowsCode
  exact ⟨definition, lowered, after, read, plain, lower_ok, same.1,
    placed_slots_declared read plain lower_ok⟩

end Definition
end ReactiveTemplate
