import ReactiveTemplate.Proofs.Script.Insertion
import ReactiveTemplate.Proofs.Script.Transparent

/-!
# Properties put into code

Main statements on the replacement of property names in the code of a definition: what the new code
is, which mentions are replaced, and what the identifiers of a value are bound by at its new place.
-/

namespace ReactiveTemplate
namespace Script

variable {code : String} {values : Values} {bound : List String}

/-- The text that is read for a code: the code in parentheses. -/
def wrapped (code : String) : List Char := '(' :: code.toList ++ [')']

theorem length_wrapped (code : String) : (wrapped code).length = code.toList.length + 2 := by
  simp [wrapped]

theorem Mention.Replaces.exists_get? {mention : Mention} {value : String} {edit : Replacement}
    (replaces : mention.Replaces values value edit) : ∃ name, values.get? name = some value := by
  cases replaces with
  | name found use | shorthand found use | member found use base => exact ⟨_, found⟩

/-- Without values nothing is replaced. -/
theorem eq_nil_of_faithful {shadowed : List String} {found : List Replacement}
    {places : List Place} {mentions : List Mention}
    (faithful : Faithful [] shadowed found places mentions) : found = [] := by
  cases found with
  | nil => rfl
  | cons edit rest =>
    obtain ⟨mention, -, justified⟩ := faithful.sound edit List.mem_cons_self
    obtain ⟨value, replaces⟩ := justified.replaces
    obtain ⟨name, found⟩ := replaces.exists_get?
    cases found

/-- Replacements that are apart are put in from left to right. -/
theorem substitute_eq {term : Term} {rest : List Statement} {edits : List Replacement}
    (read : readProgram (wrapped code) = some (.expression term :: rest))
    (perm : edits.Perm (replacements values bound term))
    (apart : Apart edits 0 (wrapped code).length) (empty : values = [] → edits = []) :
    (substitute code values bound).toList = ((splice 0 edits (wrapped code)).drop 1).dropLast := by
  have unchanged : ((splice 0 [] (wrapped code)).drop 1).dropLast = code.toList := by
    simp [splice, wrapped]
  rw [substitute]
  split
  · rename_i none
    rw [empty (List.isEmpty_iff.mp none), unchanged]
  · dsimp only
    rw [← wrapped, read]
    dsimp only
    split
    · rename_i none
      rw [none] at perm
      rw [perm.eq_nil, unchanged]
    · rw [apart.mergeSort_eq perm, List.foldl_reverse, apart.foldr_apply]
      simp

/-- Inside the parentheses the replacements are put into the code itself. -/
theorem splice_wrapped {edits : List Replacement}
    (apart : Apart edits 1 (code.toList.length + 1)) :
    splice 0 edits (wrapped code) = '(' :: splice 1 edits code.toList ++ [')'] := by
  rw [wrapped, List.cons_append, splice_cons apart,
    splice_concat (apart.mono (Nat.le_refl _) (Nat.le_of_eq (Nat.add_comm _ _)))]
  rfl

/-- The places of a term that was read, as the first expression, stand in the text in order. -/
theorem inOrder_of_read {text : List Char} {term : Term} {rest : List Statement}
    (read : readProgram text = some (.expression term :: rest)) :
    InOrder text term.places text.length := by
  obtain ⟨stop, order⟩ := readProgram_inOrder read
  rw [placesOfStatements, Statement.places] at order
  have own := order.sublist (List.sublist_append_left _ _)
  exact ⟨own.pairwise, own.stands, fun place mem => (own.stands place mem).stop_le⟩

/-- A word stands between the parentheses. -/
theorem between_of_stands {extent : Extent} {word : String}
    (stands : (Place.ofWord extent word).Stands (wrapped code)) :
    1 ≤ extent.start ∧ extent.stop ≤ code.toList.length + 1 := by
  obtain ⟨escaped, token⟩ := stands.reads word rfl
  have start_lt : extent.start < extent.stop := stands.start_lt
  have stop_le : extent.stop ≤ code.toList.length + 2 := length_wrapped code ▸ stands.stop_le
  change tokenAt ((wrapped code).drop extent.start) = (_, extent.stop - extent.start) at token
  constructor
  · by_contra start
    obtain zero : extent.start = 0 := by omega
    obtain ⟨size, positive⟩ : ∃ size, extent.stop - extent.start = size + 1 :=
      Nat.exists_eq_add_one.mpr (by omega)
    refine tokenAt_word_plain token (.inl rfl) ?_
    rw [positive, zero]
    exact List.mem_cons_self
  · by_contra stop
    have whole : extent.stop - extent.start = ((wrapped code).drop extent.start).length := by
      rw [List.length_drop, length_wrapped]
      omega
    refine tokenAt_word_plain token (.inr rfl) ?_
    rw [whole, List.take_length, wrapped,
      List.drop_append_of_le_length (by rw [List.length_cons]; omega)]
    exact List.mem_append_right _ (List.mem_singleton_self _)

/-- What becomes of code that starts, in its parentheses, with an expression. -/
theorem exists_edits {term : Term} {rest : List Statement}
    (read : readProgram (wrapped code) = some (.expression term :: rest)) (values : Values)
    (bound : List String) :
    ∃ edits : List Replacement, edits.Perm (replacements values bound term) ∧
      Apart edits 1 (code.toList.length + 1) ∧
      (substitute code values bound).toList = splice 1 edits code.toList ∧
      ∀ edit ∈ edits, ∃ mention ∈ term.mentions bound,
        Justified values bound term.places edit mention := by
  have order := inOrder_of_read read
  have faithful : Faithful values bound (replacements values bound term) term.places
      (term.mentions bound) := term.faithful (List.Subset.refl _)
  obtain ⟨edits, perm, covers⟩ := faithful.covered
  have justified (edit) (mem : edit ∈ edits) := faithful.sound edit (perm.subset mem)
  have whole := covers.apart order fun _ _ => Nat.zero_le _
  -- the replacements begin and end with words, and so they do not reach the parentheses
  have apart : Apart edits 1 (code.toList.length + 1) := by
    refine ⟨whole.pairwise, whole.start_lt, fun edit mem => ?_, fun edit mem => ?_⟩
    · obtain ⟨mention, -, own⟩ := justified edit mem
      obtain ⟨value, replaces⟩ := own.replaces
      exact replaces.start ▸ (between_of_stands (order.stands _ own.place)).1
    · obtain ⟨mention, -, own⟩ := justified edit mem
      obtain ⟨start, word, last⟩ := own.last
      exact (between_of_stands (order.stands _ last)).2
  refine ⟨edits, perm, apart, ?_, justified⟩
  refine (substitute_eq read perm whole ?_).trans (by simp [splice_wrapped apart])
  rintro rfl
  exact List.perm_nil.mp (eq_nil_of_faithful faithful ▸ perm)

/-! ## What is replaced -/

/-- Code that is read as a single expression in parentheses keeps everything but the replacements,
which are put in from left to right.  Each of them puts the value of a property in the place of a
mention of its name, or of a member of all properties, and no shadowed name is replaced.  In
transparent code the replacements are those of all mentions. -/
theorem substitute_replaces {opening closing : Nat} {inner : Term}
    (read : readProgram (wrapped code) = some [.expression (.parenthesized opening closing inner)])
    (values : Values) (bound : List String) :
    ∃ edits : List Replacement, Apart edits 1 (code.toList.length + 1) ∧
      (substitute code values bound).toList = splice 1 edits code.toList ∧
      (∀ edit ∈ edits, ∃ mention ∈ inner.mentions bound,
        (∃ value, mention.Replaces values value edit) ∧ mention.name ∉ bound ∧
        ∃ escaped, tokenAt ((wrapped code).drop mention.extent.start) =
          (.word mention.name escaped, mention.extent.stop - mention.extent.start)) ∧
      (inner.transparent bound = true →
        edits.Perm ((inner.mentions bound).filterMap (Mention.edit? values))) := by
  obtain ⟨edits, perm, apart, text, justified⟩ := exists_edits read values bound
  refine ⟨edits, apart, text, fun edit mem => ?_, fun clear => ?_⟩
  · obtain ⟨mention, there, own⟩ := justified edit mem
    refine ⟨mention, there, own.replaces, own.free, ?_⟩
    exact ((inOrder_of_read read).stands _ own.place).reads _ rfl
  · exact perm.trans (inner.complete clear fun _ _ _ => .rfl)

/-- The parameter of the function binds one of the two names. -/
theorem substitute_replaces_rows :
    ∃ inner : Term,
      readProgram (wrapped "rows.map(row => ({ row, title }))") =
        some [.expression (.parenthesized 0 34 inner)] ∧
      inner.transparent [] = true ∧
      substitute "rows.map(row => ({ row, title }))" [("row", "(r)"), ("title", "(t)")] [] =
        "rows.map(row => ({ row, title: (t) }))" := by
  let object : Term := .object [.shorthand ⟨20, 23⟩ "row", .shorthand ⟨25, 30⟩ "title"]
  let function : Term :=
    .arrow ⟨[⟨⟨10, 13⟩, .name "row", false⟩], none⟩ [.expression (.parenthesized 17 32 object)]
  let inner : Term := .call (.member (.name ⟨1, 5⟩ "rows") ⟨6, 9⟩ "map") [.single function]
  have read : readProgram (wrapped "rows.map(row => ({ row, title }))") =
      some [.expression (.parenthesized 0 34 inner)] := by
    rfl
  have clear : inner.transparent [] = true := by decide +kernel
  obtain ⟨edits, -, text, -, all⟩ :=
    substitute_replaces read [("row", "(r)"), ("title", "(t)")] []
  have only : (inner.mentions []).filterMap
      (Mention.edit? [("row", "(r)"), ("title", "(t)")]) = [⟨⟨25, 30⟩, "title: (t)"⟩] := by
    decide +kernel
  have single : edits = [⟨⟨25, 30⟩, "title: (t)"⟩] :=
    List.perm_singleton.mp (only ▸ all clear)
  refine ⟨inner, read, clear, String.toList_inj.mp (text.trans ?_)⟩
  rw [single]
  decide +kernel

/-! ## What a value refers to -/

/-- Put in the place of the mention, an identifier of the value would refer to something that the
code binds. -/
def Mention.Captures (mention : Mention) (value : String) : Prop :=
  ∃ name ∈ freeNames value, name ∈ mention.scope

/-- In the code, an identifier of a value that is put in would refer to something that the code
binds. -/
def Captured (code : String) (values : Values) (bound : List String) : Prop :=
  ∃ term rest, readProgram (wrapped code) = some (.expression term :: rest) ∧
    ∃ edit ∈ replacements values bound term, ∃ mention ∈ term.mentions bound, ∃ value,
      mention.Replaces values value edit ∧ mention.Captures value

end Script
end ReactiveTemplate
