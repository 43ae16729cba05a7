import ReactiveTemplate.Proofs.Code.Passage
import ReactiveTemplate.Proofs.Page.Displacement
import ReactiveTemplate.Proofs.Template.Relocation

/-!
# Hoisted scripts

A script block at the start of a page is taken out before anything else is read, and all that it
changes is where the rest of the page stands.  Two pages that differ in such a script are written
with the same markup, as long as both are taken for the same kind of document and the locations in
their drafts stay where they are understood.
-/

namespace ReactiveTemplate
namespace Template

/-- The text is the start of a script block, and whatever follows comes after the block. -/
def scriptText (script : List Char) : List Char :=
  "<script>".toList ++ script ++ "</script>".toList

/-- The script can stand in a block: nothing in it ends the block. -/
def staysOpen (script : List Char) : Bool := !Text.contains (script.map Char.toLower) "</script"

/-! ## Where a block ends -/

/-- A pattern that starts with a character it has nowhere else does not begin before the end of a
text without it, even where the text is followed by the pattern. -/
theorem find?_append_pattern (first : Char) (others : List Char) (apart : first ∉ others)
    (tail : List Char) {text : List Char} (absent : Text.find? (first :: others) text = none) :
    Text.find? (first :: others) (text ++ (first :: others ++ tail)) = some text.length := by
  induction text with
  | nil =>
      have start : (first :: others).isPrefixOf (first :: others ++ tail) = true :=
        List.isPrefixOf_iff_prefix.mpr (List.prefix_append _ _)
      rw [List.nil_append]
      rw [List.cons_append] at start ⊢
      rw [Text.find?, if_pos start]
      rfl
  | cons c rest induction =>
      rw [Text.find?] at absent
      split at absent
      · cases absent
      rename_i elsewhere
      have behind := induction (Option.map_eq_none_iff.mp absent)
      have later : ¬ (first :: others).isPrefixOf
          (c :: (rest ++ (first :: others ++ tail))) = true := by
        intro found
        rw [List.isPrefixOf_iff_prefix] at found elsewhere
        have own : c :: rest <+: c :: (rest ++ (first :: others ++ tail)) :=
          List.prefix_append (c :: rest) _
        rcases List.prefix_or_prefix_of_prefix found own with inside | ⟨left, whole⟩
        · exact elsewhere inside
        · cases left with
          | nil =>
              rw [List.append_nil] at whole
              exact elsewhere (whole ▸ List.prefix_refl _)
          | cons d more =>
              -- the pattern would begin again inside itself
              rw [List.cons_append, List.cons.injEq] at whole
              obtain ⟨rfl, rfl⟩ := whole
              rw [List.cons_prefix_cons, List.prefix_append_right_inj, List.cons_append,
                List.cons_prefix_cons] at found
              obtain ⟨-, rfl, -⟩ := found
              exact apart (by simp)
      rw [List.cons_append, Text.find?, if_neg later, behind]
      rfl

variable {script : List Char}

theorem find?_closing (stays : staysOpen script = true) (more : List Char) :
    Text.find? "</script".toList ((script ++ ("</script>".toList ++ more)).map Char.toLower) =
      some script.length := by
  have absent : Text.find? "</script".toList (script.map Char.toLower) = none := by
    rw [staysOpen, Text.contains, Bool.not_eq_true', Option.isSome_eq_false_iff,
      Option.isNone_iff_eq_none] at stays
    exact stays
  have own := find?_append_pattern '<' "/script".toList (by decide)
    ('>' :: more.map Char.toLower) absent
  rw [List.length_map] at own
  rw [← own, List.map_append, List.map_append]
  rfl

/-! ## Reading a block -/

namespace Draft

/-- The draft behind a script block at the start of a source: only its location tells of it, apart
from the script that was taken out. -/
def behindScript (script : List Char) : Draft :=
  { location := Location.start.advance (scriptText script)
    scripts := [⟨String.ofList script, []⟩] }

/-- A script block whose tag has no attributes. -/
theorem block_plain (draft : Draft) {name rest body : List Char} {length closing : Nat}
    (tag : rest.drop name.length = '>' :: body)
    (found : Text.find? "</script".toList (body.map Char.toLower) = some length)
    (closes : lengthBefore? (· == '>') (body.drop length) = some closing) :
    draft.block (String.ofList name) "script" rest =
      .ok ({ draft with
        scripts := draft.scripts ++ [Script.mk (String.ofList (body.take length)) []] }.passOver '<'
          (name.length + 0 + 1 + length + (closing + 1))) := by
  have pattern : ("</" ++ "script").toList = "</script".toList := rfl
  have ending : '>' ≠ '<' := by decide
  rw [block, String.length_ofList, tag, pattern]
  simp only [tagLength?, if_true, List.take_zero, List.drop_succ_cons, List.drop_zero, bind,
    Except.bind, List.getLast?_nil, reduceCtorEq, if_false, Nat.zero_add]
  rw [found]
  simp only [closes, Option.map_some, Option.getD_some]
  rfl

/-- The text of a block behind the first angle bracket. -/
private def blockRest (script : List Char) : List Char :=
  "script>".toList ++ (script ++ "</script>".toList)

private theorem scriptText_eq (script : List Char) :
    scriptText script = '<' :: blockRest script := by
  have tag : "<script>".toList = '<' :: "script>".toList := by decide
  show "<script>".toList ++ script ++ "</script>".toList =
    '<' :: ("script>".toList ++ (script ++ "</script>".toList))
  rw [tag]
  generalize "script>".toList = opening
  generalize "</script>".toList = closing
  simp

private theorem blockRest_append (script more : List Char) :
    blockRest script ++ more =
      "script".toList ++ '>' :: (script ++ ("</script>".toList ++ more)) := by
  have tag : "script>".toList = "script".toList ++ ['>'] := by decide
  show "script>".toList ++ (script ++ "</script>".toList) ++ more = _
  rw [tag]
  generalize "script".toList = name
  generalize "</script>".toList = closing
  simp

private theorem length_blockRest (script : List Char) :
    (blockRest script).length = "script".toList.length + 0 + 1 + script.length + (8 + 1) := by
  have lengths : "script>".toList.length = 7 ∧ "</script>".toList.length = 9 ∧
      "script".toList.length = 6 := by decide
  show ("script>".toList ++ (script ++ "</script>".toList)).length = _
  rw [List.length_append, List.length_append]
  omega

/-- A tag that opens a script block. -/
theorem readContent_block (draft : Draft) (body : List Char) :
    draft.readContent '<' ("script".toList ++ '>' :: body) =
      draft.block "script" "script" ("script".toList ++ '>' :: body) := by
  have start : "script".toList = 's' :: "cript".toList := by decide
  have all : "script".toList.all Code.isTagNamePart = true := by decide
  have named : ("script".toList ++ '>' :: body).takeWhile Code.isTagNamePart = "script".toList :=
    Code.Parts.takeWhile_append ⟨'>', body, rfl, rfl⟩ all
  have lower : Text.asciiLowercase "script" = "script" := by
    rw [Text.asciiLowercase, ← String.toList_inj, String.toList_map]
    decide
  have back : String.ofList "script".toList = "script" := String.ofList_toList
  generalize "script".toList = name at start named back
  subst start
  rw [List.cons_append] at named ⊢
  rw [readContent, if_neg (by decide), if_neg (by decide), if_pos (by decide)]
  · rw [named, back]
    simp only [lower, true_or, if_true]
  all_goals
    intros
    rename_i same
    cases same

private theorem readContent_script (stays : staysOpen script = true) (more : List Char) :
    readContent {} '<' (blockRest script ++ more) =
      .ok (passOver { scripts := [⟨String.ofList script, []⟩] } '<' (blockRest script).length) := by
  have behind : (script ++ ("</script>".toList ++ more)).drop script.length =
      "</script>".toList ++ more := List.drop_left
  have closes : lengthBefore? (· == '>')
      ((script ++ ("</script>".toList ++ more)).drop script.length) = some 8 := by
    rw [behind]
    simp [lengthBefore?]
  have tagged : ("script".toList ++ '>' :: (script ++ ("</script>".toList ++ more))).drop
      "script".toList.length = '>' :: (script ++ ("</script>".toList ++ more)) := List.drop_left
  have own := block_plain {} tagged (find?_closing stays more) closes
  rw [String.ofList_toList, List.take_left] at own
  rw [blockRest_append, readContent_block, length_blockRest]
  exact own

/-- A script block at the start of a source is taken out. -/
theorem ofSource_script (stays : staysOpen script = true) (more : List Char) :
    ofSource (scriptText script ++ more) = (behindScript script).runFrom more := by
  have first : step {} '<' (blockRest script ++ more) =
      .ok (passOver { scripts := [⟨String.ofList script, []⟩] } '<' (blockRest script).length) := by
    rw [step, if_neg (by decide)]
    exact readContent_script stays more
  rw [ofSource, behindScript, scriptText_eq, List.cons_append, runFrom, first]
  dsimp only
  generalize blockRest script = passed
  rw [runFrom_passed rfl rfl]
  rfl

/-- The markup of chunks behind a script block. -/
theorem markup_behindScript (stays : staysOpen script = true) {chunks : List Chunk}
    (sound : chunks.all Chunk.isSound = true) {draft : Draft}
    (ok : ofSource (scriptText script ++ sourceOf chunks) = .ok draft) :
    draft.markup = markupOf (Location.start.advance (scriptText script)) 0 chunks := by
  rw [ofSource_script stays] at ok
  have stands : (behindScript script).Stands
      ⟨.content, Location.start.advance (scriptText script), 0⟩ := ⟨rfl, rfl, rfl, rfl⟩
  have written := markup_of_chunks sound rfl stands rfl ok
  dsimp only at written
  exact written

theorem behindScript_displaced (script script' : List Char) :
    (behindScript script).Displaced (behindScript script') := ⟨.content, rfl, rfl⟩

end Draft
end Template

namespace Page

open Template

/-! ## Pages -/

/-- A page that starts with a script block. -/
def withScript (script rest : List Char) : String := String.ofList (scriptText script ++ rest)

theorem toList_withScript (script rest : List Char) :
    (withScript script rest).toList = scriptText script ++ rest := String.toList_ofList

theorem ofSource_withScript {script : List Char} (stays : staysOpen script = true)
    (rest : List Char) :
    Draft.ofSource (withScript script rest).toList = (Draft.behindScript script).runFrom rest := by
  rw [toList_withScript, Draft.ofSource_script stays]

/-- Pages that differ in the script of a block at their start are written with the same markup, or
are refused both: provided that both are taken for whole documents or neither, and that the
documents which their drafts describe differ in nothing but the locations that elements carry. -/
theorem compile_script {script script' : List Char} (rest : List Char) (file : String)
    (library : Library) (stays : staysOpen script = true) (stays' : staysOpen script' = true)
    (whole : isFullDocument (scriptText script ++ rest) =
      isFullDocument (scriptText script' ++ rest))
    (documents : ∀ draft draft', (Draft.behindScript script).runFrom rest = .ok draft →
      (Draft.behindScript script').runFrom rest = .ok draft' →
      alikeAll (Markup.document draft.markup) (Markup.document draft'.markup) = true) :
    Concurs (fun page page' => page.html = page'.html)
      (compile (withScript script rest) file library)
      (compile (withScript script' rest) file library) := by
  have drafts := (Draft.behindScript_displaced script script').runFrom rest
  rw [← ofSource_withScript stays, ← ofSource_withScript stays'] at drafts
  simp only [← ofSource_withScript stays, ← ofSource_withScript stays'] at documents
  rw [← toList_withScript, ← toList_withScript] at whole
  exact compile_displaced library (parse_displaced drafts whole documents ⟨rfl, rfl⟩)

/-- The lines where the code of a page stands. -/
def Compiled.lines (page : Compiled) : List Nat :=
  page.expressions.map fun e => e.location.line.toNat

/-- A script on one line and one on three lines, with a comparison in it, before an element with
code in it. -/
theorem compile_script_longer :
    ∃ page page',
      compile "<script>let a = 1;</script><p class={c}>{name}</p>" "page.zen" ⟨[]⟩ = .ok page ∧
      compile "<script>\n  if (a < b) run();\n</script><p class={c}>{name}</p>" "page.zen" ⟨[]⟩ =
        .ok page' ∧
      page.html = page'.html ∧ page.lines = [1, 1] ∧ page'.lines = [3, 3] := by
  let script := "let a = 1;".toList
  let script' := "\n  if (a < b) run();\n".toList
  let rest := "<p class={c}>{name}</p>".toList
  have first : withScript script rest = "<script>let a = 1;</script><p class={c}>{name}</p>" := by
    decide
  have second : withScript script' rest =
      "<script>\n  if (a < b) run();\n</script><p class={c}>{name}</p>" := by
    decide
  have drafts : (do
      let draft ← (Draft.behindScript script).runFrom rest
      let draft' ← (Draft.behindScript script').runFrom rest
      pure (alikeAll (Markup.document draft.markup) (Markup.document draft'.markup))).toOption =
        some true := by
    decide +kernel
  have evaluates : (do
      let page ← compile (withScript script rest) "page.zen" ⟨[]⟩
      let page' ← compile (withScript script' rest) "page.zen" ⟨[]⟩
      pure (page.lines, page'.lines)).toOption = some ([1, 1], [3, 3]) := by
    decide +kernel
  have stays : staysOpen script = true := by decide
  have stays' : staysOpen script' = true := by decide
  have concurs := compile_script rest "page.zen" ⟨[]⟩ stays stays' (by decide +kernel)
    fun draft draft' ok ok' => by
      rw [ok, ok'] at drafts
      exact Option.some.inj drafts
  rw [first, second] at concurs evaluates
  rcases concurs.error_or_ok with
    ⟨fault, fault', left, right⟩ | ⟨page, page', same, left, right⟩
  · rw [left] at evaluates
    cases evaluates
  · rw [left, right] at evaluates
    have lines := Option.some.inj evaluates
    exact ⟨page, page', left, right, same, congrArg Prod.fst lines, congrArg Prod.snd lines⟩

/-- If the rest of a page is made of chunks, then nothing of a script block before it is seen in the
markup of the page but whether it makes the page look like a whole document. -/
theorem compile_script_chunks {script script' : List Char} {chunks : List Chunk}
    (sound : chunks.all Chunk.isSound = true)
    (steady : (sourceOf chunks).all Markup.isSteady = true)
    (short : (sourceOf chunks).length < 2 ^ 32) (file : String) (library : Library)
    (stays : staysOpen script = true) (stays' : staysOpen script' = true)
    (whole : isFullDocument (scriptText script ++ sourceOf chunks) =
      isFullDocument (scriptText script' ++ sourceOf chunks)) :
    Concurs (fun page page' => page.html = page'.html)
      (compile (withScript script (sourceOf chunks)) file library)
      (compile (withScript script' (sourceOf chunks)) file library) := by
  have drafts := (Draft.behindScript_displaced script script').runFrom (sourceOf chunks)
  rw [← ofSource_withScript stays, ← ofSource_withScript stays'] at drafts
  rw [← toList_withScript, ← toList_withScript] at whole
  refine compile_displaced library (parse_displaced drafts whole ?_ ⟨rfl, rfl⟩)
  intro draft draft' ok ok'
  rw [toList_withScript] at ok ok'
  rw [Draft.markup_behindScript stays sound ok, Draft.markup_behindScript stays' sound ok']
  exact document_markupOf sound steady short _ _ 0

/-- A list with a handler and with code in a value and in an item. -/
example :
    let item : Chunk :=
      .opening "li".toList [⟨[' '], "on:click".toList, .braced "go".toList⟩] [] false
    let chunks : List Chunk :=
      [.opening "ul".toList
          [⟨[' '], "class".toList, .quoted [.text "a ".toList, .braced "b".toList]⟩] [] false,
        item, .text "Hi ".toList, .braced "name".toList, .closing "li".toList,
        .opening "br".toList [] [' '] true, .closing "ul".toList]
    sourceOf chunks =
        "<ul class=\"a \x7bb\x7d\"><li on:click=\x7bgo\x7d>Hi \x7bname\x7d</li><br /></ul>".toList ∧
      chunks.all Chunk.isSound = true := by
  decide +kernel

end Page
end ReactiveTemplate
