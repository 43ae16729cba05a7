import ReactiveTemplate.Proofs.Fragment.Roundtrip
import ReactiveTemplate.Proofs.Template.Usage

/-!
# Component usages inside code

A usage with plain text inside is read inside code as it is read outside, unless its name is that of
an element without children but for its case.  Inside code such a usage ends with its opening tag,
so that its text and its closing tag are left over as text.
-/

namespace ReactiveTemplate
namespace Fragment

open Template (usageText)

variable {name content : List Char}

theorem usageText_solid (solid : Markup.isVoidElement (String.ofList name) = false) :
    usageText name content = printElement (String.ofList name) [] content := by
  simp [usageText, printElement, printBody, printHeader, solid]

theorem usageText_void (void : Markup.isVoidElement (String.ofList name) = true) :
    usageText name content =
      printElement (String.ofList name) [] [] ++ (content ++ Code.closingTag name) := by
  simp [usageText, printElement, printBody, printHeader, void]

theorem passes_plain (plain : isPlain content = true) :
    Code.Passes { depth := 1 } content { depth := 1 } := by
  obtain ⟨angle, brace, -, -⟩ := not_mem_of_isPlain plain
  exact .plain angle brace

theorem isPrintableAttribute_none : ([] : List Attribute).all isPrintableAttribute = true := rfl

/-- Where a usage with plain text inside ends. -/
theorem markupEnd?_usage (named : Code.isTagName name = true) (plain : isPlain content = true) :
    Code.markupEnd? (usageText name content) 0 =
      some (if Markup.isVoidElement (String.ofList name) then name.length + 2
        else (usageText name content).length) := by
  have named' : Code.isTagName (String.ofList name).toList = true := by
    rwa [String.toList_ofList]
  rw [Code.markupEnd?, List.drop_zero]
  cases void : Markup.isVoidElement (String.ofList name) with
  | true =>
      have ends := ends_printElement named' isPrintableAttribute_none (.nil _)
        (content ++ Code.closingTag name)
      have size : (printElement (String.ofList name) [] []).length = name.length + 2 := by
        simp [printElement, printBody, printHeader, void]
      rw [usageText_void void, ends, size, if_pos rfl, Option.map_some, Nat.zero_add]
  | false =>
      have ends := ends_printElement named' isPrintableAttribute_none (passes_plain plain) []
      rw [List.append_nil] at ends
      rw [usageText_solid void, ends, if_neg Bool.false_ne_true, Option.map_some, Nat.zero_add]

theorem isPlain_of_isTagNamePart (named : name.all Code.isTagNamePart = true) :
    isPlain name = true := by
  rw [isPlain, List.all_eq_true]
  intro c member
  have part := List.all_eq_true.mp named c member
  have other : c ≠ '<' ∧ c ≠ '{' ∧ c ≠ '&' ∧ c ≠ '\n' := by
    refine ⟨?_, ?_, ?_, ?_⟩ <;>
    · rintro rfl
      cases part
  simp [other]

/-- The text and the closing tag that are left over behind an opening tag. -/
theorem readsAs_leftover (plain : isPlain content = true)
    (named : name.all Code.isTagNamePart = true) (scope : Option Scope) :
    ReadsAs scope (content ++ Code.closingTag name)
      [.text (String.ofList (content ++ Code.closingTag name)) {}] := by
  have inside := isPlain_of_isTagNamePart named
  have tail : isPlain ('/' :: (name ++ ['>'])) = true := by
    rw [isPlain] at inside ⊢
    simp [inside]
  obtain ⟨tail_lead, tail_after⟩ := plainLead_append tail []
  rw [List.append_nil, plainLead, List.append_nil] at tail_lead
  rw [List.append_nil, afterLead] at tail_after
  -- a slash behind the angle bracket starts no element
  have slash : startsElement ('<' :: '/' :: (name ++ ['>'])) = false := rfl
  obtain ⟨lead_eq, after_eq⟩ := plainLead_append plain (Code.closingTag name)
  rw [Code.closingTag, plainLead, slash, if_neg (by decide), tail_lead] at lead_eq
  rw [Code.closingTag, afterLead, slash, if_neg (by decide), tail_after] at after_eq
  obtain ⟨-, -, literal, line⟩ := not_mem_of_isPlain plain
  obtain ⟨-, -, literal', line'⟩ := not_mem_of_isPlain inside
  have reads := readsAs_lead lead_eq after_eq (by simp [literal, literal'])
    (by simp [line, line']) scope
  rw [plainNodes, if_neg (by simp)] at reads
  exact reads

/-- What a usage with plain text inside is read as. -/
theorem readsAs_usage (named : Code.isTagName name = true)
    (usage : Markup.isComponentTag (String.ofList name) = true) (plain : isPlain content = true)
    (scope : Option Scope) :
    ReadsAs scope (usageText name content)
      (if Markup.isVoidElement (String.ofList name) then
        [.component (String.ofList name) [] [] {},
          .text (String.ofList (content ++ Code.closingTag name)) {}]
      else [.component (String.ofList name) [] (plainNodes content) {}]) := by
  have named' : Code.isTagName (String.ofList name).toList = true := by
    rwa [String.toList_ofList]
  have empty : isPlain [] = true := rfl
  have node (children : List Node) : elementNode (String.ofList name) [] children {} =
      .component (String.ofList name) [] children {} := by
    rw [elementNode, if_pos usage]
  cases void : Markup.isVoidElement (String.ofList name) with
  | true =>
      have leftover := readsAs_leftover plain (Code.all_isTagNamePart named) scope
      have reads := ReadsAs.element {} empty named' isPrintableAttribute_none (.nil _)
        (fun _ => rfl) (readsAs_plain empty scope) leftover
      rw [node] at reads
      rw [usageText_void void]
      exact reads
  | false =>
      have solid : Markup.isVoidElement (String.ofList name) = true → content = [] := by
        simp [void]
      have reads := ReadsAs.element {} empty named' isPrintableAttribute_none (passes_plain plain)
        solid (readsAs_plain plain scope) (readsAs_plain empty scope)
      rw [node] at reads
      rw [usageText_solid void, ← List.append_nil (printElement (String.ofList name) [] content)]
      exact reads

/-- A usage with plain text inside is read inside code as it is read as a template, unless its name
is that of an element without children but for its case: then it ends with its opening tag. -/
theorem readChildren_usage (named : Code.isTagName name = true)
    (usage : Markup.isComponentTag (String.ofList name) = true) (plain : isPlain content = true)
    (scope : Option Scope) (closed : Bool) (registry : Registry) (location : Location)
    (file : String) :
    (Code.markupEnd? (usageText name content) 0 = some (usageText name content).length ↔
        Markup.isVoidElement (String.ofList name) = false) ∧
      (∃ read after, readChildren scope closed registry location (usageText name content) =
          .ok (read, after) ∧
        Node.Alike SameCode
          (if Markup.isVoidElement (String.ofList name) then
            [.component (String.ofList name) [] [] {},
              .text (String.ofList (content ++ Code.closingTag name)) {}]
          else [.component (String.ofList name) [] (plainNodes content) {}]) read) ∧
      (Text.asciiLowercase (String.ofList name) ≠ "script" →
        Text.asciiLowercase (String.ofList name) ≠ "style" →
        Template.isFullDocument (usageText name content) = false →
        '\r' ∉ content → '\x00' ∉ content →
        ∃ template, Template.parse (String.ofList (usageText name content)) file registry =
            .ok (template, registry) ∧
          template.nodes = [.component (String.ofList name) [] (plainNodes content) {}]) := by
  refine ⟨?_, readsAs_usage named usage plain scope closed registry location, ?_⟩
  · rw [markupEnd?_usage named plain]
    cases void : Markup.isVoidElement (String.ofList name) with
    | true =>
        have longer : name.length + 2 ≠ (usageText name content).length := by
          simp only [usageText, Code.closingTag, List.length_cons, List.length_append]
          omega
        simp [longer]
    | false => simp
  · intro script style rootless carriage null
    obtain ⟨angle, brace, literal, line⟩ := not_mem_of_isPlain plain
    exact ⟨_, Template.parse_usage named usage script style rootless angle brace literal line
      carriage null file registry, rfl⟩

/-- A usage whose name is that of an element without children but for its case. -/
theorem readChildren_usage_input :
    Code.markupEnd? "<Input>x</Input>".toList 0 ≠ some "<Input>x</Input>".toList.length ∧
      (∃ read after, readChildren none false {} {} "<Input>x</Input>".toList = .ok (read, after) ∧
        Node.Alike SameCode [.component "Input" [] [] {}, .text "x</Input>" {}] read) ∧
      ∃ template, Template.parse "<Input>x</Input>" "page.zen" {} = .ok (template, {}) ∧
        template.nodes = [.component "Input" [] [.text "x" {}] {}] := by
  have named : Code.isTagName ['I', 'n', 'p', 'u', 't'] = true := rfl
  have usage : Markup.isComponentTag (String.ofList ['I', 'n', 'p', 'u', 't']) = true := by
    decide +kernel
  have void : Markup.isVoidElement (String.ofList ['I', 'n', 'p', 'u', 't']) = true := by
    decide +kernel
  have plain : isPlain ['x'] = true := rfl
  obtain ⟨ends, reads, outside⟩ :=
    readChildren_usage named usage plain none false {} {} "page.zen"
  rw [void] at ends reads
  have text : usageText ['I', 'n', 'p', 'u', 't'] ['x'] = "<Input>x</Input>".toList := by
    decide +kernel
  have fragment : Template.isFullDocument (usageText ['I', 'n', 'p', 'u', 't'] ['x']) = false := by
    decide +kernel
  have parsed := outside (by decide +kernel) (by decide +kernel) fragment (by decide) (by decide)
  rw [text] at ends reads parsed
  rw [String.ofList_toList] at parsed
  refine ⟨?_, reads, parsed⟩
  exact fun whole => nomatch ends.mp whole

end Fragment
end ReactiveTemplate
