import ReactiveTemplate.Component.Forwarding
import ReactiveTemplate.Proofs.Code.Unwrapping

/-!
# Classes

What combined classes say.  Texts are joined into one text, which has the words of all of them in
order; where one of the classes is an expression, the whole is the code of an expression.
-/

namespace ReactiveTemplate

/-! ## Words -/

namespace Text

/-- The words of a text, where `started` has been read of the first one. -/
def wordsFrom (started : List Char) : List Char → List (List Char)
  | [] => if started = [] then [] else [started]
  | c :: rest =>
    if isBlank c then (if started = [] then [] else [started]) ++ wordsFrom [] rest
    else wordsFrom (started ++ [c]) rest

/-- The words of a text: the parts between blank characters. -/
def words (text : String) : List (List Char) := wordsFrom [] text.toList

variable {c : Char} {started first rest lead trail : List Char}

theorem wordsFrom_append (blank : isBlank c = true) :
    wordsFrom started (first ++ c :: rest) = wordsFrom started first ++ wordsFrom [] rest := by
  induction first generalizing started with
  | nil => rw [List.nil_append, wordsFrom, wordsFrom, if_pos blank]
  | cons d others induction =>
      rw [List.cons_append, wordsFrom, wordsFrom]
      split
      · rw [induction, List.append_assoc]
      · exact induction

theorem wordsFrom_blank (rest : List Char) (blank : lead.all isBlank = true) :
    wordsFrom [] (lead ++ rest) = wordsFrom [] rest := by
  induction lead with
  | nil => rfl
  | cons c others induction =>
      rw [List.all_cons, Bool.and_eq_true] at blank
      rw [List.cons_append, wordsFrom, if_pos blank.1]
      exact induction blank.2

theorem wordsFrom_append_blank (blank : trail.all isBlank = true) :
    wordsFrom started (first ++ trail) = wordsFrom started first := by
  cases trail with
  | nil => rw [List.append_nil]
  | cons c others =>
      rw [List.all_cons, Bool.and_eq_true] at blank
      have rest : wordsFrom [] others = [] := by
        have none := wordsFrom_blank [] blank.2
        rwa [List.append_nil] at none
      rw [wordsFrom_append blank.1, rest, List.append_nil]

/-- Blank characters at the ends are no part of a word. -/
theorem words_trimmed (text : String) : words (trimmed text) = words text := by
  obtain ⟨lead, trail, same, before, behind⟩ := exists_trim text.toList
  rw [words, words, same, wordsFrom_append_blank behind, wordsFrom_blank _ before, trimmed,
    String.toList_ofList]

theorem words_append (first second : String) :
    words (first ++ " " ++ second) = words first ++ words second := by
  have blank : isBlank ' ' = true := by decide
  have shape : (first ++ " " ++ second).toList = first.toList ++ ' ' :: second.toList := by simp
  rw [words, shape, wordsFrom_append blank, words, words]

end Text

namespace Component

/-! ## Wordings -/

/-- What a value says: a text, or code. -/
inductive Wording where
  /-- Fixed text. -/
  | fixed (text : String)
  /-- The code of an expression. -/
  | dynamic (code : String)
  deriving DecidableEq, Repr

namespace Wording

/-- The wording of a value, without the id under which its code is registered. -/
def ofValue : AttributeValue → Wording
  | .fixed text => .fixed text
  | .dynamic e => .dynamic e.code

/-- A wording as code. -/
def code : Wording → String
  | .fixed text => Text.quoted text
  | .dynamic code => "(" ++ code ++ ")"

/-- One class after another: texts are joined, and of anything else that is there a list is made. -/
def join : Wording → Wording → Wording
  | .fixed first, .fixed second => .fixed (Text.trimmed (first ++ " " ++ second))
  | first, second =>
    .dynamic ("[" ++ first.code ++ ", " ++ second.code ++ "].filter(Boolean).join(\" \")")

/-- All classes in order. -/
def joinAll? : List Wording → Option Wording
  | [] => none
  | first :: rest => some (rest.foldl join first)

/-- The wording is a text. -/
def isFixed : Wording → Bool
  | fixed _ => true
  | dynamic _ => false

/-- The words of a text; code has none. -/
def words : Wording → List (List Char)
  | fixed text => Text.words text
  | dynamic _ => []

theorem isFixed_join (first second : Wording) :
    (first.join second).isFixed = (first.isFixed && second.isFixed) := by
  cases first <;> cases second <;> rfl

/-- Classes that are texts become a text with the words of all of them, in order. -/
theorem foldl_join_fixed (first : Wording) (rest : List Wording)
    (fixed : ∀ wording ∈ first :: rest, wording.isFixed = true) :
    (rest.foldl join first).isFixed = true ∧
      (rest.foldl join first).words = (first :: rest).flatMap words := by
  induction rest generalizing first with
  | nil => exact ⟨fixed first List.mem_cons_self, (List.append_nil _).symm⟩
  | cons second others induction =>
      rw [List.forall_mem_cons, List.forall_mem_cons] at fixed
      obtain ⟨one, two, fixed⟩ := fixed
      have both : (first.join second).isFixed = true := by
        rw [isFixed_join, one, two, Bool.and_self]
      have joined : (first.join second).words = first.words ++ second.words := by
        cases first with
        | dynamic code => cases one
        | fixed text =>
            cases second with
            | dynamic code => cases two
            | fixed text' => exact (Text.words_trimmed _).trans (Text.words_append text text')
      obtain ⟨whole, all⟩ := induction (first.join second) (List.forall_mem_cons.mpr ⟨both, fixed⟩)
      refine ⟨whole, all.trans ?_⟩
      rw [List.flatMap_cons, List.flatMap_cons, List.flatMap_cons, joined, List.append_assoc]

/-- One class that is no text makes the whole an expression. -/
theorem foldl_join_dynamic (first : Wording) (rest : List Wording)
    (dynamic : ∃ wording ∈ first :: rest, wording.isFixed = false) :
    (rest.foldl join first).isFixed = false := by
  induction rest generalizing first with
  | nil =>
      obtain ⟨wording, member, other⟩ := dynamic
      rwa [← List.mem_singleton.mp member]
  | cons second others induction =>
      refine induction (first.join second) ?_
      obtain ⟨wording, member, other⟩ := dynamic
      rw [List.mem_cons, List.mem_cons] at member
      rcases member with rfl | rfl | later
      · exact ⟨_, List.mem_cons_self, by rw [isFixed_join, other, Bool.false_and]⟩
      · exact ⟨_, List.mem_cons_self, by rw [isFixed_join, other, Bool.and_false]⟩
      · exact ⟨wording, List.mem_cons_of_mem _ later, other⟩

end Wording

end Component
end ReactiveTemplate
