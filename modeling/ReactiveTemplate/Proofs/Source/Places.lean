import ReactiveTemplate.Proofs.Code.Derivation
import ReactiveTemplate.Source.Location

/-!
# Places in a text

A part of a text stands at a place: where the text starts, moved on over the characters in front of
the part.  A part of a part stands in the whole text at the same place.
-/

namespace ReactiveTemplate

/-- The text is part of the code; it starts at the place if the code starts at `start`. -/
def Stands (code : List Char) (start : Location) (text : List Char) (place : Location) : Prop :=
  ∃ before, before ++ text <+: code ∧ place = start.advance before

namespace Stands

variable {code part text text' lead : List Char} {start place place' : Location}

theorem self (code : List Char) (start : Location) : Stands code start code start :=
  ⟨[], List.prefix_refl code, rfl⟩

theorem trans (outer : Stands code start part place) (inner : Stands part place text place') :
    Stands code start text place' := by
  obtain ⟨before, starts, rfl⟩ := outer
  obtain ⟨between, begins, rfl⟩ := inner
  refine ⟨before ++ between, ?_, (Location.advance_append start before between).symm⟩
  rw [List.append_assoc]
  exact ((List.prefix_append_right_inj before).mpr begins).trans starts

theorem ofList (stands : Stands code start text place) :
    Stands code start (String.ofList text).toList place := by
  rwa [String.toList_ofList]

theorem starts (stands : Stands code start text place) (begins : text' <+: text) :
    Stands code start text' place :=
  stands.trans ⟨[], begins, rfl⟩

/-- What follows a part is further on by the characters of the part. -/
theorem behind (stands : Stands code start (lead ++ text) place) :
    Stands code start text (place.advance lead) :=
  stands.trans ⟨lead, List.prefix_refl _, rfl⟩

theorem drop (stands : Stands code start text place) (count : Nat) :
    Stands code start (text.drop count) (place.advance (text.take count)) := by
  rw [← List.take_append_drop count text] at stands
  exact stands.behind

theorem tail {c : Char} (stands : Stands code start (c :: text) place) :
    Stands code start text (place.next c) :=
  stands.drop 1

/-- Characters that pass a test are read, and then the rest. -/
theorem skip (stands : Stands code start text place) (test : Char → Bool) :
    Stands code start (text.drop (text.takeWhile test).length)
      (place.advance (text.takeWhile test)) := by
  have rest := stands.drop (text.takeWhile test).length
  rwa [← List.prefix_iff_eq_take.mp (List.takeWhile_prefix test)] at rest

theorem slice (stands : Stands code start text place) (first last : Nat) :
    Stands code start (Text.slice text first last) (place.advance (text.take first)) :=
  (stands.drop first).starts (Text.slice_isPrefix text first last)

theorem trim (stands : Stands code start text place) :
    Stands code start (Text.trim text) (place.advance (text.take (Text.blankLead text))) :=
  (stands.drop _).starts (Text.trim_isPrefix text)

end Stands
end ReactiveTemplate
