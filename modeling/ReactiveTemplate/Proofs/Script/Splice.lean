import Mathlib.Data.List.Sort
import ReactiveTemplate.Script.Substitution

/-!
# Putting replacements into a text

Replacements are put into the text from the last one to the first, so that the places of those still
to come stay what they were.  If none reaches into another, the outcome is the text read from left to
right, in which each stretch that is replaced gives way to its new text and everything in between is
kept.
-/

namespace ReactiveTemplate
namespace Script

/-- The rest of a text, from an index on, with the replacements put in from left to right. -/
def splice : Nat → List Replacement → List Char → List Char
  | _, [], text => text
  | index, edit :: rest, text =>
    text.take (edit.extent.start - index) ++ edit.text.toList ++
      splice edit.extent.stop rest (text.drop (edit.extent.stop - index))

/-- The stretches that are replaced follow each other between two indices, and none is empty. -/
structure Apart (edits : List Replacement) (start stop : Nat) : Prop where
  /-- None of them reaches into a later one. -/
  pairwise : edits.Pairwise fun first second => first.extent.stop ≤ second.extent.start
  /-- They are not empty. -/
  start_lt : ∀ edit ∈ edits, edit.extent.start < edit.extent.stop
  /-- They begin behind the first index. -/
  start_le : ∀ edit ∈ edits, start ≤ edit.extent.start
  /-- They end before the second one. -/
  stop_le : ∀ edit ∈ edits, edit.extent.stop ≤ stop

namespace Apart

variable {edits : List Replacement} {start stop : Nat}

theorem mono {start' stop' : Nat} (apart : Apart edits start stop) (start_le : start' ≤ start)
    (stop_le : stop ≤ stop') : Apart edits start' stop' :=
  ⟨apart.pairwise, apart.start_lt, fun edit mem => Nat.le_trans start_le (apart.start_le edit mem),
    fun edit mem => Nat.le_trans (apart.stop_le edit mem) stop_le⟩

/-- Another replacement may stand in front. -/
theorem cons {edit : Replacement} {rest : List Replacement} (start_le : start ≤ edit.extent.start)
    (start_lt : edit.extent.start < edit.extent.stop) (stop_le : edit.extent.stop ≤ stop)
    (apart : Apart rest edit.extent.stop stop) : Apart (edit :: rest) start stop := by
  refine ⟨List.pairwise_cons.mpr ⟨apart.start_le, apart.pairwise⟩, ?_, ?_, ?_⟩
  · exact List.forall_mem_cons.mpr ⟨start_lt, apart.start_lt⟩
  · refine List.forall_mem_cons.mpr ⟨start_le, fun own mem => ?_⟩
    have := apart.start_le own mem
    omega
  · exact List.forall_mem_cons.mpr ⟨stop_le, apart.stop_le⟩

/-- Behind the first replacement the others follow. -/
theorem tail {edit : Replacement} {rest : List Replacement}
    (apart : Apart (edit :: rest) start stop) : Apart rest edit.extent.stop stop :=
  ⟨apart.pairwise.of_cons, fun own mem => apart.start_lt own (List.mem_cons_of_mem _ mem),
    (List.pairwise_cons.mp apart.pairwise).1,
    fun own mem => apart.stop_le own (List.mem_cons_of_mem _ mem)⟩

/-- Replacements that begin at the same place are the same. -/
theorem eq_of_start (apart : Apart edits start stop) {one other : Replacement} (mem : one ∈ edits)
    (mem' : other ∈ edits) (le : one.extent.start ≤ other.extent.start)
    (ge : other.extent.start ≤ one.extent.start) : one = other := by
  induction edits generalizing start with
  | nil => cases mem
  | cons edit rest ih =>
    have later : ∀ own ∈ rest, edit.extent.start < own.extent.start := fun own mem =>
      Nat.lt_of_lt_of_le (apart.start_lt edit List.mem_cons_self) (apart.tail.start_le own mem)
    rcases List.mem_cons.mp mem with rfl | there <;> rcases List.mem_cons.mp mem' with rfl | there'
    · rfl
    · exact absurd (later other there') (Nat.not_lt.mpr ge)
    · exact absurd (later one there) (Nat.not_lt.mpr le)
    · exact ih apart.tail there there'

/-- Sorting brings replacements into the order from the last to the first. -/
theorem mergeSort_eq (apart : Apart edits start stop) {found : List Replacement}
    (perm : edits.Perm found) :
    (found.mergeSort fun a b => b.extent.start ≤ a.extent.start) = edits.reverse := by
  have sorted : (found.mergeSort fun a b => b.extent.start ≤ a.extent.start).Pairwise
      fun a b => b.extent.start ≤ a.extent.start := by
    refine (List.pairwise_mergeSort ?_ ?_ found).imp of_decide_eq_true
    · intro a b c one two
      exact decide_eq_true (Nat.le_trans (of_decide_eq_true two) (of_decide_eq_true one))
    · intro a b
      simpa using Nat.le_total b.extent.start a.extent.start
  have backwards : edits.reverse.Pairwise fun a b => b.extent.start ≤ a.extent.start := by
    rw [List.pairwise_reverse]
    refine apart.pairwise.imp_of_mem fun mem _ le => ?_
    exact Nat.le_trans (Nat.le_of_lt (apart.start_lt _ mem)) le
  have same := (List.mergeSort_perm found fun a b => b.extent.start ≤ a.extent.start).trans
    (perm.symm.trans (List.reverse_perm edits).symm)
  refine same.eq_of_pairwise ?_ sorted backwards
  intro one other mem mem' le ge
  exact apart.eq_of_start (perm.symm.subset (by simpa using mem)) (by simpa using mem') ge le

/-- Putting in the last replacement first is putting them in from left to right. -/
theorem foldr_apply {text : List Char} {index : Nat} (apart : Apart edits index text.length) :
    edits.foldr (fun edit text => edit.apply text) text =
      text.take index ++ splice index edits (text.drop index) := by
  induction edits generalizing index with
  | nil => rw [List.foldr_nil, splice, List.take_append_drop]
  | cons edit rest ih =>
    have start_le := apart.start_le edit List.mem_cons_self
    have start_lt := apart.start_lt edit List.mem_cons_self
    have stop_le := apart.stop_le edit List.mem_cons_self
    have length : (text.take edit.extent.stop).length = edit.extent.stop :=
      List.length_take_of_le stop_le
    have front : text.take edit.extent.start =
        text.take index ++ (text.drop index).take (edit.extent.start - index) := by
      rw [← List.take_add, Nat.add_sub_cancel' start_le]
    rw [List.foldr_cons, ih apart.tail, Replacement.apply, splice, List.drop_drop,
      Nat.add_sub_cancel' (Nat.le_trans start_le (Nat.le_of_lt start_lt)),
      List.take_append_of_le_length (by rw [length]; exact Nat.le_of_lt start_lt),
      List.take_take, Nat.min_eq_left (Nat.le_of_lt start_lt),
      List.drop_append_of_le_length (Nat.le_of_eq length.symm),
      List.drop_of_length_le (Nat.le_of_eq length), front]
    simp

end Apart

/-- A character in front of all replacements stays. -/
theorem splice_cons {edits : List Replacement} {index stop : Nat} {c : Char} {text : List Char}
    (apart : Apart edits (index + 1) stop) :
    splice index edits (c :: text) = c :: splice (index + 1) edits text := by
  cases edits with
  | nil => rfl
  | cons edit rest =>
    have start_le := apart.start_le edit List.mem_cons_self
    have start_lt := apart.start_lt edit List.mem_cons_self
    have start : edit.extent.start - index = edit.extent.start - (index + 1) + 1 := by omega
    have stop : edit.extent.stop - index = edit.extent.stop - (index + 1) + 1 := by omega
    rw [splice, splice, start, stop, List.take_succ_cons, List.drop_succ_cons]
    rfl

/-- A character behind all replacements stays. -/
theorem splice_concat {edits : List Replacement} {text : List Char} {index : Nat} {c : Char}
    (apart : Apart edits index (index + text.length)) :
    splice index edits (text ++ [c]) = splice index edits text ++ [c] := by
  induction edits generalizing index text with
  | nil => rfl
  | cons edit rest ih =>
    have start_le := apart.start_le edit List.mem_cons_self
    have start_lt := apart.start_lt edit List.mem_cons_self
    have stop_le := apart.stop_le edit List.mem_cons_self
    rw [splice, splice, List.take_append_of_le_length (by omega),
      List.drop_append_of_le_length (by omega), ih (apart.tail.mono (Nat.le_refl _) ?_)]
    · simp
    · rw [List.length_drop]
      omega

end Script
end ReactiveTemplate
