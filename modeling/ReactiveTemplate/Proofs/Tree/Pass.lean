import Mathlib.Data.List.Nodup
import Mathlib.Data.List.Perm.Subperm
import Mathlib.Order.Defs.Unbundled
import ReactiveTemplate.Proofs.Tree.Registry

/-!
# Passes

A part of a tree and a registry agree when the ids in that part are distinct and each is registered
with the code and the scope of its site.  A pass takes such a part over, together with the right to
change and remove its ids, and hands back another part that agrees with the registry it leaves.
What it hands back are expressions it took over, changed at most as the pass allows, or ids that had
never been issued, and all other entries stay as they were.  Passes compose one after the other and
side by side, so that the agreement of a whole tree follows from what is done at each site.
-/

namespace ReactiveTemplate

/-! ## Relations between entries -/

/-- Any entry may take the place of any other. -/
def Anything (_ _ : Expression) : Prop := True

/-- The later scope has all variables of the earlier one, and the same loop if that had one. -/
def Scope.Grown (earlier later : Option Scope) : Prop :=
  Scope.names earlier ⊆ Scope.names later ∧
    ∀ loop, earlier.bind Scope.loop = some loop → later.bind Scope.loop = some loop

/-- The entry is as before but for its scope, which may have grown. -/
def Grown (former entry : Expression) : Prop :=
  entry.code = former.code ∧ entry.location = former.location ∧
    Scope.Grown former.scope entry.scope

instance : IsPreorder Expression Anything where
  refl _ := trivial
  trans _ _ _ _ _ := trivial

theorem Scope.Grown.refl (scope : Option Scope) : Scope.Grown scope scope :=
  ⟨fun _ member => member, fun _ same => same⟩

theorem Scope.Grown.trans {first second third : Option Scope} (left : Scope.Grown first second)
    (right : Scope.Grown second third) : Scope.Grown first third :=
  ⟨fun _ member => right.1 (left.1 member), fun loop same => right.2 loop (left.2 loop same)⟩

instance : IsPreorder Expression Grown where
  refl e := ⟨rfl, rfl, .refl e.scope⟩
  trans _ _ _ left right :=
    ⟨right.1.trans left.1, right.2.1.trans left.2.1, left.2.2.trans right.2.2⟩

namespace Registry

/-! ## Agreement -/

/-- The id of the expression is registered with its code and its scope. -/
def Holds (registry : Registry) (e : Expression) : Prop :=
  ∃ entry, registry.get? e.id = some entry ∧ entry.code = e.code ∧ entry.scope = e.scope

/-- The registry is reachable, and agrees with distinct expressions. -/
structure Keeps (registry : Registry) (es : List Expression) : Prop where
  /-- The registry is reachable. -/
  reachable : registry.Reachable
  /-- No id occurs twice. -/
  distinct : (es.map Expression.id).Nodup
  /-- Every expression is registered. -/
  held : ∀ e ∈ es, registry.Holds e

variable {registry before middle after : Registry} {es fs old new : List Expression}

theorem Keeps.issued (keeps : registry.Keeps es) {id : String}
    (member : id ∈ es.map Expression.id) : registry.Issued id := by
  obtain ⟨e, listed, rfl⟩ := List.mem_map.mp member
  obtain ⟨entry, found, -⟩ := keeps.held e listed
  exact keeps.reachable.issued found

theorem Keeps.nil (reachable : registry.Reachable) : registry.Keeps [] :=
  ⟨reachable, List.nodup_nil, by simp⟩

theorem Keeps.subperm (keeps : registry.Keeps es) (part : fs.Subperm es) : registry.Keeps fs := by
  refine ⟨keeps.reachable, ?_, fun e member => keeps.held e (part.subset member)⟩
  obtain ⟨gs, same, sublist⟩ := part
  exact (same.map Expression.id).nodup_iff.mp (keeps.distinct.sublist (sublist.map Expression.id))

theorem Keeps.perm (keeps : registry.Keeps es) (same : es.Perm fs) : registry.Keeps fs :=
  keeps.subperm same.symm.subperm

theorem Keeps.left (keeps : registry.Keeps (es ++ fs)) : registry.Keeps es :=
  keeps.subperm (List.sublist_append_left es fs).subperm

theorem Keeps.right (keeps : registry.Keeps (es ++ fs)) : registry.Keeps fs :=
  keeps.subperm (List.sublist_append_right es fs).subperm

theorem Keeps.disjoint (keeps : registry.Keeps (es ++ fs)) :
    (es.map Expression.id).Disjoint (fs.map Expression.id) := by
  have distinct := keeps.distinct
  rw [List.map_append] at distinct
  exact List.disjoint_of_nodup_append distinct

theorem Keeps.append (left : registry.Keeps es) (right : registry.Keeps fs)
    (disjoint : (es.map Expression.id).Disjoint (fs.map Expression.id)) :
    registry.Keeps (es ++ fs) := by
  refine ⟨left.reachable, ?_, ?_⟩
  · rw [List.map_append]
    exact left.distinct.append right.distinct disjoint
  · intro e member
    rcases List.mem_append.mp member with member | member
    · exact left.held e member
    · exact right.held e member

theorem Holds.congr {e : Expression} (held : before.Holds e)
    (same : after.get? e.id = before.get? e.id) : after.Holds e := by
  obtain ⟨entry, found, agrees⟩ := held
  exact ⟨entry, same.trans found, agrees⟩

end Registry

/-! ## Passes -/

/-- A pass takes over the expressions `old` and hands back the expressions `new`; `allowed` relates
an entry, and the expression of a site, to what the pass may make of it. -/
structure Pass (allowed : Expression → Expression → Prop) (before : Registry)
    (old : List Expression) (after : Registry) (new : List Expression) : Prop where
  /-- No id is issued again. -/
  next_le : before.next ≤ after.next
  /-- What is handed back agrees with the registry. -/
  keeps : after.Keeps new
  /-- What is handed back was taken over or is new. -/
  origin : ∀ e ∈ new,
    (∃ former ∈ old, former.id = e.id ∧ allowed former e) ∨ ¬ before.Issued e.id
  /-- Entries that were not taken over stay as they were. -/
  frame : ∀ id, before.Issued id → id ∉ old.map Expression.id → after.get? id = before.get? id
  /-- Entries change only as allowed, and none comes back. -/
  allows : ∀ id entry, before.Issued id → after.get? id = some entry →
    ∃ former, before.get? id = some former ∧ allowed former entry

namespace Pass

open Registry

variable {allowed : Expression → Expression → Prop}
variable {before middle after : Registry} {old fresh new es fs es' fs' : List Expression}

theorem allows_of_frame [IsPreorder Expression allowed] {id : String} {entry : Expression}
    (same : after.get? id = before.get? id) (found : after.get? id = some entry) :
    ∃ former, before.get? id = some former ∧ allowed former entry :=
  ⟨entry, same.symm.trans found, refl_of allowed entry⟩

theorem refl [IsPreorder Expression allowed] (keeps : before.Keeps es) :
    Pass allowed before es before es where
  next_le := Nat.le_refl _
  keeps := keeps
  origin e member := .inl ⟨e, member, rfl, refl_of allowed e⟩
  frame _ _ _ := rfl
  allows _ _ _ found := allows_of_frame rfl found

/-- A pass never touches ids that neither it took over nor were new to it. -/
theorem notMem_new (pass : Pass allowed before old after new) {id : String}
    (issued : before.Issued id) (absent : id ∉ old.map Expression.id) :
    id ∉ new.map Expression.id := by
  intro member
  obtain ⟨e, listed, rfl⟩ := List.mem_map.mp member
  rcases pass.origin e listed with ⟨former, taken, same, -⟩ | unissued
  · exact absent (same ▸ List.mem_map_of_mem taken)
  · exact unissued issued

/-- One pass after the other. -/
theorem trans [IsPreorder Expression allowed] (first : Pass allowed before old middle fresh)
    (second : Pass allowed middle fresh after new) : Pass allowed before old after new where
  next_le := Nat.le_trans first.next_le second.next_le
  keeps := second.keeps
  origin e member := by
    rcases second.origin e member with ⟨halfway, taken, same, step₂⟩ | unissued
    · rw [← same]
      refine (first.origin halfway taken).imp_left ?_
      rintro ⟨former, listed, same, step₁⟩
      exact ⟨former, listed, same, trans_of allowed step₁ step₂⟩
    · exact .inr fun issued => unissued (issued.mono first.next_le)
  frame id issued absent := by
    rw [second.frame id (issued.mono first.next_le) (first.notMem_new issued absent)]
    exact first.frame id issued absent
  allows id entry issued found := by
    obtain ⟨halfway, found, step₂⟩ :=
      second.allows id entry (issued.mono first.next_le) found
    obtain ⟨former, found, step₁⟩ := first.allows id halfway issued found
    exact ⟨former, found, trans_of allowed step₁ step₂⟩

/-- A pass may be given more than it uses. -/
theorem of_subset (pass : Pass allowed before es after new) (part : es ⊆ old) :
    Pass allowed before old after new where
  next_le := pass.next_le
  keeps := pass.keeps
  origin e member := (pass.origin e member).imp_left
    fun ⟨former, taken, step⟩ => ⟨former, part taken, step⟩
  frame id issued absent :=
    pass.frame id issued fun taken => absent (List.map_subset _ part taken)
  allows := pass.allows

/-- A part of what a pass hands back may be dropped. -/
theorem drop (pass : Pass allowed before old after new) (part : es.Subperm new) :
    Pass allowed before old after es where
  next_le := pass.next_le
  keeps := pass.keeps.subperm part
  origin e member := pass.origin e (part.subset member)
  frame := pass.frame
  allows := pass.allows

/-- What a pass hands back comes in any order. -/
theorem perm (pass : Pass allowed before old after new) (same : new.Perm es) :
    Pass allowed before old after es :=
  pass.drop same.symm.subperm

/-- Expressions that a pass does not take over still agree with the registry. -/
theorem keeps_other (pass : Pass allowed before old after new) (keeps : before.Keeps es)
    (disjoint : (old.map Expression.id).Disjoint (es.map Expression.id)) : after.Keeps es where
  reachable := pass.keeps.reachable
  distinct := keeps.distinct
  held e member := by
    have listed : e.id ∈ es.map Expression.id := List.mem_map_of_mem member
    exact (keeps.held e member).congr
      (pass.frame e.id (keeps.issued listed) fun taken => disjoint taken listed)

/-- What a pass hands back is apart from what it did not take over. -/
theorem disjoint_new (pass : Pass allowed before old after new) (keeps : before.Keeps es)
    (disjoint : (old.map Expression.id).Disjoint (es.map Expression.id)) :
    (new.map Expression.id).Disjoint (es.map Expression.id) := fun _ listed member =>
  pass.notMem_new (keeps.issued member) (fun taken => disjoint taken member) listed

/-- A pass beside expressions that it leaves alone, on their left. -/
theorem beside_left [IsPreorder Expression allowed] (pass : Pass allowed before old after new)
    (keeps : before.Keeps (old ++ es)) : Pass allowed before (old ++ es) after (new ++ es) where
  next_le := pass.next_le
  keeps := pass.keeps.append (pass.keeps_other keeps.right keeps.disjoint)
    (pass.disjoint_new keeps.right keeps.disjoint)
  origin e member := by
    rcases List.mem_append.mp member with member | member
    · exact (pass.origin e member).imp_left
        fun ⟨former, taken, step⟩ => ⟨former, List.mem_append_left es taken, step⟩
    · exact .inl ⟨e, List.mem_append_right old member, rfl, refl_of allowed e⟩
  frame id issued absent := by
    rw [List.map_append, List.mem_append, not_or] at absent
    exact pass.frame id issued absent.1
  allows := pass.allows

/-- A pass beside expressions that it leaves alone, on their right. -/
theorem beside_right [IsPreorder Expression allowed] (pass : Pass allowed before old after new)
    (keeps : before.Keeps (es ++ old)) : Pass allowed before (es ++ old) after (es ++ new) := by
  have swapped := pass.beside_left (keeps.perm List.perm_append_comm)
  exact (swapped.perm List.perm_append_comm).of_subset List.perm_append_comm.subset

/-- Two passes side by side, the left one first. -/
theorem append [IsPreorder Expression allowed] (keeps : before.Keeps (es ++ fs))
    (left : Pass allowed before es middle es')
    (right : middle.Keeps fs → Pass allowed middle fs after fs') :
    Pass allowed before (es ++ fs) after (es' ++ fs') := by
  have first := left.beside_left keeps
  exact first.trans ((right first.keeps.right).beside_right first.keeps)

/-- New expressions before those of the rest. -/
theorem append_nil [IsPreorder Expression allowed] (left : Pass allowed before [] middle es')
    (right : Pass allowed middle [] after fs') : Pass allowed before [] after (es' ++ fs') := by
  have keeps : middle.Keeps (es' ++ []) := by simpa using left.keeps
  have second : Pass allowed middle es' after (es' ++ fs') := by
    simpa using right.beside_right keeps
  exact left.trans second

/-- A pass after which nothing it took over is left has changed no entry. -/
theorem of_gone [IsPreorder Expression allowed] (pass : Pass Anything before old after new)
    (gone : ∀ id ∈ old.map Expression.id, after.get? id = none) :
    Pass allowed before old after new where
  next_le := pass.next_le
  keeps := pass.keeps
  origin e member := by
    rcases pass.origin e member with ⟨former, taken, same, -⟩ | unissued
    · obtain ⟨entry, found, -⟩ := pass.keeps.held e member
      rw [gone e.id (same ▸ List.mem_map_of_mem taken)] at found
      cases found
    · exact .inr unissued
  frame := pass.frame
  allows id entry issued found := by
    by_cases taken : id ∈ old.map Expression.id
    · rw [gone id taken] at found
      cases found
    · exact allows_of_frame (pass.frame id issued taken) found

/-- Only new ids: every entry that was there is as before. -/
theorem of_nil [IsPreorder Expression allowed] (pass : Pass Anything before [] after new) :
    Pass allowed before [] after new :=
  pass.of_gone (by simp)

/-- An entry that is gone stays gone. -/
theorem stays_gone (pass : Pass allowed before old after new) {id : String}
    (issued : before.Issued id) (gone : before.get? id = none) : after.get? id = none := by
  rw [Option.eq_none_iff_forall_ne_some]
  intro entry found
  obtain ⟨former, held, -⟩ := pass.allows id entry issued found
  rw [gone] at held
  cases held

/-! ## Single operations -/

/-- Registering code hands back one new expression. -/
theorem register [IsPreorder Expression allowed] (reachable : before.Reachable)
    (kind code : String) (location place : Location) (scope : Option Scope) :
    Pass allowed before [] (before.register kind code location scope).2
      [⟨(before.register kind code location scope).1, code, place, scope⟩] where
  next_le := Nat.le_succ _
  keeps :=
    { reachable := reachable.register kind code location scope
      distinct := by simp
      held := by
        intro e member
        obtain rfl := List.mem_singleton.mp member
        exact ⟨_, get?_register_self reachable kind code location scope, rfl, rfl⟩ }
  origin e member := by
    obtain rfl := List.mem_singleton.mp member
    exact .inr (before.not_issued_next kind)
  frame id issued _ := by
    refine get?_register_of_ne ?_
    rintro rfl
    exact before.not_issued_next kind issued
  allows id entry issued found := by
    refine allows_of_frame (get?_register_of_ne ?_) found
    rintro rfl
    exact before.not_issued_next kind issued

/-- Removing ids of what has been taken over hands back nothing. -/
theorem removeAll [IsPreorder Expression allowed] (reachable : before.Reachable)
    {ids : List String} (taken : ids ⊆ old.map Expression.id) :
    Pass allowed before old (before.removeAll ids) [] where
  next_le := by simp
  keeps := .nil (reachable.removeAll ids)
  origin := by simp
  frame id _ absent := get?_removeAll_of_notMem fun member => absent (taken member)
  allows id entry _ found := by
    by_cases member : id ∈ ids
    · rw [get?_removeAll_of_mem member] at found
      cases found
    · exact allows_of_frame (get?_removeAll_of_notMem member) found

/-- Changing the entry of an expression along with the expression. -/
theorem modify [IsPreorder Expression allowed] {e e' : Expression}
    {change : Expression → Expression} (keeps : before.Keeps [e])
    (reachable : (before.modify e.id change).Reachable)
    (keeps_id : ∀ entry, (change entry).id = entry.id) (same_id : e'.id = e.id)
    (site : allowed e e')
    (agrees : ∀ entry, entry.code = e.code → entry.scope = e.scope →
      (change entry).code = e'.code ∧ (change entry).scope = e'.scope ∧
        allowed entry (change entry)) :
    Pass allowed before [e] (before.modify e.id change) [e'] where
  next_le := Nat.le_refl _
  keeps :=
    { reachable
      distinct := by simp
      held := by
        intro e'' member
        obtain rfl := List.mem_singleton.mp member
        obtain ⟨entry, found, code, scope⟩ := keeps.held e (List.mem_singleton_self e)
        obtain ⟨code, scope, -⟩ := agrees entry code scope
        refine ⟨change entry, ?_, code, scope⟩
        rw [same_id, get?_modify_self keeps_id, found, Option.map_some] }
  origin e'' member := by
    obtain rfl := List.mem_singleton.mp member
    exact .inl ⟨e, List.mem_singleton_self e, same_id.symm, site⟩
  frame id _ absent := get?_modify_of_ne keeps_id (by simpa using absent)
  allows id entry' _ found := by
    by_cases own : id = e.id
    · subst own
      obtain ⟨entry, held, code, scope⟩ := keeps.held e (List.mem_singleton_self e)
      rw [get?_modify_self keeps_id, held, Option.map_some, Option.some_inj] at found
      exact ⟨entry, held, found ▸ (agrees entry code scope).2.2⟩
    · exact allows_of_frame (get?_modify_of_ne keeps_id own) found

end Pass
end ReactiveTemplate
