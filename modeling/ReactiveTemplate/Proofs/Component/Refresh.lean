import ReactiveTemplate.Proofs.Component.Cache

/-!
# What a refresh counts

An update of a cache adds an entry, replaces one or takes one away, and the counts of a refresh say
how often a definition has been read and how often it could not be.  So the entries after a refresh
are those that were reused and those that were read.  All that is left to read is what is no
definition: another refresh fails there again, and leaves the cache as it is.
-/

namespace ReactiveTemplate
namespace Component

open Files (parts)

namespace Cache

variable {cache : Cache} {state : Cache × RefreshCounts} {path : String} {stale : Stale}
  {stales : List Stale}

/-- The cache has an entry for what has to be read. -/
def knows (cache : Cache) (stale : Stale) : Bool := (cache.get? stale.path).isSome

/-- What has to be read is a definition. -/
def Stale.isDefinition (stale : Stale) : Bool := stale.outcome?.isSome

/-! ## The number of entries -/

/-- Nothing is forgotten for a path without an entry. -/
theorem erase_of_get?_eq_none (unknown : cache.get? path = none) : cache.erase path = cache := by
  have others : ∀ entry ∈ cache.entries, entry.1 != parts path := by
    intro entry member
    rw [bne_comm]
    exact List.lookup_eq_none_iff.mp unknown entry member
  rw [erase, List.filter_eq_self.mpr others]

theorem size_erase (keyed : cache.Keyed) (path : String) :
    (cache.erase path).size + (cache.get? path).isSome.toNat = cache.size := by
  cases known : cache.get? path with
  | none => rw [erase_of_get?_eq_none known]; rfl
  | some entry =>
      -- the entry is the only one with its key
      have once : cache.entries.countP (·.1 == parts path) = 1 := by
        have own := List.count_eq_one_of_mem keyed (List.mem_map_of_mem (mem_of_lookup known))
        rwa [List.count, List.countP_map] at own
      have all := List.length_eq_countP_add_countP (·.1 == parts path) (l := cache.entries)
      rw [once, List.countP_eq_length_filter] at all
      simp only [size, all, erase, Option.isSome_some, Bool.toNat_true, bne, decide_not,
        Bool.decide_eq_true]
      exact Nat.add_comm _ _

theorem size_insert (keyed : cache.Keyed) (path : String) (entry : CacheEntry) :
    (cache.insert path entry).size + (cache.get? path).isSome.toNat = cache.size + 1 := by
  have rest := size_erase keyed path
  rw [insert, size, List.length_append, ← rest, size, List.length_singleton]
  exact Nat.add_right_comm _ _ _

theorem size_update (keyed : state.1.Keyed) (stale : Stale) :
    (update state stale).1.size + (state.1.knows stale).toNat =
      state.1.size + stale.isDefinition.toNat := by
  rw [update, Stale.isDefinition, Stale.outcome?, knows]
  split
  · rename_i definition read
    rw [read]
    exact size_insert keyed stale.path _
  · rename_i report failed
    rw [failed]
    exact size_erase keyed stale.path

/-- Every source that is read counts as a definition or as a failure. -/
theorem counts_update (state : Cache × RefreshCounts) (stale : Stale) :
    (update state stale).2 =
      { state.2 with
        parsed := state.2.parsed + stale.isDefinition.toNat
        failed := state.2.failed + (!stale.isDefinition).toNat } := by
  rw [update, Stale.isDefinition, Stale.outcome?]
  split
  · rename_i definition read
    rw [read]
    rfl
  · rename_i report failed
    rw [failed]
    rfl

/-- An update knows of other paths what was known before. -/
theorem knows_update {other : Stale} (apart : parts stale.path ≠ parts other.path) :
    (update state stale).1.knows other = state.1.knows other := by
  rw [knows, get?, lookup_update, if_neg (Ne.symm apart)]
  rfl

private theorem countP_cons_toNat (test : Stale → Bool) (stale : Stale) (rest : List Stale) :
    (stale :: rest).countP test = (test stale).toNat + rest.countP test := by
  rw [List.countP_cons, Nat.add_comm]
  cases test stale <;> rfl

theorem size_updates (state : Cache × RefreshCounts) (keyed : state.1.Keyed)
    (distinct : stales.Pairwise fun a b => parts a.path ≠ parts b.path) :
    (stales.foldl update state).1.size + stales.countP state.1.knows =
      state.1.size + stales.countP Stale.isDefinition := by
  induction stales generalizing state with
  | nil => rfl
  | cons stale rest induction =>
      rw [List.pairwise_cons] at distinct
      have same : rest.countP (update state stale).1.knows = rest.countP state.1.knows :=
        List.countP_congr fun other later => by rw [knows_update (distinct.1 other later)]
      have first := size_update keyed stale
      have others := induction _ (keyed.update stale) distinct.2
      rw [same] at others
      rw [List.foldl_cons, countP_cons_toNat, countP_cons_toNat]
      omega

theorem counts_updates (stales : List Stale) (state : Cache × RefreshCounts) :
    (stales.foldl update state).2 =
      { state.2 with
        parsed := state.2.parsed + stales.countP Stale.isDefinition
        failed := state.2.failed + stales.countP (!·.isDefinition) } := by
  induction stales generalizing state with
  | nil => rfl
  | cons stale rest induction =>
      rw [List.foldl_cons, induction, counts_update, countP_cons_toNat, countP_cons_toNat]
      simp only [Nat.add_assoc]

/-- No more paths are known than there are entries. -/
theorem countP_knows_le (cache : Cache)
    (distinct : stales.Pairwise fun a b => parts a.path ≠ parts b.path) :
    stales.countP cache.knows ≤ cache.size := by
  have apart : ((stales.filter cache.knows).map (parts ·.path)).Nodup :=
    List.pairwise_map.mpr (distinct.filter _)
  have known : (stales.filter cache.knows).map (parts ·.path) ⊆ cache.entries.map Prod.fst := by
    intro key member
    obtain ⟨stale, inside, rfl⟩ := List.mem_map.mp member
    obtain ⟨entry, found⟩ := Option.isSome_iff_exists.mp (List.mem_filter.mp inside).2
    exact List.mem_map_of_mem (mem_of_lookup found)
  have fewer := apart.length_le_of_subset known
  rwa [List.length_map, List.length_map, ← List.countP_eq_length_filter] at fewer

/-! ## A refresh -/

variable {tree : Files.Tree} {directory : String}

/-- What a refresh of a directory reads. -/
def changes (tree : Files.Tree) (directory : String) (cache : Cache) : List Stale :=
  (tree.definitionPaths directory).filterMap (stale? tree cache)

theorem refresh_eq (tree : Files.Tree) (directory : String) (cache : Cache) :
    refresh tree directory cache =
      (changes tree directory cache).foldl update
        (cache.retain (tree.definitionPaths directory),
          { reused := (cache.retain (tree.definitionPaths directory)).size -
              (changes tree directory cache).countP
                (cache.retain (tree.definitionPaths directory)).knows
            removed := cache.size - (cache.retain (tree.definitionPaths directory)).size }) := by
  have same : (tree.definitionPaths directory).filterMap
      (stale? tree (cache.retain (tree.definitionPaths directory))) =
        changes tree directory cache :=
    List.filterMap_congr fun path member => stale?_retain tree cache member
  rw [refresh, same]
  rfl

/-- The entries after a refresh are those that were reused and those that were read. -/
theorem size_refresh (sound : tree.Sound) (keyed : cache.Keyed) (directory : String) :
    (refresh tree directory cache).1.size =
      (refresh tree directory cache).2.reused + (refresh tree directory cache).2.parsed := by
  have distinct : (changes tree directory cache).Pairwise fun a b => parts a.path ≠ parts b.path :=
    stales_apart sound cache directory
  have keptKeyed := keyed.retain (tree.definitionPaths directory)
  rw [refresh_eq, counts_updates]
  generalize cache.retain (tree.definitionPaths directory) = kept at keptKeyed ⊢
  have fewer := countP_knows_le kept distinct
  have sizes := size_updates (kept,
    { reused := kept.size - (changes tree directory cache).countP kept.knows
      removed := cache.size - kept.size }) keptKeyed distinct
  dsimp only at sizes ⊢
  omega

/-- What is left to read of a path is what was read and is no definition. -/
theorem stale?_refresh (sound : tree.Sound) (member : path ∈ tree.definitionPaths directory) :
    stale? tree (refresh tree directory cache).1 path =
      (stale? tree cache path).filter (!·.isDefinition) := by
  have after : (refresh tree directory cache).1.get? path = _ := get?_refresh sound member
  cases changed : stale? tree cache path with
  | none =>
      rw [changed] at after
      rw [stale?, after, ← stale?, changed]
      rfl
  | some stale =>
      obtain ⟨rfl, read, digest⟩ := stale?_eq_some changed
      rw [changed] at after
      dsimp only at after
      cases outcome : stale.outcome? with
      | none =>
          have failing : stale.isDefinition = false := by rw [Stale.isDefinition, outcome]; rfl
          simp [stale?, read, after, outcome, Option.filter_some, failing, ← digest]
      | some entry =>
          have reads : stale.isDefinition := by rw [Stale.isDefinition, outcome]; rfl
          have same := (Stale.outcome?_eq_some.mp outcome).1.trans digest
          simp [stale?, read, after, outcome, Option.filter_some, reads, same]

theorem changes_refresh (sound : tree.Sound) (directory : String) (cache : Cache) :
    changes tree directory (refresh tree directory cache).1 =
      (changes tree directory cache).filter (!·.isDefinition) := by
  rw [changes, changes, List.filter_filterMap]
  exact List.filterMap_congr fun path member => stale?_refresh sound member

/-- A refresh has nothing to take away from its own entries. -/
theorem retain_refresh (keyed : cache.Keyed) :
    (refresh tree directory cache).1.retain (tree.definitionPaths directory) =
      (refresh tree directory cache).1 := by
  have listed : ∀ entry ∈ (refresh tree directory cache).1.entries, _ :=
    listed_of_mem_refresh keyed
  rw [retain, List.filter_eq_self.mpr fun entry member =>
    List.contains_iff_mem.mpr (listed entry member)]

/-- What is no definition has no entry after a refresh. -/
theorem knows_refresh (sound : tree.Sound) (member : stale ∈ changes tree directory cache)
    (failing : stale.isDefinition = false) :
    (refresh tree directory cache).1.knows stale = false := by
  obtain ⟨path, listed, changed⟩ := List.mem_filterMap.mp member
  obtain ⟨rfl, -⟩ := stale?_eq_some changed
  rw [knows, get?_refresh sound listed, changed]
  exact failing

/-- What is no definition and has no entry counts as a failure and leaves the entries as they
are. -/
theorem update_of_failing (failing : stale.isDefinition = false)
    (unknown : cache.knows stale = false) (counts : RefreshCounts) :
    update (cache, counts) stale = (cache, { counts with failed := counts.failed + 1 }) := by
  rw [Stale.isDefinition, Stale.outcome?] at failing
  rw [update]
  split
  · rename_i definition read
    rw [read] at failing
    cases failing
  · rw [erase_of_get?_eq_none (by simpa [knows] using unknown)]

theorem updates_of_failing (failing : ∀ stale ∈ stales, stale.isDefinition = false)
    (unknown : ∀ stale ∈ stales, cache.knows stale = false) (counts : RefreshCounts) :
    stales.foldl update (cache, counts) =
      (cache, { counts with failed := counts.failed + stales.length }) := by
  induction stales generalizing counts with
  | nil => rfl
  | cons stale rest induction =>
      rw [List.forall_mem_cons] at failing unknown
      rw [List.foldl_cons, update_of_failing failing.1 unknown.1,
        induction failing.2 unknown.2, List.length_cons, Nat.add_right_comm, Nat.add_assoc]

/-- Another refresh reuses everything, and fails where the first has failed. -/
theorem refresh_refresh (sound : tree.Sound) (keyed : cache.Keyed) (directory : String) :
    refresh tree directory (refresh tree directory cache).1 =
      ((refresh tree directory cache).1,
        { reused := (refresh tree directory cache).1.size
          parsed := 0
          removed := 0
          failed := (refresh tree directory cache).2.failed }) := by
  have left := changes_refresh sound directory cache
  have failing : ∀ stale ∈ changes tree directory (refresh tree directory cache).1,
      stale.isDefinition = false := by
    intro stale member
    rw [left, List.mem_filter] at member
    simpa using member.2
  have unknown : ∀ stale ∈ changes tree directory (refresh tree directory cache).1,
      (refresh tree directory cache).1.knows stale = false := by
    intro stale member
    exact knows_refresh sound (List.mem_of_mem_filter (left ▸ member)) (failing stale member)
  have noneKnown : (changes tree directory (refresh tree directory cache).1).countP
      (refresh tree directory cache).1.knows = 0 := by
    rw [List.countP_eq_zero]
    intro stale member
    rw [unknown stale member]
    exact Bool.false_ne_true
  have failed : (refresh tree directory cache).2.failed =
      (changes tree directory (refresh tree directory cache).1).length := by
    rw [left, ← List.countP_eq_length_filter, refresh_eq tree directory cache, counts_updates]
    exact Nat.zero_add _
  rw [refresh_eq tree directory (refresh tree directory cache).1, retain_refresh keyed,
    updates_of_failing failing unknown, noneKnown, failed, Nat.sub_zero, Nat.sub_self]
  simp only [Nat.zero_add]

end Cache

/-! ## Histories -/

namespace Workspace

/-- What a refresh counts. -/
def counted (workspace : Workspace) (directory : String) : RefreshCounts :=
  (workspace.cache.refresh workspace.tree directory).2

/-- After any history, in any working directory, the entries of a refreshed cache are those that were
reused and those that were read.  A second refresh of the directory leaves the workspace as it is and
gives the same library: it reuses every entry, reads and removes nothing, and fails as often as the
first. -/
theorem refresh_again (home : String) (events : List Event) (directory : String) :
    let again := (run home events).step (.refresh directory)
    again.cache.size =
        ((run home events).counted directory).reused + ((run home events).counted directory).parsed ∧
      again.step (.refresh directory) = again ∧
      again.refreshed directory = (run home events).refreshed directory ∧
      again.counted directory =
        { reused := again.cache.size
          parsed := 0
          removed := 0
          failed := ((run home events).counted directory).failed } := by
  intro again
  have sound := sound_run home events
  have second := Cache.refresh_refresh sound.tree sound.keyed directory
  have same : again.step (.refresh directory) = again :=
    congrArg (fun cache => { again with cache }) (congrArg Prod.fst second)
  refine ⟨Cache.size_refresh sound.tree sound.keyed directory, same, ?_, congrArg Prod.snd second⟩
  rw [refreshed, same]
  rfl

end Workspace
end Component
end ReactiveTemplate
