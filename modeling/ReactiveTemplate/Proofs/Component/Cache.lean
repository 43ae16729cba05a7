import ReactiveTemplate.Component.Cache
import ReactiveTemplate.Proofs.Component.Discovery
import ReactiveTemplate.Proofs.Files.Tree

/-!
# Refreshing and discovery

Over any history of a workspace, an entry of the cache has the definition in some text that was
written, and a refresh leaves entries with the digest of the text that is there now.  So a refreshed
library is that of discovery, but for files that are no text any more, which keep their last
definition, and for files that are listed under another spelling of their path.
-/

namespace ReactiveTemplate
namespace Component

open Files (parts partsLe componentName)

/-! ## Entries -/

namespace Cache

variable {cache : Cache} {path : String} {entry : CacheEntry}

/-- Every path has one entry. -/
def Keyed (cache : Cache) : Prop := (cache.entries.map Prod.fst).Nodup

theorem lookup_erase (cache : Cache) (path : String) (key : List Files.Part) :
    (cache.erase path).entries.lookup key =
      if key = parts path then none else cache.entries.lookup key := by
  have others := lookup_filter (· != parts path) cache.entries key
  refine others.trans ?_
  by_cases same : key = parts path <;> simp [same]

theorem lookup_insert (cache : Cache) (path : String) (entry : CacheEntry)
    (key : List Files.Part) :
    (cache.insert path entry).entries.lookup key =
      if key = parts path then some entry else cache.entries.lookup key := by
  rw [insert, List.lookup_append, lookup_erase]
  by_cases same : key = parts path
  · simp [same]
  · have differs : (key == parts path) = false := by simpa using same
    simp [same, differs, List.lookup_cons]

theorem lookup_retain (cache : Cache) (paths : List String) (key : List Files.Part) :
    (cache.retain paths).entries.lookup key =
      if key ∈ paths.map parts then cache.entries.lookup key else none := by
  have others := lookup_filter (paths.map parts).contains cache.entries key
  refine others.trans ?_
  simp only [List.contains_iff_mem]

theorem Keyed.erase (keyed : cache.Keyed) (path : String) : (cache.erase path).Keyed :=
  List.Nodup.sublist (List.filter_sublist.map _) keyed

theorem Keyed.retain (keyed : cache.Keyed) (paths : List String) : (cache.retain paths).Keyed :=
  List.Nodup.sublist (List.filter_sublist.map _) keyed

theorem Keyed.insert (keyed : cache.Keyed) (path : String) (entry : CacheEntry) :
    (cache.insert path entry).Keyed := by
  rw [Keyed, Cache.insert, List.map_append, List.nodup_append]
  refine ⟨keyed.erase path, List.nodup_singleton _, ?_⟩
  intro key member key' own
  rw [List.mem_singleton.mp own]
  obtain ⟨entry, kept, rfl⟩ := List.mem_map.mp member
  simpa using List.of_mem_filter kept

/-! ## The library of a cache -/

/-- The definition that the cache has for a path. -/
def definition? (cache : Cache) (path : String) : Option Definition :=
  (cache.get? path).map CacheEntry.definition

/-- The library of a cache has the definitions for paths in their order. -/
theorem library_eq (keyed : cache.Keyed) {paths : List String}
    (distinct : (paths.map parts).Nodup) (sorted : (paths.map parts).Pairwise (partsLe · ·))
    (listed : ∀ entry ∈ cache.entries, entry.1 ∈ paths.map parts) :
    cache.library = .ofList (paths.filterMap cache.definition?) := by
  have same := List.mergeSort_perm cache.entries fun a b => partsLe a.1 b.1
  have inOrder := Files.mergeSort_sorted Prod.fst cache.entries
  rw [library]
  generalize (cache.entries.mergeSort fun a b => partsLe a.1 b.1) = entries at same inOrder ⊢
  -- the keys of the entries in order are the paths that have an entry, in order
  have keys : entries.map Prod.fst =
      (paths.map parts).filter fun key => (cache.entries.lookup key).isSome := by
    have distinctKeys : (entries.map Prod.fst).Nodup := (same.map Prod.fst).nodup_iff.mpr keyed
    refine List.Perm.eq_of_pairwise (fun _ _ _ _ => Files.partsLe_antisymm) inOrder
      (sorted.filter _) ((List.perm_ext_iff_of_nodup distinctKeys (distinct.filter _)).mpr ?_)
    intro key
    rw [List.mem_filter, (same.map Prod.fst).mem_iff]
    constructor
    · intro member
      obtain ⟨⟨key, entry⟩, inside, rfl⟩ := List.mem_map.mp member
      exact ⟨listed _ inside, by rw [lookup_of_mem keyed inside]; rfl⟩
    · rintro ⟨-, found⟩
      obtain ⟨entry, found⟩ := Option.isSome_iff_exists.mp found
      exact List.mem_map_of_mem (mem_of_lookup found)
  have own : ∀ entry ∈ entries, cache.entries.lookup entry.1 = some entry.2 :=
    fun entry member => lookup_of_mem keyed (same.mem_iff.mp member)
  congr 1
  calc entries.map (·.2.definition)
      = entries.filterMap fun entry => (cache.entries.lookup entry.1).map (·.definition) := by
        rw [← List.filterMap_eq_map']
        refine List.filterMap_congr fun entry member => ?_
        rw [own entry member]
        rfl
    _ = (entries.map Prod.fst).filterMap fun key =>
          (cache.entries.lookup key).map (·.definition) := by
        rw [List.filterMap_map]
        rfl
    _ = (paths.map parts).filterMap fun key =>
          (cache.entries.lookup key).map (·.definition) := by
        rw [keys, List.filterMap_filter]
        refine List.filterMap_congr fun key _ => ?_
        cases cache.entries.lookup key <;> rfl
    _ = paths.filterMap cache.definition? := by
        rw [List.filterMap_map]
        rfl

/-! ## Refreshing -/

/-- The entry for a text that has changed, if it is a definition. -/
def Stale.outcome? (stale : Stale) : Option CacheEntry :=
  (Definition.ofSource (componentName stale.path) stale.path stale.source).toOption.map
    (⟨stale.digest, ·⟩)

variable {tree : Files.Tree} {directory : String} {stale : Stale} {state : Cache × RefreshCounts}

theorem Stale.outcome?_eq_some :
    stale.outcome? = some entry ↔ entry.digest = stale.digest ∧
      Definition.ofSource (componentName stale.path) stale.path stale.source =
        .ok entry.definition := by
  rw [outcome?]
  cases Definition.ofSource (componentName stale.path) stale.path stale.source with
  | error report => simp [Except.toOption]
  | ok definition =>
      obtain ⟨digest, own⟩ := entry
      simp [Except.toOption, eq_comm]

theorem lookup_update (state : Cache × RefreshCounts) (stale : Stale) (key : List Files.Part) :
    (update state stale).1.entries.lookup key =
      if key = parts stale.path then stale.outcome? else state.1.entries.lookup key := by
  rw [update, Stale.outcome?]
  split
  · rename_i definition read
    simp only [lookup_insert, read, Except.toOption, Option.map_some]
  · rename_i report failed
    simp only [lookup_erase, failed, Except.toOption, Option.map_none]

theorem Keyed.update (keyed : state.1.Keyed) (stale : Stale) :
    (Cache.update state stale).1.Keyed := by
  rw [Cache.update]
  split
  · exact keyed.insert _ _
  · exact keyed.erase _

theorem Keyed.updates (keyed : state.1.Keyed) (stales : List Stale) :
    (stales.foldl Cache.update state).1.Keyed := by
  induction stales generalizing state with
  | nil => exact keyed
  | cons stale rest induction => exact induction (keyed.update stale)

theorem lookup_updates_of_notMem {stales : List Stale} {key : List Files.Part}
    (other : ∀ stale ∈ stales, parts stale.path ≠ key) :
    (stales.foldl update state).1.entries.lookup key = state.1.entries.lookup key := by
  induction stales generalizing state with
  | nil => rfl
  | cons stale rest induction =>
      rw [List.forall_mem_cons] at other
      rw [List.foldl_cons, induction other.2, lookup_update, if_neg (Ne.symm other.1)]

theorem lookup_updates_of_mem {stales : List Stale}
    (distinct : stales.Pairwise fun a b => parts a.path ≠ parts b.path) (member : stale ∈ stales) :
    (stales.foldl update state).1.entries.lookup (parts stale.path) = stale.outcome? := by
  induction stales generalizing state with
  | nil => cases member
  | cons first rest induction =>
      rw [List.pairwise_cons] at distinct
      rw [List.foldl_cons]
      rcases List.mem_cons.mp member with rfl | behind
      · have others : ∀ other ∈ rest, parts other.path ≠ parts stale.path :=
          fun other later => Ne.symm (distinct.1 other later)
        rw [lookup_updates_of_notMem others, lookup_update, if_pos rfl]
      · exact induction distinct.2 behind

theorem stale?_eq_some (found : stale? tree cache path = some stale) :
    stale.path = path ∧ tree.read path = .ok stale.source ∧
      stale.digest = Digest.ofText stale.source := by
  rw [stale?] at found
  split at found
  · cases found
  · rename_i source read
    dsimp only at found
    split at found
    · split at found
      · cases found
      · cases found
        exact ⟨rfl, read, rfl⟩
    · cases found
      exact ⟨rfl, read, rfl⟩

theorem stale?_eq_none {source : String} (found : stale? tree cache path = none)
    (read : tree.read path = .ok source) :
    ∃ entry, cache.get? path = some entry ∧ entry.digest = Digest.ofText source := by
  simp only [stale?, read] at found
  split at found
  · rename_i entry known
    split at found
    · rename_i same
      exact ⟨entry, known, same⟩
    · cases found
  · cases found

theorem get?_retain {paths : List String} (member : path ∈ paths) :
    (cache.retain paths).get? path = cache.get? path := by
  rw [get?, lookup_retain, if_pos (List.mem_map_of_mem member)]
  rfl

/-- Entries of other paths do not matter. -/
theorem stale?_retain (tree : Files.Tree) (cache : Cache) {paths : List String}
    (member : path ∈ paths) :
    stale? tree (cache.retain paths) path = stale? tree cache path := by
  rw [stale?, stale?, get?_retain member]

theorem stales_apart (sound : tree.Sound) (cache : Cache) (directory : String) :
    ((tree.definitionPaths directory).filterMap (stale? tree cache)).Pairwise
      fun a b => parts a.path ≠ parts b.path := by
  rw [List.pairwise_filterMap]
  refine (List.pairwise_map.mp (Files.Tree.definitionPaths_nodup sound directory)).imp ?_
  intro path path' apart stale found stale' found'
  rw [(stale?_eq_some found).1, (stale?_eq_some found').1]
  exact apart

/-- A refresh reads what has changed and leaves everything else as it is. -/
theorem get?_refresh (sound : tree.Sound) (member : path ∈ tree.definitionPaths directory) :
    (refresh tree directory cache).1.get? path =
      match stale? tree cache path with
      | some stale => stale.outcome?
      | none => cache.get? path := by
  have same := stale?_retain tree cache member
  rw [refresh, get?]
  split
  · rename_i stale found
    obtain ⟨rfl, -⟩ := stale?_eq_some found
    exact lookup_updates_of_mem (stales_apart sound _ directory)
      (List.mem_filterMap.mpr ⟨stale.path, member, same.trans found⟩)
  · rename_i found
    refine (lookup_updates_of_notMem ?_).trans (get?_retain member)
    intro stale inside apart
    obtain ⟨path', member', found'⟩ := List.mem_filterMap.mp inside
    rw [(stale?_eq_some found').1] at apart
    rw [sound.eq_of_parts_eq member' member apart, same, found] at found'
    cases found'

/-- A refresh forgets what the directory does not list. -/
theorem lookup_refresh_of_notMem {key : List Files.Part}
    (unlisted : key ∉ (tree.definitionPaths directory).map parts) :
    (refresh tree directory cache).1.entries.lookup key = none := by
  rw [refresh, lookup_updates_of_notMem, lookup_retain, if_neg unlisted]
  intro stale inside same
  obtain ⟨path, member, found⟩ := List.mem_filterMap.mp inside
  rw [(stale?_eq_some found).1] at same
  exact unlisted (same ▸ List.mem_map_of_mem member)

theorem Keyed.refresh (keyed : cache.Keyed) (tree : Files.Tree) (directory : String) :
    (Cache.refresh tree directory cache).1.Keyed :=
  Keyed.updates (keyed.retain _) _

/-- After a refresh, all entries are those of paths that the directory lists. -/
theorem listed_of_mem_refresh (keyed : cache.Keyed) :
    ∀ entry ∈ (refresh tree directory cache).1.entries,
      entry.1 ∈ (tree.definitionPaths directory).map parts := by
  rintro ⟨key, entry⟩ member
  by_contra unlisted
  have found := lookup_of_mem (keyed.refresh tree directory) member
  rw [lookup_refresh_of_notMem unlisted] at found
  cases found

/-- A refresh leaves no entry with the digest of another text than the one that is there. -/
theorem digest_refresh (sound : tree.Sound) (member : path ∈ tree.definitionPaths directory)
    {source : String} (read : tree.read path = .ok source)
    (found : (refresh tree directory cache).1.get? path = some entry) :
    entry.digest = Digest.ofText source := by
  rw [get?_refresh sound member] at found
  split at found
  · rename_i stale changed
    obtain ⟨-, read', digest⟩ := stale?_eq_some changed
    obtain rfl : stale.source = source := Except.ok.inj (read'.symm.trans read)
    rw [(Stale.outcome?_eq_some.mp found).1, digest]
  · rename_i unchanged
    obtain ⟨entry', known, digest⟩ := stale?_eq_none unchanged read
    rw [known] at found
    cases found
    exact digest

/-- A refresh has a definition wherever there is one. -/
theorem definition?_refresh_ne_none (sound : tree.Sound)
    (member : path ∈ tree.definitionPaths directory) {definition : Definition}
    (defined : readDefinition tree path = .ok definition) :
    (refresh tree directory cache).1.definition? path ≠ none := by
  obtain ⟨source, read, ok⟩ := readDefinition_eq_ok.mp defined
  rw [definition?, get?_refresh sound member]
  split
  · rename_i stale changed
    obtain ⟨rfl, read', -⟩ := stale?_eq_some changed
    obtain rfl : stale.source = source := Except.ok.inj (read'.symm.trans read)
    have made : stale.outcome? = some ⟨stale.digest, definition⟩ :=
      Stale.outcome?_eq_some.mpr ⟨rfl, ok⟩
    simp [made]
  · rename_i unchanged
    obtain ⟨entry, known, -⟩ := stale?_eq_none unchanged read
    simp [known]

/-! ## Where entries come from -/

/-- Every entry has the definition in one of the given texts, and is that of its path. -/
def Faithful (texts : List String) (cache : Cache) : Prop :=
  ∀ key entry, cache.entries.lookup key = some entry →
    ∃ path source, parts path = key ∧ source ∈ texts ∧ entry.digest = Digest.ofText source ∧
      Definition.ofSource (componentName path) path source = .ok entry.definition

theorem Faithful.definition? {texts : List String} {definition : Definition}
    (faithful : cache.Faithful texts) (found : cache.definition? path = some definition) :
    ∃ entry path' source, cache.get? path = some entry ∧ parts path' = parts path ∧
      source ∈ texts ∧ entry.digest = Digest.ofText source ∧
        Definition.ofSource (componentName path') path' source = .ok definition := by
  obtain ⟨entry, known, rfl⟩ := Option.map_eq_some_iff.mp found
  obtain ⟨path', source, same, written, digest, ok⟩ := faithful (parts path) entry known
  exact ⟨entry, path', source, known, same, written, digest, ok⟩

/-- Definitions have the names of their paths. -/
theorem Faithful.name {texts : List String} {definition : Definition}
    (faithful : cache.Faithful texts) (found : cache.definition? path = some definition) :
    definition.name = componentName path := by
  obtain ⟨entry, path', source, -, same, -, -, ok⟩ := faithful.definition? found
  exact (Definition.ofSource_fields ok).1.trans (Files.componentName_congr same)

theorem Faithful.refresh {texts : List String} (faithful : cache.Faithful texts)
    (sound : tree.Sound) (within : tree.Within texts) (directory : String) :
    (Cache.refresh tree directory cache).1.Faithful texts := by
  intro key entry found
  by_cases listed : key ∈ (tree.definitionPaths directory).map parts
  · obtain ⟨path, member, rfl⟩ := List.mem_map.mp listed
    have outcome := (get?_refresh sound member).symm.trans found
    split at outcome
    · rename_i stale changed
      obtain ⟨rfl, read, digest⟩ := stale?_eq_some changed
      obtain ⟨same, ok⟩ := Stale.outcome?_eq_some.mp outcome
      exact ⟨stale.path, stale.source, rfl, within.read read, same.trans digest, ok⟩
    · exact faithful _ entry outcome
  · rw [lookup_refresh_of_notMem listed] at found
    cases found

/-- The library after a refresh. -/
theorem library_refresh (sound : tree.Sound) (keyed : cache.Keyed) (directory : String) :
    (refresh tree directory cache).1.library =
      .ofList ((tree.definitionPaths directory).filterMap
        (refresh tree directory cache).1.definition?) :=
  library_eq (keyed.refresh tree directory) (Files.Tree.definitionPaths_nodup sound directory)
    (Files.Tree.definitionPaths_sorted tree directory) (listed_of_mem_refresh keyed)

end Cache

/-! ## Histories -/

/-- What happens to the files and to the cache. -/
inductive Event where
  /-- A file is written, with any bytes. -/
  | write (path : String) (content : ByteArray)
  /-- A file is deleted. -/
  | delete (path : String)
  /-- The cache is refreshed. -/
  | refresh (directory : String)

/-- The text that is written, if it is one. -/
def Event.text? : Event → Option String
  | write _ content => String.fromUTF8? content
  | delete _ | refresh _ => none

/-- Files with a cache of the definitions in them. -/
structure Workspace where
  /-- The files. -/
  tree : Files.Tree := {}
  /-- The cache. -/
  cache : Cache := {}

namespace Workspace

/-- The workspace after an event. -/
def step (workspace : Workspace) : Event → Workspace
  | .write path content => { workspace with tree := workspace.tree.write path content }
  | .delete path => { workspace with tree := (workspace.tree.delete path).2 }
  | .refresh directory =>
    { workspace with cache := (workspace.cache.refresh workspace.tree directory).1 }

/-- The workspace after a history that starts without files, in the given working directory. -/
def run (home : String) (events : List Event) : Workspace :=
  events.foldl step { tree := .ofList [] home }

/-- The library that a refresh returns. -/
def refreshed (workspace : Workspace) (directory : String) : Library :=
  (workspace.step (.refresh directory)).cache.library

/-- The library of the files as they are. -/
def discovered (workspace : Workspace) (directory : String) : Library :=
  discover workspace.tree directory

/-- What holds of a workspace in which only the given texts have been written. -/
structure Sound (texts : List String) (workspace : Workspace) : Prop where
  /-- Files are told apart by their places. -/
  tree : workspace.tree.Sound
  /-- Files that are text have one of the texts. -/
  within : workspace.tree.Within texts
  /-- Every path has one entry. -/
  keyed : workspace.cache.Keyed
  /-- Entries have the definitions in some of the texts. -/
  faithful : workspace.cache.Faithful texts

variable {texts : List String} {workspace : Workspace}

theorem Sound.empty (texts : List String) (home : String) :
    Sound texts { tree := .ofList [] home } where
  tree := .ofList [] home
  within := by
    intro file member
    cases member
  keyed := List.nodup_nil
  faithful := by
    intro key entry found
    cases found

theorem Sound.step (sound : Sound texts workspace) {event : Event}
    (written : ∀ text, event.text? = some text → text ∈ texts) :
    Sound texts (workspace.step event) := by
  cases event with
  | write path content =>
      exact ⟨sound.tree.write path content, sound.within.write path written, sound.keyed,
        sound.faithful⟩
  | delete path =>
      exact ⟨sound.tree.delete path, sound.within.delete path, sound.keyed, sound.faithful⟩
  | refresh directory =>
      exact ⟨sound.tree, sound.within, sound.keyed.refresh _ directory,
        sound.faithful.refresh sound.tree sound.within directory⟩

theorem Sound.steps (sound : Sound texts workspace) {events : List Event}
    (written : events.filterMap Event.text? ⊆ texts) :
    Sound texts (events.foldl Workspace.step workspace) := by
  induction events generalizing workspace with
  | nil => exact sound
  | cons event rest induction =>
      refine induction (sound.step fun text own => written ?_) fun text later => written ?_
      · exact List.mem_filterMap.mpr ⟨event, List.mem_cons_self, own⟩
      · obtain ⟨other, member, own⟩ := List.mem_filterMap.mp later
        exact List.mem_filterMap.mpr ⟨other, List.mem_cons_of_mem _ member, own⟩

theorem sound_run (home : String) (events : List Event) :
    Sound (events.filterMap Event.text?) (run home events) :=
  (Sound.empty _ home).steps (List.Subset.refl _)

/-- A refresh gives what discovery gives, as long as the definitions that it lists are in files
which can be read and are listed under the same path. -/
theorem Sound.refreshed_eq (sound : Sound texts workspace)
    (distinct : ∀ text ∈ texts, ∀ text' ∈ texts,
      Digest.ofText text = Digest.ofText text' → text = text')
    {directory key : String}
    (current : ∀ definition, (workspace.refreshed directory).get? key = some definition →
      definition.path ∈ workspace.tree.definitionPaths directory ∧
        ∃ source, workspace.tree.read definition.path = .ok source) :
    (workspace.refreshed directory).get? key = (workspace.discovered directory).get? key := by
  have faithful := sound.faithful.refresh sound.tree sound.within directory
  have listed : workspace.refreshed directory = .ofList (_ : List Definition) :=
    Cache.library_refresh sound.tree sound.keyed directory
  rw [listed] at current
  rw [listed, discovered, discover_eq]
  refine Library.get?_ofList_congr (fun path definition => faithful.name)
    (fun path definition => definitionAt?_name) ?_ ?_
  · intro path member missing
    by_contra defined
    obtain ⟨definition, found⟩ := Option.ne_none_iff_exists'.mp defined
    exact Cache.definition?_refresh_ne_none sound.tree member (definitionAt?_eq_some.mp found)
      missing
  · intro path member definition found inLibrary
    obtain ⟨readable, source, read⟩ := current definition inLibrary
    obtain ⟨entry, path', source', known, same, written, digest, ok⟩ := faithful.definition? found
    rw [(Definition.ofSource_fields ok).2] at readable read
    obtain rfl := sound.tree.eq_of_parts_eq readable member same
    have digest' := Cache.digest_refresh sound.tree member read known
    obtain rfl := distinct source' written source (sound.within.read read)
      (digest.symm.trans digest')
    exact definitionAt?_eq_some.mpr (readDefinition_eq_ok.mpr ⟨source', read, ok⟩)

/-- After any history, in any working directory, a refresh gives the library of discovery exactly if
every definition that it lists is in a file which can be read as text and which the directory lists
under the path of the definition.  A file that has become unreadable keeps its last definition, and
one that is listed under another spelling of its path keeps the former. -/
theorem refreshed_agrees_iff (home : String) (events : List Event) (directory : String)
    (distinct : ∀ text ∈ events.filterMap Event.text?, ∀ text' ∈ events.filterMap Event.text?,
      Digest.ofText text = Digest.ofText text' → text = text') :
    (∀ key, ((run home events).refreshed directory).get? key =
        ((run home events).discovered directory).get? key) ↔
      ∀ key definition, ((run home events).refreshed directory).get? key = some definition →
        definition.path ∈ (run home events).tree.definitionPaths directory ∧
          ∃ source, (run home events).tree.read definition.path = .ok source := by
  constructor
  · intro agree key definition found
    rw [agree, discovered, discover_eq] at found
    obtain ⟨path, member, defined⟩ :=
      List.mem_filterMap.mp (Library.mem_of_get?_ofList found).1
    obtain ⟨source, read, ok⟩ := readDefinition_eq_ok.mp (definitionAt?_eq_some.mp defined)
    rw [(Definition.ofSource_fields ok).2]
    exact ⟨member, source, read⟩
  · intro current key
    exact (sound_run home events).refreshed_eq distinct (current key)

/-- A definition is cached, and then its file is moved, in a directory that is given by its absolute
path. -/
def moved : List Event :=
  [.write "/tmp/c/A.zen" "<p></p>".toUTF8, .refresh "/tmp/c", .delete "/tmp/c/A.zen",
    .write "/tmp/c/B.zen" "<p></p>".toUTF8]

/-- A definition is cached, and then its file is no text any more. -/
def overwritten : List Event :=
  [.write "c/A.zen" "<p></p>".toUTF8, .refresh "c", .write "c/A.zen" ⟨#[255]⟩]

/-- A refresh sees that a file is moved, but not that it is no text any more. -/
theorem refreshed_agrees_iff_moved :
    (∀ key, ((run "/work" moved).refreshed "/tmp/c").get? key =
        ((run "/work" moved).discovered "/tmp/c").get? key) ∧
      ¬ ∀ key, ((run "/work" overwritten).refreshed "c").get? key =
        ((run "/work" overwritten).discovered "c").get? key := by
  constructor
  · have texts : moved.filterMap Event.text? = ["<p></p>", "<p></p>"] := by decide +kernel
    have listed : ((run "/work" moved).refreshed "/tmp/c").entries.map (·.2.path) =
        ["/tmp/c/B.zen"] := by decide +kernel
    refine (refreshed_agrees_iff "/work" moved "/tmp/c" (by simp [texts])).mpr ?_
    intro key definition found
    have own : definition.path ∈ ["/tmp/c/B.zen"] := by
      rw [← listed]
      exact List.mem_map_of_mem (mem_of_lookup found)
    rw [List.mem_singleton.mp own]
    exact ⟨by decide +kernel, "<p></p>", by decide +kernel⟩
  · intro agree
    have texts : overwritten.filterMap Event.text? = ["<p></p>"] := by decide +kernel
    have current := (refreshed_agrees_iff "/work" overwritten "c" (by simp [texts])).mp agree
    have kept : (((run "/work" overwritten).refreshed "c").get? "A").any (fun definition =>
        ((run "/work" overwritten).tree.read definition.path).toOption.isNone) = true := by
      decide +kernel
    obtain ⟨definition, found, unreadable⟩ := (Option.any_eq_true _ _).mp kept
    obtain ⟨-, source, read⟩ := current "A" definition found
    rw [read] at unreadable
    cases unreadable

end Workspace
end Component
end ReactiveTemplate
