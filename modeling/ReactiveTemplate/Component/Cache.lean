import ReactiveTemplate.Component.Discovery
import ReactiveTemplate.Digest

/-!
# A cache of definitions

A cache keeps the definitions that were read with a digest of their source, so that a refresh reads
only what has changed since.
-/

namespace ReactiveTemplate
namespace Component

/-- A definition in the cache. -/
structure CacheEntry where
  /-- Digest of the source. -/
  digest : String
  /-- The definition. -/
  definition : Definition
  deriving Inhabited

/-- What a refresh has done. -/
structure RefreshCounts where
  /-- Entries that were kept. -/
  reused : Nat := 0
  /-- Definitions that were read. -/
  parsed : Nat := 0
  /-- Entries whose file is gone. -/
  removed : Nat := 0
  /-- Definitions that could not be read. -/
  failed : Nat := 0
  deriving DecidableEq, Repr

/-- A cache of definitions, by path. -/
structure Cache where
  /-- Entries with the parts of their path. -/
  entries : List (List Files.Part × CacheEntry) := []
  deriving Inhabited

namespace Cache

/-- The entry of a path. -/
def get? (cache : Cache) (path : String) : Option CacheEntry :=
  cache.entries.lookup (Files.parts path)

/-- Forget the entry of a path. -/
def erase (cache : Cache) (path : String) : Cache :=
  ⟨cache.entries.filter (·.1 != Files.parts path)⟩

/-- Set the entry of a path. -/
def insert (cache : Cache) (path : String) (entry : CacheEntry) : Cache :=
  ⟨(cache.erase path).entries ++ [(Files.parts path, entry)]⟩

/-- The number of entries. -/
def size (cache : Cache) : Nat := cache.entries.length

/-- Keep only the entries of the given paths. -/
def retain (cache : Cache) (paths : List String) : Cache :=
  ⟨cache.entries.filter fun entry => (paths.map Files.parts).contains entry.1⟩

/-- A source whose digest is not that of its entry. -/
structure Stale where
  /-- Path of the file. -/
  path : String
  /-- Its text. -/
  source : String
  /-- Digest of the text. -/
  digest : String

/-- What has to be read for a path, if anything; files that are no text are left alone. -/
def stale? (tree : Files.Tree) (cache : Cache) (path : String) : Option Stale :=
  match tree.read path with
  | .error _ => none
  | .ok source =>
    let digest := Digest.ofText source
    match cache.get? path with
    | some entry => if entry.digest = digest then none else some ⟨path, source, digest⟩
    | none => some ⟨path, source, digest⟩

/-- Read a definition into the cache. -/
def update (state : Cache × RefreshCounts) (stale : Stale) : Cache × RefreshCounts :=
  let (cache, counts) := state
  match Definition.ofSource (Files.componentName stale.path) stale.path stale.source with
  | .ok definition =>
    (cache.insert stale.path ⟨stale.digest, definition⟩, { counts with parsed := counts.parsed + 1 })
  | .error _ => (cache.erase stale.path, { counts with failed := counts.failed + 1 })

/-- The library of all entries, in the order of their paths. -/
def library (cache : Cache) : Library :=
  .ofList ((cache.entries.mergeSort fun a b => Files.partsLe a.1 b.1).map (·.2.definition))

/-- Bring the cache into agreement with a directory. -/
def refresh (tree : Files.Tree) (directory : String) (cache : Cache) : Cache × RefreshCounts :=
  let paths := tree.definitionPaths directory
  let kept := cache.retain paths
  let stale := paths.filterMap (stale? tree kept)
  let known := stale.countP fun s => (kept.get? s.path).isSome
  stale.foldl update
    (kept, { reused := kept.size - known, removed := cache.size - kept.size })

end Cache
end Component
end ReactiveTemplate
