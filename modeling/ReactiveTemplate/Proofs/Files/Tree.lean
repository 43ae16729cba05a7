import Mathlib.Data.List.Nodup
import ReactiveTemplate.Files.Tree
import ReactiveTemplate.Proofs.Files.Path
import ReactiveTemplate.Proofs.Lookup

/-!
# Trees of files

Whatever is written and deleted, no place has two files, and the names on the way to a file are
names that a path can have.  So a directory lists every file once, under a path that no other file
has.  A path leads to the place that it names, whether it starts at the root or in the working
directory.
-/

namespace ReactiveTemplate
namespace Files
namespace Tree

variable {tree : Tree}

/-- The files of a tree can be told apart by their places. -/
structure Sound (tree : Tree) : Prop where
  /-- Every place has one file. -/
  places : (tree.files.map Prod.fst).Nodup
  /-- Places consist of proper names. -/
  names : ∀ file ∈ tree.files, ∀ name ∈ file.1, ProperName name
  /-- So does the way to the working directory. -/
  home : ∀ name ∈ tree.home, ProperName name

/-- All files of a tree that are text are among the given texts. -/
def Within (texts : List String) (tree : Tree) : Prop :=
  ∀ file ∈ tree.files, ∀ text, String.fromUTF8? file.2 = some text → text ∈ texts

/-! ## Writing and deleting -/

theorem mem_placeFrom {place : Place} {way : List Part} {name : String}
    (member : name ∈ placeFrom place way) : name ∈ place ∨ .name name ∈ way := by
  induction way generalizing place with
  | nil => exact .inl member
  | cons part rest induction =>
      cases part with
      | here => exact (induction member).imp_right (List.mem_cons_of_mem _)
      | root => exact (induction member).imp nofun (List.mem_cons_of_mem _)
      | above =>
          exact (induction member).imp (List.dropLast_subset place ·) (List.mem_cons_of_mem _)
      | name text =>
          rcases induction member with before | behind
          · rcases List.mem_append.mp before with before | own
            · exact .inl before
            · exact .inr (by simp [List.mem_singleton.mp own])
          · exact .inr (List.mem_cons_of_mem _ behind)

theorem properName_of_mem_placeFrom {place : Place} {path name : String}
    (proper : ∀ name ∈ place, ProperName name) (member : name ∈ placeFrom place (parts path)) :
    ProperName name := by
  rcases mem_placeFrom member with before | named
  · exact proper name before
  · exact properName_of_mem_parts named

/-- Files that are left when those at a place are taken away. -/
theorem Sound.filter (sound : tree.Sound) (stays : Place × ByteArray → Bool)
    (directories : List Place) : Sound ⟨tree.home, tree.files.filter stays, directories⟩ where
  places := sound.places.sublist (List.filter_sublist.map _)
  names file member := sound.names file (List.mem_of_mem_filter member)
  home := sound.home

theorem Sound.write (sound : tree.Sound) (path : String) (content : ByteArray) :
    (tree.write path content).Sound := by
  have former := sound.filter (·.1 != tree.placeOf path) tree.directories
  refine ⟨?_, ?_, sound.home⟩
  · rw [Tree.write, List.map_append, List.nodup_append]
    refine ⟨former.places, List.nodup_singleton _, ?_⟩
    intro place member place' own
    rw [List.mem_singleton.mp own]
    obtain ⟨file, kept, rfl⟩ := List.mem_map.mp member
    simpa using List.of_mem_filter kept
  · intro file member
    rcases List.mem_append.mp member with before | own
    · exact former.names file before
    · intro name inside
      rw [List.mem_singleton.mp own] at inside
      exact properName_of_mem_placeFrom sound.home inside

theorem Sound.delete (sound : tree.Sound) (path : String) : (tree.delete path).2.Sound := by
  rw [Tree.delete]
  split
  · exact sound.filter _ _
  · exact sound

/-- Files that are given can be told apart, wherever they are looked at from. -/
theorem Sound.ofList (files : List (String × ByteArray)) (home : String) :
    (ofList files home).Sound := by
  have empty : Sound { home := placeFrom [] (parts home) } :=
    ⟨List.nodup_nil, nofun, fun name => properName_of_mem_placeFrom nofun⟩
  rw [Tree.ofList]
  generalize ({ home := placeFrom [] (parts home) } : Tree) = tree at empty
  induction files generalizing tree with
  | nil => exact empty
  | cons file rest induction => exact induction _ (empty.write file.1 file.2)

theorem Within.write {texts : List String} (within : tree.Within texts) (path : String)
    {content : ByteArray} (known : ∀ text, String.fromUTF8? content = some text → text ∈ texts) :
    (tree.write path content).Within texts := by
  intro file member text read
  rcases List.mem_append.mp member with before | own
  · exact within file (List.mem_of_mem_filter before) text read
  · rw [List.mem_singleton.mp own] at read
    exact known text read

theorem Within.delete {texts : List String} (within : tree.Within texts) (path : String) :
    (tree.delete path).2.Within texts := by
  rw [Tree.delete]
  split
  · exact fun file member => within file (List.mem_of_mem_filter member)
  · exact within

/-! ## Reading -/

theorem mem_files_of_entry {place place' : Place} {content : ByteArray}
    (found : tree.entry place = .file place' content) : (place', content) ∈ tree.files := by
  rw [entry] at found
  split at found
  · rename_i listed
    cases found
    exact mem_of_lookup listed
  · split at found <;> cases found

/-- Only files of the tree are found on the way from a directory. -/
theorem mem_files_of_follow {start : Entry} {way : List (List Char)} {place : Place}
    {content : ByteArray}
    (known : ∀ place content, start = .file place content → (place, content) ∈ tree.files)
    (found : tree.follow start way = .file place content) : (place, content) ∈ tree.files := by
  fun_induction follow tree start way with
  | case1 start => exact known place content found
  | case2 _ _ _ _ _ induction => exact induction (fun _ _ => mem_files_of_entry) found
  | case3 _ _ _ _ induction => exact induction (fun _ _ other => by cases other) found
  | case4 _ _ _ _ _ induction => exact induction (fun _ _ other => by cases other) found
  | case5 => cases found
  | case6 => cases found
  | case7 => cases found

theorem mem_files_of_find {path : String} {place : Place} {content : ByteArray}
    (found : tree.find path = .file place content) : (place, content) ∈ tree.files := by
  rw [find] at found
  split at found
  · cases found
  · exact mem_files_of_follow (fun _ _ other => by cases other) found

/-- What is at a place is a file or a directory there, or nothing. -/
theorem entry_cases (tree : Tree) (place : Place) :
    (∃ content, tree.entry place = .file place content) ∨ tree.entry place = .directory place ∨
      tree.entry place = .missing := by
  rw [entry]
  split
  · exact .inl ⟨_, rfl⟩
  · split
    · exact .inr (.inl rfl)
    · exact .inr (.inr rfl)

/-- From a directory on, parts lead to the place that they name. -/
theorem place_of_follow {here place : Place} {way : List (List Char)} {content : ByteArray}
    (found : tree.follow (.directory here) way = .file place content) :
    place = placeFrom here (way.filterMap laterPart?) := by
  induction way generalizing here with
  | nil => cases found
  | cons part rest induction =>
      rw [follow] at found
      rw [List.filterMap_cons]
      cases named : laterPart? part with
      | none =>
          rw [named] at found
          exact induction found
      | some step =>
          rw [named] at found
          cases step with
          | above => exact induction found
          | root | here =>
              rw [laterPart?] at named
              split at named
              · cases named
              · split at named <;> cases named
          | name name =>
              dsimp only at found ⊢
              rcases entry_cases tree (here ++ [name]) with ⟨own, isFile⟩ | isDirectory | missing
              · rw [isFile] at found
                cases rest with
                | nil =>
                    cases found
                    rfl
                | cons => cases found
              · rw [isDirectory] at found
                exact induction found
              · rw [missing] at found
                cases rest <;> cases found

/-- A file that a path leads to is at the place that the path names. -/
theorem place_of_find {path : String} {place : Place} {content : ByteArray}
    (found : tree.find path = .file place content) : place = tree.placeOf path := by
  rw [find] at found
  split at found
  · cases found
  · rename_i given
    obtain ⟨first, rest, pieces⟩ := splitSlashes_eq_cons path.toList
    have start := head?_eq_slash_iff pieces
    rw [place_of_follow found, placeOf, parts_eq pieces, pieces, origin, leadingParts,
      List.filterMap_cons]
    by_cases empty : first = []
    · -- the path starts at the root
      have more : rest ≠ [] := by
        rintro rfl
        subst empty
        have blank := eq_nil_of_splitSlashes pieces
        simp [← String.toList_eq_nil_iff, blank] at given
      simp [start.mpr ⟨empty, more⟩, empty, more, laterPart?, placeFrom]
    · have relative : ¬ path.toList.head? = some '/' := fun slash => empty (start.mp slash).1
      rw [if_neg relative, if_neg (by simp [empty])]
      by_cases dot : first = ['.']
      · simp [dot, laterPart?, placeFrom]
      · rw [if_neg dot]
        cases laterPart? first <;> rfl

/-- A path under which something has been written leads to what has been written last. -/
theorem content_of_find_write {path path' : String} {place : Place} {content found : ByteArray}
    (same : tree.placeOf path' = tree.placeOf path)
    (leads : (tree.write path content).find path' = .file place found) : found = content := by
  have named : place = tree.placeOf path := (place_of_find leads).trans same
  rcases List.mem_append.mp (mem_files_of_find leads) with before | own
  · simp [named] at before
  · exact congrArg Prod.snd (List.mem_singleton.mp own)

theorem Within.read {texts : List String} (within : tree.Within texts) {path text : String}
    (ok : tree.read path = .ok text) : text ∈ texts := by
  rw [Tree.read] at ok
  split at ok
  · rename_i found
    split at ok
    · rename_i decoded
      cases ok
      exact within _ (mem_files_of_find found) _ decoded
    · cases ok
  all_goals cases ok

/-! ## Listing -/

theorem isEmpty_of_find {path : String} {place : Place}
    (found : tree.find path = .directory place) : path.isEmpty = false := by
  rw [find] at found
  split at found
  · cases found
  · exact Bool.not_eq_true _ ▸ ‹_›

/-- The paths below a directory are told apart by their parts. -/
theorem pathsBelow_nodup (sound : tree.Sound) (path : String) :
    ((tree.pathsBelow path).map parts).Nodup := by
  rw [pathsBelow]
  split
  · exact List.nodup_singleton _
  · rename_i place found
    have given := isEmpty_of_find found
    rw [List.map_map, List.Nodup, List.pairwise_map]
    have apart : tree.files.Pairwise fun file file' => file.1 ≠ file'.1 :=
      List.pairwise_map.mp sound.places
    refine (apart.filter _).imp_of_mem ?_
    rintro ⟨file, content⟩ ⟨file', content'⟩ member member' differs same
    obtain ⟨listed, inside⟩ := List.mem_filter.mp member
    obtain ⟨listed', inside'⟩ := List.mem_filter.mp member'
    have proper : ∀ name ∈ file.drop place.length, ProperName name :=
      fun name below => sound.names _ listed name (List.mem_of_mem_drop below)
    have proper' : ∀ name ∈ file'.drop place.length, ProperName name :=
      fun name below => sound.names _ listed' name (List.mem_of_mem_drop below)
    simp only [Function.comp_apply, parts_foldl_join given proper,
      parts_foldl_join given proper'] at same
    have rest : file.drop place.length = file'.drop place.length :=
      List.map_injective_iff.mpr (fun _ _ => Part.name.inj) (List.append_cancel_left same)
    simp only [Bool.and_eq_true, List.isPrefixOf_iff_prefix] at inside inside'
    have shape : place ++ file.drop place.length = file :=
      List.prefix_iff_eq_append.mp inside.1
    have shape' : place ++ file'.drop place.length = file' :=
      List.prefix_iff_eq_append.mp inside'.1
    exact differs (shape.symm.trans (rest ▸ shape'))
  · exact List.nodup_nil
  · exact List.nodup_nil

theorem definitionPaths_perm (tree : Tree) (path : String) :
    (tree.definitionPaths path).Perm ((tree.pathsBelow path).filter isDefinition) :=
  List.mergeSort_perm _ _

theorem definitionPaths_nodup (sound : tree.Sound) (path : String) :
    ((tree.definitionPaths path).map parts).Nodup :=
  ((definitionPaths_perm tree path).map parts).nodup_iff.mpr
    ((pathsBelow_nodup sound path).sublist (List.filter_sublist.map _))

/-- A definition is listed under one spelling of its path. -/
theorem Sound.eq_of_parts_eq (sound : tree.Sound) {directory path path' : String}
    (member : path ∈ tree.definitionPaths directory)
    (member' : path' ∈ tree.definitionPaths directory) (same : parts path = parts path') :
    path = path' :=
  List.inj_on_of_nodup_map (definitionPaths_nodup sound directory) member member' same

theorem definitionPaths_sorted (tree : Tree) (path : String) :
    ((tree.definitionPaths path).map parts).Pairwise (partsLe · ·) :=
  mergeSort_sorted parts _

end Tree
end Files
end ReactiveTemplate
