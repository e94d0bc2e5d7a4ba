import StarNextImport.Metadata
import Mathlib.Data.List.Nodup

/-!
# StarNextImport.Walk — `collect_paths`, the directory walk of `main.rs`

The prototype binary finds its input files with `collect_paths`: it walks `DATA_DIR` depth first,
in the order `fs::read_dir` lists each directory, skips every entry named `log.txt` (its own log,
file or directory), and pushes the path `entry.path()` of every other file onto one vector.  A
directory is a tree of `DirEntry`s; `File::open` follows a path's names down the same tree.

* `collectPaths_spec`: the walk panics exactly when it enters a directory that `read_dir` cannot
  read, and otherwise appends to its vector the paths of `files`, the files of the tree in walk
  order (`collectPaths_dataDir` for the call of `main`).
* `pathComponents_joinAll`: the components of a path built by `Path::join` are the names it was
  built from.
* `resolve_files`, `nodup_files`: in a tree whose directories list distinct names, each file of
  `files` is reached by its own names and by no other file's, so the paths of the walk are
  distinct, none is `log.txt`, and each opens the file it was listed for (`walk_openFile`).
-/

namespace StarNextImport

namespace Prototype

/-- A CSV record: its fields, as the reader of `create_reader` yields them. -/
abbrev Record := List (List Char)

/-- What the CSV reader over an open file yields: its records, each `none` where the reader
fails. -/
abbrev Contents := List (Option Record)

/-- An entry of a directory, as `fs::read_dir` lists it: a file, with its contents (`none` when
`File::open` fails on it), or a directory, with its own entries (`none` when `fs::read_dir`
fails on it). -/
inductive DirEntry where
  | file (name : List Char) (contents : Option Contents)
  | dir (name : List Char) (entries : Option (List DirEntry))

/-- `DirEntry::file_name`. -/
def DirEntry.name : DirEntry → List Char
  | .file name _ => name
  | .dir name _ => name

/-- `LOG`, the log file of the binary, which the walk leaves out. -/
def log : List Char := "log.txt".toList

/-- `Path::join` of a relative name, which `DirEntry::path` is: a `/` goes between, unless the
path is empty or already ends in one. -/
def joinPath (path name : List Char) : List Char :=
  match path.getLast? with
  | some '/' | none => path ++ name
  | some _ => path ++ '/' :: name

/-! ### `collect_paths` -/

mutual

/-- `collect_paths`: the paths of the files under `dir`, whose entries `fs::read_dir` gives as
`entries`, pushed onto `paths`.  `none` is the panic of `read_dir(dir).unwrap()`. -/
def collectPaths (dir : List Char) :
    Option (List DirEntry) → List (List Char) → Option (List (List Char))
  | none, _ => none
  | some entries, paths => collectEntries dir entries paths

/-- The `for` loop of `collect_paths` over the entries of `dir`. -/
def collectEntries (dir : List Char) :
    List DirEntry → List (List Char) → Option (List (List Char))
  | [], paths => some paths
  | entry :: entries, paths =>
    (collectEntry dir entry paths).bind fun paths => collectEntries dir entries paths

/-- One pass of the loop: an entry named `log.txt` is skipped, a directory is walked where it
stands, and the path of a file is pushed. -/
def collectEntry (dir : List Char) : DirEntry → List (List Char) → Option (List (List Char))
  | .file name _, paths => if name = log then some paths else some (paths ++ [joinPath dir name])
  | .dir name entries, paths =>
    if name = log then some paths else collectPaths (joinPath dir name) entries paths

end

/-! ### The files of a tree -/

/-- A file below a directory: the names that lead to it from the directory, and its contents. -/
abbrev FileAt := List (List Char) × Option Contents

mutual

/-- The files below a directory whose entries are `entries`, in the order of the walk: a
subdirectory's files where the subdirectory stands, and neither an entry named `log.txt` nor
what lies below one.  A directory that cannot be read has none. -/
def files : Option (List DirEntry) → List FileAt
  | none => []
  | some entries => filesOfEntries entries

/-- The files below a list of entries. -/
def filesOfEntries : List DirEntry → List FileAt
  | [] => []
  | entry :: entries => filesOfEntry entry ++ filesOfEntries entries

/-- The files an entry stands for. -/
def filesOfEntry : DirEntry → List FileAt
  | .file name contents => if name = log then [] else [([name], contents)]
  | .dir name entries => if name = log then [] else (files entries).map fun f => (name :: f.1, f.2)

end

mutual

/-- Every directory the walk enters can be read (those below an entry named `log.txt` are never
entered). -/
def readable : Option (List DirEntry) → Bool
  | none => false
  | some entries => readableEntries entries

/-- Every directory the walk enters from a list of entries can be read. -/
def readableEntries : List DirEntry → Bool
  | [] => true
  | entry :: entries => readableEntry entry && readableEntries entries

/-- Every directory the walk enters from an entry can be read. -/
def readableEntry : DirEntry → Bool
  | .file _ _ => true
  | .dir name entries => name = log || readable entries

end

/-- The path of a file from the directory and the names that lead to it. -/
def joinAll (dir : List Char) (names : List (List Char)) : List Char :=
  names.foldl joinPath dir

mutual

/-- **The walk lists the files of the tree**: it panics exactly when it enters a directory that
cannot be read, and otherwise appends the paths of `files`, in order. -/
theorem collectPaths_spec (dir : List Char) :
    ∀ (entries : Option (List DirEntry)) (paths : List (List Char)),
      collectPaths dir entries paths =
        if readable entries then some (paths ++ (files entries).map fun f => joinAll dir f.1)
        else none
  | none, _ => rfl
  | some entries, paths => collectEntries_spec dir entries paths

theorem collectEntries_spec (dir : List Char) :
    ∀ (entries : List DirEntry) (paths : List (List Char)),
      collectEntries dir entries paths =
        if readableEntries entries then
          some (paths ++ (filesOfEntries entries).map fun f => joinAll dir f.1)
        else none
  | [], paths => by simp [collectEntries, readableEntries, filesOfEntries]
  | entry :: entries, paths => by
    rw [collectEntries, collectEntry_spec dir entry paths, readableEntries, filesOfEntries]
    cases readableEntry entry
    · rfl
    · simp [collectEntries_spec dir entries]

theorem collectEntry_spec (dir : List Char) :
    ∀ (entry : DirEntry) (paths : List (List Char)),
      collectEntry dir entry paths =
        if readableEntry entry then
          some (paths ++ (filesOfEntry entry).map fun f => joinAll dir f.1)
        else none
  | .file name _, paths => by
    by_cases h : name = log <;> simp [collectEntry, readableEntry, filesOfEntry, h, joinAll]
  | .dir name entries, paths => by
    by_cases h : name = log
    · simp [collectEntry, readableEntry, filesOfEntry, h]
    · rw [collectEntry, if_neg h, collectPaths_spec (joinPath dir name) entries paths]
      simp [readableEntry, filesOfEntry, h, joinAll, Function.comp_def]

end

/-- The call of `main`, `collect_paths(&data_dir.into(), vec![])`. -/
theorem collectPaths_dataDir (dataDir : List Char) (root : Option (List DirEntry)) :
    collectPaths dataDir root [] =
      if readable root then some ((files root).map fun f => joinAll dataDir f.1) else none := by
  rw [collectPaths_spec]
  rfl

/-! ### Paths and names -/

/-- A name that `read_dir` can list: not empty, without `/`, and neither `.` nor `..`. -/
def validName (name : List Char) : Bool :=
  decide (name ≠ [] ∧ '/' ∉ name ∧ name ≠ ['.'] ∧ name ≠ ['.', '.'])

/-- The names of a listed path are the components of the directory and then the name. -/
theorem pathComponents_joinPath (dir : List Char) {name : List Char}
    (h : validName name = true) :
    pathComponents (joinPath dir name) = pathComponents dir ++ [name] := by
  simp only [validName, decide_eq_true_eq] at h
  obtain ⟨hne, hslash, hdot, -⟩ := h
  have hsplit : name.splitOn '/' = [name] :=
    List.splitOnP_eq_single _ _ fun c hc h => hslash (by rwa [eq_of_beq h] at hc)
  have hkeep : decide (name ≠ [] ∧ name ≠ ['.']) = true := by simp [hne, hdot]
  have hcomp : ∀ ys : List Char, pathComponents (ys ++ '/' :: name) =
      pathComponents ys ++ [name] := fun ys => by
    simp only [pathComponents, splitOn_append_cons, hsplit, List.filter_append,
      List.filter_singleton, hkeep, cond_true]
  unfold joinPath
  split
  · next hlast =>
    obtain ⟨ys, rfl⟩ := List.getLast?_eq_some_iff.1 hlast
    rw [List.append_assoc, List.singleton_append, hcomp]
    simp [pathComponents, splitOn_append_cons]
  · next hlast =>
    rw [List.getLast?_eq_none_iff.1 hlast]
    simp [pathComponents, hsplit, hne, hdot]
  · exact hcomp dir

theorem pathComponents_joinAll (dir : List Char) {names : List (List Char)}
    (h : ∀ n ∈ names, validName n = true) :
    pathComponents (joinAll dir names) = pathComponents dir ++ names := by
  induction names generalizing dir with
  | nil => simp [joinAll]
  | cons n ns ih =>
    rw [joinAll, List.foldl_cons, ← joinAll, ih _ fun m hm => h m (List.mem_cons_of_mem n hm),
      pathComponents_joinPath dir (h n (List.mem_cons_self n ns)), List.append_assoc,
      List.singleton_append]

/-! ### The tree as `File::open` sees it -/

mutual

/-- The names of every directory are distinct names `read_dir` can list. -/
def wellFormed : Option (List DirEntry) → Bool
  | none => true
  | some entries => decide (entries.map DirEntry.name).Nodup && wellFormedEntries entries

/-- Every entry of the list has a name `read_dir` can list, and so on below. -/
def wellFormedEntries : List DirEntry → Bool
  | [] => true
  | entry :: entries => wellFormedEntry entry && wellFormedEntries entries

/-- The entry has a name `read_dir` can list, and so on below. -/
def wellFormedEntry : DirEntry → Bool
  | .file name _ => validName name
  | .dir name entries => validName name && wellFormed entries

end

/-- The tree below `DATA_DIR`: the names of each directory are distinct names that `read_dir`
can list. -/
structure FileSystem where
  dataDir : List Char
  root : Option (List DirEntry)
  wellFormed_root : wellFormed root = true

mutual

/-- The contents of the file that `names` lead to below a directory. -/
def resolve : Option (List DirEntry) → List (List Char) → Option Contents
  | none, _ => none
  | some entries, names => resolveEntries entries names

/-- The contents of the file that `names` lead to, from the entry named by the first name. -/
def resolveEntries : List DirEntry → List (List Char) → Option Contents
  | [], _ => none
  | entry :: entries, names =>
    if names.head? = some entry.name then resolveEntry entry names.tail
    else resolveEntries entries names

/-- The contents of the file that the rest of the names lead to from an entry. -/
def resolveEntry : DirEntry → List (List Char) → Option Contents
  | .file _ contents, [] => contents
  | .dir _ entries, name :: names => resolve entries (name :: names)
  | _, _ => none

end

/-- `File::open` of a path below `DATA_DIR`: the file its components lead to.  `none` is an
`Err`. -/
def openFile (fs : FileSystem) (path : List Char) : Option Contents :=
  let base := pathComponents fs.dataDir
  let names := pathComponents path
  if base.isPrefixOf names then resolve fs.root (names.drop base.length) else none

/-! ### Each path of the walk opens its own file -/

theorem head_of_mem_filesOfEntry {entry : DirEntry} {f : FileAt}
    (h : f ∈ filesOfEntry entry) : f.1.head? = some entry.name := by
  cases entry with
  | file name contents =>
    rw [filesOfEntry] at h
    split_ifs at h
    · cases h
    · rw [List.mem_singleton.1 h]; rfl
  | dir name entries =>
    rw [filesOfEntry] at h
    split_ifs at h
    · cases h
    · obtain ⟨g, -, rfl⟩ := List.mem_map.1 h; rfl

theorem exists_head_of_mem_filesOfEntries {entries : List DirEntry} {f : FileAt}
    (h : f ∈ filesOfEntries entries) : ∃ e ∈ entries, f.1.head? = some e.name := by
  induction entries with
  | nil => cases h
  | cons e es ih =>
    rcases List.mem_append.1 h with h | h
    · exact ⟨e, List.mem_cons_self e es, head_of_mem_filesOfEntry h⟩
    · obtain ⟨e', he', hh⟩ := ih h
      exact ⟨e', List.mem_cons_of_mem e he', hh⟩

theorem ne_nil_of_mem_files {entries : Option (List DirEntry)} {f : FileAt}
    (h : f ∈ files entries) : f.1 ≠ [] := by
  cases entries with
  | none => cases h
  | some entries =>
    obtain ⟨e, -, hh⟩ := exists_head_of_mem_filesOfEntries h
    rintro he
    rw [he] at hh
    cases hh

/-- A name of an entry after `entry` is not the name of `entry`. -/
theorem head_ne_of_nodup {entry : DirEntry} {entries : List DirEntry} {f : FileAt}
    (hnd : entry.name ∉ entries.map DirEntry.name) (h : f ∈ filesOfEntries entries) :
    f.1.head? ≠ some entry.name := by
  obtain ⟨e, he, hh⟩ := exists_head_of_mem_filesOfEntries h
  rw [hh]
  intro h
  exact hnd (Option.some.inj h ▸ List.mem_map_of_mem DirEntry.name he)

mutual

/-- In a well-formed tree, the names of each file of `files` lead to it, are names `read_dir`
can list, and end in a name other than `log.txt`. -/
theorem resolve_files : ∀ (entries : Option (List DirEntry)), wellFormed entries = true →
    ∀ f ∈ files entries, resolve entries f.1 = f.2 ∧ (∀ n ∈ f.1, validName n = true) ∧
      f.1.getLast? ≠ some log
  | none, _, f, hf => absurd hf (List.not_mem_nil f)
  | some entries, hw, f, hf => by
    simp only [wellFormed, Bool.and_eq_true, decide_eq_true_eq] at hw
    exact resolveEntries_files entries hw.1 hw.2 f hf

theorem resolveEntries_files : ∀ (entries : List DirEntry),
    (entries.map DirEntry.name).Nodup → wellFormedEntries entries = true →
    ∀ f ∈ filesOfEntries entries,
      resolveEntries entries f.1 = f.2 ∧ (∀ n ∈ f.1, validName n = true) ∧
        f.1.getLast? ≠ some log
  | [], _, _, f, hf => absurd hf (List.not_mem_nil f)
  | entry :: entries, hnd, hw, f, hf => by
    rw [wellFormedEntries, Bool.and_eq_true] at hw
    rw [List.map_cons, List.nodup_cons] at hnd
    rw [resolveEntries]
    rcases List.mem_append.1 hf with hf | hf
    · rw [if_pos (head_of_mem_filesOfEntry hf)]
      exact resolveEntry_files entry hw.1 f hf
    · rw [if_neg (head_ne_of_nodup hnd.1 hf)]
      exact resolveEntries_files entries hnd.2 hw.2 f hf

theorem resolveEntry_files : ∀ (entry : DirEntry), wellFormedEntry entry = true →
    ∀ f ∈ filesOfEntry entry, resolveEntry entry f.1.tail = f.2 ∧
      (∀ n ∈ f.1, validName n = true) ∧ f.1.getLast? ≠ some log
  | .file name contents, hw, f, hf => by
    rw [filesOfEntry] at hf
    split_ifs at hf with hlog
    · cases hf
    · rw [List.mem_singleton.1 hf]
      exact ⟨rfl, by simpa [wellFormedEntry] using hw, fun h => hlog (Option.some.inj h)⟩
  | .dir name entries, hw, f, hf => by
    rw [wellFormedEntry, Bool.and_eq_true] at hw
    rw [filesOfEntry] at hf
    split_ifs at hf
    · cases hf
    · obtain ⟨g, hg, rfl⟩ := List.mem_map.1 hf
      obtain ⟨hr, hv, hlast⟩ := resolve_files entries hw.2 g hg
      obtain ⟨n, ns, hns⟩ := List.exists_cons_of_ne_nil (ne_nil_of_mem_files hg)
      refine ⟨?_, List.forall_mem_cons.2 ⟨hw.1, hv⟩, ?_⟩
      · rw [List.tail_cons, hns, resolveEntry, ← hns, hr]
      · rwa [hns, List.getLast?_cons_cons, ← hns]

end

mutual

/-- In a well-formed tree, no two files of `files` have the same names. -/
theorem nodup_files : ∀ (entries : Option (List DirEntry)), wellFormed entries = true →
    ((files entries).map Prod.fst).Nodup
  | none, _ => List.nodup_nil
  | some entries, hw => by
    simp only [wellFormed, Bool.and_eq_true, decide_eq_true_eq] at hw
    exact nodup_filesOfEntries entries hw.1 hw.2

theorem nodup_filesOfEntries : ∀ (entries : List DirEntry),
    (entries.map DirEntry.name).Nodup → wellFormedEntries entries = true →
    ((filesOfEntries entries).map Prod.fst).Nodup
  | [], _, _ => List.nodup_nil
  | entry :: entries, hnd, hw => by
    rw [wellFormedEntries, Bool.and_eq_true] at hw
    rw [List.map_cons, List.nodup_cons] at hnd
    rw [filesOfEntries, List.map_append, List.nodup_append]
    refine ⟨nodup_filesOfEntry entry hw.1, nodup_filesOfEntries entries hnd.2 hw.2, ?_⟩
    intro a ha hb
    obtain ⟨f, hf, rfl⟩ := List.mem_map.1 ha
    obtain ⟨g, hg, hgf⟩ := List.mem_map.1 hb
    exact head_ne_of_nodup hnd.1 hg (by rw [hgf]; exact head_of_mem_filesOfEntry hf)

theorem nodup_filesOfEntry : ∀ (entry : DirEntry), wellFormedEntry entry = true →
    ((filesOfEntry entry).map Prod.fst).Nodup
  | .file name contents, _ => by
    rw [filesOfEntry]
    split_ifs
    · exact List.nodup_nil
    · exact List.nodup_singleton _
  | .dir name entries, hw => by
    rw [wellFormedEntry, Bool.and_eq_true] at hw
    rw [filesOfEntry]
    split_ifs
    · exact List.nodup_nil
    · have h := (nodup_files entries hw.2).map
        (List.cons_injective : Function.Injective (List.cons name))
      rw [List.map_map] at h ⊢
      exact h

end

/-- `File::open` of a path built from valid names follows those names from `DATA_DIR`. -/
theorem openFile_joinAll (fs : FileSystem) {names : List (List Char)}
    (h : ∀ n ∈ names, validName n = true) :
    openFile fs (joinAll fs.dataDir names) = resolve fs.root names := by
  have hpre : (pathComponents fs.dataDir).isPrefixOf (pathComponents fs.dataDir ++ names) :=
    List.isPrefixOf_iff_prefix.2 (List.prefix_append _ _)
  simp only [openFile, pathComponents_joinAll _ h, hpre, if_true, List.drop_left]

/-- The file name of a path built from valid names is its last name. -/
theorem fileName_joinAll (dir : List Char) {names : List (List Char)}
    (h : ∀ n ∈ names, validName n = true) (hne : names ≠ []) :
    fileName (joinAll dir names) = names.getLast? := by
  obtain ⟨n, hn⟩ := Option.ne_none_iff_exists'.1 (mt List.getLast?_eq_none_iff.1 hne)
  have hdotdot : n ≠ ['.', '.'] := by
    have := h n (List.mem_of_getLast?_eq_some hn)
    simp only [validName, decide_eq_true_eq] at this
    exact this.2.2.2
  rw [fileName, pathComponents_joinAll dir h, List.getLast?_append, hn]
  dsimp only [Option.or]
  split
  · next heq => exact absurd (Option.some.inj heq) hdotdot
  · rfl

/-- **Every path of the walk opens its own file**: the paths that `collect_paths` returns for
`DATA_DIR` are distinct, none of them names `log.txt`, and `File::open` of each gives the file of
the tree it was listed for. -/
theorem walk_openFile (fs : FileSystem) {paths : List (List Char)}
    (h : collectPaths fs.dataDir fs.root [] = some paths) :
    paths.Nodup ∧ ∀ p ∈ paths, fileName p ≠ some log ∧
      ∃ f ∈ files fs.root, p = joinAll fs.dataDir f.1 ∧ openFile fs p = f.2 := by
  rw [collectPaths_spec, List.nil_append] at h
  split_ifs at h
  obtain rfl := Option.some.inj h.symm
  have hf := resolve_files fs.root fs.wellFormed_root
  refine ⟨?_, fun p hp => ?_⟩
  · rw [← Function.comp_def (joinAll fs.dataDir) Prod.fst, ← List.map_map]
    refine (nodup_files fs.root fs.wellFormed_root).map_on fun a ha b hb hab => ?_
    obtain ⟨f, hmf, rfl⟩ := List.mem_map.1 ha
    obtain ⟨g, hmg, rfl⟩ := List.mem_map.1 hb
    have hc := congrArg pathComponents hab
    rwa [pathComponents_joinAll _ (hf f hmf).2.1, pathComponents_joinAll _ (hf g hmg).2.1,
      List.append_cancel_left_eq] at hc
  · obtain ⟨f, hmem, rfl⟩ := List.mem_map.1 hp
    obtain ⟨hr, hv, hlast⟩ := hf f hmem
    rw [fileName_joinAll _ hv (ne_nil_of_mem_files hmem), openFile_joinAll fs hv, hr]
    exact ⟨hlast, f, hmem, rfl, rfl⟩

theorem walk_openFile_data :
    collectPaths "data".toList (some [.file log none,
        .dir "vehicles".toList (some [.file "a.txt".toList (some []), .dir log none])]) [] =
      some ["data/vehicles/a.txt".toList] ∧
    ["data/vehicles/a.txt".toList].Nodup ∧ ∀ p ∈ ["data/vehicles/a.txt".toList],
      fileName p ≠ some log ∧
        ∃ f ∈ files (some [.file log none,
          .dir "vehicles".toList (some [.file "a.txt".toList (some []), .dir log none])]),
          p = joinAll "data".toList f.1 ∧
          openFile ⟨"data".toList, some [.file log none,
            .dir "vehicles".toList (some [.file "a.txt".toList (some []), .dir log none])],
            by decide⟩ p = f.2 :=
  have h : collectPaths "data".toList (some [.file log none,
      .dir "vehicles".toList (some [.file "a.txt".toList (some []), .dir log none])]) [] =
      some ["data/vehicles/a.txt".toList] := by decide
  ⟨h, walk_openFile ⟨_, _, by decide⟩ h⟩

end Prototype

end StarNextImport
