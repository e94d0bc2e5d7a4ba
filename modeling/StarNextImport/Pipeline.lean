import StarNextImport.Walk
import StarNextImport.Time

/-!
# StarNextImport.Pipeline — the file loop of `main.rs`

`main` of the prototype binary opens each path that `collect_paths` lists, reads the count type
twice, from the name of the directory that holds the file (`CountType::from_location`) and from
its header record (`CountType::from_header`), and extracts the vehicle rows of a file whose two
types agree (`extract_counts`).  Every `unwrap` on the way is a panic, `none` here.

The parsers `extract_counts` takes from other crates, `Date::parse` and `Time::parse` of the
`time` crate and `f32::from_str`, are parameters (`FieldParsers`); `u8::from_str` is `parseU8`.

* `extractCounts_eq`: the loop of `extract_counts` reads one vehicle from each row after the
  header of a vehicle count, and none from any other count, whose rows must still have a date
  and a time that parse.
* `mainStep_eq`: one pass of the loop of `main` appends what `processFile` reads from the file:
  `from_header` only ever returns `Vehicle`, so a file in a `vehicles` directory without the
  header makes `main` panic, and the check for a mismatch only skips a bicycle or pedestrian file
  whose ninth record is the vehicle header.
* `main_eq`: `main` is the walk of `DATA_DIR` followed by `processFile` on every file of the tree,
  each read from its own contents; `main_eq_none_of_unknown_directory`: a file anywhere below
  `DATA_DIR` in a directory of another name makes `main` panic; `main_perm`: the order in which
  `read_dir` lists entries changes only the order of the counts `main` prints.
-/

namespace StarNextImport

namespace Prototype

/-! ### The count type of a file -/

/-- `CountType` of `main.rs`. -/
inductive CountType where
  | fifteenMinuteBicycle
  | fifteenMinutePedestrian
  | vehicle
  deriving DecidableEq, Repr

/-- A path as `{:?}` prints it, in double quotes (the escapes of `char::escape_debug` left
out). -/
def debugPath (path : List Char) : List Char := "\"".toList ++ path ++ "\"".toList

/-- The components a path starts with before its names, as `Path::components` yields them: the
root `/`, or a leading `.`. -/
def startDir (path : List Char) : List (List Char) :=
  if path.head? = some '/' then ["/".toList]
  else if path.head? = some '.' ∧ (path.tail = [] ∨ path.tail.head? = some '/') then [".".toList]
  else []

/-- `Path::components`, each as its `as_os_str`. -/
def components (path : List Char) : List (List Char) :=
  startDir path ++ pathComponents path

/-- `str::to_lowercase` for the comparisons of `from_location`: `Char.toLower` lowers `A` to `Z`;
of the other characters only the Kelvin sign lowers to an ASCII letter, `k`, which none of the
three directory names has. -/
def toLowercase (s : List Char) : List Char := s.map Char.toLower

/-- `CountType::from_location`: the count type named by the directory immediately above the
file.  `none` is a panic of `parent().unwrap()` or of `components().last().unwrap()`. -/
def CountType.fromLocation (path : List Char) : Option (Except (List Char) CountType) :=
  (components path).dropLast.getLast?.map fun parent =>
    if toLowercase parent = "15minutebicycle".toList then .ok .fifteenMinuteBicycle
    else if toLowercase parent = "15minutepedestrian".toList then .ok .fifteenMinutePedestrian
    else if toLowercase parent = "vehicles".toList then .ok .vehicle
    else .error ("No matching count type for directory ".toList ++ debugPath path)

/-- `VEHICLE_COUNT_HEADER`. -/
def vehicleCountHeader : List Char := "Veh. No.,Date,Time,Channel,Class,Speed".toList

/-- `num_metadata_rows_to_skip`. -/
def numMetadataRowsToSkip : CountType → Nat
  | .vehicle => 3
  | _ => 8

/-- `char::is_whitespace`: the characters of Unicode's `White_Space`. -/
def isWhitespace (c : Char) : Bool :=
  c.toNat ∈ [9, 10, 11, 12, 13, 32, 0x85, 0xA0, 0x1680, 0x2028, 0x2029, 0x202F, 0x205F,
    0x3000] || (0x2000 ≤ c.toNat && c.toNat ≤ 0x200A)

/-- `str::trim`. -/
def trim (s : List Char) : List Char :=
  ((s.dropWhile isWhitespace).reverse.dropWhile isWhitespace).reverse

/-- `CountType::from_header`: the trimmed fields of the record after the metadata rows of
`location_count_type`, joined by commas, against `VEHICLE_COUNT_HEADER`.  `none` is a panic: of
`File::open(path).unwrap()`, of `.last().unwrap()` on a file without that record, or of the
`unwrap` of a record the reader fails on. -/
def CountType.fromHeader (openFile : List Char → Option Contents) (path : List Char)
    (locationCountType : CountType) : Option (Except (List Char) CountType) := do
  let file ← openFile path
  let record ← (file.drop (numMetadataRowsToSkip locationCountType)).head?
  let fields ← record
  if [','].intercalate (fields.map trim) = vehicleCountHeader then pure (.ok .vehicle)
  else pure (.error ("No matching count type for header in ".toList ++ debugPath path ++ ['.']))

/-! ### `extract_counts` -/

/-- The loop of `u8::from_str_radix(src, 10)`: `result * 10 + digit` for each character, failing
on a character that is not a decimal digit or past `u8::MAX`. -/
def accumulateU8 (result : Nat) : List Char → Option (BitVec 8)
  | [] => some (BitVec.ofNat 8 result)
  | c :: cs =>
    let r := result * 10 + (c.toNat - 48)
    if c.isDigit ∧ r < 256 then accumulateU8 r cs else none

/-- `u8::from_str`: an optional `+`, then at least one decimal digit. -/
def parseU8 : List Char → Option (BitVec 8)
  | [] => none
  | ['+'] => none
  | ['-'] => none
  | '+' :: digits => accumulateU8 0 digits
  | digits => accumulateU8 0 digits

/-- `VehicleClass::from_num` of `main.rs`, whose enum has the variants of the one of `lib.rs`
and the same table; only the error differs, a `String`. -/
def VehicleClass.fromNum (num : BitVec 8) : Except (List Char) VehicleClass :=
  (StarNextImport.VehicleClass.fromNum num).mapError fun _ =>
    "no such vehicle class \x27".toList ++ (Nat.repr num.toNat).toList ++ "\x27".toList

/-- `VehicleCount` of `main.rs`: one vehicle of the raw, unbinned data. -/
structure VehicleCount where
  date : Date
  time : Time
  channel : BitVec 8
  «class» : VehicleClass
  speed : F32
  deriving DecidableEq, Repr

/-- `VehicleCount::new`: `none` is the panic of `VehicleClass::from_num(class).unwrap()`. -/
def VehicleCount.new (date : Date) (time : Time) (channel «class» : BitVec 8) (speed : F32) :
    Option VehicleCount :=
  (VehicleClass.fromNum «class»).toOption.map fun «class» => ⟨date, time, channel, «class», speed⟩

/-- The parsers that `extract_counts` calls from other crates: `Date::parse` with the format
`[month padding:none]/[day padding:none]/[year]`, `Time::parse` with the format
`[hour padding:none repr:12]:[minute]:[second] [period]`, and `f32::from_str`. -/
structure FieldParsers where
  date : List Char → Option Date
  time : List Char → Option Time
  speed : List Char → Option F32

/-- One pass of the loop of `extract_counts` over a data row.  `none` is a panic: on a record the
reader failed on, a missing field, or a field that does not parse. -/
def extractRow (parsers : FieldParsers) (countType : CountType) (counts : List VehicleCount)
    (row : Option Record) : Option (List VehicleCount) := do
  let row ← row
  let countDate ← row[1]?.bind parsers.date
  let countTime ← row[2]?.bind parsers.time
  if countType = .vehicle then
    let channel ← row[3]?.bind parseU8
    let «class» ← row[4]?.bind parseU8
    let speed ← row[5]?.bind parsers.speed
    let count ← VehicleCount.new countDate countTime channel «class» speed
    pure (counts ++ [count])
  else pure counts

/-- `extract_counts`: the rows after the metadata rows and the header. -/
def extractCounts (parsers : FieldParsers) (dataFile : Contents) (countType : CountType) :
    Option (List VehicleCount) :=
  (dataFile.drop (numMetadataRowsToSkip countType + 1)).foldlM (extractRow parsers countType) []

/-! ### `main` -/

/-- One pass of the loop of `main` over the collected paths: a file that cannot be opened is
skipped, and so is one whose two count types differ; the counts of any other are appended. -/
def mainStep (openFile : List Char → Option Contents) (parsers : FieldParsers)
    (counts : List VehicleCount) (path : List Char) : Option (List VehicleCount) :=
  match openFile path with
  | none => some counts
  | some dataFile => do
    let countTypeFromLocation ← (CountType.fromLocation path).bind Except.toOption
    let countTypeFromHeader ←
      (CountType.fromHeader openFile path countTypeFromLocation).bind Except.toOption
    if countTypeFromLocation ≠ countTypeFromHeader then pure counts
    else
      let fileCounts ← extractCounts parsers dataFile countTypeFromLocation
      pure (counts ++ fileCounts)

/-- `main` after its set-up: the counts it prints, in order, or `none` for a panic. -/
def main (fs : FileSystem) (parsers : FieldParsers) : Option (List VehicleCount) := do
  let paths ← collectPaths fs.dataDir fs.root []
  paths.foldlM (mainStep (openFile fs) parsers) []

/-! ### A loop that appends -/

/-- A loop whose pass appends what `g` reads from the element is `mapM g`, flattened. -/
theorem foldlM_eq_mapM {α γ β : Type} (step : List β → α → Option (List β))
    (g : α → Option γ) (h : γ → List β) (hstep : ∀ acc x, step acc x = (g x).map (acc ++ h ·)) :
    ∀ (xs : List α) (acc : List β),
      xs.foldlM step acc = (xs.mapM g).map fun ys => acc ++ ys.flatMap h
  | [], acc => by rw [List.foldlM_nil, List.mapM_nil]; simp [pure]
  | x :: xs, acc => by
    rw [List.foldlM_cons, hstep, List.mapM_cons]
    cases g x with
    | none => rfl
    | some y =>
      simp only [Option.map_some', Option.some_bind, foldlM_eq_mapM step g h hstep xs]
      cases xs.mapM g <;> simp [pure]

theorem mapM_map_congr {α β γ : Type} {f : α → β} {g : β → Option γ} {g' : α → Option γ} :
    ∀ {l : List α}, (∀ a ∈ l, g (f a) = g' a) → (l.map f).mapM g = l.mapM g'
  | [], _ => rfl
  | a :: l, h => by
    rw [List.map_cons, List.mapM_cons, List.mapM_cons, h a (List.mem_cons_self a l),
      mapM_map_congr fun b hb => h b (List.mem_cons_of_mem a hb)]

/-- `mapM` in `Option` fails exactly when it fails on an element. -/
theorem mapM_eq_none_iff {α γ : Type} {g : α → Option γ} :
    ∀ {l : List α}, l.mapM g = none ↔ ∃ a ∈ l, g a = none
  | [] => by rw [List.mapM_nil]; simp [pure]
  | b :: l => by
    rw [List.mapM_cons, List.exists_mem_cons_iff, ← mapM_eq_none_iff]
    cases g b <;> cases l.mapM g <;> simp [pure]

/-- What a `mapM` in `Option` returns is what `g` reads from each element, in order. -/
theorem mapM_eq_some_filterMap {α γ : Type} {g : α → Option γ} :
    ∀ {l : List α} {ys : List γ}, l.mapM g = some ys → ys = l.filterMap g
  | [], _, h => by rw [List.mapM_nil] at h; cases h; rfl
  | b :: l, ys, h => by
    simp only [List.mapM_cons, Option.bind_eq_bind, Option.bind_eq_some] at h
    obtain ⟨y, hb, zs, hl, h⟩ := h
    cases h
    rw [List.filterMap_cons_some hb, ← mapM_eq_some_filterMap hl]

/-- A `mapM` in `Option` over a permuted list fails together with the original, and otherwise
returns a permutation of what the original returns. -/
theorem mapM_perm {α γ : Type} {g : α → Option γ} {l l' : List α} (hp : l.Perm l') :
    (l.mapM g = none ↔ l'.mapM g = none) ∧
      ∀ ys ys', l.mapM g = some ys → l'.mapM g = some ys' → ys.Perm ys' := by
  refine ⟨by simp only [mapM_eq_none_iff, hp.mem_iff], fun ys ys' h h' => ?_⟩
  rw [mapM_eq_some_filterMap h, mapM_eq_some_filterMap h']
  exact hp.filterMap g

/-! ### What `extract_counts` reads -/

/-- A data row of a vehicle count, as `extract_counts` reads it. -/
def parseRow (parsers : FieldParsers) (row : Option Record) : Option VehicleCount := do
  let row ← row
  let countDate ← row[1]?.bind parsers.date
  let countTime ← row[2]?.bind parsers.time
  let channel ← row[3]?.bind parseU8
  let «class» ← row[4]?.bind parseU8
  let speed ← row[5]?.bind parsers.speed
  VehicleCount.new countDate countTime channel «class» speed

/-- The date and time of a data row, which `extract_counts` parses whatever the count type. -/
def rowStamp (parsers : FieldParsers) (row : Option Record) : Option (Date × Time) := do
  let row ← row
  let countDate ← row[1]?.bind parsers.date
  let countTime ← row[2]?.bind parsers.time
  pure (countDate, countTime)

theorem extractRow_vehicle (parsers : FieldParsers) (counts : List VehicleCount)
    (row : Option Record) :
    extractRow parsers .vehicle counts row = (parseRow parsers row).map (counts ++ [·]) := by
  simp only [extractRow, parseRow, if_true, Option.bind_eq_bind, Option.map_bind, Function.comp_def]
  simp only [Option.map_eq_bind, Function.comp_def]
  rfl

theorem extractRow_of_ne_vehicle (parsers : FieldParsers) {countType : CountType}
    (h : countType ≠ .vehicle) (counts : List VehicleCount) (row : Option Record) :
    extractRow parsers countType counts row = (rowStamp parsers row).map fun _ => counts := by
  simp [extractRow, rowStamp, h]

/-- **`extract_counts` reads one vehicle from each data row of a vehicle count**, after its four
records of metadata and header, and panics on a row it cannot read; it reads none from any other
count, but still panics on a row after the nine first whose date or time does not parse. -/
theorem extractCounts_eq (parsers : FieldParsers) (dataFile : Contents)
    (countType : CountType) :
    extractCounts parsers dataFile countType =
      if countType = .vehicle then (dataFile.drop 4).mapM (parseRow parsers)
      else ((dataFile.drop 9).mapM (rowStamp parsers)).map fun _ => [] := by
  split_ifs with h
  · subst h
    rw [extractCounts, foldlM_eq_mapM _ (parseRow parsers) (fun c => [c])
      (extractRow_vehicle parsers)]
    exact (Option.map_congr fun ys _ => by rw [List.nil_append, List.flatMap_singleton']).trans
      Option.map_id'
  · have h8 : numMetadataRowsToSkip countType = 8 := by
      cases countType
      all_goals first | rfl | exact absurd rfl h
    rw [extractCounts, h8, foldlM_eq_mapM _ (rowStamp parsers) (fun _ => []) fun acc row => by
      rw [extractRow_of_ne_vehicle parsers h]; simp only [List.append_nil]]
    exact Option.map_congr fun ys _ => by simp

/-! ### What `main` reads from a file -/

/-- What `main` takes from one file, read from the file's own contents: nothing from a file that
cannot be opened; the data rows of a file in a `vehicles` directory whose fourth record is the
vehicle header; nothing from a file in a `15minutebicycle` or `15minutepedestrian` directory
whose ninth record is the vehicle header (the two count types differ); and a panic on any other
file. -/
def processFile (parsers : FieldParsers) (path : List Char) :
    Option Contents → Option (List VehicleCount)
  | none => some []
  | some dataFile => do
    let countType ← (CountType.fromLocation path).bind Except.toOption
    let record ← (dataFile.drop (numMetadataRowsToSkip countType)).head?
    let fields ← record
    if [','].intercalate (fields.map trim) = vehicleCountHeader then
      if countType = .vehicle then extractCounts parsers dataFile .vehicle else some []
    else none

/-- **One pass of the loop of `main` appends what `processFile` reads from the file**: as
`from_header` only ever returns `Vehicle`, the check for a mismatch skips exactly the bicycle and
pedestrian files with the vehicle header, and every other failure of a check is a panic. -/
theorem mainStep_eq (openFile : List Char → Option Contents) (parsers : FieldParsers)
    (counts : List VehicleCount) (path : List Char) :
    mainStep openFile parsers counts path =
      (processFile parsers path (openFile path)).map (counts ++ ·) := by
  unfold mainStep
  cases hopen : openFile path with
  | none => simp [processFile]
  | some dataFile =>
    simp only [processFile, CountType.fromHeader, hopen, Option.bind_eq_bind, Option.some_bind]
    cases (CountType.fromLocation path).bind Except.toOption with
    | none => rfl
    | some loc =>
      simp only [Option.some_bind]
      cases (dataFile.drop (numMetadataRowsToSkip loc)).head? with
      | none => rfl
      | some record =>
        cases record with
        | none => rfl
        | some fields =>
          by_cases hh : [','].intercalate (fields.map trim) = vehicleCountHeader
          · by_cases hv : loc = .vehicle
            · subst hv; simp [hh, Except.toOption, Option.map_eq_bind, Function.comp_def]
            · simp [hh, hv, Except.toOption, Ne.symm hv]
          · simp [hh, Except.toOption]

/-! ### `main` -/

/-- A listed path starts as its directory does. -/
theorem startDir_joinPath (dir : List Char) {name : List Char} (h : validName name = true) :
    startDir (joinPath dir name) = startDir dir := by
  simp only [validName, decide_eq_true_eq] at h
  obtain ⟨hne, hslash, hdot, -⟩ := h
  unfold joinPath
  split
  · next hlast =>
    obtain ⟨ys, rfl⟩ := List.getLast?_eq_some_iff.1 hlast
    rcases ys with _ | ⟨c, _ | ⟨d, cs⟩⟩ <;> simp [startDir]
  · next hlast =>
    rw [List.getLast?_eq_none_iff.1 hlast]
    rcases name with _ | ⟨c, cs⟩
    · exact absurd rfl hne
    · have hc : c ≠ '/' := fun h => hslash (h ▸ List.mem_cons_self c cs)
      have hcs : cs.head? ≠ some '/' := fun h =>
        hslash (List.mem_cons_of_mem c (List.mem_of_mem_head? h))
      simp only [startDir, List.nil_append, List.head?_cons, List.head?_nil, List.tail_cons,
        Option.some.injEq, hc, hcs, or_false, if_false, reduceCtorEq, false_and]
      rw [if_neg]
      rintro ⟨rfl, rfl⟩
      exact hdot rfl
  · rcases dir with _ | ⟨c, _ | ⟨d, cs⟩⟩
    · simp_all
    all_goals simp [startDir]

theorem components_joinAll (dir : List Char) {names : List (List Char)}
    (h : ∀ n ∈ names, validName n = true) :
    components (joinAll dir names) = components dir ++ names := by
  induction names generalizing dir with
  | nil => simp [joinAll]
  | cons n ns ih =>
    have hn := h n (List.mem_cons_self n ns)
    rw [joinAll, List.foldl_cons, ← joinAll, ih _ fun m hm => h m (List.mem_cons_of_mem n hm),
      components, components, startDir_joinPath dir hn, pathComponents_joinPath dir hn]
    simp

/-- A path whose directory is none of the three names makes `from_location` fail or panic. -/
theorem fromLocation_bind_eq_none {path : List Char}
    (h : ∀ dirName ∈ (components path).dropLast.getLast?, toLowercase dirName ∉
      ["15minutebicycle".toList, "15minutepedestrian".toList, "vehicles".toList]) :
    (CountType.fromLocation path).bind Except.toOption = none := by
  unfold CountType.fromLocation
  cases hd : (components path).dropLast.getLast? with
  | none => rfl
  | some d =>
    have hn := h d hd
    simp only [List.mem_cons, List.not_mem_nil, or_false, not_or] at hn
    rw [Option.map_some', Option.some_bind, if_neg hn.1, if_neg hn.2.1, if_neg hn.2.2]
    rfl

/-- `main` as a `mapM` of `processFile` over the paths of the walk. -/
theorem main_eq_mapM (fs : FileSystem) (parsers : FieldParsers) :
    main fs parsers = (collectPaths fs.dataDir fs.root []).bind fun paths =>
      (paths.mapM fun p => processFile parsers p (openFile fs p)).map List.flatten := by
  simp only [main, Option.bind_eq_bind]
  congr 1
  funext paths
  rw [foldlM_eq_mapM _ _ id (mainStep_eq (openFile fs) parsers)]
  exact Option.map_congr fun ys _ => by simp

/-- Opening the paths of the walk gives back the contents of the files of the tree. -/
theorem mapM_openFile_files (fs : FileSystem) (parsers : FieldParsers) :
    ((files fs.root).map fun f => joinAll fs.dataDir f.1).mapM
        (fun p => processFile parsers p (openFile fs p)) =
      (files fs.root).mapM fun f => processFile parsers (joinAll fs.dataDir f.1) f.2 :=
  mapM_map_congr fun f hf => by
    obtain ⟨hr, hv, -⟩ := resolve_files fs.root fs.wellFormed_root f hf
    rw [openFile_joinAll fs hv, hr]

/-- **`main` reads every file of the tree from its own contents**: it panics when the walk does,
and otherwise prints, in the order of the walk, what `processFile` reads from each file below
`DATA_DIR`. -/
theorem main_eq (fs : FileSystem) (parsers : FieldParsers) :
    main fs parsers =
      if readable fs.root then
        ((files fs.root).mapM fun f => processFile parsers (joinAll fs.dataDir f.1) f.2).map
          List.flatten
      else none := by
  rw [main_eq_mapM, collectPaths_spec, List.nil_append]
  split_ifs
  · rw [Option.some_bind, mapM_openFile_files]
  · rfl

/-- **A file in a directory of another name makes `main` panic**: a file anywhere below
`DATA_DIR` that opens, in a directory whose name is none of `15minutebicycle`,
`15minutepedestrian` and `vehicles` in any case (`DATA_DIR` itself for a file directly in it),
makes `CountType::from_location(&path).unwrap()` panic; only `log.txt` is left out by the walk. -/
theorem main_eq_none_of_unknown_directory (fs : FileSystem) (parsers : FieldParsers)
    {f : FileAt} {dataFile : Contents} (hf : f ∈ files fs.root) (hopen : f.2 = some dataFile)
    (hdir : ∀ dirName ∈ (components fs.dataDir ++ f.1).dropLast.getLast?, toLowercase dirName ∉
      ["15minutebicycle".toList, "15minutepedestrian".toList, "vehicles".toList]) :
    main fs parsers = none := by
  obtain ⟨-, hv, -⟩ := resolve_files fs.root fs.wellFormed_root f hf
  have hpanic : processFile parsers (joinAll fs.dataDir f.1) f.2 = none := by
    rw [hopen, processFile, fromLocation_bind_eq_none (by rwa [components_joinAll _ hv])]
    rfl
  rw [main_eq_mapM, collectPaths_spec, List.nil_append]
  split_ifs
  · rw [Option.some_bind, mapM_openFile_files, mapM_eq_none_iff.2 ⟨f, hf, hpanic⟩]
    rfl
  · rfl

theorem main_eq_none_docs :
    (["docs".toList, "readme.txt".toList], some []) ∈
        files (some [.dir "docs".toList (some [.file "readme.txt".toList (some [])])]) ∧
      (∀ dirName ∈
        (components "data".toList ++ ["docs".toList, "readme.txt".toList]).dropLast.getLast?,
        toLowercase dirName ∉
          ["15minutebicycle".toList, "15minutepedestrian".toList, "vehicles".toList]) ∧
      main ⟨"data".toList, some [.dir "docs".toList (some [.file "readme.txt".toList (some [])])],
        by decide⟩ ⟨fun _ => none, fun _ => none, fun _ => none⟩ = none :=
  have hf : (["docs".toList, "readme.txt".toList], some []) ∈
      files (some [.dir "docs".toList (some [.file "readme.txt".toList (some [])])]) := by decide
  have hdir : ∀ dirName ∈
      (components "data".toList ++ ["docs".toList, "readme.txt".toList]).dropLast.getLast?,
      toLowercase dirName ∉
        ["15minutebicycle".toList, "15minutepedestrian".toList, "vehicles".toList] := by decide
  ⟨hf, hdir, main_eq_none_of_unknown_directory _ _ hf rfl hdir⟩

/-- **`main` does not depend on the order `read_dir` lists entries in**: two trees below one
`DATA_DIR` that hold the same files, in any order, and are both readable or both not, make `main`
panic together, and otherwise make it print the same counts up to order. -/
theorem main_perm (parsers : FieldParsers) {fs fs' : FileSystem} (hdir : fs.dataDir = fs'.dataDir)
    (hread : readable fs.root = readable fs'.root) (hfiles : (files fs.root).Perm (files fs'.root)) :
    (main fs parsers = none ↔ main fs' parsers = none) ∧
      ∀ counts counts', main fs parsers = some counts → main fs' parsers = some counts' →
        counts.Perm counts' := by
  rw [main_eq_mapM, main_eq_mapM, collectPaths_spec, collectPaths_spec, ← hread]
  split_ifs
  · rw [List.nil_append, List.nil_append, Option.some_bind, Option.some_bind, mapM_openFile_files,
      mapM_openFile_files, hdir]
    obtain ⟨hnone, hsome⟩ := mapM_perm
      (g := fun f : FileAt => processFile parsers (joinAll fs'.dataDir f.1) f.2) hfiles
    refine ⟨by simpa only [Option.map_eq_none'] using hnone, fun counts counts' h h' => ?_⟩
    obtain ⟨ys, hys, rfl⟩ := Option.map_eq_some'.1 h
    obtain ⟨ys', hys', rfl⟩ := Option.map_eq_some'.1 h'
    exact (hsome ys ys' hys hys').flatten
  · exact ⟨Iff.rfl, nofun⟩

theorem main_perm_swap :
    ("data".toList = "data".toList ∧
      readable (some [.dir "vehicles".toList
        (some [.file "a.csv".toList (some []), .file "b.csv".toList (some [])])]) =
        readable (some [.dir "vehicles".toList
          (some [.file "b.csv".toList (some []), .file "a.csv".toList (some [])])]) ∧
      (files (some [.dir "vehicles".toList
        (some [.file "a.csv".toList (some []), .file "b.csv".toList (some [])])])).Perm
        (files (some [.dir "vehicles".toList
          (some [.file "b.csv".toList (some []), .file "a.csv".toList (some [])])]))) ∧
      (main ⟨"data".toList, some [.dir "vehicles".toList
          (some [.file "a.csv".toList (some []), .file "b.csv".toList (some [])])], by decide⟩
          ⟨fun _ => none, fun _ => none, fun _ => none⟩ = none ↔
        main ⟨"data".toList, some [.dir "vehicles".toList
          (some [.file "b.csv".toList (some []), .file "a.csv".toList (some [])])], by decide⟩
          ⟨fun _ => none, fun _ => none, fun _ => none⟩ = none) ∧
      ∀ counts counts',
        main ⟨"data".toList, some [.dir "vehicles".toList
          (some [.file "a.csv".toList (some []), .file "b.csv".toList (some [])])], by decide⟩
          ⟨fun _ => none, fun _ => none, fun _ => none⟩ = some counts →
        main ⟨"data".toList, some [.dir "vehicles".toList
          (some [.file "b.csv".toList (some []), .file "a.csv".toList (some [])])], by decide⟩
          ⟨fun _ => none, fun _ => none, fun _ => none⟩ = some counts' →
        counts.Perm counts' :=
  have hfiles : (files (some [.dir "vehicles".toList
      (some [.file "a.csv".toList (some []), .file "b.csv".toList (some [])])])).Perm
      (files (some [.dir "vehicles".toList
        (some [.file "b.csv".toList (some []), .file "a.csv".toList (some [])])])) :=
    List.Perm.swap _ _ _
  ⟨⟨rfl, rfl, hfiles⟩, main_perm _ rfl rfl hfiles⟩

end Prototype

end StarNextImport
