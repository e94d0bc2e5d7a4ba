import StarNextImport.Basic
import Mathlib.Data.List.Basic
import Mathlib.Data.Nat.Digits

/-!
# StarNextImport.Metadata — `CountMetadata::from_path`

The metadata of a count is read off its file name, `technician-dvrpc_num-directions-counter_id-
speed_limit.ext`.  The model follows the calls of `from_path`: `Path::file_stem` (Unix paths,
components split at `/`), `str::split('-')`, `i32::from_str` and the table of direction codes.

* `parseI32_toDigits`: `i32::from_str` reads back the decimal print of every `n < 2 ^ 31`.
* `fromPath_countFileName`: every well-formed file name under every directory parses to the metadata it
  was printed from.
-/

namespace StarNextImport

/-! ### `i32::from_str` -/

/-- The checked loop of `i32::from_str_radix(src, 10)`: `result * 10 + digit` (or `- digit` for a
negative number) for each character, failing on a character that is not a decimal digit or when
the result leaves the range of `i32`. -/
def accumulateI32 (positive : Bool) : Int → List Char → Option Int
  | result, [] => some result
  | result, c :: cs =>
    let mul := result * 10
    let r := if positive then mul + (c.toNat - 48 : Nat) else mul - (c.toNat - 48 : Nat)
    if c.isDigit ∧ -2 ^ 31 ≤ mul ∧ mul < 2 ^ 31 ∧ -2 ^ 31 ≤ r ∧ r < 2 ^ 31 then
      accumulateI32 positive r cs
    else none

/-- `i32::from_str`: an optional sign, then at least one decimal digit. -/
def parseI32 (src : List Char) : Option (BitVec 32) :=
  (match src with
    | [] => none
    | ['+'] => none
    | ['-'] => none
    | '+' :: digits => accumulateI32 true 0 digits
    | '-' :: digits => accumulateI32 false 0 digits
    | digits => accumulateI32 true 0 digits).map (BitVec.ofInt 32)

theorem accumulateI32_append (positive : Bool) (result : Int) (ds : List Char) (c : Char) :
    accumulateI32 positive result (ds ++ [c]) =
      (accumulateI32 positive result ds).bind fun r => accumulateI32 positive r [c] := by
  induction ds generalizing result with
  | nil => rfl
  | cons d ds ih =>
    simp only [List.cons_append, accumulateI32.eq_2 positive result d]
    split_ifs <;> first | exact ih _ | rfl

theorem digitChar_isDigit : ∀ d < 10, (Nat.digitChar d).isDigit = true ∧
    (Nat.digitChar d).toNat - 48 = d := by
  decide

/-- The last digit comes off the end of the decimal print. -/
theorem toDigitsCore_append (fuel n : Nat) (ds : List Char) (h : n < fuel) :
    Nat.toDigitsCore 10 fuel n ds = Nat.toDigitsCore 10 fuel n [] ++ ds := by
  induction fuel generalizing n ds with
  | zero => omega
  | succ fuel ih =>
    simp only [Nat.toDigitsCore]
    split_ifs with h0
    · rfl
    · rw [ih _ _ (by omega), ih _ [_] (by omega), List.append_assoc, List.singleton_append]

theorem toDigitsCore_fuel (f g n : Nat) (hf : n < f) (hg : n < g) :
    Nat.toDigitsCore 10 f n [] = Nat.toDigitsCore 10 g n [] := by
  induction f generalizing g n with
  | zero => omega
  | succ f ih =>
    obtain ⟨g, rfl⟩ : ∃ g', g = g' + 1 := ⟨g - 1, by omega⟩
    simp only [Nat.toDigitsCore]
    split_ifs with h0
    · rfl
    · rw [toDigitsCore_append _ _ _ (by omega), toDigitsCore_append g _ _ (by omega),
        ih g _ (by omega) (by omega)]

theorem toDigits_eq (n : Nat) : Nat.toDigits 10 n =
    (if n < 10 then [] else Nat.toDigits 10 (n / 10)) ++ [Nat.digitChar (n % 10)] := by
  rw [Nat.toDigits, Nat.toDigitsCore]
  split_ifs with h0 h10 h10
  · rfl
  · omega
  · omega
  · rw [toDigitsCore_append _ _ _ (by omega), Nat.toDigits,
      toDigitsCore_fuel n (n / 10 + 1) _ (by omega) (by omega)]

/-- One digit more on the right of a non-negative number that stays in range. -/
theorem accumulateI32_digit (result : Int) (d : Nat) (hd : d < 10) (h0 : 0 ≤ result)
    (h : result * 10 + d < 2 ^ 31) :
    accumulateI32 true result [Nat.digitChar d] = some (result * 10 + d) := by
  obtain ⟨hc, hv⟩ := digitChar_isDigit d hd
  simp only [accumulateI32, hc, hv, if_true, true_and]
  rw [if_pos (by omega)]

theorem accumulateI32_toDigits (n : Nat) (h : n < 2 ^ 31) :
    accumulateI32 true 0 (Nat.toDigits 10 n) = some (n : Int) := by
  induction n using Nat.strong_induction_on with
  | _ n ih =>
    rw [toDigits_eq]
    split_ifs with h10
    · rw [List.nil_append, accumulateI32_digit 0 _ (Nat.mod_lt _ (by omega)) le_rfl (by omega)]
      congr 1; omega
    · rw [accumulateI32_append, ih (n / 10) (by omega) (by omega), Option.some_bind,
        accumulateI32_digit _ _ (Nat.mod_lt _ (by omega)) (by omega) (by omega)]
      congr 1; omega

theorem toDigits_head (n : Nat) : ∃ c cs, Nat.toDigits 10 n = c :: cs ∧ c.isDigit = true := by
  induction n using Nat.strong_induction_on with
  | _ n ih =>
    rw [toDigits_eq]
    split_ifs with h10
    · exact ⟨_, [], rfl, (digitChar_isDigit _ (Nat.mod_lt _ (by omega))).1⟩
    · obtain ⟨c, cs, h, hc⟩ := ih (n / 10) (by omega)
      exact ⟨c, cs ++ _, by rw [h]; rfl, hc⟩

theorem parseI32_of_digit {c : Char} (cs : List Char) (hc : c.isDigit = true) :
    parseI32 (c :: cs) = (accumulateI32 true 0 (c :: cs)).map (BitVec.ofInt 32) := by
  have h1 : c ≠ '+' := by rintro rfl; exact absurd hc (by decide)
  have h2 : c ≠ '-' := by rintro rfl; exact absurd hc (by decide)
  unfold parseI32
  split <;> simp_all

/-- **`i32::from_str` reads back the decimal print** of every number below `2 ^ 31`. -/
theorem parseI32_toDigits (n : Nat) (h : n < 2 ^ 31) :
    parseI32 (Nat.toDigits 10 n) = some (BitVec.ofNat 32 n) := by
  obtain ⟨c, cs, hcs, hc⟩ := toDigits_head n
  rw [hcs, parseI32_of_digit cs hc, ← hcs, accumulateI32_toDigits n h]
  rfl

/-! ### `Path::file_stem` on a Unix path -/

/-- The names among the components of a Unix path: the pieces between slashes, without the empty
ones (from the root, repeated or trailing slashes) and without `.`. -/
def pathComponents (path : List Char) : List (List Char) :=
  (path.splitOn '/').filter fun c => decide (c ≠ [] ∧ c ≠ ['.'])

/-- `Path::file_name`: the last component, when it is a name and not `..`. -/
def fileName (path : List Char) : Option (List Char) :=
  match (pathComponents path).getLast? with
  | some ['.', '.'] => none
  | name => name

/-- `rsplit_file_at_dot`: the part of a file name before its last `.` and the part after it; the
whole name as `before` for `..` and for a name whose only `.` leads it. -/
def rsplitFileAtDot (file : List Char) : Option (List Char) × Option (List Char) :=
  if file = ['.', '.'] then (some file, none)
  else
    match file.reverse.dropWhile (· ≠ '.') with
    | [] => (none, some file)
    | _ :: before =>
      if before = [] then (some file, none)
      else (some before.reverse, some (file.reverse.takeWhile (· ≠ '.')).reverse)

/-- `Path::file_stem`: `before`, or the whole name when there is no `.`. -/
def fileStem (path : List Char) : Option (List Char) :=
  (fileName path).bind fun name => (rsplitFileAtDot name).1.or (rsplitFileAtDot name).2

theorem splitOn_append_cons {x : Char} (xs ys : List Char) :
    (xs ++ x :: ys).splitOn x = xs.splitOn x ++ ys.splitOn x := by
  induction xs with
  | nil => simp [List.splitOn]
  | cons a xs ih =>
    simp only [List.cons_append, List.splitOn, List.splitOnP_cons] at ih ⊢
    split_ifs
    · rw [ih]; rfl
    · rw [ih]
      cases h : xs.splitOnP (· == x) with
      | nil => exact absurd h (List.splitOnP_ne_nil _ _)
      | cons l ls => rfl

/-- The file name of a path is what follows its last slash, when that is a name. -/
theorem fileName_append {dir file : List Char} (hslash : '/' ∉ file) (hne : file ≠ [])
    (hdot : file ≠ ['.']) (hdotdot : file ≠ ['.', '.']) :
    fileName (dir ++ '/' :: file) = some file := by
  have hsplit : file.splitOn '/' = [file] :=
    List.splitOnP_eq_single _ _ fun c hc h => hslash (by rwa [eq_of_beq h] at hc)
  have hkeep : decide (file ≠ [] ∧ file ≠ ['.']) = true := by simp [hne, hdot]
  simp only [fileName, pathComponents, splitOn_append_cons, hsplit, List.filter_append,
    List.filter_singleton, hkeep, cond_true, List.getLast?_concat]
  split <;> simp_all

/-- The stem of a name `stem.ext` with no `.` in `ext` is `stem`. -/
theorem rsplitFileAtDot_append {stem ext : List Char} (hstem : stem ≠ []) (hext : '.' ∉ ext)
    (hdotdot : stem ++ '.' :: ext ≠ ['.', '.']) :
    (rsplitFileAtDot (stem ++ '.' :: ext)).1 = some stem := by
  have hall : ∀ a ∈ ext.reverse, decide (a ≠ '.') = true := by
    intro a ha; simp only [List.mem_reverse] at ha; simp only [decide_eq_true_eq]
    rintro rfl; exact hext ha
  have hrev : (stem ++ '.' :: ext).reverse = ext.reverse ++ '.' :: stem.reverse := by simp
  rw [rsplitFileAtDot, if_neg hdotdot, hrev, List.dropWhile_append_of_pos hall]
  simp [hstem]

/-! ### `CountMetadata::from_path` -/

/-- The direction codes of a file name, and the directions each stands for. -/
def directionsOf : List Char → Option Directions
  | ['n', 's'] => some ⟨.north, some .south⟩
  | ['s', 'n'] => some ⟨.south, some .north⟩
  | ['e', 'w'] => some ⟨.east, some .west⟩
  | ['w', 'e'] => some ⟨.west, some .east⟩
  | ['n', 'n'] => some ⟨.north, some .north⟩
  | ['s', 's'] => some ⟨.south, some .south⟩
  | ['e', 'e'] => some ⟨.east, some .east⟩
  | ['w', 'w'] => some ⟨.west, some .west⟩
  | ['n'] => some ⟨.north, none⟩
  | ['s'] => some ⟨.south, none⟩
  | ['e'] => some ⟨.east, none⟩
  | ['w'] => some ⟨.west, none⟩
  | _ => none

/-- A `match` of a parse whose `Err` arm returns `err`, as `?` on `ok_or(err)`. -/
def okOr {α : Type} (o : Option α) (err : CountError) : Except CountError α :=
  match o with
  | some a => .ok a
  | none => .error err

@[simp] theorem okOr_some {α : Type} (a : α) (err : CountError) : okOr (some a) err = .ok a := rfl

/-- `CountMetadata::from_path`: get a count's metadata from its path.  In the file name, each
field is separated by a dash: `technician-dvrpc_num-directions-counter_id-speed_limit.csv/txt`.
`to_str` cannot fail on a path that is a list of characters. -/
def CountMetadata.fromPath (path : List Char) : Except CountError CountMetadata := do
  let stem ← okOr (fileStem path) (.badPath path)
  let parts := stem.splitOn '-'
  if parts.length < 5 then throw (.invalidFileName .tooFewParts path)
  if parts.length > 5 then throw (.invalidFileName .tooManyParts path)
  match parts with
  | [technician, dvrpcNum, directions, counterId, speedLimit] =>
    -- `technician` should be letters. If parseable as int, then they aren't letters.
    if (parseI32 technician).isSome then throw (.invalidFileName .invalidTech path)
    let dvrpcNum ← okOr (parseI32 dvrpcNum) (.invalidFileName .invalidRecordNum path)
    let directions ← okOr (directionsOf directions) (.invalidFileName .invalidDirections path)
    let counterId ← okOr (parseI32 counterId) (.invalidFileName .invalidCounterID path)
    let speedLimit ← if speedLimit = ['n', 'a'] then pure none
      else some <$> okOr (parseI32 speedLimit) (.invalidFileName .invalidSpeedLimit path)
    pure { technician, dvrpcNum, directions, counterId, speedLimit }
  | _ => throw (.invalidFileName .tooFewParts path)

/-! ### The errors of `from_path` -/

theorem okOr_eq_error {α : Type} {o : Option α} {err e : CountError} (h : okOr o err = .error e) :
    e = err := by
  cases o <;> cases h; rfl

theorem map_okOr {α β : Type} (f : α → β) (o : Option α) (err : CountError) :
    f <$> okOr o err = okOr (o.map f) err := by
  cases o <;> rfl

/-- **Every error of `from_path` names the path it was given**: `BadPath` when the path has no
file stem, `InvalidFileName` with its problem otherwise. -/
theorem fromPath_error_path {path : List Char} {e : CountError}
    (h : CountMetadata.fromPath path = .error e) :
    e = .badPath path ∨ ∃ problem, e = .invalidFileName problem path := by
  unfold CountMetadata.fromPath at h
  simp only [bind, Except.bind, pure, Except.pure, throw, throwThe, MonadExceptOf.throw,
    map_okOr] at h
  -- one goal per `Err` the body returns: a `throw`, or the `Err` of an `okOr`
  repeat' split at h
  all_goals cases h
  all_goals first
    | exact .inr ⟨_, rfl⟩
    | rename_i heq; rw [okOr_eq_error heq]; first | exact .inl rfl | exact .inr ⟨_, rfl⟩

/-- A file stem that does not split into five parts at `-` is rejected for its number of parts,
before any part is read. -/
theorem fromPath_of_length_ne {path stem : List Char} (h : fileStem path = some stem)
    (hn : (stem.splitOn '-').length ≠ 5) :
    CountMetadata.fromPath path = .error (.invalidFileName
      (if (stem.splitOn '-').length < 5 then .tooFewParts else .tooManyParts) path) := by
  simp only [CountMetadata.fromPath, h, okOr_some, bind, Except.bind]
  split_ifs <;> first | rfl | omega

/-- The speed limit field of a file name: the decimal print, or `na`. -/
def speedLimitText : Option Nat → List Char
  | none => ['n', 'a']
  | some l => Nat.toDigits 10 l

/-- The file name `technician-dvrpc_num-directions-counter_id-speed_limit.ext`. -/
def countFileName (technician : List Char) (dvrpcNum : Nat) (directions : List Char)
    (counterId : Nat) (speedLimit : Option Nat) (ext : List Char) : List Char :=
  ['-'].intercalate [technician, Nat.toDigits 10 dvrpcNum, directions, Nat.toDigits 10 counterId,
    speedLimitText speedLimit] ++ '.' :: ext

theorem directionsOf_chars {d : List Char} {ds : Directions} (h : directionsOf d = some ds) :
    '-' ∉ d ∧ '/' ∉ d := by
  unfold directionsOf at h
  split at h <;> first | decide | cases h

theorem toDigits_isDigit (n : Nat) : ∀ c ∈ Nat.toDigits 10 n, c.isDigit = true := by
  induction n using Nat.strong_induction_on with
  | _ n ih =>
    rw [toDigits_eq]
    intro c hc
    simp only [List.mem_append, List.mem_singleton] at hc
    rcases hc with hc | rfl
    · split_ifs at hc with h10
      · simp at hc
      · exact ih (n / 10) (by omega) c hc
    · exact (digitChar_isDigit _ (Nat.mod_lt _ (by omega))).1

theorem not_mem_toDigits {c : Char} (hc : c.isDigit = false) (n : Nat) :
    c ∉ Nat.toDigits 10 n := fun h => by simp [toDigits_isDigit n c h] at hc

theorem speedLimitText_chars (limit : Option Nat) :
    '-' ∉ speedLimitText limit ∧ '/' ∉ speedLimitText limit := by
  cases limit with
  | none => decide
  | some l => exact ⟨not_mem_toDigits (c := '-') rfl l, not_mem_toDigits (c := '/') rfl l⟩

theorem intercalate_dash (a b c d e : List Char) :
    ['-'].intercalate [a, b, c, d, e] = a ++ '-' :: (b ++ '-' :: (c ++ '-' :: (d ++ '-' :: e))) := by
  simp [List.intercalate]

theorem speedLimitText_ne_na {l : Nat} : speedLimitText (some l) ≠ ['n', 'a'] := fun h =>
  absurd (toDigits_isDigit l 'n' (by simp only [speedLimitText] at h; simp [h])) (by decide)

/-- **A well-formed file name parses to the metadata printed in it**, under every directory: a
technician with no `-` or `/` that does not read as an `i32`, a record number and a counter id
below `2 ^ 31` in decimal, one of the twelve direction codes, a speed limit below `2 ^ 31` or
`na`, and an extension with no `.` or `/`. -/
theorem fromPath_countFileName (dir t d ext : List Char) (n c : Nat) (limit : Option Nat)
    (ds : Directions) (htdash : '-' ∉ t) (htslash : '/' ∉ t) (htech : parseI32 t = none)
    (hn : n < 2 ^ 31) (hc : c < 2 ^ 31) (hd : directionsOf d = some ds)
    (hl : ∀ l ∈ limit, l < 2 ^ 31) (hdot : '.' ∉ ext) (hslash : '/' ∉ ext) :
    CountMetadata.fromPath (dir ++ '/' :: countFileName t n d c limit ext) =
      .ok ⟨t, BitVec.ofNat 32 n, ds, BitVec.ofNat 32 c, limit.map (BitVec.ofNat 32)⟩ := by
  obtain ⟨hddash, hdslash⟩ := directionsOf_chars hd
  obtain ⟨hldash, hlslash⟩ := speedLimitText_chars limit
  have hsplit : (['-'].intercalate [t, Nat.toDigits 10 n, d, Nat.toDigits 10 c,
      speedLimitText limit]).splitOn '-' =
      [t, Nat.toDigits 10 n, d, Nat.toDigits 10 c, speedLimitText limit] := by
    refine List.splitOn_intercalate _ _ ?_ (List.cons_ne_nil _ _)
    simp only [List.mem_cons, List.mem_singleton, forall_eq_or_imp, forall_eq]
    exact ⟨htdash, not_mem_toDigits (c := '-') rfl n, hddash, not_mem_toDigits (c := '-') rfl c, hldash,
      fun _ h => by simp at h⟩
  have hne : countFileName t n d c limit ext ≠ [] ∧ countFileName t n d c limit ext ≠ ['.'] ∧
      countFileName t n d c limit ext ≠ ['.', '.'] := by
    have : '-' ∈ countFileName t n d c limit ext := by simp [countFileName, intercalate_dash]
    refine ⟨?_, ?_, ?_⟩ <;> rintro h <;> rw [h] at this <;> simp at this
  have hfile : '/' ∉ countFileName t n d c limit ext := by
    simp only [countFileName, intercalate_dash, List.mem_append, List.mem_cons]
    simp_all [not_mem_toDigits (c := '/') rfl]
  have hstem : fileStem (dir ++ '/' :: countFileName t n d c limit ext) =
      some (['-'].intercalate [t, Nat.toDigits 10 n, d, Nat.toDigits 10 c,
        speedLimitText limit]) := by
    rw [fileStem, fileName_append hfile hne.1 hne.2.1 hne.2.2, Option.some_bind,
      countFileName, rsplitFileAtDot_append (by simp [intercalate_dash]) hdot hne.2.2]
    rfl
  simp only [CountMetadata.fromPath, hstem, okOr_some, bind, Except.bind, hsplit, htech,
    parseI32_toDigits n hn, parseI32_toDigits c hc, hd, List.length_cons, List.length_nil]
  cases limit with
  | none => rfl
  | some l =>
    rw [if_neg speedLimitText_ne_na, speedLimitText, parseI32_toDigits l (hl l rfl)]
    rfl

theorem fromPath_rc_166905_ew_40972_35 :
    CountMetadata.fromPath "some/path/rc-166905-ew-40972-35.txt".toList =
      .ok ⟨"rc".toList, 166905, ⟨.east, some .west⟩, 40972, some 35⟩ :=
  fromPath_countFileName "some/path".toList "rc".toList "ew".toList "txt".toList 166905 40972
    (some 35) _ (by decide) (by decide) (by decide) (by decide) (by decide) rfl (by simp)
    (by decide) (by decide)

end StarNextImport
