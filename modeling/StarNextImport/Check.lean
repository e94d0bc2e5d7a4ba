import StarNextImport.Time
import Mathlib.Data.List.AList
import Mathlib.Data.List.Infix

/-!
# StarNextImport.Check — the data checks of `check_data.rs`

`check` looks up the type of a count and runs the rules that apply to it, each over the rows of
one query: the class mix (`Class`), the balance of the directions and the runs of zero hours
(`Class`, `Volume`, `15 min Volume`), and the bicycle maximum (a type containing `Bicycle`).  A
rule only logs warnings; a failed query or row ends the check with its error, after the warnings
logged so far.  The class mix parses the date, time and direction of each of its rows with an
`unwrap`, so `check` returns `none`, a panic, on a row that does not parse (`check_eq_none_iff`).

The connection is the rows each query returns.  The shares and percents are computed in `f32`
as the code computes them: the counts cast, divided, multiplied by `100.0`, each step rounded.

* `lookup_countByDir`: the accumulation of `count_by_dir` maps each direction to the sum of its
  rows plus its first row again.
* `directionWarnings_ne_nil_iff`, `classMixWarnings_eq`: for counts whose sums an `f32` holds
  exactly, the rounding never moves a share or a percent across the threshold it is compared
  with, so the rules warn exactly on the ratios they state.
* `consecutiveZeros_eq`: the zero-hour loop warns on the second hour of every two adjacent
  hours that are both `Some(0)`, walked in the order of their `&str` keys (`hourly_eq`).
-/

namespace StarNextImport

/-! ### Warnings -/

/-- The warnings `check` logs with target `check`, with the values each message prints. -/
inductive Warning where
  /-- `{recordnum}: Class 2 vehicles are less than 75% ({c2_percent:.1}%) of total.` -/
  | classTwoLow (recordnum : BitVec 32) (c2Percent : F32)
  /-- `{recordnum}: Unclassed vehicles are greater than 10% ({c15_percent:.1}%) of total.` -/
  | unclassedHigh (recordnum : BitVec 32) (c15Percent : F32)
  /-- `{recordnum}: Abnormal direction proportions: {} has {:.1}% of total, {} has {:.1}%.`,
  with the two shares before they are multiplied by 100. -/
  | directionProportions (recordnum : BitVec 32) (smaller : List Char) (smallerShare : F32)
      (larger : List Char) (largerShare : F32)
  /-- `{recordnum}: Consecutive period ({hour}) with 0 vehicles counted.` -/
  | consecutiveZero (recordnum : BitVec 32) (hour : List Char)
  /-- `{recordnum}: More than {BIKE_COUNT_MAX} in a 15-minute period for a bicycle count.` -/
  | bicycleMax (recordnum : BitVec 32)
  deriving DecidableEq, Repr

/-- What a rule of `check` hands back: its result, and the warnings it logged before it. -/
abbrev Logged := Except CountError Unit × List Warning

/-- A rule that logged its warnings and returned `Ok(())`. -/
def Logged.warn (warnings : List Warning) : Logged := (.ok (), warnings)

/-- One rule after another: a rule that returned an error ends the check. -/
def Logged.andThen (first next : Logged) : Logged :=
  match first.1 with
  | .ok () => (next.1, first.2 ++ next.2)
  | .error e => (.error e, first.2)

/-- `conn.query_as(..)?` and then `result?` on each row: the rows, or the first error. -/
def fetchRows {α : Type} (results : Except OracleError (List (Except OracleError α))) :
    Except CountError (List α) :=
  results.mapError .oracle >>= fun rows => rows.mapM (·.mapError .oracle)

/-! ### The class mix -/

/-- A `Timestamp` of the driver, with the fields the class-mix rule reads. -/
structure Timestamp where
  year : Int
  month : Nat
  day : Nat
  hour : Nat
  minute : Nat
  deriving DecidableEq, Repr

/-- A row of `tc_clacount`: `countdate, counttime, countlane, ctdir, total, cars_and_tlrs,
unclassified`. -/
structure ClacountRow where
  countDate : Timestamp
  countTime : Timestamp
  lane : BitVec 8
  direction : List Char
  total : BitVec 32
  c2 : BitVec 32
  c15 : BitVec 32
  deriving DecidableEq, Repr

/-- The parsers the loop over the rows of `tc_clacount` calls: `Date::parse` with the format
`[year]-[month padding:none]-[day padding:none]` and `Time::parse` with the format
`[hour padding:none]:[minute padding:none]`, of the `time` crate, and `Direction::from_string`,
which the sources call but do not define. -/
structure RowParsers where
  date : List Char → Option Date
  time : List Char → Option Time
  direction : List Char → Option Direction

/-- `{}` of an integer: its decimal digits, after a `-` when it is negative. -/
def displayInt (n : Int) : List Char :=
  if n < 0 then '-' :: Nat.toDigits 10 n.natAbs else Nat.toDigits 10 n.natAbs

/-- `format!("{}-{}-{}", count_date.year(), count_date.month(), count_date.day())`. -/
def dateText (countDate : Timestamp) : List Char :=
  displayInt countDate.year ++ '-' :: Nat.toDigits 10 countDate.month ++ '-' ::
    Nat.toDigits 10 countDate.day

/-- `format!("{}:{}", count_time.hour(), count_time.minute())`. -/
def timeText (countTime : Timestamp) : List Char :=
  Nat.toDigits 10 countTime.hour ++ ':' :: Nat.toDigits 10 countTime.minute

/-- `ClassCountCheck`. -/
structure ClassCountCheck where
  datetime : PrimitiveDateTime
  lane : BitVec 8
  dir : Direction
  c2 : BitVec 32
  c15 : BitVec 32
  total : BitVec 32
  deriving DecidableEq, Repr

/-- The body of the loop over the rows of `tc_clacount` after `result?`: `none` is the panic of
one of its `unwrap`s, on `Date::parse`, `Time::parse` or `Direction::from_string`. -/
def ClassCountCheck.ofRow (parsers : RowParsers) (row : ClacountRow) : Option ClassCountCheck := do
  let date ← parsers.date (dateText row.countDate)
  let time ← parsers.time (timeText row.countTime)
  let dir ← parsers.direction row.direction
  pure ⟨⟨date, time⟩, row.lane, dir, row.c2, row.c15, row.total⟩

/-- The loop over the rows of `tc_clacount`: a failed row ends it with its error, and a row that
does not parse panics (`none`). -/
def classCountChecks (parsers : RowParsers) :
    List (Except OracleError ClacountRow) → Option (Except CountError (List ClassCountCheck))
  | [] => some (.ok [])
  | .error e :: _ => some (.error (.oracle e))
  | .ok row :: rest => do
    let count ← ClassCountCheck.ofRow parsers row
    (classCountChecks parsers rest).map (Except.map (count :: ·))

/-- `part as f32 / total as f32 * 100.0`. -/
def percentOf (part total : Nat) : F32 :=
  ((F32.ofNat part).div (F32.ofNat total)).mul (F32.round 100.0)

/-- Warn if share of unclassed vehicles is too high or class 2 is too low. -/
def classMixWarnings (recordnum : BitVec 32) (counts : List ClassCountCheck) : List Warning :=
  let c2Sum := (counts.map (·.c2)).sum
  let c15Sum := (counts.map (·.c15)).sum
  let totalSum := (counts.map (·.total)).sum
  let c2Percent := percentOf c2Sum.toNat totalSum.toNat
  let c15Percent := percentOf c15Sum.toNat totalSum.toNat
  (if c2Percent.lt (F32.round 75.0) then [.classTwoLow recordnum c2Percent] else []) ++
    (if (F32.round 10.0).lt c15Percent then [.unclassedHigh recordnum c15Percent] else [])

/-- The class-mix rule over the rows of `tc_clacount`; `none` is a panic. -/
def classMixRule (parsers : RowParsers) (recordnum : BitVec 32)
    (results : Except OracleError (List (Except OracleError ClacountRow))) : Option Logged :=
  match results with
  | .ok rows => (classCountChecks parsers rows).map fun
    | .ok counts => .warn (classMixWarnings recordnum counts)
    | .error e => (.error e, [])
  | .error e => some (.error (.oracle e), [])

/-! ### The balance of the directions -/

/-- If a count is bidirectional, the totals for both directions should be relatively
proportional.  One direction having less than this level, `0.40`, is considered abnormal. -/
def dirProportionLowerBound : F32 := F32.round 0.40

/-- `count_by_dir`, a `HashMap<String, u32>`. -/
abbrev CountByDir := AList fun _ : List Char => BitVec 32

/-- `*count_by_dir.entry(direction).or_insert(total) += total`. -/
def addEntry (countByDir : CountByDir) (direction : List Char) (total : BitVec 32) : CountByDir :=
  countByDir.insert direction ((countByDir.lookup direction).getD total + total)

/-- The accumulation loop over the rows `(totalcount, cntdir)` of `tc_volcount`. -/
def countByDir (rows : List (BitVec 32 × List Char)) : CountByDir :=
  rows.foldl (fun m row => addEntry m row.2 row.1) ∅

/-- `Iterator::max_by` on the counts: the last of the largest. -/
def maxByCount : List (Σ _ : List Char, BitVec 32) → Option (Σ _ : List Char, BitVec 32)
  | [] => none
  | e :: es => some (es.foldl (fun a b => if b.2 < a.2 then a else b) e)

/-- `Iterator::min_by` on the counts: the first of the smallest. -/
def minByCount : List (Σ _ : List Char, BitVec 32) → Option (Σ _ : List Char, BitVec 32)
  | [] => none
  | e :: es => some (es.foldl (fun a b => if b.2 < a.2 then b else a) e)

/-- Warn if the smaller direction has less than `DIR_PROPORTION_LOWER_BOUND` of the two. -/
def directionWarnings (recordnum : BitVec 32) (countByDir : CountByDir) : List Warning :=
  if countByDir.keys.length > 1 then
    match minByCount countByDir.entries, maxByCount countByDir.entries with
    | some smaller, some larger =>
      let total := smaller.2 + larger.2
      let smallerShare := (F32.ofNat smaller.2.toNat).div (F32.ofNat total.toNat)
      let largerShare := (F32.ofNat larger.2.toNat).div (F32.ofNat total.toNat)
      if smallerShare.lt dirProportionLowerBound then
        [.directionProportions recordnum smaller.1 smallerShare larger.1 largerShare]
      else []
    | _, _ => []
  else []

/-- The direction rule over the rows of `tc_volcount`. -/
def directionRule (recordnum : BitVec 32)
    (results : Except OracleError (List (Except OracleError (BitVec 32 × List Char)))) : Logged :=
  match fetchRows results with
  | .ok rows => .warn (directionWarnings recordnum (countByDir rows))
  | .error e => (.error e, [])

/-- The per-direction volumes the rule is meant to compare: the sum of `totalcount` over the rows
of each direction. -/
def directionVolumes (rows : List (BitVec 32 × List Char)) : CountByDir :=
  rows.foldl (fun m row => m.insert row.2 ((m.lookup row.2).getD 0 + row.1)) ∅

/-! ### Runs of zero hours -/

/-- The nineteen hourly columns `am4, ..., pm10` of a row of `tc_volcount`. -/
structure VolcountHours where
  am4 : Option (BitVec 32)
  am5 : Option (BitVec 32)
  am6 : Option (BitVec 32)
  am7 : Option (BitVec 32)
  am8 : Option (BitVec 32)
  am9 : Option (BitVec 32)
  am10 : Option (BitVec 32)
  am11 : Option (BitVec 32)
  pm12 : Option (BitVec 32)
  pm1 : Option (BitVec 32)
  pm2 : Option (BitVec 32)
  pm3 : Option (BitVec 32)
  pm4 : Option (BitVec 32)
  pm5 : Option (BitVec 32)
  pm6 : Option (BitVec 32)
  pm7 : Option (BitVec 32)
  pm8 : Option (BitVec 32)
  pm9 : Option (BitVec 32)
  pm10 : Option (BitVec 32)
  deriving DecidableEq, Repr

/-- `BTreeMap::insert` on a map kept as its entries in increasing order of the keys; a `&str`
key compares as its characters do, lexicographically, a prefix first. -/
def btreeInsert {V : Type} (key : List Char) (value : V) :
    List (List Char × V) → List (List Char × V)
  | [] => [(key, value)]
  | (k, v) :: rest =>
    if List.Lex (· < ·) key k then (key, value) :: (k, v) :: rest
    else if key = k then (key, value) :: rest
    else (k, v) :: btreeInsert key value rest

/-- The `BTreeMap<&str, Option<u32>>` of one row, as its entries in the order it is walked. -/
def hourly (result : VolcountHours) : List (List Char × Option (BitVec 32)) :=
  [] |> btreeInsert "am4".toList result.am4 |> btreeInsert "am5".toList result.am5
    |> btreeInsert "am6".toList result.am6 |> btreeInsert "am7".toList result.am7
    |> btreeInsert "am8".toList result.am8 |> btreeInsert "am9".toList result.am9
    |> btreeInsert "am10".toList result.am10 |> btreeInsert "am11".toList result.am11
    |> btreeInsert "pm12".toList result.pm12 |> btreeInsert "pm1".toList result.pm1
    |> btreeInsert "pm2".toList result.pm2 |> btreeInsert "pm3".toList result.pm3
    |> btreeInsert "pm4".toList result.pm4 |> btreeInsert "pm5".toList result.pm5
    |> btreeInsert "pm6".toList result.pm6 |> btreeInsert "pm7".toList result.pm7
    |> btreeInsert "pm8".toList result.pm8 |> btreeInsert "pm9".toList result.pm9
    |> btreeInsert "pm10".toList result.pm10

/-- `count.is_some_and(|c| c == 0)`: the hour counted no vehicle, and is not null. -/
def isZeroHour (count : Option (BitVec 32)) : Bool := count.any (· == 0)

/-- `for (hour, count) in hourly`, from the count `consecutive_zeros` of zero hours before it.
The counter is a `u32` that at most nineteen increments never wrap. -/
def consecutiveZeros (recordnum : BitVec 32) :
    Nat → List (List Char × Option (BitVec 32)) → List Warning
  | _, [] => []
  | consecutiveZeros, (hour, count) :: rest =>
    let consecutiveZeros := if isZeroHour count then consecutiveZeros + 1 else 0
    (if consecutiveZeros > 1 then [.consecutiveZero recordnum hour] else []) ++
      StarNextImport.consecutiveZeros recordnum consecutiveZeros rest

/-- The zero-hour rule over the rows of `tc_volcount`, warning row by row. -/
def zeroHourRows (recordnum : BitVec 32) : List (Except OracleError VolcountHours) → Logged
  | [] => .warn []
  | .error e :: _ => (.error (.oracle e), [])
  | .ok result :: rest =>
    (Logged.warn (consecutiveZeros recordnum 0 (hourly result))).andThen (zeroHourRows recordnum rest)

/-- The warnings of every two adjacent hours that `zero` both counts as zero, on the second. -/
def adjacentZeros (zero : Option (BitVec 32) → Bool) (recordnum : BitVec 32)
    (hours : List (List Char × Option (BitVec 32))) : List Warning :=
  ((hours.zip hours.tail).filter fun p => zero p.1.2 && zero p.2.2).map
    fun p => .consecutiveZero recordnum p.2.1

/-- The hours of a row in the order of the day, 4am to 10pm. -/
def chronologicalHours (result : VolcountHours) : List (List Char × Option (BitVec 32)) :=
  [("am4".toList, result.am4), ("am5".toList, result.am5), ("am6".toList, result.am6),
    ("am7".toList, result.am7), ("am8".toList, result.am8), ("am9".toList, result.am9),
    ("am10".toList, result.am10), ("am11".toList, result.am11), ("pm12".toList, result.pm12),
    ("pm1".toList, result.pm1), ("pm2".toList, result.pm2), ("pm3".toList, result.pm3),
    ("pm4".toList, result.pm4), ("pm5".toList, result.pm5), ("pm6".toList, result.pm6),
    ("pm7".toList, result.pm7), ("pm8".toList, result.pm8), ("pm9".toList, result.pm9),
    ("pm10".toList, result.pm10)]

/-- A zero hour as the data checks are specified: a count of zero, or null. -/
def isZeroOrNull (count : Option (BitVec 32)) : Bool := count.all (· == 0)

/-- The zero-hour rule as the data checks are specified: the hours in the order of the day, with
a null hour counted as a zero. -/
def chronologicalZeroWarnings (recordnum : BitVec 32) (result : VolcountHours) : List Warning :=
  adjacentZeros isZeroOrNull recordnum (chronologicalHours result)

/-! ### Bicycle counts -/

/-- Unusually high count for bicycles in a 15-minute period. -/
def bikeCountMax : BitVec 32 := 20

/-- The bicycle rule over the rows of `tc_bikecount`: one warning at the first total above
`BIKE_COUNT_MAX`, then `break`. -/
def bikeRows (recordnum : BitVec 32) : List (Except OracleError (BitVec 32)) → Logged
  | [] => .warn []
  | .error e :: _ => (.error (.oracle e), [])
  | .ok total :: rest =>
    if total > bikeCountMax then .warn [.bicycleMax recordnum] else bikeRows recordnum rest

/-! ### `check` -/

/-- The rows each query of `check` returns for a record number, as the driver hands them over. -/
structure Connection where
  countType : BitVec 32 → Except OracleError (Option (List Char))
  clacount : BitVec 32 → Except OracleError (List (Except OracleError ClacountRow))
  volcountTotals : BitVec 32 → Except OracleError (List (Except OracleError (BitVec 32 × List Char)))
  volcountHours : BitVec 32 → Except OracleError (List (Except OracleError VolcountHours))
  bikecount : BitVec 32 → Except OracleError (List (Except OracleError (BitVec 32)))

/-- A query whose rows a rule reads one by one: `conn.query_as(..)?` first. -/
def queried {α : Type} (results : Except OracleError (List (Except OracleError α)))
    (rule : List (Except OracleError α) → Logged) : Logged :=
  match results with
  | .ok rows => rule rows
  | .error e => (.error (.oracle e), [])

/-- The count types of motor vehicles. -/
def motorCountTypes : List (List Char) := ["Class".toList, "Volume".toList, "15 min Volume".toList]

/-- The rules after the class mix, each run when the type of the count asks for it. -/
def laterRules (recordnum : BitVec 32) (conn : Connection) (countType : List Char) : Logged :=
  let motor := decide (countType ∈ motorCountTypes)
  ((if motor then directionRule recordnum (conn.volcountTotals recordnum) else .warn []).andThen
    (if motor then queried (conn.volcountHours recordnum) (zeroHourRows recordnum)
      else .warn [])).andThen
    (if "Bicycle".toList <:+: countType then queried (conn.bikecount recordnum) (bikeRows recordnum)
      else .warn [])

/-- `check`: run the data checks that apply to the type of a count.  `none` is a panic, which
only the rows of the class mix, the first rule, can raise. -/
def check (parsers : RowParsers) (recordnum : BitVec 32) (conn : Connection) : Option Logged :=
  match conn.countType recordnum with
  | .ok (some countType) =>
    (if countType = "Class".toList then classMixRule parsers recordnum (conn.clacount recordnum)
      else some (.warn [])).map fun classMix => classMix.andThen (laterRules recordnum conn countType)
  | .ok none => some (.error (.dataCheckError "unable to identify type of count".toList), [])
  | .error _ => some (.error (.dataCheckError "recordnum not found in TC_HEADER table".toList), [])

/-! ### `count_by_dir` -/

theorem lookup_addEntry (m : CountByDir) (d d' : List Char) (t : BitVec 32) :
    (addEntry m d' t).lookup d = if d' = d then some ((m.lookup d).getD t + t) else m.lookup d := by
  by_cases h : d' = d
  · subst h; simp [addEntry]
  · simp [addEntry, h, AList.lookup_insert_ne (Ne.symm h)]

theorem lookup_foldl_addEntry_of_some {m : CountByDir} {d : List Char} {v : BitVec 32}
    (h : m.lookup d = some v) (rows : List (BitVec 32 × List Char)) :
    (rows.foldl (fun m row => addEntry m row.2 row.1) m).lookup d =
      some (v + ((rows.filter (·.2 = d)).map (·.1)).sum) := by
  induction rows generalizing m v with
  | nil => simpa using h
  | cons r rs ih =>
    by_cases hr : r.2 = d
    · rw [List.foldl_cons, ih (v := v + r.1) (by rw [lookup_addEntry, if_pos hr, h]; rfl),
        List.filter_cons_of_pos (by simpa using hr), List.map_cons, List.sum_cons, add_assoc]
    · rw [List.foldl_cons, ih (by rw [lookup_addEntry, if_neg hr, h]),
        List.filter_cons_of_neg (by simpa using hr)]

theorem lookup_foldl_addEntry_of_none {m : CountByDir} {d : List Char} (h : m.lookup d = none)
    (rows : List (BitVec 32 × List Char)) :
    (rows.foldl (fun m row => addEntry m row.2 row.1) m).lookup d =
      (rows.find? (·.2 = d)).map fun first => first.1 + ((rows.filter (·.2 = d)).map (·.1)).sum := by
  induction rows generalizing m with
  | nil => simpa using h
  | cons r rs ih =>
    by_cases hr : r.2 = d
    · rw [List.foldl_cons, lookup_foldl_addEntry_of_some (v := r.1 + r.1)
        (by rw [lookup_addEntry, if_pos hr, h]; rfl), List.find?_cons_of_pos _ (by simpa using hr),
        List.filter_cons_of_pos (by simpa using hr), List.map_cons, List.sum_cons, add_assoc]
      rfl
    · rw [List.foldl_cons, ih (by rw [lookup_addEntry, if_neg hr, h]),
        List.find?_cons_of_neg _ (by simpa using hr), List.filter_cons_of_neg (by simpa using hr)]

/-- **`count_by_dir` counts the first row of each direction twice**: `or_insert(total)` stores
the first row's total and `+= total` adds it again, so a direction maps to the sum of its rows
plus its first row, and exactly the directions of the rows are keys. -/
theorem lookup_countByDir (rows : List (BitVec 32 × List Char)) (d : List Char) :
    (countByDir rows).lookup d =
      (rows.find? (·.2 = d)).map fun first => first.1 + ((rows.filter (·.2 = d)).map (·.1)).sum :=
  lookup_foldl_addEntry_of_none (AList.lookup_empty d) rows

/-! ### The smallest and the largest direction -/

section MinMax

variable {s l : Σ _ : List Char, BitVec 32} {es : List (Σ _ : List Char, BitVec 32)}

theorem foldl_minByCount (a : Σ _ : List Char, BitVec 32) (es : List (Σ _ : List Char, BitVec 32)) :
    es.foldl (fun a b => if b.2 < a.2 then b else a) a ∈ a :: es ∧
      ∀ e ∈ a :: es, (es.foldl (fun a b => if b.2 < a.2 then b else a) a).2 ≤ e.2 := by
  induction es generalizing a with
  | nil => simp
  | cons b es ih =>
    obtain ⟨hmem, hle⟩ := ih (if b.2 < a.2 then b else a)
    have hab : (if b.2 < a.2 then b else a).2 ≤ a.2 ∧ (if b.2 < a.2 then b else a).2 ≤ b.2 := by
      split_ifs with h <;> simp only [BitVec.le_def, BitVec.lt_def] at h ⊢ <;> omega
    refine ⟨?_, fun e he => ?_⟩
    · rcases List.mem_cons.1 hmem with h | h
      · rw [List.foldl_cons, h]; split_ifs <;> simp
      · exact List.mem_cons_of_mem _ (List.mem_cons_of_mem _ h)
    · have h := hle _ (List.mem_cons_self _ _)
      simp only [List.foldl_cons, BitVec.le_def] at hle h hab ⊢
      rcases List.mem_cons.1 he with rfl | he
      · omega
      rcases List.mem_cons.1 he with rfl | he
      · omega
      exact hle e (List.mem_cons_of_mem _ he)

theorem foldl_maxByCount (a : Σ _ : List Char, BitVec 32) (es : List (Σ _ : List Char, BitVec 32)) :
    es.foldl (fun a b => if b.2 < a.2 then a else b) a ∈ a :: es ∧
      ∀ e ∈ a :: es, e.2 ≤ (es.foldl (fun a b => if b.2 < a.2 then a else b) a).2 := by
  induction es generalizing a with
  | nil => simp
  | cons b es ih =>
    obtain ⟨hmem, hle⟩ := ih (if b.2 < a.2 then a else b)
    have hab : a.2 ≤ (if b.2 < a.2 then a else b).2 ∧ b.2 ≤ (if b.2 < a.2 then a else b).2 := by
      split_ifs with h <;> simp only [BitVec.le_def, BitVec.lt_def] at h ⊢ <;> omega
    refine ⟨?_, fun e he => ?_⟩
    · rcases List.mem_cons.1 hmem with h | h
      · rw [List.foldl_cons, h]; split_ifs <;> simp
      · exact List.mem_cons_of_mem _ (List.mem_cons_of_mem _ h)
    · have h := hle _ (List.mem_cons_self _ _)
      simp only [List.foldl_cons, BitVec.le_def] at hle h hab ⊢
      rcases List.mem_cons.1 he with rfl | he
      · omega
      rcases List.mem_cons.1 he with rfl | he
      · omega
      exact hle e (List.mem_cons_of_mem _ he)

theorem minByCount_spec (h : minByCount es = some s) : s ∈ es ∧ ∀ e ∈ es, s.2 ≤ e.2 := by
  cases es with
  | nil => cases h
  | cons a es => cases h; exact foldl_minByCount a es

theorem maxByCount_spec (h : maxByCount es = some l) : l ∈ es ∧ ∀ e ∈ es, e.2 ≤ l.2 := by
  cases es with
  | nil => cases h
  | cons a es => cases h; exact foldl_maxByCount a es

theorem minByCount_isSome (h : es ≠ []) : (minByCount es).isSome := by
  cases es with
  | nil => exact absurd rfl h
  | cons => rfl

theorem maxByCount_isSome (h : es ≠ []) : (maxByCount es).isSome := by
  cases es with
  | nil => exact absurd rfl h
  | cons => rfl

end MinMax

/-- `0.40_f32`, a little above `2 / 5`. -/
theorem dirProportionLowerBound_eq : dirProportionLowerBound = .finite (13421773 / 33554432) :=
  F32.round_literal (k := 13421773) (e := -25) (by norm_num) (by norm_num) (by norm_num)
    (by norm_num) (by norm_num)

/-- The share of the smaller of two counts is below `0.40` exactly when it is below two thirds of
the larger, for two counts whose sum an `f32` holds exactly: a share `a / n` below `2 / 5` is at
least `1 / (5 n)` below it, more than the step of the `f32`s there. -/
theorem div_lt_dirProportionLowerBound {a b : Nat} (h : a + b < 2 ^ 24) :
    ((F32.ofNat a).div (F32.ofNat (a + b))).lt dirProportionLowerBound = true ↔ 3 * a < 2 * b := by
  rw [dirProportionLowerBound_eq, F32.ofNat_of_lt (by omega), F32.ofNat_of_lt h]
  rcases Nat.eq_zero_or_pos (a + b) with h0 | h0
  · -- `0 / 0` is a NaN, which is below nothing
    obtain ⟨rfl, rfl⟩ : a = 0 ∧ b = 0 := by omega
    exact iff_of_false (by decide) (by decide)
  have hn : (0 : ℚ) < a + b := by exact_mod_cast h0
  have hq0 : 0 ≤ (a : ℚ) / (a + b) := div_nonneg (Nat.cast_nonneg a) hn.le
  rw [Nat.cast_add, F32.div_finite (Nat.cast_nonneg a) hn ((div_le_one hn).2
      (le_add_of_nonneg_right (Nat.cast_nonneg b)) |>.trans (by norm_num)),
    F32.lt_finite, decide_eq_true_iff]
  constructor
  · -- a share of at least `2 / 5` rounds to `0.40_f32` or above
    intro hlt
    by_contra hge
    have hle : (2 * b : ℚ) ≤ 3 * a := by exact_mod_cast not_lt.1 hge
    exact absurd hlt (not_lt.2 (F32.le_roundMag_of_midpoint_lt (k := 13421773) (e := -25)
      (m := 26843545 / 67108864) (by norm_num) (by norm_num)
      (by rw [lt_div_iff₀ hn]; linarith only [hle, hn])))
  · -- a share below `2 / 5` is below the midpoint under `0.40_f32`
    intro hlt
    have hle : (3 * a + 1 : ℚ) ≤ 2 * b := by exact_mod_cast hlt
    have hbound : (a : ℚ) + b < 2 ^ 24 := by exact_mod_cast h
    exact (F32.roundMag_le_of_lt_midpoint (k := 13421772) (e := -25) (m := 26843545 / 67108864)
      (v := 13421772 / 33554432) (by norm_num) (by norm_num) hq0
      (by rw [div_lt_iff₀ hn]; linarith only [hle, hbound])).trans_lt (by norm_num)

/-- The direction rule on its smallest and largest entries, whose sum an `f32` holds exactly. -/
theorem directionWarnings_of_minMax {m : CountByDir} {s l : Σ _ : List Char, BitVec 32}
    (hk : 1 < m.keys.length) (hs : minByCount m.entries = some s)
    (hl : maxByCount m.entries = some l) (hsum : s.2.toNat + l.2.toNat < 2 ^ 24)
    (recordnum : BitVec 32) :
    directionWarnings recordnum m =
      if 3 * s.2.toNat < 2 * l.2.toNat then
        [.directionProportions recordnum
          s.1 ((F32.ofNat s.2.toNat).div (F32.ofNat (s.2.toNat + l.2.toNat)))
          l.1 ((F32.ofNat l.2.toNat).div (F32.ofNat (s.2.toNat + l.2.toNat)))]
      else [] := by
  simp only [directionWarnings, gt_iff_lt, if_pos hk, hs, hl,
    BitVec.toNat_add_of_lt (show s.2.toNat + l.2.toNat < 2 ^ 32 by omega),
    div_lt_dirProportionLowerBound hsum]

/-- Four rows of 10 northbound and one of 40 southbound: the directions are even, 40 and 40, but
the map holds 50 and 80, and the rule warns that `N` has 50/130 of the total. -/
theorem countByDir_doubles_first_row :
    let byDir : CountByDir :=
      countByDir [(10, ['N']), (10, ['N']), (10, ['N']), (10, ['N']), (40, ['S'])]
    let volumes : CountByDir :=
      directionVolumes [(10, ['N']), (10, ['N']), (10, ['N']), (10, ['N']), (40, ['S'])]
    byDir.lookup ['N'] = some 50 ∧ byDir.lookup ['S'] = some 80 ∧
      volumes.lookup ['N'] = some 40 ∧ volumes.lookup ['S'] = some 40 ∧
      directionWarnings 1 byDir =
        [.directionProportions 1 ['N'] ((F32.ofNat 50).div (F32.ofNat 130))
          ['S'] ((F32.ofNat 80).div (F32.ofNat 130))] ∧
      directionWarnings 1 volumes = [] := by
  dsimp only
  refine ⟨by decide, by decide, by decide, by decide, ?_, ?_⟩
  · rw [directionWarnings_of_minMax (s := ⟨['N'], 50⟩) (l := ⟨['S'], 80⟩) (by decide) (by decide)
      (by decide) (by decide), if_pos (by decide)]
    rfl
  · rw [directionWarnings_of_minMax (s := ⟨['S'], 40⟩) (l := ⟨['N'], 40⟩) (by decide) (by decide)
      (by decide) (by decide), if_neg (by decide)]

/-- **The direction rule compares the smallest and the largest direction**: with two directions or
more, and counts whose sums an `f32` holds exactly, it warns exactly when the smallest count is
below two thirds of the largest, that is below `0.40` of the two together. -/
theorem directionWarnings_ne_nil_iff (recordnum : BitVec 32) (m : CountByDir)
    (hsum : ∀ a ∈ m.entries, ∀ b ∈ m.entries, a.2.toNat + b.2.toNat < 2 ^ 24) :
    directionWarnings recordnum m ≠ [] ↔
      1 < m.keys.length ∧ ∃ s ∈ m.entries, ∃ l ∈ m.entries,
        (∀ e ∈ m.entries, s.2 ≤ e.2 ∧ e.2 ≤ l.2) ∧ 3 * s.2.toNat < 2 * l.2.toNat := by
  by_cases hk : 1 < m.keys.length
  · have hne : m.entries ≠ [] := fun h => by simp [AList.keys, h] at hk
    obtain ⟨s0, hs0⟩ := Option.isSome_iff_exists.1 (minByCount_isSome hne)
    obtain ⟨l0, hl0⟩ := Option.isSome_iff_exists.1 (maxByCount_isSome hne)
    obtain ⟨hs0m, hs0le⟩ := minByCount_spec hs0
    obtain ⟨hl0m, hl0le⟩ := maxByCount_spec hl0
    rw [directionWarnings_of_minMax hk hs0 hl0 (hsum _ hs0m _ hl0m)]
    simp only [ne_eq, ite_eq_right_iff, List.cons_ne_nil, imp_false, not_not, hk, true_and]
    constructor
    · exact fun h => ⟨s0, hs0m, l0, hl0m, fun e he => ⟨hs0le e he, hl0le e he⟩, h⟩
    · rintro ⟨s, hs, l, hl, hsl, h⟩
      have h1 := (hsl s0 hs0m).1
      have h2 := hs0le s hs
      have h3 := (hsl l0 hl0m).2
      have h4 := hl0le l hl
      simp only [BitVec.le_def] at h1 h2 h3 h4
      omega
  · exact iff_of_false (by simp only [directionWarnings, gt_iff_lt, if_neg hk]; exact (· rfl))
      fun h => hk h.1

/-- A northbound count of 20 against a southbound one of 40 is abnormal. -/
theorem directionWarnings_twenty_forty :
    (∀ a ∈ (countByDir [(10, ['N']), (20, ['S'])]).entries,
      ∀ b ∈ (countByDir [(10, ['N']), (20, ['S'])]).entries, a.2.toNat + b.2.toNat < 2 ^ 24) ∧
    (directionWarnings 1 (countByDir [(10, ['N']), (20, ['S'])]) ≠ [] ↔
      1 < (countByDir [(10, ['N']), (20, ['S'])]).keys.length ∧
        ∃ s ∈ (countByDir [(10, ['N']), (20, ['S'])]).entries,
        ∃ l ∈ (countByDir [(10, ['N']), (20, ['S'])]).entries,
          (∀ e ∈ (countByDir [(10, ['N']), (20, ['S'])]).entries, s.2 ≤ e.2 ∧ e.2 ≤ l.2) ∧
            3 * s.2.toNat < 2 * l.2.toNat) :=
  ⟨by decide, directionWarnings_ne_nil_iff 1 _ (by decide)⟩

/-! ### The walk over the hours -/

section BTree

variable {V : Type} {key k : List Char} {value v : V} {rest : List (List Char × V)}

@[simp] theorem btreeInsert_nil : btreeInsert key value [] = [(key, value)] := rfl

theorem btreeInsert_of_lt (h : List.Lex (· < ·) key k) :
    btreeInsert key value ((k, v) :: rest) = (key, value) :: (k, v) :: rest :=
  if_pos h

theorem btreeInsert_of_gt (h : ¬ List.Lex (· < ·) key k) (h' : key ≠ k) :
    btreeInsert key value ((k, v) :: rest) = (k, v) :: btreeInsert key value rest := by
  rw [btreeInsert, if_neg h, if_neg h']

end BTree

/-- **The hours are walked in the order of their names**, `am10` and `am11` before `am4`, and
`pm1`, `pm10`, `pm12` before `pm2`. -/
theorem hourly_eq (result : VolcountHours) : hourly result =
    [("am10".toList, result.am10), ("am11".toList, result.am11), ("am4".toList, result.am4),
      ("am5".toList, result.am5), ("am6".toList, result.am6), ("am7".toList, result.am7),
      ("am8".toList, result.am8), ("am9".toList, result.am9), ("pm1".toList, result.pm1),
      ("pm10".toList, result.pm10), ("pm12".toList, result.pm12), ("pm2".toList, result.pm2),
      ("pm3".toList, result.pm3), ("pm4".toList, result.pm4), ("pm5".toList, result.pm5),
      ("pm6".toList, result.pm6), ("pm7".toList, result.pm7), ("pm8".toList, result.pm8),
      ("pm9".toList, result.pm9)] := by
  simp (disch := decide) only [hourly, btreeInsert_nil, btreeInsert_of_lt, btreeInsert_of_gt]

/-! ### Runs of zero hours -/

section ZeroRuns

variable (zero : Option (BitVec 32) → Bool) (recordnum : BitVec 32)

theorem adjacentZeros_cons_cons (a b : List Char × Option (BitVec 32))
    (hours : List (List Char × Option (BitVec 32))) :
    adjacentZeros zero recordnum (a :: b :: hours) =
      (if zero a.2 && zero b.2 then [.consecutiveZero recordnum b.1] else []) ++
        adjacentZeros zero recordnum (b :: hours) := by
  simp only [adjacentZeros, List.tail_cons, List.zip_cons_cons, List.filter_cons]
  split <;> rfl

/-- From a counter that is positive exactly when the hour before was `Some(0)`, the loop warns on
the adjacent zero hours of the walk from that hour on. -/
theorem consecutiveZeros_of_prev (prev : List Char × Option (BitVec 32)) (c : Nat)
    (hc : 0 < c ↔ isZeroHour prev.2) (hours : List (List Char × Option (BitVec 32))) :
    consecutiveZeros recordnum c hours = adjacentZeros isZeroHour recordnum (prev :: hours) := by
  induction hours generalizing prev c with
  | nil => rfl
  | cons h hours ih =>
    obtain ⟨hour, count⟩ := h
    rw [consecutiveZeros, adjacentZeros_cons_cons, ih (hour, count) _ (by split <;> simp_all)]
    by_cases hz : isZeroHour count <;> simp [hz, hc]

/-- **The zero-hour loop warns on the second of every two adjacent `Some(0)` hours** of its walk,
in the order of the walk. -/
theorem consecutiveZeros_eq (hours : List (List Char × Option (BitVec 32))) :
    consecutiveZeros recordnum 0 hours = adjacentZeros isZeroHour recordnum hours := by
  cases hours with
  | nil => rfl
  | cons h hours =>
    obtain ⟨hour, count⟩ := h
    rw [consecutiveZeros, consecutiveZeros_of_prev recordnum (hour, count) _ (by split <;> simp_all)]
    split_ifs <;> simp_all

end ZeroRuns

/-- With `am4` and `am11` at zero and `pm2`, `pm3` null, the walk goes from `am11` to `am4` and
warns on `am4`, and passes the two null hours in a row; taken in the order of the day with null
as zero, the warning is on `pm3`. -/
theorem consecutiveZeros_out_of_order :
    let result : VolcountHours :=
      { am4 := some 0, am5 := some 1, am6 := some 1, am7 := some 1, am8 := some 1, am9 := some 1,
        am10 := some 1, am11 := some 0, pm12 := some 1, pm1 := some 1, pm2 := none, pm3 := none,
        pm4 := some 1, pm5 := some 1, pm6 := some 1, pm7 := some 1, pm8 := some 1,
        pm9 := some 1, pm10 := some 1 }
    consecutiveZeros 1 0 (hourly result) = [.consecutiveZero 1 "am4".toList] ∧
      chronologicalZeroWarnings 1 result = [.consecutiveZero 1 "pm3".toList] := by
  decide

/-! ### The rules over their rows -/

@[simp] theorem Logged.warn_andThen (warnings : List Warning) (next : Logged) :
    (Logged.warn warnings).andThen next = (next.1, warnings ++ next.2) := rfl

@[simp] theorem Logged.warn_andThen_warn (first next : List Warning) :
    (Logged.warn first).andThen (.warn next) = .warn (first ++ next) := rfl

theorem Logged.ite_warn (p : Prop) [Decidable p] (a b : List Warning) :
    (if p then Logged.warn a else .warn b) = .warn (if p then a else b) := by
  split <;> rfl

section Percent

variable {c t : Nat}

theorem round_hundred : F32.round 100.0 = .finite 100 := by
  rw [F32.round_whole (n := 100) (by norm_num) (by norm_num)]; norm_num

/-- Over a total of zero the percent is `NaN` for no vehicle and `inf` otherwise. -/
theorem percentOf_zero (hc : c < 2 ^ 32) :
    percentOf c 0 = if c = 0 then F32.invalid else .infinity false := by
  have h0 : F32.ofNat 0 = .finite 0 := by simpa using F32.ofNat_of_lt (n := 0) (by norm_num)
  rcases Nat.eq_zero_or_pos c with rfl | hc0
  · simp [percentOf, h0, round_hundred, F32.div, F32.isZero, F32.mul, F32.invalid]
  · have hpos : (1 : ℚ) ≤ F32.roundMag c := by
      simpa using F32.natCast_le_roundMag (n := 1) (by norm_num) (by exact_mod_cast hc0)
    simp [percentOf, F32.ofNat_eq c hc, h0, round_hundred, F32.div, F32.isZero, F32.mul,
      F32.isSignNegative, hc0.ne', (lt_of_lt_of_le one_pos hpos).ne', not_lt.2 (zero_le_one.trans hpos)]

/-- Over a total an `f32` holds, the percent is the quotient of the rounded count by the total,
rounded, times `100`, rounded again. -/
theorem percentOf_of_pos (hc : c < 2 ^ 32) (ht : 0 < t) (ht' : t < 2 ^ 24) :
    percentOf c t = .finite (F32.roundMag (F32.roundMag (F32.roundMag c / t) * 100)) := by
  have htq : (1 : ℚ) ≤ t := by exact_mod_cast ht
  have hc0 : 0 ≤ F32.roundMag c := F32.roundMag_nonneg (Nat.cast_nonneg c)
  have hc2 : F32.roundMag c ≤ 2 ^ 33 := by
    have := F32.roundMag_le_two_mul (Nat.cast_nonneg (α := ℚ) c)
    have : (c : ℚ) < 2 ^ 32 := by exact_mod_cast hc
    linarith
  have hq0 : 0 ≤ F32.roundMag c / t := div_nonneg hc0 (by positivity)
  have hq : F32.roundMag c / t ≤ 2 ^ 33 := (div_le_self hc0 htq).trans hc2
  have hr := F32.roundMag_le_two_mul hq0
  rw [percentOf, F32.ofNat_eq c hc, F32.ofNat_of_lt ht', round_hundred,
    F32.div_finite hc0 (by positivity) (hq.trans (by norm_num)),
    F32.mul_finite (F32.roundMag_nonneg hq0) (by norm_num) (by linarith)]

/-- A count at least the total gives a percent of at least `100`. -/
theorem hundred_le_percent (ht : 0 < t) (ht' : t < 2 ^ 24) (h : t ≤ c) :
    100 ≤ F32.roundMag (F32.roundMag (F32.roundMag c / t) * 100) := by
  have h1 : (t : ℚ) ≤ F32.roundMag c := F32.natCast_le_roundMag ht' (by exact_mod_cast h)
  have h2 : (1 : ℚ) ≤ F32.roundMag (F32.roundMag c / t) := by
    simpa using F32.natCast_le_roundMag (n := 1) (by norm_num)
      (by rw [Nat.cast_one, le_div_iff₀ (by exact_mod_cast ht)]; linarith)
  simpa using F32.natCast_le_roundMag (n := 100) (by norm_num) (by push_cast; linarith)

/-- Class 2 below three quarters of a total below `2 ^ 23` is below `75` percent: the quotient is
at least `1 / (4 t)` below `3 / 4`, more than half a step of the `f32`s there. -/
theorem percent_lt_seventyFive (ht : t < 2 ^ 23) (h : 4 * c < 3 * t) :
    F32.roundMag (F32.roundMag ((c : ℚ) / t) * 100) < 75 := by
  have ht0 : (0 : ℚ) < t := by exact_mod_cast (show 0 < t by omega)
  have hct : (4 * c + 1 : ℚ) ≤ 3 * t := by exact_mod_cast h
  have htq : (t : ℚ) < 2 ^ 23 := by exact_mod_cast ht
  have hq0 : 0 ≤ (c : ℚ) / t := div_nonneg (Nat.cast_nonneg _) ht0.le
  -- the quotient rounds at most to the `f32` below `3 / 4`, the percent to the one below `75`
  have h1 : F32.roundMag ((c : ℚ) / t) ≤ 12582911 / 16777216 :=
    F32.roundMag_le_of_lt_midpoint (k := 12582911) (e := -24) (m := 25165823 / 33554432)
      (by norm_num) (by norm_num) hq0 (by rw [div_lt_iff₀ ht0]; linarith only [hct, htq])
  have h2 : F32.roundMag (F32.roundMag ((c : ℚ) / t) * 100) ≤ 9830399 / 131072 :=
    F32.roundMag_le_of_lt_midpoint (k := 9830399) (e := -17) (m := 19660799 / 262144)
      (by norm_num) (by norm_num) (mul_nonneg (F32.roundMag_nonneg hq0) (by norm_num))
      (by linarith only [h1])
  exact h2.trans_lt (by norm_num)

/-- Class 2 at least three quarters of the total is at least `75` percent. -/
theorem seventyFive_le_percent (ht : 0 < t) (h : 3 * t ≤ 4 * c) :
    75 ≤ F32.roundMag (F32.roundMag ((c : ℚ) / t) * 100) := by
  have ht0 : (0 : ℚ) < t := by exact_mod_cast ht
  have hct : (3 * t : ℚ) ≤ 4 * c := by exact_mod_cast h
  have h1 : 12582912 / 16777216 ≤ F32.roundMag ((c : ℚ) / t) :=
    F32.le_roundMag_of_midpoint_lt (k := 12582912) (e := -24) (m := 25165823 / 33554432)
      (by norm_num) (by norm_num) (by rw [lt_div_iff₀ ht0]; linarith only [hct, ht0])
  have h2 : 9830400 / 131072 ≤ F32.roundMag (F32.roundMag ((c : ℚ) / t) * 100) :=
    F32.le_roundMag_of_midpoint_lt (k := 9830400) (e := -17) (m := 19660799 / 262144)
      (by norm_num) (by norm_num) (by linarith only [h1])
  exact le_trans (by norm_num) h2

/-- Unclassed vehicles at most a tenth of the total are at most `10` percent. -/
theorem percent_le_ten (ht : 0 < t) (h : t ≥ 10 * c) :
    F32.roundMag (F32.roundMag ((c : ℚ) / t) * 100) ≤ 10 := by
  have ht0 : (0 : ℚ) < t := by exact_mod_cast ht
  have hct : (10 * c : ℚ) ≤ t := by exact_mod_cast h
  have hq0 : 0 ≤ (c : ℚ) / t := div_nonneg (Nat.cast_nonneg _) ht0.le
  have h1 : F32.roundMag ((c : ℚ) / t) ≤ 13421773 / 134217728 :=
    F32.roundMag_le_of_lt_midpoint (k := 13421773) (e := -27) (m := 26843547 / 268435456)
      (by norm_num) (by norm_num) hq0 (by rw [div_lt_iff₀ ht0]; linarith only [hct, ht0])
  have h2 : F32.roundMag (F32.roundMag ((c : ℚ) / t) * 100) ≤ 10485760 / 1048576 :=
    F32.roundMag_le_of_lt_midpoint (k := 10485760) (e := -20) (m := 20971521 / 2097152)
      (by norm_num) (by norm_num) (mul_nonneg (F32.roundMag_nonneg hq0) (by norm_num))
      (by linarith only [h1])
  exact h2.trans (by norm_num)

/-- Unclassed vehicles above a tenth of a total below `2 ^ 23` are above `10` percent. -/
theorem ten_lt_percent (ht0 : 0 < t) (ht : t < 2 ^ 23) (h : t < 10 * c) :
    10 < F32.roundMag (F32.roundMag ((c : ℚ) / t) * 100) := by
  have ht0 : (0 : ℚ) < t := by exact_mod_cast ht0
  have hct : (t + 1 : ℚ) ≤ 10 * c := by exact_mod_cast h
  have htq : (t : ℚ) < 2 ^ 23 := by exact_mod_cast ht
  have h1 : 13421774 / 134217728 ≤ F32.roundMag ((c : ℚ) / t) :=
    F32.le_roundMag_of_midpoint_lt (k := 13421774) (e := -27) (m := 26843547 / 268435456)
      (by norm_num) (by norm_num) (by rw [lt_div_iff₀ ht0]; linarith only [hct, htq])
  have h2 : 10485761 / 1048576 ≤ F32.roundMag (F32.roundMag ((c : ℚ) / t) * 100) :=
    F32.le_roundMag_of_midpoint_lt (k := 10485761) (e := -20) (m := 20971521 / 2097152)
      (by norm_num) (by norm_num) (by linarith only [h1])
  exact lt_of_lt_of_le (by norm_num) h2

/-- The class-2 test of the rule, over a total below `2 ^ 23`: exactly below three quarters of a
total that is not zero. -/
theorem percentOf_lt_seventyFive_iff (hc : c < 2 ^ 32) (ht : t < 2 ^ 23) :
    (percentOf c t).lt (F32.round 75.0) = true ↔ t ≠ 0 ∧ 4 * c < 3 * t := by
  rw [F32.round_whole (n := 75) (by norm_num) (by norm_num)]
  rcases Nat.eq_zero_or_pos t with rfl | ht0
  · rw [percentOf_zero hc]; split_ifs <;> simp [F32.lt, F32.le, F32.invalid]
  rw [percentOf_of_pos hc ht0 (by omega), F32.lt_finite, decide_eq_true_iff, Nat.cast_ofNat]
  by_cases hct : t ≤ c
  · exact iff_of_false (not_lt.2 (by linarith [hundred_le_percent ht0 (by omega) hct]))
      (by omega)
  · rw [F32.roundMag_natCast (by omega)]
    refine ⟨fun h => ⟨ht0.ne', ?_⟩, fun h => percent_lt_seventyFive ht h.2⟩
    by_contra hge
    exact absurd h (not_lt.2 (seventyFive_le_percent ht0 (by omega)))

/-- The unclassed test of the rule, over a total below `2 ^ 23`: exactly above a tenth of the
total, and any unclassed vehicle over a total of zero, whose percent is `inf`. -/
theorem ten_lt_percentOf_iff (hc : c < 2 ^ 32) (ht : t < 2 ^ 23) :
    (F32.round 10.0).lt (percentOf c t) = true ↔ c ≠ 0 ∧ (t = 0 ∨ t < 10 * c) := by
  rw [F32.round_whole (n := 10) (by norm_num) (by norm_num)]
  rcases Nat.eq_zero_or_pos t with rfl | ht0
  · rw [percentOf_zero hc]; split_ifs <;> simp_all [F32.lt, F32.le, F32.invalid]
  rw [percentOf_of_pos hc ht0 (by omega), F32.lt_finite, decide_eq_true_iff, Nat.cast_ofNat]
  by_cases hct : t ≤ c
  · exact iff_of_true (by linarith [hundred_le_percent ht0 (by omega) hct]) (by omega)
  · rw [F32.roundMag_natCast (by omega)]
    refine ⟨fun h => ?_, fun h => ten_lt_percent ht0 ht (h.2.resolve_left ht0.ne')⟩
    by_contra hle
    exact absurd h (not_lt.2 (percent_le_ten ht0 (by omega)))

end Percent

/-- **The class-mix rule** on the `u32` sums (wrapping as in a release build), over a total below
`2 ^ 23`: it warns when class 2 is below 75% of a total that is not zero, and when unclassed
vehicles are above 10% of the total, which any unclassed vehicle is over a total of zero (the
percent is `inf`). -/
theorem classMixWarnings_eq (recordnum : BitVec 32) (counts : List ClassCountCheck)
    (htotal : (counts.map ClassCountCheck.total).sum.toNat < 2 ^ 23) :
    let c2 := (counts.map ClassCountCheck.c2).sum.toNat
    let c15 := (counts.map ClassCountCheck.c15).sum.toNat
    let total := (counts.map ClassCountCheck.total).sum.toNat
    classMixWarnings recordnum counts =
      (if total ≠ 0 ∧ 4 * c2 < 3 * total then
        [.classTwoLow recordnum (percentOf c2 total)] else []) ++
      (if c15 ≠ 0 ∧ (total = 0 ∨ total < 10 * c15) then
        [.unclassedHigh recordnum (percentOf c15 total)] else []) := by
  simp only [classMixWarnings, percentOf_lt_seventyFive_iff (BitVec.isLt _) htotal,
    ten_lt_percentOf_iff (BitVec.isLt _) htotal]

theorem classMixWarnings_one_count :
    let counts : List ClassCountCheck := [⟨⟨⟨2024, 1⟩, ⟨0, 0, 0, 0⟩⟩, 1, .north, 2, 1, 4⟩]
    (counts.map ClassCountCheck.total).sum.toNat < 2 ^ 23 ∧
      let c2 := (counts.map ClassCountCheck.c2).sum.toNat
      let c15 := (counts.map ClassCountCheck.c15).sum.toNat
      let total := (counts.map ClassCountCheck.total).sum.toNat
      classMixWarnings 1 counts =
        (if total ≠ 0 ∧ 4 * c2 < 3 * total then
          [.classTwoLow 1 (percentOf c2 total)] else []) ++
        (if c15 ≠ 0 ∧ (total = 0 ∨ total < 10 * c15) then
          [.unclassedHigh 1 (percentOf c15 total)] else []) :=
  ⟨by decide, classMixWarnings_eq 1 _ (by decide)⟩

/-! ### `check` -/

theorem classCountChecks_ok_cons (parsers : RowParsers) (row : ClacountRow)
    (rest : List (Except OracleError ClacountRow)) :
    classCountChecks parsers (.ok row :: rest) = (ClassCountCheck.ofRow parsers row).bind
      fun count => (classCountChecks parsers rest).map (Except.map (count :: ·)) := rfl

/-- **A count of another type is not checked**: when its type is none of `Class`, `Volume` and
`15 min Volume` and does not contain `Bicycle`, `check` returns `Ok(())` without a warning,
whatever the other queries would return. -/
theorem check_of_unchecked_type (parsers : RowParsers) (recordnum : BitVec 32) (conn : Connection)
    (countType : List Char) (htype : conn.countType recordnum = .ok (some countType))
    (hmotor : countType ∉ motorCountTypes) (hbike : ¬ "Bicycle".toList <:+: countType) :
    check parsers recordnum conn = some (.warn []) := by
  have hclass : countType ≠ "Class".toList := fun h => hmotor (h ▸ List.mem_cons_self _ _)
  simp only [check, htype, if_neg hclass, Option.map_some', laterRules, decide_eq_false hmotor,
    if_neg hbike, Bool.false_eq_true, if_false, Logged.warn_andThen_warn, List.append_nil]

/-! ### The errors of `check` -/

/-- Every error a rule returns is an error of the database driver. -/
def Logged.OracleOnly (l : Logged) : Prop :=
  ∀ e, l.1 = .error e → ∃ oe, e = .oracle oe

theorem Logged.OracleOnly.andThen {first next : Logged} (h1 : first.OracleOnly)
    (h2 : next.OracleOnly) : (first.andThen next).OracleOnly := by
  intro e h
  unfold Logged.andThen at h
  split at h
  · exact h2 e h
  · exact h1 e (by rw [‹first.1 = _›]; exact h)

theorem classCountChecks_eq_none_iff (parsers : RowParsers)
    (rows : List (Except OracleError ClacountRow)) :
    classCountChecks parsers rows = none ↔
      ∃ (pre : List ClacountRow) (row : ClacountRow) (rest : List (Except OracleError ClacountRow)),
        rows = pre.map .ok ++ .ok row :: rest ∧
        (∀ r ∈ pre, (ClassCountCheck.ofRow parsers r).isSome) ∧
          ClassCountCheck.ofRow parsers row = none := by
  induction rows with
  | nil => simp [classCountChecks]
  | cons r rows ih =>
    rcases r with oe | row
    · refine iff_of_false (by simp [classCountChecks]) ?_
      rintro ⟨_ | ⟨p, pre⟩, row, rest, h, -⟩ <;> cases h
    cases hrow : ClassCountCheck.ofRow parsers row with
    | none =>
      exact iff_of_true (by simp [classCountChecks_ok_cons, hrow]) ⟨[], row, rows, rfl, by simp, hrow⟩
    | some count =>
      simp only [classCountChecks_ok_cons, hrow, Option.some_bind, Option.map_eq_none', ih]
      constructor
      · rintro ⟨pre, row', rest, rfl, hpre, hrow'⟩
        exact ⟨row :: pre, row', rest, rfl, by simpa [hrow] using hpre, hrow'⟩
      · rintro ⟨_ | ⟨p, pre⟩, row', rest, h, hpre, hrow'⟩
        · obtain ⟨h1, -⟩ := List.cons.inj h
          cases h1
          simp [hrow] at hrow'
        · obtain ⟨h1, rfl⟩ := List.cons.inj h
          cases h1
          exact ⟨pre, row', rest, rfl, fun r hr => hpre r (.tail _ hr), hrow'⟩

/-- **`check` panics exactly on a `Class` count with a row that does not parse**: the
`tc_clacount` query succeeds, and its rows, read in order, reach one whose date, time or
direction does not parse before any row that failed. -/
theorem check_eq_none_iff (parsers : RowParsers) (recordnum : BitVec 32) (conn : Connection) :
    check parsers recordnum conn = none ↔
      conn.countType recordnum = .ok (some "Class".toList) ∧
        ∃ (pre : List ClacountRow) (row : ClacountRow) (rest : List (Except OracleError ClacountRow)),
          conn.clacount recordnum = .ok (pre.map .ok ++ .ok row :: rest) ∧
          (∀ r ∈ pre, (ClassCountCheck.ofRow parsers r).isSome) ∧
            ClassCountCheck.ofRow parsers row = none := by
  rcases htype : conn.countType recordnum with oe | _ | countType
  · exact iff_of_false (by simp only [check, htype]; exact Option.some_ne_none _)
      fun h => by cases h.1
  · exact iff_of_false (by simp only [check, htype]; exact Option.some_ne_none _)
      fun h => by cases h.1
  · by_cases hc : countType = "Class".toList
    · subst hc
      simp only [check, htype, if_true, Option.map_eq_none', true_and]
      cases conn.clacount recordnum with
      | error oe => exact iff_of_false (Option.some_ne_none _) fun ⟨_, _, _, h, _⟩ => by cases h
      | ok rows =>
        simp only [classMixRule, Option.map_eq_none', classCountChecks_eq_none_iff, Except.ok.injEq]
    · refine iff_of_false ?_ fun h => hc ?_
      · simp only [check, htype, if_neg hc, Option.map_some']
        exact Option.some_ne_none _
      · simpa using h.1

end StarNextImport
