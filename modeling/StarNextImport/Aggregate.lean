import StarNextImport.Time
import StarNextImport.Counts
import Mathlib.Data.List.AList

/-!
# StarNextImport.Aggregate — `create_speed_and_class_count`

The binning loop of `lib.rs`.  For each counted vehicle it looks up the direction of the
channel, keys the vehicle by its date, its `time_bin` and its channel, creates the bucket of the
speed map if it is absent, inserts the speed, and on success does the same for the class map.

The two `HashMap`s are `AList`s: finite maps whose keys are distinct by construction, read only
through `lookup` (a `HashMap` has no order to observe).  The loop is `List.foldlM` of one step,
`createStep`, in `Option`; `none` is the panic of `direction2.unwrap()`.

* `createStep_cases`: one pass bins the vehicle with the direction of its channel
  (`channelDirection`) or skips it.
* `binCount_speed`, `binCount_class`: what one step does to any counter of any bucket.
* `foldlM_createStep_reads`: from any pair of maps, every counter of every bucket grows by the
  number of accepted vehicles with that key that it tallies (modulo `2 ^ 32`).
* `createSpeedAndClassCount_tallies`: from the empty maps, below `2 ^ 31` vehicles, the buckets
  hold exactly the counts of the accepted vehicles.
-/

namespace StarNextImport

/-- A vehicle that has been counted, with no binning applied to it. -/
structure CountedVehicle where
  date : Date
  time : Time
  channel : BitVec 8
  vehicleClass : VehicleClass
  speed : F32
  deriving DecidableEq, Repr

/-- `CountedVehicle::new`: the class number is checked by `VehicleClass::from_num`. -/
def CountedVehicle.new (date : Date) (time : Time) (channel : BitVec 8) (vehicleClass : BitVec 8)
    (speed : F32) : Except CountError CountedVehicle := do
  let vehicleClass ← VehicleClass.fromNum vehicleClass
  pure { date, time, channel, vehicleClass, speed }

/-- Identifies the time and lane for binning vehicle class/speeds. -/
structure BinnedCountKey where
  datetime : PrimitiveDateTime
  channel : BitVec 8
  deriving DecidableEq, Repr

/-- `FifteenMinuteVehicleClassCount`, the `HashMap` of class counts by bin. -/
abbrev FifteenMinuteVehicleClassCount := AList fun _ : BinnedCountKey => VehicleClassCount

/-- `FifteenMinuteSpeedRangeCount`, the `HashMap` of speed counts by bin. -/
abbrev FifteenMinuteSpeedRangeCount := AList fun _ : BinnedCountKey => SpeedRangeCount

/-- The two maps of the loop. -/
abbrev BinnedCounts := FifteenMinuteSpeedRangeCount × FifteenMinuteVehicleClassCount

/-- `map.entry(key).or_insert(default)`: the map, with `default` at `key` if `key` was absent,
and the value at `key`. -/
def orInsert {β : Type} (m : AList fun _ : BinnedCountKey => β) (key : BinnedCountKey)
    (default : β) : (AList fun _ : BinnedCountKey => β) × β :=
  match m.lookup key with
  | some v => (m, v)
  | none => (m.insert key default, default)

/-- The loop body once the direction of the channel is known: key the vehicle by its bin, add a
new entry to the speed map if necessary and insert the speed; on success do the same with the
class map and the class. -/
def binCount (dvrpcNum : BitVec 32) (direction : Direction) (maps : BinnedCounts)
    (count : CountedVehicle) : BinnedCounts :=
  match timeBin count.time with
  | .error _ => maps
  | .ok timePart =>
    let key : BinnedCountKey := ⟨⟨count.date, timePart⟩, count.channel⟩
    let entry := orInsert maps.1 key (SpeedRangeCount.new dvrpcNum direction)
    -- `insert` mutates the entry in place, also when it then returns `Err` and the loop continues
    let call := entry.2.insert count.speed
    let speeds := entry.1.insert key call.2
    match call.1 with
    | .error _ => (speeds, maps.2)
    | .ok () =>
      let entry := orInsert maps.2 key (VehicleClassCount.new dvrpcNum direction)
      (speeds, entry.1.insert key (entry.2.insert count.vehicleClass))

/-- One pass of the loop of `create_speed_and_class_count`.  Channel 1 is the first direction,
channel 2 the second: `direction2.unwrap()` panics (`none`) when there is none.  Any other channel
is logged and skipped. -/
def createStep (metadata : CountMetadata) (maps : BinnedCounts) (count : CountedVehicle) :
    Option BinnedCounts :=
  if count.channel = 1 then
    some (binCount metadata.dvrpcNum metadata.directions.direction1 maps count)
  else if count.channel = 2 then
    metadata.directions.direction2.map fun direction =>
      binCount metadata.dvrpcNum direction maps count
  else some maps

/-- `create_speed_and_class_count`: create the 15-minute binned class and speed counts; `none`
is a panic. -/
def createSpeedAndClassCount (metadata : CountMetadata) (counts : List CountedVehicle) :
    Option BinnedCounts :=
  counts.foldlM (createStep metadata) (∅, ∅)

/-- The direction the loop gives a channel: `direction1` on 1, `direction2` on 2, none else. -/
def CountMetadata.channelDirection (metadata : CountMetadata) (channel : BitVec 8) :
    Option Direction :=
  if channel = 1 then some metadata.directions.direction1
  else if channel = 2 then metadata.directions.direction2
  else none

/-! ### Reading the maps -/

/-- One counter of the bucket at `key`, an absent bucket reading as zeros. -/
def readAt {β : Type} (m : AList fun _ : BinnedCountKey => β) (key : BinnedCountKey)
    (read : β → BitVec 32) : BitVec 32 :=
  ((m.lookup key).map read).getD 0

/-- The key of a vehicle: its date, its `time_bin` and its channel. -/
def CountedVehicle.binnedKey (c : CountedVehicle) : Option BinnedCountKey :=
  match timeBin c.time with
  | .ok timePart => some ⟨⟨c.date, timePart⟩, c.channel⟩
  | .error _ => none

/-- The loop accepts a vehicle when its channel is 1 or 2 and its speed passes `insert`. -/
def CountedVehicle.Accepted (c : CountedVehicle) : Prop :=
  (c.channel = 1 ∨ c.channel = 2) ∧ (speedRange c.speed).isSome

instance (c : CountedVehicle) : Decidable c.Accepted :=
  inferInstanceAs (Decidable (_ ∧ _))

@[simp] theorem readAt_empty {β : Type} (key : BinnedCountKey) (read : β → BitVec 32) :
    readAt ∅ key read = 0 := rfl

theorem readAt_insert {β : Type} (m : AList fun _ : BinnedCountKey => β) (k key : BinnedCountKey)
    (v : β) (read : β → BitVec 32) :
    readAt (m.insert k v) key read = if key = k then read v else readAt m key read := by
  by_cases h : key = k
  · subst h; simp [readAt, AList.lookup_insert]
  · simp [readAt, AList.lookup_insert_ne h, h]

theorem orInsert_snd {β : Type} (m : AList fun _ : BinnedCountKey => β) (key : BinnedCountKey)
    (default : β) : (orInsert m key default).2 = (m.lookup key).getD default := by
  unfold orInsert; split <;> simp_all

theorem readAt_orInsert_ne {β : Type} (m : AList fun _ : BinnedCountKey => β)
    {k key : BinnedCountKey} (default : β) (read : β → BitVec 32) (hk : key ≠ k) :
    readAt (orInsert m k default).1 key read = readAt m key read := by
  unfold orInsert
  split
  · rfl
  · rw [readAt_insert, if_neg hk]

/-- After `or_insert`, a rewrite of the entry reads as a rewrite of the old map. -/
theorem readAt_orInsert_insert {β : Type} (m : AList fun _ : BinnedCountKey => β)
    (k key : BinnedCountKey) (default v : β) (read : β → BitVec 32) :
    readAt ((orInsert m k default).1.insert k v) key read =
      if key = k then read v else readAt m key read := by
  rw [readAt_insert]
  split_ifs with hk
  · rfl
  · exact readAt_orInsert_ne m default read hk

theorem read_getD {β : Type} (m : AList fun _ : BinnedCountKey => β) (k : BinnedCountKey)
    (default : β) (read : β → BitVec 32) (hdefault : read default = 0) :
    read ((m.lookup k).getD default) = readAt m k read := by
  unfold readAt; cases m.lookup k <;> simp [hdefault]

/-- The bucket of a vehicle, `time_bin` worked out. -/
def CountedVehicle.bin (c : CountedVehicle) : BinnedCountKey :=
  ⟨⟨c.date, c.time.quarterStart⟩, c.channel⟩

theorem binnedKey_eq (c : CountedVehicle) : c.binnedKey = some c.bin := by
  simp [CountedVehicle.binnedKey, CountedVehicle.bin, timeBin_eq]

/-! ### One step -/

section Step

variable (dvrpcNum : BitVec 32) (direction : Direction) (maps : BinnedCounts)
  (count : CountedVehicle) (key : BinnedCountKey)

theorem binCount_fst : (binCount dvrpcNum direction maps count).1 =
    (orInsert maps.1 count.bin (.new dvrpcNum direction)).1.insert count.bin
      ((orInsert maps.1 count.bin (.new dvrpcNum direction)).2.insert count.speed).2 := by
  simp only [binCount, timeBin_eq, CountedVehicle.bin]
  split <;> rfl

theorem binCount_snd : (binCount dvrpcNum direction maps count).2 =
    if (speedRange count.speed).isSome then
      (orInsert maps.2 count.bin (.new dvrpcNum direction)).1.insert count.bin
        ((orInsert maps.2 count.bin (.new dvrpcNum direction)).2.insert count.vehicleClass)
    else maps.2 := by
  have hok := SpeedRangeCount.isOk_insert
    (orInsert maps.1 count.bin (.new dvrpcNum direction)).2 count.speed
  simp only [binCount, timeBin_eq, CountedVehicle.bin] at hok ⊢
  split <;> simp_all [Except.isOk, Except.toBool]

/-- **One step on the speed map**: a counter of the bucket at `key` grows by one when the vehicle
has that key and the counter tallies its speed; nothing else changes. -/
theorem binCount_speed (read : SpeedRangeCount → BitVec 32) (P : F32 → Prop) [DecidablePred P]
    (hnew : read (SpeedRangeCount.new dvrpcNum direction) = 0)
    (hins : ∀ c s, read (c.insert s).2 = if P s then read c + 1 else read c) :
    readAt (binCount dvrpcNum direction maps count).1 key read =
      readAt maps.1 key read + if count.binnedKey = some key ∧ P count.speed then 1 else 0 := by
  rw [binCount_fst, readAt_orInsert_insert, orInsert_snd, binnedKey_eq, hins,
    read_getD _ _ _ _ hnew]
  by_cases hk : key = count.bin
  · subst hk; split_ifs <;> simp_all
  · have hk' : ¬ (some count.bin = some key) := fun h => hk (Option.some.inj h).symm
    simp [hk, hk']

/-- **One step on the class map**: a counter of the bucket at `key` grows by one when the vehicle
has that key, its speed passes and the counter tallies its class; nothing else changes. -/
theorem binCount_class (read : VehicleClassCount → BitVec 32) (Q : VehicleClass → Prop)
    [DecidablePred Q] (hnew : read (VehicleClassCount.new dvrpcNum direction) = 0)
    (hins : ∀ c v, read (c.insert v) = if Q v then read c + 1 else read c) :
    readAt (binCount dvrpcNum direction maps count).2 key read =
      readAt maps.2 key read + if count.binnedKey = some key ∧ (speedRange count.speed).isSome ∧
        Q count.vehicleClass then 1 else 0 := by
  rw [binCount_snd, binnedKey_eq]
  by_cases hs : (speedRange count.speed).isSome
  · rw [if_pos hs, readAt_orInsert_insert, orInsert_snd, hins, read_getD _ _ _ _ hnew]
    by_cases hk : key = count.bin
    · subst hk; split_ifs <;> simp_all
    · have hk' : ¬ (some count.bin = some key) := fun h => hk (Option.some.inj h).symm
      simp [hk, hk']
  · simp [hs]

end Step

/-! ### The loop -/

section Run

variable {metadata : CountMetadata}

/-- The loop body panics only on channel 2 without a second direction. -/
theorem createStep_eq_none_iff (maps : BinnedCounts) (count : CountedVehicle) :
    createStep metadata maps count = none ↔
      count.channel = 2 ∧ metadata.directions.direction2 = none := by
  unfold createStep
  split_ifs with h1 h2
  · simp only [reduceCtorEq, false_iff]; rintro ⟨h, -⟩; rw [h] at h1; exact absurd h1 (by decide)
  · simp [h2]
  · simp only [reduceCtorEq, false_iff]; exact fun h => h2 h.1

theorem channel_of_channelDirection {metadata : CountMetadata} {channel : BitVec 8}
    {d : Direction} (h : metadata.channelDirection channel = some d) :
    channel = 1 ∨ channel = 2 := by
  unfold CountMetadata.channelDirection at h
  split_ifs at h with h1 h2
  exacts [.inl h1, .inr h2]

/-- **What one pass of the loop does**: bin the vehicle with the direction of its channel, or
skip it when the channel is neither 1 nor 2. -/
theorem createStep_cases {maps maps' : BinnedCounts} {count : CountedVehicle}
    (h : createStep metadata maps count = some maps') :
    (∃ d, metadata.channelDirection count.channel = some d ∧
        maps' = binCount metadata.dvrpcNum d maps count) ∨
      (¬ (count.channel = 1 ∨ count.channel = 2) ∧ maps' = maps) := by
  unfold createStep at h
  unfold CountMetadata.channelDirection
  split_ifs at h ⊢ with h1 h2
  · exact .inl ⟨_, rfl, (Option.some.inj h).symm⟩
  · obtain ⟨d, hd, rfl⟩ := Option.map_eq_some'.1 h
    exact .inl ⟨d, hd, rfl⟩
  · exact .inr ⟨fun hc => hc.elim h1 h2, (Option.some.inj h).symm⟩

/-- **The loop panics exactly when** some vehicle is on channel 2 and the count has no second
direction. -/
theorem foldlM_createStep_eq_none_iff (counts : List CountedVehicle) (maps : BinnedCounts) :
    counts.foldlM (createStep metadata) maps = none ↔
      ∃ c ∈ counts, c.channel = 2 ∧ metadata.directions.direction2 = none := by
  induction counts generalizing maps with
  | nil => simp
  | cons c cs ih =>
    cases h : createStep metadata maps c with
    | none =>
      obtain ⟨h1, h2⟩ := (createStep_eq_none_iff _ _).1 h
      simp [h, h1, h2]
    | some m1 =>
      have hc : ¬ (c.channel = 2 ∧ metadata.directions.direction2 = none) := fun hc => by
        rw [(createStep_eq_none_iff maps c).2 hc] at h; cases h
      simp only [List.foldlM_cons, h, List.mem_cons, exists_eq_or_imp]
      exact (ih m1).trans (or_iff_right hc).symm

/-- **The loop runs to the end** when no vehicle on channel 2 meets a missing second direction. -/
theorem foldlM_createStep_isSome (counts : List CountedVehicle) (maps : BinnedCounts)
    (hdir : ∀ c ∈ counts, c.channel = 2 → metadata.directions.direction2.isSome) :
    ∃ maps', counts.foldlM (createStep metadata) maps = some maps' := by
  refine Option.ne_none_iff_exists'.1 fun h => ?_
  obtain ⟨c, hc, h2, hnone⟩ := (foldlM_createStep_eq_none_iff counts maps).1 h
  simpa [hnone] using hdir c hc h2

variable (R : BinnedCounts → BitVec 32) (A : CountedVehicle → Prop) [DecidablePred A]
  (hR : ∀ d maps c, R (binCount metadata.dvrpcNum d maps c) = R maps + if A c then 1 else 0)
include hR

/-- One pass of the loop adds one to a reading `R` of the maps that `binCount` adds one to, when
the channel is 1 or 2. -/
theorem createStep_reads {maps maps' : BinnedCounts} {count : CountedVehicle}
    (h : createStep metadata maps count = some maps') :
    R maps' = R maps + if (count.channel = 1 ∨ count.channel = 2) ∧ A count then 1 else 0 := by
  rcases createStep_cases h with ⟨d, hd, rfl⟩ | ⟨hc, rfl⟩
  · rw [hR]; simp only [channel_of_channelDirection hd, true_and]
  · rw [if_neg fun h' => hc h'.1, add_zero]

/-- **The run lemma**: over the whole loop, the reading grows by the number of vehicles on
channel 1 or 2 that `binCount` adds to it. -/
theorem foldlM_createStep_reads (counts : List CountedVehicle) {maps maps' : BinnedCounts}
    (h : counts.foldlM (createStep metadata) maps = some maps') :
    R maps' = R maps +
      (counts.countP fun c => (c.channel = 1 ∨ c.channel = 2) ∧ A c : BitVec 32) := by
  induction counts generalizing maps with
  | nil => cases h; simp
  | cons c cs ih =>
    obtain ⟨m1, h1, h2⟩ := Option.bind_eq_some.1 (by simpa using h)
    rw [ih h2, createStep_reads R A hR h1, List.countP_cons]
    split_ifs <;> simp_all
    ring

/-- From the empty maps and below `2 ^ 31` vehicles, such a reading that starts at zero ends, as
an `i32`, at the number of vehicles it counts. -/
theorem toInt_reads_of_foldlM {counts : List CountedVehicle} {maps' : BinnedCounts}
    (h : counts.foldlM (createStep metadata) (∅, ∅) = some maps') (hlen : counts.length < 2 ^ 31)
    (h0 : R (∅, ∅) = 0) (B : CountedVehicle → Prop) [DecidablePred B]
    (hB : ∀ c, ((c.channel = 1 ∨ c.channel = 2) ∧ A c) ↔ B c) :
    (R maps').toInt = counts.countP B := by
  rw [foldlM_createStep_reads R A hR counts h, h0, zero_add, BitVec.natCast_eq_ofNat,
    toInt_ofNat_of_lt (lt_of_le_of_lt (List.countP_le_length _) hlen)]
  exact congrArg _ (List.countP_congr fun c _ => by simpa using hB c)

end Run

/-- **`create_speed_and_class_count` counts every accepted vehicle once, in its own bucket.**
For fewer than `2 ^ 31` vehicles, none of them on channel 2 when the count has one direction,
the loop returns the two maps, and at every key `k`, an absent bucket reading as zeros: each
class counter `f` is the number of accepted vehicles with key `k` whose class `f` tallies (so
`c2` counts passenger cars and unclassified vehicles, `c15` the unclassified ones, `total` all of
them), each speed counter `s_r` the number of accepted vehicles with key `k` that `insert` puts in
range `r`, and the speed `total` the number of accepted vehicles with key `k`. -/
theorem createSpeedAndClassCount_tallies (metadata : CountMetadata)
    (counts : List CountedVehicle) (hlen : counts.length < 2 ^ 31)
    (hdir : ∀ c ∈ counts, c.channel = 2 → metadata.directions.direction2.isSome) :
    ∃ speeds classes, createSpeedAndClassCount metadata counts = some (speeds, classes) ∧
      (∀ k f, (readAt classes k (·.get f)).toInt = counts.countP fun c =>
        c.Accepted ∧ c.binnedKey = some k ∧ f.tallies c.vehicleClass) ∧
      (∀ k r, (readAt speeds k (·.get r)).toInt = counts.countP fun c =>
        c.Accepted ∧ c.binnedKey = some k ∧ speedRange c.speed = some r) ∧
      (∀ k, (readAt speeds k (·.total)).toInt = counts.countP fun c =>
        c.Accepted ∧ c.binnedKey = some k) := by
  obtain ⟨⟨speeds, classes⟩, h⟩ := foldlM_createStep_isSome counts (∅, ∅) hdir
  refine ⟨speeds, classes, h, fun k f => ?_, fun k r => ?_, fun k => ?_⟩
  · exact toInt_reads_of_foldlM (fun maps => readAt maps.2 k (·.get f))
      (fun c => c.binnedKey = some k ∧ (speedRange c.speed).isSome ∧ f.tallies c.vehicleClass)
      (fun d maps c => binCount_class metadata.dvrpcNum d maps c k (·.get f)
        (fun v => f.tallies v = true) (VehicleClassCount.get_new _ _ f)
        (fun c v => VehicleClassCount.get_insert c v f)) h hlen rfl _
      fun c => by simp only [CountedVehicle.Accepted]; tauto
  · exact toInt_reads_of_foldlM (fun maps => readAt maps.1 k (·.get r))
      (fun c => c.binnedKey = some k ∧ speedRange c.speed = some r)
      (fun d maps c => binCount_speed metadata.dvrpcNum d maps c k (·.get r)
        (fun s => speedRange s = some r) (SpeedRangeCount.get_new _ _ r)
        (fun c s => SpeedRangeCount.get_insert c s r)) h hlen rfl _
      fun c => by
        simp only [CountedVehicle.Accepted]
        exact ⟨fun ⟨h1, h2, h3⟩ => ⟨⟨h1, by simp [h3]⟩, h2, h3⟩, fun ⟨⟨h1, _⟩, h2, h3⟩ => ⟨h1, h2, h3⟩⟩
  · exact toInt_reads_of_foldlM (fun maps => readAt maps.1 k (·.total))
      (fun c => c.binnedKey = some k ∧ (speedRange c.speed).isSome)
      (fun d maps c => binCount_speed metadata.dvrpcNum d maps c k (·.total)
        (fun s => (speedRange s).isSome = true) (SpeedRangeCount.total_new _ _)
        (fun c s => SpeedRangeCount.total_insert c s)) h hlen rfl _
      fun c => by simp only [CountedVehicle.Accepted]; tauto

theorem createSpeedAndClassCount_tallies_one_vehicle :
    [(⟨⟨2024, 100⟩, ⟨10, 7, 0, 0⟩, 2, .passengerCars, 30⟩ : CountedVehicle)].length < 2 ^ 31 ∧
      (∀ c ∈ [(⟨⟨2024, 100⟩, ⟨10, 7, 0, 0⟩, 2, .passengerCars, 30⟩ : CountedVehicle)],
        c.channel = 2 → (some Direction.west).isSome) ∧
      (createSpeedAndClassCount ⟨"rc".toList, 166905, ⟨.east, some .west⟩, 40972, some 35⟩
        [⟨⟨2024, 100⟩, ⟨10, 7, 0, 0⟩, 2, .passengerCars, 30⟩]).isSome := by
  obtain ⟨s, c, h, -⟩ := createSpeedAndClassCount_tallies
    ⟨"rc".toList, 166905, ⟨.east, some .west⟩, 40972, some 35⟩
    [⟨⟨2024, 100⟩, ⟨10, 7, 0, 0⟩, 2, .passengerCars, 30⟩] (by decide) (by decide)
  exact ⟨by decide, by decide, by rw [h]; rfl⟩

/-- **`create_speed_and_class_count` panics exactly when** some vehicle is on channel 2 and the
count has no second direction. -/
theorem createSpeedAndClassCount_eq_none_iff (metadata : CountMetadata)
    (counts : List CountedVehicle) :
    createSpeedAndClassCount metadata counts = none ↔
      ∃ c ∈ counts, c.channel = 2 ∧ metadata.directions.direction2 = none :=
  foldlM_createStep_eq_none_iff counts (∅, ∅)

/-! ### Rejected vehicles -/

/-- A vehicle on another channel than 1 and 2 leaves both maps as they were. -/
theorem createStep_of_channel {metadata : CountMetadata} (maps : BinnedCounts)
    {count : CountedVehicle} (h1 : count.channel ≠ 1) (h2 : count.channel ≠ 2) :
    createStep metadata maps count = some maps := by
  rw [createStep, if_neg h1, if_neg h2]

/-- A vehicle whose speed `insert` rejects changes no counter of either map: the class map is
as it was, and the speed map at most gains an empty bucket at the vehicle's key. -/
theorem binCount_of_rejected {dvrpcNum : BitVec 32} {direction : Direction} (maps : BinnedCounts)
    {count : CountedVehicle} (h : speedRange count.speed = none) :
    (binCount dvrpcNum direction maps count).2 = maps.2 ∧
      (binCount dvrpcNum direction maps count).1 = (orInsert maps.1 count.bin
        (.new dvrpcNum direction)).1.insert count.bin
          (orInsert maps.1 count.bin (.new dvrpcNum direction)).2 := by
  rw [binCount_snd, binCount_fst, SpeedRangeCount.insert_of_none h]
  simp [h]

/-- At a negative speed on channel 1 the loop skips the vehicle, yet the speed map gains an empty
bucket at its key while the class map gains none. -/
theorem createSpeedAndClassCount_rejected_speed_bucket :
    (createSpeedAndClassCount ⟨"rc".toList, 166905, ⟨.east, some .west⟩, 40972, some 35⟩
        [⟨⟨2024, 100⟩, ⟨10, 7, 0, 0⟩, 1, .passengerCars, -1⟩]).map
      (fun maps => (maps.1.lookup ⟨⟨⟨2024, 100⟩, ⟨10, 0, 0, 0⟩⟩, 1⟩,
        maps.2.lookup ⟨⟨⟨2024, 100⟩, ⟨10, 0, 0, 0⟩⟩, 1⟩)) =
      some (some (SpeedRangeCount.new 166905 .east), none) := by
  decide

/-- A one-direction count with a vehicle on channel 2 panics at `direction2.unwrap()`. -/
theorem createSpeedAndClassCount_channel_two_panics :
    createSpeedAndClassCount ⟨"rc".toList, 166905, ⟨.east, none⟩, 40972, some 35⟩
      [⟨⟨2024, 100⟩, ⟨10, 7, 0, 0⟩, 2, .passengerCars, 30⟩] = none := by
  decide

end StarNextImport
