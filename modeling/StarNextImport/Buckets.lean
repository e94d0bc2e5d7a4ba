import StarNextImport.Aggregate

/-!
# StarNextImport.Buckets — what every bucket of `create_speed_and_class_count` holds

The loop writes only buckets it has keyed itself, and a bucket's record is created with the
count's `dvrpc_num` and the direction of the channel.  `BucketsOk` says what this leaves in the
two maps, at every reachable state of the loop:

* every key is on a channel the count has a direction for, at a time that `time_bin` keeps;
* every record, speed or class, carries the count's `dvrpc_num` and the direction of its key's
  channel (the values the rows of `TC_SPECOUNT` and `TC_CLACOUNT` are written with);
* the ranges of a speed record add up to its `total`, and so do the classes `c1` to `c13` of a
  class record;
* a bucket of the class map has one in the speed map, and at every key the two `total`s agree.

All sums are of wrapping `i32`s, so nothing bounds the number of vehicles.

`binCount_bucketsOk` is the step lemma.  `Buckets` carries the invariant as a field and runs the
loop on it; `Buckets.foldlM_step_maps` says that forgetting the field gives back the loop of the
code, and so (`createSpeedAndClassCount_bucketsOk`) every result of the function has the
invariant.
-/

namespace StarNextImport

/-! ### The invariant -/

/-- A record at `key` as the loop writes it: the key's channel has `direction`, its time is a bin,
and the record's number is the count's. -/
def RecordOk (metadata : CountMetadata) (key : BinnedCountKey) (dvrpcNum : BitVec 32)
    (direction : Direction) : Prop :=
  metadata.channelDirection key.channel = some direction ∧ dvrpcNum = metadata.dvrpcNum ∧
    timeBin key.datetime.time = .ok key.datetime.time

/-- `s1 + … + s14`. -/
def SpeedRangeCount.rangeSum (c : SpeedRangeCount) : BitVec 32 :=
  (SpeedRange.chain.map c.get).sum

/-- The class counters that split the vehicles between them, `c1` to `c13`; `c15` counts the
unclassified vehicles a second time. -/
def ClassField.partition : List ClassField :=
  [.c1, .c2, .c3, .c4, .c5, .c6, .c7, .c8, .c9, .c10, .c11, .c12, .c13]

/-- `c1 + … + c13`. -/
def VehicleClassCount.classSum (c : VehicleClassCount) : BitVec 32 :=
  (ClassField.partition.map c.get).sum

/-- The invariant of the two maps of `create_speed_and_class_count`. -/
structure BucketsOk (metadata : CountMetadata) (maps : BinnedCounts) : Prop where
  speeds : ∀ k v, maps.1.lookup k = some v → RecordOk metadata k v.dvrpcNum v.direction
  classes : ∀ k v, maps.2.lookup k = some v → RecordOk metadata k v.dvrpcNum v.direction
  speed_sums : ∀ k v, maps.1.lookup k = some v → v.rangeSum = v.total
  class_sums : ∀ k v, maps.2.lookup k = some v → v.classSum = v.total
  class_keys : ∀ k, k ∈ maps.2 → k ∈ maps.1
  totals : ∀ k, readAt maps.1 k (·.total) = readAt maps.2 k (·.total)

theorem bucketsOk_empty (metadata : CountMetadata) : BucketsOk metadata (∅, ∅) where
  speeds k v h := by cases h
  classes k v h := by cases h
  speed_sums k v h := by cases h
  class_sums k v h := by cases h
  class_keys k h := absurd h (AList.not_mem_empty k)
  totals _ := rfl

/-! ### The sums of one record -/

theorem sum_map_ite_add_one {α : Type} (xs : List α) (p : α → Prop) [DecidablePred p]
    (g : α → BitVec 32) :
    (xs.map fun x => if p x then g x + 1 else g x).sum =
      (xs.map g).sum + (xs.countP p : BitVec 32) := by
  induction xs with
  | nil => simp
  | cons x xs ih =>
    simp only [List.map_cons, List.sum_cons, ih, List.countP_cons]
    by_cases hx : p x
    · simp only [hx, if_true, decide_True]; push_cast; ring
    · simp only [hx, if_false, decide_False, Bool.false_eq_true, add_zero]; ring

@[simp] theorem SpeedRangeCount.rangeSum_new (n : BitVec 32) (d : Direction) :
    (new n d).rangeSum = 0 := by
  simp [rangeSum, SpeedRange.chain]

@[simp] theorem VehicleClassCount.classSum_new (n : BitVec 32) (d : Direction) :
    (new n d).classSum = 0 := by
  simp [classSum, ClassField.partition]

theorem SpeedRangeCount.rangeSum_insert (c : SpeedRangeCount) (s : F32) :
    (c.insert s).2.rangeSum = c.rangeSum + if (speedRange s).isSome then 1 else 0 := by
  rw [rangeSum, List.map_congr_left fun r _ => get_insert c s r, sum_map_ite_add_one, rangeSum]
  congr 1
  rcases speedRange s with _ | r
  · simp
  · cases r <;> rfl

theorem VehicleClassCount.classSum_insert (c : VehicleClassCount) (v : VehicleClass) :
    (c.insert v).classSum = c.classSum + 1 := by
  rw [classSum, List.map_congr_left fun f _ => get_insert c v f, sum_map_ite_add_one, classSum]
  congr 1
  cases v <;> rfl

/-! ### One entry -/

section Entry

variable {β : Type} (m : AList fun _ : BinnedCountKey => β) (k key : BinnedCountKey)
  (default v : β)

theorem lookup_orInsert_insert :
    ((orInsert m k default).1.insert k v).lookup key =
      if key = k then some v else m.lookup key := by
  by_cases hk : key = k
  · subst hk; rw [AList.lookup_insert, if_pos rfl]
  · rw [AList.lookup_insert_ne hk, if_neg hk]
    unfold orInsert
    split
    · rfl
    · exact AList.lookup_insert_ne hk

theorem mem_orInsert_insert :
    key ∈ (orInsert m k default).1.insert k v ↔ key = k ∨ key ∈ m := by
  rw [AList.mem_insert]
  unfold orInsert
  split
  · rfl
  · rw [AList.mem_insert, ← or_assoc, or_self]

/-- Rewriting the entry at `k` with an update `f` that keeps a property `P` of the records keeps
it for the whole map, when `P` holds of the default `or_insert` may add. -/
theorem lookup_orInsert_insert_of {P : BinnedCountKey → β → Prop} {m : AList fun _ => β}
    {k : BinnedCountKey} {default : β} (f : β → β)
    (hm : ∀ k' w, m.lookup k' = some w → P k' w)
    (hdefault : P k default) (hf : ∀ w, P k w → P k (f w)) (key : BinnedCountKey) (w : β)
    (h : ((orInsert m k default).1.insert k (f (orInsert m k default).2)).lookup key = some w) :
    P key w := by
  rw [lookup_orInsert_insert] at h
  split_ifs at h with hk
  · cases h; subst hk
    apply hf
    rw [orInsert_snd]
    cases hl : m.lookup key
    · exact hdefault
    · exact hm _ _ hl
  · exact hm key w h

end Entry

theorem SpeedRangeCount.labels_insert (c : SpeedRangeCount) (s : F32) :
    (c.insert s).2.dvrpcNum = c.dvrpcNum ∧ (c.insert s).2.direction = c.direction := by
  unfold SpeedRangeCount.insert
  split <;> simp

/-! ### One step, and the run -/

section Step

variable {metadata : CountMetadata} {maps maps' : BinnedCounts} {count : CountedVehicle}

theorem recordOk_bin {direction : Direction}
    (hd : metadata.channelDirection count.channel = some direction) :
    RecordOk metadata count.bin metadata.dvrpcNum direction :=
  ⟨hd, rfl, by simp only [CountedVehicle.bin, timeBin_eq, quarterStart_quarterStart]⟩

/-- **The step lemma**: binning a vehicle on a channel with a direction keeps the invariant. -/
theorem binCount_bucketsOk {direction : Direction}
    (hd : metadata.channelDirection count.channel = some direction) (h : BucketsOk metadata maps) :
    BucketsOk metadata (binCount metadata.dvrpcNum direction maps count) where
  speeds := by
    rw [binCount_fst]
    refine lookup_orInsert_insert_of (fun w => (w.insert count.speed).2) h.speeds ?_ fun w hw => ?_
    · exact recordOk_bin hd
    · rwa [(w.labels_insert count.speed).1, (w.labels_insert count.speed).2]
  classes := by
    rw [binCount_snd]
    split_ifs
    · refine lookup_orInsert_insert_of (fun w => w.insert count.vehicleClass) h.classes ?_
        fun w hw => ?_
      · exact recordOk_bin hd
      · rwa [VehicleClassCount.dvrpcNum_insert, VehicleClassCount.direction_insert]
    · exact h.classes
  speed_sums := by
    rw [binCount_fst]
    refine lookup_orInsert_insert_of (fun w => (w.insert count.speed).2) h.speed_sums ?_
      fun w hw => ?_
    · simp
    · rw [SpeedRangeCount.rangeSum_insert, SpeedRangeCount.total_insert, hw]
      split <;> simp
  class_sums := by
    rw [binCount_snd]
    split_ifs
    · refine lookup_orInsert_insert_of (fun w => w.insert count.vehicleClass) h.class_sums ?_
        fun w hw => ?_
      · exact VehicleClassCount.classSum_new _ _
      · rw [VehicleClassCount.classSum_insert, hw]
        exact (VehicleClassCount.get_insert w _ .total).symm
    · exact h.class_sums
  class_keys k hk := by
    rw [binCount_fst, mem_orInsert_insert]
    rw [binCount_snd] at hk
    split_ifs at hk
    · exact ((mem_orInsert_insert _ _ _ _ _).1 hk).imp_right (h.class_keys k)
    · exact .inr (h.class_keys k hk)
  totals k := by
    rw [binCount_speed _ _ _ _ k (·.total) (fun s => (speedRange s).isSome = true)
        (SpeedRangeCount.total_new _ _) SpeedRangeCount.total_insert,
      binCount_class _ _ _ _ k (·.total) (fun v => ClassField.total.tallies v = true) rfl
        fun c v => VehicleClassCount.get_insert c v .total, h.totals k]
    simp only [ClassField.tallies, and_true]

/-- One pass of the loop keeps the invariant. -/
theorem createStep_bucketsOk (h : BucketsOk metadata maps)
    (hs : createStep metadata maps count = some maps') : BucketsOk metadata maps' := by
  rcases createStep_cases hs with ⟨d, hd, rfl⟩ | ⟨-, rfl⟩
  exacts [binCount_bucketsOk hd h, h]

end Step

/-! ### The maps with their invariant -/

/-- The two maps of the loop together with the invariant. -/
structure Buckets (metadata : CountMetadata) where
  maps : BinnedCounts
  ok : BucketsOk metadata maps

/-- The loop starts from two empty maps. -/
def Buckets.empty (metadata : CountMetadata) : Buckets metadata :=
  ⟨(∅, ∅), bucketsOk_empty metadata⟩

/-- One pass of the loop on maps that carry the invariant. -/
def Buckets.step {metadata : CountMetadata} (b : Buckets metadata) (count : CountedVehicle) :
    Option (Buckets metadata) :=
  match h : createStep metadata b.maps count with
  | some maps => some ⟨maps, createStep_bucketsOk b.ok h⟩
  | none => none

theorem Buckets.step_maps {metadata : CountMetadata} (b : Buckets metadata)
    (count : CountedVehicle) :
    (b.step count).map Buckets.maps = createStep metadata b.maps count := by
  unfold Buckets.step
  split <;> simp_all

/-- **The loop run on `Buckets` is the loop of the code**: the invariant is carried along every
run, and forgetting it gives back `create_speed_and_class_count`. -/
theorem Buckets.foldlM_step_maps {metadata : CountMetadata} (counts : List CountedVehicle)
    (b : Buckets metadata) :
    (counts.foldlM Buckets.step b).map Buckets.maps =
      counts.foldlM (createStep metadata) b.maps := by
  induction counts generalizing b with
  | nil => rfl
  | cons c cs ih =>
    rw [List.foldlM_cons, List.foldlM_cons, ← Buckets.step_maps]
    cases b.step c with
    | none => rfl
    | some b' => exact ih b'

/-- **Every bucket `create_speed_and_class_count` returns is one its loop keyed and labelled**:
its key is on channel 1, or on channel 2 of a count with a second direction, at a time `time_bin`
keeps; its records carry the count's `dvrpc_num` and the direction of that channel, and their
counters add up to their `total`; a class bucket has a speed bucket, and the two `total`s agree. -/
theorem createSpeedAndClassCount_bucketsOk (metadata : CountMetadata)
    (counts : List CountedVehicle) (maps : BinnedCounts)
    (h : createSpeedAndClassCount metadata counts = some maps) : BucketsOk metadata maps := by
  have hrun := Buckets.foldlM_step_maps counts (Buckets.empty metadata)
  rw [Buckets.empty, ← createSpeedAndClassCount, h] at hrun
  obtain ⟨b, -, rfl⟩ := Option.map_eq_some'.1 hrun
  exact b.ok

theorem createSpeedAndClassCount_bucketsOk_one_vehicle :
    ∃ maps,
      createSpeedAndClassCount ⟨"rc".toList, 166905, ⟨.east, some .west⟩, 40972, some 35⟩
        [⟨⟨2024, 100⟩, ⟨10, 7, 0, 0⟩, 2, .passengerCars, 30⟩] = some maps ∧
      BucketsOk ⟨"rc".toList, 166905, ⟨.east, some .west⟩, 40972, some 35⟩ maps := by
  obtain ⟨maps, h⟩ := Option.isSome_iff_exists.1 (by decide :
    (createSpeedAndClassCount ⟨"rc".toList, 166905, ⟨.east, some .west⟩, 40972, some 35⟩
      [⟨⟨2024, 100⟩, ⟨10, 7, 0, 0⟩, 2, .passengerCars, 30⟩]).isSome)
  exact ⟨maps, h, createSpeedAndClassCount_bucketsOk _ _ maps h⟩

end StarNextImport
