import StarNextImport.Buckets

/-!
# StarNextImport.Records — every bucket from its own vehicles

The loop of `create_speed_and_class_count` walks the vehicles in their order and updates two
`HashMap`s in place.  What it leaves at a key depends on the vehicles of that key alone:

* `speedRecord`: when some vehicle on channel 1 or 2 has the key, the speeds of those vehicles
  inserted, in their order, into a new `SpeedRangeCount` of the channel's direction (a rejected
  speed leaves the record as it is, but the record is there);
* `classRecord`: the classes of those of them whose speed `insert` accepted, inserted into a new
  `VehicleClassCount`.

`createSpeedAndClassCount_lookup` proves that the loop computes these records at every key: the
step lemmas `lookup_binCount_fst` and `lookup_binCount_snd` say what one vehicle does to the entry
at a key, the run lemma `foldlM_createStep_lookup` folds them over the vehicles of the key, and
`lookup_fst_eq_speedRecord` and `lookup_snd_eq_classRecord` read the fold back as a record.
As a record only counts its vehicles, the maps do not depend on the order of the vehicles
(`createSpeedAndClassCount_perm`).
-/

namespace StarNextImport

/-! ### The records of a key -/

/-- The vehicles the loop bins at `key`: those on channel 1 or 2 whose bucket is `key`. -/
def keyedVehicles (counts : List CountedVehicle) (key : BinnedCountKey) : List CountedVehicle :=
  counts.filter fun c => (c.channel = 1 ∨ c.channel = 2) ∧ c.bin = key

/-- The speed record at `key`: the speeds of its vehicles inserted into a new count. -/
def speedRecord (metadata : CountMetadata) (counts : List CountedVehicle)
    (key : BinnedCountKey) : Option SpeedRangeCount :=
  match metadata.channelDirection key.channel, keyedVehicles counts key with
  | some d, c :: cs =>
    some ((SpeedRangeCount.new metadata.dvrpcNum d).insertAll ((c :: cs).map (·.speed)))
  | _, _ => none

/-- The class record at `key`: the classes of its vehicles whose speed `insert` accepts. -/
def classRecord (metadata : CountMetadata) (counts : List CountedVehicle)
    (key : BinnedCountKey) : Option VehicleClassCount :=
  match metadata.channelDirection key.channel,
    (keyedVehicles counts key).filter fun c => (speedRange c.speed).isSome with
  | some d, c :: cs =>
    some (((c :: cs).map (·.vehicleClass)).foldl VehicleClassCount.insert
      (.new metadata.dvrpcNum d))
  | _, _ => none

/-! ### One step at one key -/

section Step

variable (dvrpcNum : BitVec 32) (direction : Direction) (maps : BinnedCounts)
  (count : CountedVehicle) (key : BinnedCountKey)

theorem lookup_binCount_fst :
    (binCount dvrpcNum direction maps count).1.lookup key =
      if count.bin = key then
        some (((maps.1.lookup key).getD (.new dvrpcNum direction)).insert count.speed).2
      else maps.1.lookup key := by
  rw [binCount_fst, lookup_orInsert_insert, orInsert_snd]
  by_cases hk : count.bin = key
  · subst hk; rw [if_pos rfl]
  · rw [if_neg (Ne.symm hk), if_neg hk]

theorem lookup_binCount_snd :
    (binCount dvrpcNum direction maps count).2.lookup key =
      if count.bin = key ∧ (speedRange count.speed).isSome then
        some (((maps.2.lookup key).getD (.new dvrpcNum direction)).insert count.vehicleClass)
      else maps.2.lookup key := by
  rw [binCount_snd]
  by_cases hs : (speedRange count.speed).isSome
  · rw [if_pos hs, lookup_orInsert_insert, orInsert_snd]
    by_cases hk : count.bin = key
    · subst hk; rw [if_pos rfl, if_pos ⟨rfl, hs⟩]
    · rw [if_neg (Ne.symm hk), if_neg fun h => hk h.1]
  · rw [if_neg hs, if_neg fun h => hs h.2]

end Step

/-! ### The run at one key -/

section Run

variable {metadata : CountMetadata} {β : Type} (lk : BinnedCounts → Option β)
  (P : CountedVehicle → Prop) [DecidablePred P] (g : Option β → CountedVehicle → β)
  (hlk : ∀ d maps c, metadata.channelDirection c.channel = some d →
    lk (binCount metadata.dvrpcNum d maps c) = if P c then some (g (lk maps) c) else lk maps)
include hlk

/-- One pass of the loop updates an entry `lk` that `binCount` updates, when the channel is 1
or 2. -/
theorem createStep_lookup {maps maps' : BinnedCounts} {count : CountedVehicle}
    (h : createStep metadata maps count = some maps') :
    lk maps' = if (count.channel = 1 ∨ count.channel = 2) ∧ P count then
      some (g (lk maps) count) else lk maps := by
  rcases createStep_cases h with ⟨d, hd, rfl⟩ | ⟨hc, rfl⟩
  · rw [hlk _ _ _ hd]; simp only [channel_of_channelDirection hd, true_and]
  · rw [if_neg fun h' => hc h'.1]

/-- **The run lemma at one key**: the entry is the fold of the updates of the vehicles that
reach it. -/
theorem foldlM_createStep_lookup (counts : List CountedVehicle) {maps maps' : BinnedCounts}
    (h : counts.foldlM (createStep metadata) maps = some maps') :
    lk maps' = (counts.filter fun c => (c.channel = 1 ∨ c.channel = 2) ∧ P c).foldl
      (fun o c => some (g o c)) (lk maps) := by
  induction counts generalizing maps with
  | nil => cases h; rfl
  | cons c cs ih =>
    obtain ⟨m1, h1, h2⟩ := Option.bind_eq_some.1 (by simpa using h)
    rw [ih h2, createStep_lookup lk P g hlk h1]
    by_cases hc : (c.channel = 1 ∨ c.channel = 2) ∧ P c
    · rw [if_pos hc, List.filter_cons_of_pos (by simpa using hc), List.foldl_cons]
    · rw [if_neg hc, List.filter_cons_of_neg (by simpa using hc)]

end Run

/-! ### The loop computes the records -/

section Records

variable {metadata : CountMetadata} {key : BinnedCountKey} {d : Direction}

theorem foldl_speed_some (x : SpeedRangeCount) (cs : List CountedVehicle) :
    cs.foldl (fun o c => some (((o.getD (.new metadata.dvrpcNum d)).insert c.speed).2)) (some x) =
      some (x.insertAll (cs.map (·.speed))) := by
  induction cs generalizing x with
  | nil => rfl
  | cons c cs ih => exact ih _

theorem foldl_class_some (x : VehicleClassCount) (cs : List CountedVehicle) :
    cs.foldl (fun o c => some ((o.getD (.new metadata.dvrpcNum d)).insert c.vehicleClass))
      (some x) = some ((cs.map (·.vehicleClass)).foldl VehicleClassCount.insert x) := by
  induction cs generalizing x with
  | nil => rfl
  | cons c cs ih => exact ih _

/-- A vehicle of the key has a direction: otherwise the loop would have panicked on it. -/
theorem channelDirection_of_keyed {counts : List CountedVehicle} {maps : BinnedCounts}
    (h : createSpeedAndClassCount metadata counts = some maps) {c : CountedVehicle}
    (hc : c ∈ keyedVehicles counts key) :
    ∃ d, metadata.channelDirection key.channel = some d := by
  obtain ⟨hmem, hch, rfl⟩ :
      c ∈ counts ∧ (c.channel = 1 ∨ c.channel = 2) ∧ c.bin = key := by
    simpa [keyedVehicles] using hc
  change ∃ d, metadata.channelDirection c.channel = some d
  rcases hch with h1 | h2
  · exact ⟨_, by rw [CountMetadata.channelDirection, if_pos h1]⟩
  · cases hd : metadata.directions.direction2 with
    | none =>
      have := (foldlM_createStep_eq_none_iff counts (∅, ∅)).2 ⟨c, hmem, h2, hd⟩
      rw [← createSpeedAndClassCount, h] at this
      cases this
    | some d => exact ⟨d, by rw [CountMetadata.channelDirection, if_neg (by rw [h2]; decide),
        if_pos h2, hd]⟩

/-- At a key whose channel has direction `d`, one vehicle of the key rewrites the entry as
`insert` on the entry or a new count of direction `d`. -/
theorem binCount_lookup_fst
    (hd : ∀ d', metadata.channelDirection key.channel = some d' → d' = d)
    (d' : Direction) (maps : BinnedCounts) (c : CountedVehicle)
    (hc : metadata.channelDirection c.channel = some d') :
    (binCount metadata.dvrpcNum d' maps c).1.lookup key = if c.bin = key then
      some (((maps.1.lookup key).getD (.new metadata.dvrpcNum d)).insert c.speed).2
    else maps.1.lookup key := by
  rw [lookup_binCount_fst]
  split_ifs with hk
  · subst hk; rw [hd d' hc]
  · rfl

theorem binCount_lookup_snd
    (hd : ∀ d', metadata.channelDirection key.channel = some d' → d' = d)
    (d' : Direction) (maps : BinnedCounts) (c : CountedVehicle)
    (hc : metadata.channelDirection c.channel = some d') :
    (binCount metadata.dvrpcNum d' maps c).2.lookup key =
      if c.bin = key ∧ (speedRange c.speed).isSome then
        some (((maps.2.lookup key).getD (.new metadata.dvrpcNum d)).insert c.vehicleClass)
      else maps.2.lookup key := by
  rw [lookup_binCount_snd]
  split_ifs with hk
  · obtain ⟨rfl, -⟩ := hk; rw [hd d' hc]
  · rfl

theorem filter_keyedVehicles (counts : List CountedVehicle) (key : BinnedCountKey) :
    (keyedVehicles counts key).filter (fun c => (speedRange c.speed).isSome) =
      counts.filter fun c => (c.channel = 1 ∨ c.channel = 2) ∧
        (c.bin = key ∧ (speedRange c.speed).isSome) := by
  rw [keyedVehicles, List.filter_filter]
  exact List.filter_congr fun c _ => by
    simp only [Bool.decide_and, Bool.decide_eq_true, Bool.and_comm, Bool.and_left_comm]

/-- The channel of a key has at most one direction. -/
theorem channelDirection_unique (metadata : CountMetadata) (channel : BitVec 8) :
    ∃ d, ∀ d', metadata.channelDirection channel = some d' → d' = d :=
  ⟨(metadata.channelDirection channel).getD metadata.directions.direction1,
    fun _ h => by rw [h, Option.getD_some]⟩

variable {counts : List CountedVehicle} {maps : BinnedCounts}
  (h : createSpeedAndClassCount metadata counts = some maps) (key : BinnedCountKey)
include h

theorem lookup_fst_eq_speedRecord : maps.1.lookup key = speedRecord metadata counts key := by
  obtain ⟨d, hd⟩ := channelDirection_unique metadata key.channel
  have hs := foldlM_createStep_lookup (fun maps => maps.1.lookup key) (·.bin = key)
    (fun o c => ((o.getD (.new metadata.dvrpcNum d)).insert c.speed).2)
    (binCount_lookup_fst hd) counts h
  beta_reduce at hs
  rw [hs, speedRecord]
  change List.foldl _ none (keyedVehicles counts key) = _
  rcases hkv : keyedVehicles counts key with _ | ⟨c, cs⟩
  · cases metadata.channelDirection key.channel <;> rfl
  · obtain ⟨d', hd'⟩ := channelDirection_of_keyed h (hkv ▸ List.mem_cons_self c cs)
    rw [hd', ← hd d' hd']
    exact foldl_speed_some _ cs

theorem lookup_snd_eq_classRecord : maps.2.lookup key = classRecord metadata counts key := by
  obtain ⟨d, hd⟩ := channelDirection_unique metadata key.channel
  have hc := foldlM_createStep_lookup (fun maps => maps.2.lookup key)
    (fun c => c.bin = key ∧ (speedRange c.speed).isSome)
    (fun o c => (o.getD (.new metadata.dvrpcNum d)).insert c.vehicleClass)
    (binCount_lookup_snd hd) counts h
  rw [← filter_keyedVehicles] at hc
  beta_reduce at hc
  rw [hc, classRecord]
  rcases hkv : (keyedVehicles counts key).filter fun c => (speedRange c.speed).isSome with
    _ | ⟨c, cs⟩
  · rw [hkv]
    cases metadata.channelDirection key.channel <;> rfl
  · obtain ⟨d', hd'⟩ := channelDirection_of_keyed h
      (List.mem_of_mem_filter (hkv ▸ List.mem_cons_self c cs))
    rw [hkv, hd', ← hd d' hd']
    exact foldl_class_some _ cs

end Records

/-- **The loop computes every bucket from its own vehicles**: after `create_speed_and_class_count`
returns, the speed map holds `speedRecord` and the class map `classRecord` at every key. -/
theorem createSpeedAndClassCount_lookup (metadata : CountMetadata) (counts : List CountedVehicle)
    (maps : BinnedCounts) (h : createSpeedAndClassCount metadata counts = some maps)
    (key : BinnedCountKey) :
    maps.1.lookup key = speedRecord metadata counts key ∧
      maps.2.lookup key = classRecord metadata counts key :=
  ⟨lookup_fst_eq_speedRecord h key, lookup_snd_eq_classRecord h key⟩

theorem createSpeedAndClassCount_lookup_one_vehicle :
    ∃ maps,
      createSpeedAndClassCount ⟨"rc".toList, 166905, ⟨.east, some .west⟩, 40972, some 35⟩
        [⟨⟨2024, 100⟩, ⟨10, 7, 0, 0⟩, 2, .passengerCars, 30⟩] = some maps ∧
      ∀ key, maps.1.lookup key =
          speedRecord ⟨"rc".toList, 166905, ⟨.east, some .west⟩, 40972, some 35⟩
            [⟨⟨2024, 100⟩, ⟨10, 7, 0, 0⟩, 2, .passengerCars, 30⟩] key ∧
        maps.2.lookup key =
          classRecord ⟨"rc".toList, 166905, ⟨.east, some .west⟩, 40972, some 35⟩
            [⟨⟨2024, 100⟩, ⟨10, 7, 0, 0⟩, 2, .passengerCars, 30⟩] key := by
  obtain ⟨maps, h⟩ := Option.isSome_iff_exists.1 (by decide :
    (createSpeedAndClassCount ⟨"rc".toList, 166905, ⟨.east, some .west⟩, 40972, some 35⟩
      [⟨⟨2024, 100⟩, ⟨10, 7, 0, 0⟩, 2, .passengerCars, 30⟩]).isSome)
  exact ⟨maps, h, createSpeedAndClassCount_lookup _ _ maps h⟩

/-! ### The order of the vehicles -/

theorem SpeedRangeCount.ext_get {c c' : SpeedRangeCount} (hn : c.dvrpcNum = c'.dvrpcNum)
    (hd : c.direction = c'.direction) (hg : ∀ r, c.get r = c'.get r) (ht : c.total = c'.total) :
    c = c' := by
  cases c; cases c'
  simp only [SpeedRangeCount.mk.injEq]
  exact ⟨hn, hd, hg .s1, hg .s2, hg .s3, hg .s4, hg .s5, hg .s6, hg .s7, hg .s8, hg .s9, hg .s10,
    hg .s11, hg .s12, hg .s13, hg .s14, ht⟩

theorem VehicleClassCount.ext_get {c c' : VehicleClassCount} (hn : c.dvrpcNum = c'.dvrpcNum)
    (hd : c.direction = c'.direction) (hg : ∀ f, c.get f = c'.get f) : c = c' := by
  cases c; cases c'
  simp only [VehicleClassCount.mk.injEq]
  exact ⟨hn, hd, hg .c1, hg .c2, hg .c3, hg .c4, hg .c5, hg .c6, hg .c7, hg .c8, hg .c9, hg .c10,
    hg .c11, hg .c12, hg .c13, hg .c15, hg .total⟩

theorem SpeedRangeCount.labels_insertAll (c : SpeedRangeCount) (ss : List F32) :
    (c.insertAll ss).dvrpcNum = c.dvrpcNum ∧ (c.insertAll ss).direction = c.direction := by
  induction ss generalizing c with
  | nil => exact ⟨rfl, rfl⟩
  | cons s ss ih =>
    obtain ⟨h1, h2⟩ := ih (c.insert s).2
    exact ⟨h1.trans (c.labels_insert s).1, h2.trans (c.labels_insert s).2⟩

theorem VehicleClassCount.labels_foldl_insert (c : VehicleClassCount) (vs : List VehicleClass) :
    (vs.foldl insert c).dvrpcNum = c.dvrpcNum ∧ (vs.foldl insert c).direction = c.direction := by
  induction vs generalizing c with
  | nil => exact ⟨rfl, rfl⟩
  | cons v vs ih =>
    obtain ⟨h1, h2⟩ := ih (c.insert v)
    exact ⟨h1.trans (dvrpcNum_insert c v), h2.trans (direction_insert c v)⟩

/-- The speeds of a record can be inserted in any order. -/
theorem SpeedRangeCount.insertAll_perm (c : SpeedRangeCount) {ss ss' : List F32}
    (hp : ss.Perm ss') : c.insertAll ss = c.insertAll ss' :=
  ext_get (by rw [(c.labels_insertAll ss).1, (c.labels_insertAll ss').1])
    (by rw [(c.labels_insertAll ss).2, (c.labels_insertAll ss').2])
    (fun r => by rw [get_insertAll, get_insertAll, hp.countP_eq])
    (by rw [total_insertAll, total_insertAll, hp.countP_eq])

/-- The classes of a record can be inserted in any order. -/
theorem VehicleClassCount.foldl_insert_perm (c : VehicleClassCount) {vs vs' : List VehicleClass}
    (hp : vs.Perm vs') : vs.foldl insert c = vs'.foldl insert c :=
  ext_get (by rw [(c.labels_foldl_insert vs).1, (c.labels_foldl_insert vs').1])
    (by rw [(c.labels_foldl_insert vs).2, (c.labels_foldl_insert vs').2])
    (fun f => by rw [get_foldl_insert, get_foldl_insert, hp.countP_eq])

section Perm

variable (metadata : CountMetadata) {counts counts' : List CountedVehicle}
  (hp : counts.Perm counts') (key : BinnedCountKey)
include hp

theorem speedRecord_perm : speedRecord metadata counts key = speedRecord metadata counts' key := by
  have hk : (keyedVehicles counts key).Perm (keyedVehicles counts' key) := hp.filter _
  unfold speedRecord
  cases metadata.channelDirection key.channel with
  | none => rfl
  | some d =>
    rcases h1 : keyedVehicles counts key with _ | ⟨c, cs⟩ <;>
      rcases h2 : keyedVehicles counts' key with _ | ⟨c', cs'⟩ <;> rw [h1, h2] at hk
    all_goals first
      | rfl
      | exact absurd hk.symm.eq_nil (List.cons_ne_nil _ _)
      | exact absurd hk.eq_nil (List.cons_ne_nil _ _)
      | exact congrArg some (SpeedRangeCount.insertAll_perm _ (hk.map _))

theorem classRecord_perm : classRecord metadata counts key = classRecord metadata counts' key := by
  have hk : ((keyedVehicles counts key).filter fun c => (speedRange c.speed).isSome).Perm
      ((keyedVehicles counts' key).filter fun c => (speedRange c.speed).isSome) :=
    (hp.filter _).filter _
  unfold classRecord
  cases metadata.channelDirection key.channel with
  | none => rfl
  | some d =>
    rcases h1 : (keyedVehicles counts key).filter fun c => (speedRange c.speed).isSome with
      _ | ⟨c, cs⟩ <;>
    rcases h2 : (keyedVehicles counts' key).filter fun c => (speedRange c.speed).isSome with
      _ | ⟨c', cs'⟩ <;> rw [h1, h2] at hk <;> rw [h1, h2]
    all_goals first
      | rfl
      | exact absurd hk.symm.eq_nil (List.cons_ne_nil _ _)
      | exact absurd hk.eq_nil (List.cons_ne_nil _ _)
      | exact congrArg some (VehicleClassCount.foldl_insert_perm _ (hk.map _))

end Perm

/-- **The maps do not depend on the order of the vehicles**: a permutation of the vehicles panics
exactly when they do, and otherwise leaves the same record at every key of both maps. -/
theorem createSpeedAndClassCount_perm (metadata : CountMetadata)
    {counts counts' : List CountedVehicle} (hp : counts.Perm counts') :
    (createSpeedAndClassCount metadata counts = none ↔
        createSpeedAndClassCount metadata counts' = none) ∧
      ∀ maps maps', createSpeedAndClassCount metadata counts = some maps →
        createSpeedAndClassCount metadata counts' = some maps' →
        ∀ key, maps.1.lookup key = maps'.1.lookup key ∧
          maps.2.lookup key = maps'.2.lookup key := by
  refine ⟨?_, fun maps maps' h h' key => ?_⟩
  · simp only [createSpeedAndClassCount, foldlM_createStep_eq_none_iff]
    exact ⟨fun ⟨c, hc, h⟩ => ⟨c, hp.subset hc, h⟩,
      fun ⟨c, hc, h⟩ => ⟨c, hp.symm.subset hc, h⟩⟩
  · rw [lookup_fst_eq_speedRecord h, lookup_snd_eq_classRecord h, lookup_fst_eq_speedRecord h',
      lookup_snd_eq_classRecord h', speedRecord_perm metadata hp, classRecord_perm metadata hp]
    exact ⟨rfl, rfl⟩

theorem createSpeedAndClassCount_perm_swap :
    [(⟨⟨2024, 100⟩, ⟨10, 7, 0, 0⟩, 2, .passengerCars, 30⟩ : CountedVehicle),
        ⟨⟨2024, 100⟩, ⟨10, 9, 0, 0⟩, 1, .buses, 45⟩].Perm
      [⟨⟨2024, 100⟩, ⟨10, 9, 0, 0⟩, 1, .buses, 45⟩,
        ⟨⟨2024, 100⟩, ⟨10, 7, 0, 0⟩, 2, .passengerCars, 30⟩] ∧
    ((createSpeedAndClassCount ⟨"rc".toList, 166905, ⟨.east, some .west⟩, 40972, some 35⟩
        [⟨⟨2024, 100⟩, ⟨10, 7, 0, 0⟩, 2, .passengerCars, 30⟩,
          ⟨⟨2024, 100⟩, ⟨10, 9, 0, 0⟩, 1, .buses, 45⟩] = none ↔
        createSpeedAndClassCount ⟨"rc".toList, 166905, ⟨.east, some .west⟩, 40972, some 35⟩
          [⟨⟨2024, 100⟩, ⟨10, 9, 0, 0⟩, 1, .buses, 45⟩,
            ⟨⟨2024, 100⟩, ⟨10, 7, 0, 0⟩, 2, .passengerCars, 30⟩] = none) ∧
      ∀ maps maps',
        createSpeedAndClassCount ⟨"rc".toList, 166905, ⟨.east, some .west⟩, 40972, some 35⟩
            [⟨⟨2024, 100⟩, ⟨10, 7, 0, 0⟩, 2, .passengerCars, 30⟩,
              ⟨⟨2024, 100⟩, ⟨10, 9, 0, 0⟩, 1, .buses, 45⟩] = some maps →
          createSpeedAndClassCount ⟨"rc".toList, 166905, ⟨.east, some .west⟩, 40972, some 35⟩
            [⟨⟨2024, 100⟩, ⟨10, 9, 0, 0⟩, 1, .buses, 45⟩,
              ⟨⟨2024, 100⟩, ⟨10, 7, 0, 0⟩, 2, .passengerCars, 30⟩] = some maps' →
          ∀ key, maps.1.lookup key = maps'.1.lookup key ∧ maps.2.lookup key = maps'.2.lookup key) :=
  ⟨List.Perm.swap _ _ _, createSpeedAndClassCount_perm _ (List.Perm.swap _ _ _)⟩

end StarNextImport
