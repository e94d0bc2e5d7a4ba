import StarNextImport.Time

/-!
# StarNextImport.Db — the database functions of `db/mod.rs`

`insert_empty_metadata` creates from one to `RECORD_CREATION_LIMIT` empty `tc_header` records:
it checks the number asked for, runs the insert once per record, pushing the record number that
`RETURNING` binds, and commits once at the end; `?` returns the first driver error.  The database
is what it answers to each statement (`InsertAnswers`), and the model returns the statements
sent along with the result.

* `insertEmptyMetadata_commit`: a number out of range is refused before any statement; the commit
  is sent only after every insert asked for has succeeded, and `Ok` carries one record number per
  insert, the first value each one returned.

`get_import_log` and `get_metadata_paginated` read the rows of one query with the loop
`collectRows`, which returns all of them or the first error (`collectRows_eq`).
-/

namespace StarNextImport

namespace Db

/-- The variants of the `CountError` of `db/mod.rs` (a later `lib.rs` than the one modelled in
`Basic`) that its functions return: `DbError` with its text, and a driver error converted by
`?`. -/
inductive CountError where
  | dbError (msg : List Char)
  | oracle (err : OracleError)
  deriving DecidableEq, Repr

/-- `RECORD_CREATION_LIMIT`: the most empty metadata records one call may create. -/
def recordCreationLimit : Nat := 50

/-! ### `insert_empty_metadata` -/

/-- A statement that `insert_empty_metadata` sends on its connection. -/
inductive Call where
  | insert
  | commit
  deriving DecidableEq, Repr

/-- What the database answers to the statements of `insert_empty_metadata`: to the `k`-th run of
the insert, the values of `recordnum` that `returned_values` gives back, or the error of
`execute` or of `returned_values`; and to the commit. -/
structure InsertAnswers where
  insert : Nat → Except OracleError (List (BitVec 32))
  commit : Except OracleError Unit

/-- The `for` loop of `insert_empty_metadata` from its `k`-th pass, with `n` passes to go, after
pushing `recordnums`: the record numbers, or the first driver error, and the statements sent.
`none` is the panic of `[0]` on an empty vector of returned values. -/
def insertLoop (answers : InsertAnswers) (k : Nat) :
    Nat → List (BitVec 32) → Option (Except CountError (List (BitVec 32)) × List Call)
  | 0, recordnums => some (.ok recordnums, [])
  | n + 1, recordnums =>
    match answers.insert k with
    | .error e => some (.error (.oracle e), [.insert])
    | .ok values => do
      let recordnum ← values.head?
      let (result, calls) ← insertLoop answers (k + 1) n (recordnums ++ [recordnum])
      pure (result, .insert :: calls)

/-- `insert_empty_metadata`: insert `number` empty metadata records, with a record number and a
creation date only. -/
def insertEmptyMetadata (answers : InsertAnswers) (number : BitVec 32) :
    Option (Except CountError (List (BitVec 32)) × List Call) :=
  if number = 0 then some (.error (.dbError "Cannot create 0 records".toList), [])
  else if number.toNat > recordCreationLimit then
    some (.error (.dbError ("Too many new records requested: cannot created more than ".toList ++
      (Nat.repr recordCreationLimit).toList)), [])
  else do
    let (result, calls) ← insertLoop answers 0 number.toNat []
    match result with
    | .error e => pure (.error e, calls)
    | .ok recordnums =>
      match answers.commit with
      | .error e => pure (.error (.oracle e), calls ++ [.commit])
      | .ok () => pure (.ok recordnums, calls ++ [.commit])

/-- The loop sends inserts only, and at least one when it has a pass to make. -/
theorem insertLoop_calls (answers : InsertAnswers) :
    ∀ (n k : Nat) (acc : List (BitVec 32)) {result calls},
      insertLoop answers k n acc = some (result, calls) →
        (∀ c ∈ calls, c = .insert) ∧ (0 < n → calls ≠ [])
  | 0, k, acc, result, calls, h => by
    cases h
    simp
  | n + 1, k, acc, result, calls, h => by
    unfold insertLoop at h
    split at h
    · cases h
      simp
    · obtain ⟨r, -, h⟩ := Option.bind_eq_some.1 h
      obtain ⟨⟨result', calls'⟩, hl, h⟩ := Option.bind_eq_some.1 h
      cases h
      exact ⟨List.forall_mem_cons.2 ⟨rfl, (insertLoop_calls answers n (k + 1) _ hl).1⟩,
        fun _ => List.cons_ne_nil _ _⟩

/-- A loop that returns `Ok` has run every pass, and pushed the first value of each insert. -/
theorem insertLoop_ok (answers : InsertAnswers) :
    ∀ (n k : Nat) (acc : List (BitVec 32)) {recordnums calls},
      insertLoop answers k n acc = some (.ok recordnums, calls) →
        calls = List.replicate n .insert ∧ ∃ firsts, recordnums = acc ++ firsts ∧
          firsts.length = n ∧ ∀ i < n, ∃ values, answers.insert (k + i) = .ok values ∧
            values.head? = firsts[i]?
  | 0, k, acc, recordnums, calls, h => by
    cases h
    exact ⟨rfl, [], by simp, rfl, fun i hi => absurd hi (Nat.not_lt_zero i)⟩
  | n + 1, k, acc, recordnums, calls, h => by
    unfold insertLoop at h
    split at h
    · cases h
    · next values hk =>
      obtain ⟨r, hr, h⟩ := Option.bind_eq_some.1 h
      obtain ⟨⟨result', calls'⟩, hl, h⟩ := Option.bind_eq_some.1 h
      cases h
      obtain ⟨rfl, firsts, rfl, hlen, hfirst⟩ := insertLoop_ok answers n (k + 1) _ hl
      refine ⟨rfl, r :: firsts, by simp, by simp [hlen], fun i hi => ?_⟩
      cases i with
      | zero => exact ⟨values, hk, by rw [List.getElem?_cons_zero]; exact hr⟩
      | succ i =>
        obtain ⟨vs, hvs, hh⟩ := hfirst i (by omega)
        exact ⟨vs, by rw [← hvs]; congr 1; omega, by rw [List.getElem?_cons_succ]; exact hh⟩

/-- **`insert_empty_metadata` commits only after every insert has succeeded**: a number of
records out of `1..=RECORD_CREATION_LIMIT` is refused before any statement; otherwise the commit
is sent only after one insert per record, all of them successful; and `Ok` carries, after a
commit that succeeded, one record number per insert, the first value each one returned. -/
theorem insertEmptyMetadata_commit (answers : InsertAnswers) (number : BitVec 32)
    {result : Except CountError (List (BitVec 32))} {calls : List Call}
    (h : insertEmptyMetadata answers number = some (result, calls)) :
    (calls = [] ↔ number.toNat = 0 ∨ recordCreationLimit < number.toNat) ∧
      (Call.commit ∈ calls → calls = List.replicate number.toNat .insert ++ [.commit]) ∧
      ∀ recordnums, result = .ok recordnums →
        answers.commit = .ok () ∧ calls = List.replicate number.toNat .insert ++ [.commit] ∧
          recordnums.length = number.toNat ∧ ∀ i < number.toNat,
            ∃ values, answers.insert i = .ok values ∧ values.head? = recordnums[i]? := by
  unfold insertEmptyMetadata at h
  split_ifs at h with h0 hlim
  · cases h
    exact ⟨iff_of_true rfl (.inl (by rw [h0]; rfl)), nofun, nofun⟩
  · cases h
    exact ⟨iff_of_true rfl (.inr hlim), nofun, nofun⟩
  · have hrange : ¬(number.toNat = 0 ∨ recordCreationLimit < number.toNat) := by bv_omega
    obtain ⟨⟨r, cs⟩, hl, h⟩ := Option.bind_eq_some.1 h
    obtain ⟨hins, hne⟩ := insertLoop_calls answers _ 0 [] hl
    cases r with
    | error e =>
      cases h
      exact ⟨iff_of_false (hne (by omega)) hrange, fun hc => absurd (hins _ hc) (by decide), nofun⟩
    | ok rs =>
      obtain ⟨rfl, firsts, rfl, hlen, hfirst⟩ := insertLoop_ok answers _ 0 [] hl
      have hne' : List.replicate number.toNat Call.insert ++ [.commit] ≠ [] := by simp
      cases hc : answers.commit <;> simp only [hc] at h <;> cases h <;>
        refine ⟨iff_of_false hne' hrange, fun _ => rfl, ?_⟩
      · exact nofun
      · rintro _ ⟨⟩
        exact ⟨rfl, rfl, by simp [hlen], fun i hi => by simpa using hfirst i hi⟩

theorem insertEmptyMetadata_two :
    insertEmptyMetadata ⟨fun k => .ok [BitVec.ofNat 32 (100 + k)], .ok ()⟩ 2 =
        some (.ok [100, 101], [.insert, .insert, .commit]) ∧
      (([.insert, .insert, .commit] : List Call) = [] ↔
          (2 : BitVec 32).toNat = 0 ∨ recordCreationLimit < (2 : BitVec 32).toNat) ∧
      (Call.commit ∈ [Call.insert, .insert, .commit] →
        [Call.insert, .insert, .commit] =
          List.replicate (2 : BitVec 32).toNat .insert ++ [.commit]) ∧
      ∀ recordnums, (.ok [100, 101] : Except CountError (List (BitVec 32))) = .ok recordnums →
        (⟨fun k => .ok [BitVec.ofNat 32 (100 + k)], .ok ()⟩ : InsertAnswers).commit = .ok () ∧
        [Call.insert, .insert, .commit] =
          List.replicate (2 : BitVec 32).toNat .insert ++ [.commit] ∧
        recordnums.length = (2 : BitVec 32).toNat ∧ ∀ i < (2 : BitVec 32).toNat, ∃ values,
          (⟨fun k => .ok [BitVec.ofNat 32 (100 + k)], .ok ()⟩ : InsertAnswers).insert i =
            .ok values ∧ values.head? = recordnums[i]? :=
  have h : insertEmptyMetadata ⟨fun k => .ok [BitVec.ofNat 32 (100 + k)], .ok ()⟩ 2 =
      some (.ok [100, 101], [.insert, .insert, .commit]) := rfl
  ⟨h, insertEmptyMetadata_commit _ _ h⟩

/-! ### The readers -/

/-- `ImportLogEntry`: a log entry of the imports (chrono's `NaiveDateTime` as a date and a
time). -/
structure ImportLogEntry where
  datetime : Option PrimitiveDateTime
  recordnum : BitVec 32
  msg : List Char
  level : List Char
  deriving DecidableEq, Repr

/-- A query of the connection: the rows that `query_as` returns for a statement and the values
bound to it, or its error. -/
abbrev Query (ρ : Type) :=
  List Char → List (BitVec 32) → Except OracleError (List (Except OracleError ρ))

/-- One pass of the loop of the readers: `row?`, and the row pushed. -/
def pushRow {ε ρ : Type} (records : List ρ) (row : Except ε ρ) : Except ε (List ρ) := do
  let record ← row
  pure (records ++ [record])

/-- The `for` loop of the readers over the rows of a query. -/
def collectRows {ε ρ : Type} (rows : List (Except ε ρ)) : Except ε (List ρ) :=
  rows.foldlM pushRow []

/-- `get_import_log`: the import log of one record, or of all of them, the newest first. -/
def getImportLog (query : Query ImportLogEntry) (recordnum : Option (BitVec 32)) :
    Except OracleError (List ImportLogEntry) := do
  let results ← match recordnum with
    | some v =>
      query "select * from import_log WHERE recordnum = :1 order by datetime desc".toList [v]
    | none => query "select * from import_log order by datetime desc".toList []
  collectRows results

/-- `get_metadata_paginated`: a page of the metadata records, the highest record numbers first
(`Metadata` is the record type of `tc_header`). -/
def getMetadataPaginated {Metadata : Type} (query : Query Metadata)
    (offset limit : Option (BitVec 32)) : Except CountError (List Metadata) := do
  let offset := offset.getD 0
  let limit := limit.getD 100
  let results ← (query ("select * from tc_header \n            order by recordnum DESC\n" ++
    "            offset :1 rows\n            fetch first :2 rows only").toList
      [offset, limit]).mapError .oracle
  (collectRows results).mapError .oracle

/-- `get_count_kind`: the type of count of a record (`CountKind` is the type of that column);
an error of the driver becomes a `DbError` with its text. -/
def getCountKind {CountKind : Type}
    (queryRow : List Char → List (BitVec 32) → Except OracleError (Option CountKind))
    (recordnum : BitVec 32) : Except CountError (Option CountKind) :=
  match queryRow "select type from tc_header where recordnum = :1".toList [recordnum] with
  | .ok v => .ok v
  | .error e => .error (.dbError e.message)

theorem foldlM_pushRow {ε ρ : Type} :
    ∀ (rows : List (Except ε ρ)) (acc : List ρ),
      rows.foldlM pushRow acc = (rows.mapM id).map (acc ++ ·)
  | [], acc => by rw [List.foldlM_nil, List.mapM_nil]; simp [pure, Except.pure, Except.map]
  | row :: rows, acc => by
    rw [List.foldlM_cons, List.mapM_cons]
    cases row with
    | error e => rfl
    | ok r =>
      show rows.foldlM pushRow (acc ++ [r]) = _
      rw [foldlM_pushRow rows]
      cases rows.mapM id <;> simp [Except.map, bind, Except.bind, pure, Except.pure]

/-- The loop of the readers returns every row, in order, or the first error: never part of the
rows. -/
theorem collectRows_eq {ε ρ : Type} (rows : List (Except ε ρ)) :
    collectRows rows = rows.mapM id := by
  rw [collectRows, foldlM_pushRow]
  cases rows.mapM id <;> rfl

end Db

end StarNextImport
