import SecureTelemetryGateway.Storage.Insertion

/-!
# Querying and purging

Neither does anything yet: a query answers the empty list, whatever has been
inserted, and a purge only reports that the engine is ready.
-/

namespace SecureTelemetryGateway.Storage

open Models (TelemetryData)
open StorageEngine

inductive StoreCall
  | insertTelemetry (data : TelemetryData)
  | insertBatch (batch : List TelemetryData)
  | purgeOlderThan (timestampNs : UInt64)

def StoreCall.run (order : IterationOrder) (o : SqliteOutcomes) (e : StorageEngine) :
    StoreCall → Option (Bool × StorageEngine)
  | .insertTelemetry data => e.insertTelemetry order o data
  | .insertBatch batch => e.insertBatch order o batch
  | .purgeOlderThan timestampNs => some (e.purgeOlderThan o timestampNs)

/-- The calls one after the other, each with outcomes of its own and returning
true. -/
def runCalls (order : IterationOrder) :
    List (StoreCall × SqliteOutcomes) → StorageEngine → Option StorageEngine
  | [], e => some e
  | (call, o) :: rest, e =>
    match call.run order o e with
    | some (true, e) => runCalls order rest e
    | _ => none

def StoreCall.apply (records : List TelemetryData) : StoreCall → List TelemetryData
  | .insertTelemetry data => records ++ [data]
  | .insertBatch batch => records ++ batch
  | .purgeOlderThan timestampNs => records.filter fun data => !(data.timestampNs < timestampNs)

def remaining (held : List TelemetryData) (calls : List StoreCall) : List TelemetryData :=
  calls.foldl StoreCall.apply held

def StoreCall.inserted : StoreCall → List TelemetryData
  | .insertTelemetry data => [data]
  | .insertBatch batch => batch
  | .purgeOlderThan _ => []

def key (data : TelemetryData) : String × UInt64 × UInt64 :=
  (data.robotId, data.sequenceId, data.timestampNs)

/-- `found` are the `limit` most recent of the records of the robot, or all of
them. -/
def Answers (older : TelemetryData → TelemetryData → Prop) (robotId : String) (limit : UInt64)
    (records found : List TelemetryData) : Prop :=
  ∃ kept dropped : List TelemetryData, found.map key = kept.map key ∧
    (kept ++ dropped).Perm (records.filter (·.robotId = robotId)) ∧
    (∀ data ∈ dropped, ∀ data' ∈ kept, ¬older data' data) ∧
    found.length = min limit.toNat (records.filter (·.robotId = robotId)).length

variable {older : TelemetryData → TelemetryData → Prop} {order : IterationOrder}
variable {e e' : StorageEngine}

theorem answers_nil_iff : Answers older robotId limit records [] ↔
    limit = 0 ∨ ∀ data ∈ records, data.robotId ≠ robotId := by
  constructor
  · rintro ⟨-, -, -, -, -, hlength⟩
    rcases Nat.min_eq_zero_iff.mp hlength.symm with hlimit | hnone
    · exact .inl (UInt64.toNat_inj.mp hlimit)
    · exact .inr (by simpa using hnone)
  · intro h
    refine ⟨[], records.filter (·.robotId = robotId), rfl, .refl _, nofun, ?_⟩
    rcases h with rfl | hnone
    · exact (Nat.zero_min _).symm
    · have hfilter : records.filter (·.robotId = robotId) = [] :=
        List.filter_eq_nil_iff.mpr fun data hmem => by simpa using hnone data hmem
      simp [hfilter]

theorem transaction_insertBatch (h : e.insertBatch order o batch = some (true, e'))
    (ht : e.transaction = none) : e'.transaction = none := by
  have ht' := transaction_ensureInitialized ht o
  unfold insertBatch at h
  dsimp only at h
  split at h
  · cases h
  · split at h
    · cases h
      exact ht'
    · obtain ⟨-, htrans⟩ := insertBatchSection_spec h ht'
      refine htrans.mpr fun ⟨_, _, _, hcommit⟩ => ?_
      rcases insertBatchSection_cases h with
        ⟨-, hfalse, -⟩ | ⟨hbegan, e₂, ⟨hrows, hend⟩ | ⟨-, hfalse, -⟩⟩
      · cases hfalse
      · obtain ⟨-, -, hopen⟩ := execBegin_spec (o := o) ht'
        rw [if_pos hbegan] at hopen
        -- the `COMMIT` has returned what the batch returns
        have hok := (execCommit_spec (o := o) ((insertRows_spec hrows hopen).2.2 rfl)).1
        rw [hend] at hok
        exact absurd (hok.mp rfl) (by simp [hcommit])
      · cases hfalse

theorem StoreCall.run_stored {call : StoreCall} (h : call.run order o e = some (true, e'))
    (ht : e.transaction = none) :
    e'.transaction = none ∧ e'.table = e.table ++ call.inserted.map (rowOf order) := by
  cases call with
  | insertTelemetry data => exact insertTelemetry_spec h ht
  | insertBatch batch => exact ⟨transaction_insertBatch h ht, insertBatch_spec h⟩
  | purgeOlderThan timestampNs =>
    obtain ⟨-, rfl⟩ := Prod.mk.inj (Option.some.inj h)
    exact ⟨transaction_ensureInitialized ht o, by simp [inserted]⟩

theorem table_runCalls {calls : List (StoreCall × SqliteOutcomes)}
    (h : runCalls order calls e = some e') (ht : e.transaction = none) :
    e'.table = e.table ++ (calls.flatMap fun call => call.1.inserted).map (rowOf order) := by
  induction calls generalizing e with
  | nil => simp [← Option.some.inj h]
  | cons call rest ih =>
    obtain ⟨call, o⟩ := call
    unfold runCalls at h
    split at h
    · next e₁ hrun =>
      obtain ⟨htrans, htable⟩ := StoreCall.run_stored hrun ht
      simp [ih h htrans, htable]
    · cases h

/-- Whatever makes one record older than another, and after any calls on an
initialised engine that held the records `held`: a query is right where nothing
is asked for, or no record of the robot remains. No purge takes a row out of
the table. -/
theorem queryAnswers_iff (order : IterationOrder) (older : TelemetryData → TelemetryData → Prop) :
    ∀ e held, e.isInitialized = true → e.table = held.map (rowOf order) →
      ∀ calls e', runCalls order calls e = some e' →
        (∀ o robotId limit,
          Answers older robotId limit (remaining held (calls.map Prod.fst))
              (e'.queryTelemetry o robotId limit).1 ↔
            limit = 0 ∨ ∀ data ∈ remaining held (calls.map Prod.fst), data.robotId ≠ robotId) ∧
        (e.transaction = none →
          e'.table = (held ++ calls.flatMap fun call => call.1.inserted).map (rowOf order)) := by
  intro e held _ htable calls e' hrun
  refine ⟨fun _ _ _ => answers_nil_iff, fun ht => ?_⟩
  rw [table_runCalls hrun ht, htable, List.map_append]

def amrTestNode : TelemetryData where
  robotId := "amr_test_node"
  sensorType := "battery"
  timestampNs := 1700000000000000000
  sequenceId := 42

/-- After a purge that is to remove the one record of the robot, no record is
right to answer. Its row is still there. -/
theorem queryAnswers_iff_purged :
    ∃ e', runCalls .byKey [(.insertTelemetry amrTestNode, {}),
        (.purgeOlderThan 1800000000000000000, {})] (({} : StorageEngine).init {}).2 = some e' ∧
      (∀ older, Answers older "amr_test_node" 10
        (remaining [] [.insertTelemetry amrTestNode, .purgeOlderThan 1800000000000000000])
        (e'.queryTelemetry {} "amr_test_node" 10).1) ∧
      e'.table = [rowOf .byKey amrTestNode] := by
  have hruns := fun older => queryAnswers_iff .byKey older (({} : StorageEngine).init {}).2 []
    rfl rfl [(.insertTelemetry amrTestNode, {}), (.purgeOlderThan 1800000000000000000, {})] _ rfl
  refine ⟨_, rfl, fun older => ((hruns older).1 {} "amr_test_node" 10).mpr (.inr ?_), ?_⟩
  · simp [remaining, StoreCall.apply, amrTestNode]
  · exact (hruns fun _ _ => True).2 rfl

theorem queryAnswers_fails :
    ∃ e', runCalls .byKey [(.insertTelemetry amrTestNode, {})] (({} : StorageEngine).init {}).2 =
        some e' ∧ e'.table = [rowOf .byKey amrTestNode] ∧
      ∀ older, ¬Answers older "amr_test_node" 10 (remaining [] [.insertTelemetry amrTestNode])
        (e'.queryTelemetry {} "amr_test_node" 10).1 := by
  refine ⟨_, rfl, rfl, fun older h => ?_⟩
  rcases answers_nil_iff.mp h with hlimit | hnone
  · exact absurd hlimit (by decide)
  · exact hnone amrTestNode (by simp [remaining, StoreCall.apply]) rfl

end SecureTelemetryGateway.Storage
