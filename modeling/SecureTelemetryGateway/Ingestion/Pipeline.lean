import SecureTelemetryGateway.Containers.Linearizable
import SecureTelemetryGateway.Ingestion.Outcome

/-!
# The ingestion engine under any number of threads

`process_payload` parses into a frame of its own and shares only the push. So
calls of it, and of whatever else is called on the queue, are an object that
works through the queue.
-/

namespace SecureTelemetryGateway.Ingestion.Pipeline

open Lib Lib.LockedObject
open Models (TelemetryData)
open Containers (ConcurrentQueue)
open Containers.ConcurrentQueue (object pushed popped producers pushedBy)

abbrev Queue := ConcurrentQueue TelemetryData

abbrev QueueOp := Containers.ConcurrentQueue.Op TelemetryData

abbrev QueueAnswer := Containers.ConcurrentQueue.Answer TelemetryData

inductive Op
  | processPayload (now : UInt64) (rawJson : Bytes)
  | queue (op : QueueOp)

inductive Answer
  | status (r : Except JsonError IngestionStatus)
  | queue (answer : QueueAnswer)

def apply (nl : Nlohmann) (q : Queue) : Op → Answer × Queue
  | .processPayload now rawJson =>
    let (r, q) := processPayload nl now rawJson q
    (.status r, q)
  | .queue op =>
    let (answer, q) := q.apply op
    (.queue answer, q)

def pipeline (nl : Nlohmann) : SeqObject Queue Op Answer where
  apply op q := apply nl q op

variable {nl : Nlohmann}

-- ---------------------------------------------------------------------------
-- One call
-- ---------------------------------------------------------------------------

def succeeded : Except JsonError IngestionStatus → Bool
  | .ok .success => true
  | _ => false

def pushOf (nl : Nlohmann) (now : UInt64) (rawJson : Bytes)
    (r : Except JsonError IngestionStatus) : Option (QueueOp × QueueAnswer) :=
  match (parseAndValidate nl now rawJson).run {} with
  | (.ok .success, data) => some (.push data, .pushed (succeeded r))
  | _ => none

theorem processPayload_eq (nl : Nlohmann) (now : UInt64) (rawJson : Bytes) (q : Queue) :
    processPayload nl now rawJson q =
      match (parseAndValidate nl now rawJson).run {} with
      | (.ok .success, data) =>
        (if (q.push data).1 then .ok .success else .ok .queueFull, (q.push data).2)
      | (r, _) => (r, q) := by
  unfold processPayload
  rcases (parseAndValidate nl now rawJson).run {} with ⟨r, data⟩
  cases r with
  | error e => rfl
  | ok status =>
    cases status with
    | success =>
      rcases hpush : q.push data with ⟨ok, q'⟩
      cases ok <;> simp [hpush]
    | _ => rfl

theorem processPayload_frame
    (hrun : (parseAndValidate nl now rawJson).run {} = (.ok .success, data)) (q : Queue) :
    succeeded (processPayload nl now rawJson q).1 = (q.push data).1 ∧
      (processPayload nl now rawJson q).2 = (q.push data).2 := by
  simp only [processPayload, hrun]
  rcases q.push data with ⟨ok, q'⟩
  cases ok
  · exact ⟨rfl, rfl⟩
  · exact ⟨rfl, rfl⟩

theorem processPayload_other (nl : Nlohmann) (now : UInt64) (rawJson : Bytes)
    (hrun : ∀ data, (parseAndValidate nl now rawJson).run {} ≠ (.ok .success, data)) (q : Queue) :
    processPayload nl now rawJson q = (((parseAndValidate nl now rawJson).run {}).1, q) := by
  rw [processPayload_eq]
  split
  · next data h => exact absurd h (hrun data)
  · next r data h => rw [h]

def throughQueue (nl : Nlohmann) : Through (pipeline nl) (object TelemetryData) where
  inner
    | .processPayload now rawJson, .status r => pushOf nl now rawJson r
    | .queue op, .queue answer => some (op, answer)
    | _, _ => none
  apply_of_some := by
    rintro (⟨now, rawJson⟩ | op) q op' r h
    · dsimp only [pipeline, apply, pushOf] at h ⊢
      split at h
      · next data hrun =>
        cases h
        obtain ⟨hok, hqueue⟩ := processPayload_frame hrun q
        rw [hok, hqueue]
        rfl
      · cases h
    · cases h
      rfl
  apply_of_none := by
    rintro (⟨now, rawJson⟩ | op) q h
    · dsimp only [pipeline, apply, pushOf] at h ⊢
      split at h
      · cases h
      · next hrun => rw [processPayload_other nl now rawJson hrun]
    · cases h

-- ---------------------------------------------------------------------------
-- Runs
-- ---------------------------------------------------------------------------

variable {τ : Type v} [DecidableEq τ]

abbrev threads (τ : Type v) [DecidableEq τ] (nl : Nlohmann) (maxCapacity : Nat) :
    Lts (State τ Queue Op Answer) (Event τ Op Answer) :=
  system τ (pipeline nl) (.new maxCapacity)

def queueHistory (nl : Nlohmann) (es : List (Event τ Op Answer)) :
    Containers.ConcurrentQueue.History τ TelemetryData :=
  (entries es).filterMap (throughQueue nl).translate

/-- The answer on a queue, by what the text is: the parser's own word, unless it
is a frame. -/
def StatusOf (nl : Nlohmann) (now : UInt64) (rawJson : Bytes) (q : Queue)
    (r : Except JsonError IngestionStatus) (q' : Queue) : Prop :=
  match (parseAndValidate nl now rawJson).run {} with
  | (.ok .success, data) =>
    if q.queue.length < q.maxCapacity then r = .ok .success ∧ q'.queue = q.queue ++ [data]
    else r = .ok .queueFull ∧ q' = q
  | (outcome, _) => r = outcome ∧ q' = q

theorem statusOf_processPayload (nl : Nlohmann) (now : UInt64) (rawJson : Bytes) (q : Queue) :
    StatusOf nl now rawJson q (processPayload nl now rawJson q).1
      (processPayload nl now rawJson q).2 := by
  rcases hrun : (parseAndValidate nl now rawJson).run {} with ⟨outcome, data⟩
  by_cases hsuccess : outcome = .ok .success
  · subst hsuccess
    simp only [StatusOf, hrun, processPayload_eq]
    split
    · next hlt => simp [Containers.ConcurrentQueue.push_room hlt data]
    · next hge => simp [Containers.ConcurrentQueue.push_full (Nat.not_lt.mp hge)]
  · have hne : ∀ data', (parseAndValidate nl now rawJson).run {} ≠ (.ok .success, data') :=
      fun data' h => hsuccess (congrArg Prod.fst (hrun.symm.trans h))
    rw [processPayload_other nl now rawJson hne, hrun]
    unfold StatusOf
    rw [hrun]
    split
    · next h => exact absurd (congrArg Prod.fst h) hsuccess
    · next h =>
      cases h
      exact ⟨rfl, rfl⟩

structure Ingests (nl : Nlohmann) (maxCapacity : Nat) (es : List (Event τ Op Answer))
    (final : State τ Queue Op Answer) : Prop where
  linearizable : Linearizable (pipeline nl) (.new maxCapacity) es final.obj
  bounded : final.obj.queue.length ≤ maxCapacity
  /-- What was taken and what is still there is what was let in, in order. -/
  fifo : popped (queueHistory nl es) ++ final.obj.queue = pushed (queueHistory nl es)
  /-- Each producer's frames keep its own order. -/
  producerOrder : ∃ tagged : List (τ × TelemetryData),
    tagged.map Prod.snd = popped (queueHistory nl es) ++ final.obj.queue ∧
      ∀ p, (tagged.filter (·.1 = p)).map Prod.snd = pushedBy p (queueHistory nl es)
  statuses : ∀ before t now rawJson r after,
    es = before ++ .critical t (.processPayload now rawJson) (.status r) :: after →
      ∃ s s', (threads τ nl maxCapacity).Trace before s ∧
        (threads τ nl maxCapacity).Run s' after final ∧ s.obj.maxCapacity = maxCapacity ∧
        StatusOf nl now rawJson s.obj r s'.obj

theorem legal_queueHistory (h : (threads τ nl n).Trace es s) :
    Legal (object TelemetryData) (.new n) (queueHistory nl es) s.obj :=
  (legal_of_trace h).through (throughQueue nl)

theorem ingestsInOrder (h : (threads τ nl n).Trace es s) : Ingests nl n es s where
  linearizable := Trace.linearizable h
  bounded := by
    have hcap := Containers.ConcurrentQueue.maxCapacity_of_legal (legal_queueHistory h)
    rw [Containers.ConcurrentQueue.maxCapacity_new] at hcap
    exact hcap ▸ s.obj.bounded
  fifo := Containers.ConcurrentQueue.fifo_of_legal (legal_queueHistory h)
  producerOrder := by
    refine ⟨producers (queueHistory nl es), ?_, fun p =>
      Containers.ConcurrentQueue.map_snd_filter_producers p _⟩
    rw [Containers.ConcurrentQueue.map_snd_producers,
      Containers.ConcurrentQueue.fifo_of_legal (legal_queueHistory h)]
  statuses := by
    rintro before t now rawJson r after rfl
    obtain ⟨s₁, s₂, h1, hs, h2⟩ := h.at_step
    have hcap := Containers.ConcurrentQueue.maxCapacity_of_legal (legal_queueHistory h1)
    have happly : (.status r, s₂.obj) = apply nl s₁.obj (.processPayload now rawJson) :=
      (critical_step hs).symm
    obtain ⟨hanswer, hobj⟩ := Prod.mk.inj happly
    cases hanswer
    refine ⟨s₁, s₂, h1, h2, hcap, ?_⟩
    rw [hobj]
    exact statusOf_processPayload nl now rawJson s₁.obj

def emptyObject : Op := .processPayload 5 []

theorem ingestsInOrder_two :
    ∃ final : State Bool Queue Op Answer, Ingests (.always (.object [])) 1
      [.call true emptyObject, .critical true emptyObject (.status (.ok .success)),
        .ret true emptyObject (.status (.ok .success)), .call true emptyObject,
        .call false (.queue .pop), .critical true emptyObject (.status (.ok .queueFull)),
        .critical false (.queue .pop)
          (.queue (.popped (some ((Json.object []).frame "unknown_robot" 0 5))))] final :=
  ⟨_, ingestsInOrder ⟨_, rfl,
    .cons (.call _ _ _ rfl) <| .cons (.critical _ _ _ rfl) <| .cons (.ret _ _ _ _ rfl) <|
      .cons (.call _ _ _ rfl) <| .cons (.call _ _ _ rfl) <| .cons (.critical _ _ _ rfl) <|
      .single (.critical _ _ _ rfl)⟩⟩

end SecureTelemetryGateway.Ingestion.Pipeline
