import SecureTelemetryGateway.Storage.Threads

/-!
# The life of a connection

Every connection the library hands out is opened, perhaps prepared on, and in
the end finalized and closed, in this order and each once. The calls of one
connection, filtered out of all that were made, show where in its life it is.
-/

namespace SecureTelemetryGateway.Storage

open StorageEngine

def HandleCall.connection : HandleCall → Nat
  | .opened n | .prepared n | .finalized n | .closed n => n

def history (n : Nat) (calls : List HandleCall) : List HandleCall :=
  calls.filter (·.connection = n)

/-- What is done with one connection until it is open, or is closed again. -/
def life (n : Nat) (prepared closed : Bool) : List HandleCall :=
  .opened n :: (if prepared then [.prepared n] else []) ++
    if closed then (if prepared then [.finalized n] else []) ++ [.closed n] else []

/-- The calls are those of the connections handed out so far, of which `db` is
open, with the statement `stmt`, and all others are closed. -/
structure Ledger (opened : Nat) (calls : List HandleCall) (db stmt : Option Nat) : Prop where
  fresh : ∀ n, opened ≤ n → history n calls = []
  past : ∀ n, n < opened → db ≠ some n → ∃ prepared, history n calls = life n prepared true
  current : ∀ n, db = some n → n < opened ∧ history n calls = life n stmt.isSome false
  statement : ∀ n, stmt = some n → db = some n

@[simp] theorem history_append (n : Nat) (calls calls' : List HandleCall) :
    history n (calls ++ calls') = history n calls ++ history n calls' := List.filter_append ..

theorem history_self (h : ∀ call ∈ calls, call.connection = n) : history n calls = calls :=
  List.filter_eq_self.mpr fun call hmem => by simp [h call hmem]

theorem history_other (h : ∀ call ∈ calls, call.connection = c) (hne : c ≠ n) :
    history n calls = [] :=
  List.filter_eq_nil_iff.mpr fun call hmem => by simp [h call hmem, hne]

theorem Ledger.init : Ledger 0 [] none none := ⟨fun _ _ => rfl, nofun, nofun, nofun⟩

variable {k c : Nat} {calls extra : List HandleCall} {db stmt stmt' : Option Nat}

theorem Ledger.open (h : Ledger k calls none none) :
    Ledger (k + 1) (calls ++ [.opened k]) (some k) none := by
  have hextra : ∀ call ∈ [HandleCall.opened k], call.connection = k := by
    simp [HandleCall.connection]
  refine ⟨fun n hn => ?_, fun n hn hdb => ?_, fun n hn => ?_, nofun⟩
  · rw [history_append, h.fresh n (by omega), history_other hextra (by omega), List.append_nil]
  · have hne : k ≠ n := fun hk => hdb (congrArg some hk)
    obtain ⟨prepared, hp⟩ := h.past n (by omega) nofun
    exact ⟨prepared, by rw [history_append, hp, history_other hextra hne, List.append_nil]⟩
  · obtain rfl : k = n := Option.some.inj hn
    exact ⟨by omega, by rw [history_append, h.fresh k le_rfl, history_self hextra]; rfl⟩

theorem Ledger.frame (h : Ledger k calls (some c) stmt)
    (hextra : ∀ call ∈ extra, call.connection = c) :
    (∀ n, k ≤ n → history n (calls ++ extra) = []) ∧
      ∀ n, n < k → c ≠ n → ∃ prepared, history n (calls ++ extra) = life n prepared true := by
  constructor
  · intro n hn
    have hne : c ≠ n := by
      have := (h.current c rfl).1
      omega
    rw [history_append, h.fresh n hn, history_other hextra hne, List.append_nil]
  · intro n hn hne
    obtain ⟨prepared, hp⟩ := h.past n hn fun hc => hne (Option.some.inj hc)
    exact ⟨prepared, by rw [history_append, hp, history_other hextra hne, List.append_nil]⟩

theorem Ledger.prepare (h : Ledger k calls (some c) none) :
    Ledger k (calls ++ [.prepared c]) (some c) (some c) := by
  have hextra : ∀ call ∈ [HandleCall.prepared c], call.connection = c := by
    simp [HandleCall.connection]
  obtain ⟨hfresh, hpast⟩ := h.frame hextra
  refine ⟨hfresh, fun n hn hdb => hpast n hn fun hc => hdb (congrArg some hc), fun n hn => ?_,
    fun _ hn => hn⟩
  obtain rfl : c = n := Option.some.inj hn
  obtain ⟨hlt, hc⟩ := h.current c rfl
  exact ⟨hlt, by rw [history_append, hc, history_self hextra]; rfl⟩

/-- The statement is finalized, if there is one, before the connection is
closed. -/
theorem Ledger.close (h : Ledger k calls db stmt) :
    Ledger k (calls ++ ((stmt.map HandleCall.finalized).toList ++
      (db.map HandleCall.closed).toList)) none none := by
  cases db with
  | none =>
    cases stmt with
    | none => simpa using h
    | some c => cases h.statement c rfl
  | some c =>
    have hextra : ∀ call ∈ (stmt.map HandleCall.finalized).toList ++ [.closed c],
        call.connection = c := by
      cases stmt with
      | none => simp [HandleCall.connection]
      | some d =>
        obtain rfl : c = d := Option.some.inj (h.statement d rfl)
        simp [HandleCall.connection]
    obtain ⟨hfresh, hpast⟩ := h.frame hextra
    refine ⟨hfresh, fun n hn _ => ?_, nofun, nofun⟩
    by_cases hne : c = n
    · subst hne
      refine ⟨stmt.isSome, ?_⟩
      rw [Option.map_some, Option.toList_some, history_append, (h.current c rfl).2,
        history_self hextra]
      cases stmt with
      | none => rfl
      | some d =>
        obtain rfl : c = d := Option.some.inj (h.statement d rfl)
        rfl
    · exact hpast n hn hne

-- ---------------------------------------------------------------------------
-- The engine's ledger
-- ---------------------------------------------------------------------------

namespace StorageEngine

def HandlesOk (e : StorageEngine) : Prop :=
  Ledger e.opened e.handleCalls (e.db.map (·.id)) (e.insertStmt.map (·.connection))

variable {e e' : StorageEngine} {o : SqliteOutcomes}

theorem KeepsHandles.handlesOk (hk : KeepsHandles e e') (h : HandlesOk e) : HandlesOk e' := by
  rwa [HandlesOk, hk.opened, hk.handleCalls, hk.connection, hk.statement]

theorem handlesOk_closeInternal (h : HandlesOk e) : HandlesOk e.closeInternal := by
  have hclose := Ledger.close h
  cases hd : e.db <;> cases hs : e.insertStmt <;>
    simpa [HandlesOk, closeInternal, closeDb, finalizeInsert, hd, hs] using hclose

theorem handlesOk_openDb (h : HandlesOk e) (hc : Closed e) :
    HandlesOk (e.openDb o).2 ∧ (e.openDb o).2.insertStmt = none := by
  unfold openDb
  split
  · have hopen : Ledger e.opened e.handleCalls none none := by simpa [HandlesOk, hc.1, hc.2] using h
    exact ⟨by simpa [HandlesOk, hc.2] using hopen.open, hc.2⟩
  · exact ⟨by simpa [HandlesOk, hc.1] using h, hc.2⟩

theorem handlesOk_prepareInsert (h : HandlesOk e) (hs : e.insertStmt = none) :
    HandlesOk (e.prepareInsert o).2 := by
  unfold prepareInsert
  split
  · rename_i c hd _
    have hprepare : Ledger e.opened e.handleCalls (some c.id) none := by
      simpa [HandlesOk, hs, hd] using h
    simpa [HandlesOk, hd] using hprepare.prepare
  · simpa [HandlesOk, hs] using h

theorem handlesOk_initInternal (h : HandlesOk e) (hc : e.isInitialized = false → Closed e) :
    HandlesOk (e.initInternal o).2 := by
  unfold initInternal
  split
  · exact h
  · rename_i hi
    have hclosed : Closed { e with initFailed := false } := hc (by simpa using hi)
    obtain ⟨hopen, hstmt⟩ :=
      handlesOk_openDb (o := o) (e := { e with initFailed := false }) h hclosed
    have hprepare := handlesOk_prepareInsert (o := o) hopen hstmt
    dsimp only
    split
    · exact handlesOk_closeInternal hopen
    · split
      · exact handlesOk_closeInternal hopen
      · split
        · exact handlesOk_closeInternal hprepare
        · exact hprepare

theorem handlesOk_ensureInitialized (h : HandlesOk e) (hc : Consistent e) :
    HandlesOk (e.ensureInitialized o) := by
  cases hf : e.initFlag with
  | true => rwa [ensureInitialized_of_initFlag hf]
  | false =>
    rw [ensureInitialized_of_not_initFlag hf]
    exact handlesOk_initInternal h fun hi => by simpa [Consistent, hi] using hc

theorem handlesOk_close (h : HandlesOk e) : HandlesOk e.close := handlesOk_closeInternal h

theorem Consistent.iff_isSome (h : Consistent e) :
    (e.isInitialized = true ↔ e.db.isSome) ∧ (e.db.isSome ↔ e.insertStmt.isSome) := by
  cases hi : e.isInitialized with
  | true =>
    obtain ⟨c, stmt, hd, hs, -⟩ : Live e := by simpa [Consistent, hi] using h
    simp [hd, hs]
  | false =>
    obtain ⟨hd, hs⟩ : Closed e := by simpa [Consistent, hi] using h
    simp [hd, hs]

end StorageEngine

-- ---------------------------------------------------------------------------
-- Over runs
-- ---------------------------------------------------------------------------

structure Tidy (calls : List HandleCall) : Prop where
  openedOnce : ∀ n, calls.count (.opened n) ≤ 1
  finalizedOnce : ∀ n, calls.count (.finalized n) ≤ 1
  closedOnce : ∀ n, calls.count (.closed n) ≤ 1
  order : ∀ n a b, calls = a ++ .closed n :: b →
    .opened n ∈ a ∧ .prepared n ∉ b ∧ (.prepared n ∈ a → .finalized n ∈ a)

theorem count_history (call : HandleCall) (calls : List HandleCall) :
    (history call.connection calls).count call = calls.count call :=
  List.count_filter (by simp)

theorem Ledger.history_eq (h : Ledger k calls db stmt) (n : Nat) :
    history n calls = [] ∨ ∃ prepared closed, history n calls = life n prepared closed := by
  rcases Nat.lt_or_ge n k with hlt | hge
  · by_cases hdb : db = some n
    · exact .inr ⟨_, _, (h.current n hdb).2⟩
    · obtain ⟨prepared, hp⟩ := h.past n hlt hdb
      exact .inr ⟨prepared, true, hp⟩
  · exact .inl (h.fresh n hge)

theorem eq_of_append_cons {α : Type*} {a b pre : List α} {x : α} (h : a ++ x :: b = pre ++ [x])
    (hx : x ∉ pre) : a = pre ∧ b = [] := by
  rcases List.eq_nil_or_concat b with rfl | ⟨b, y, rfl⟩
  · exact ⟨(List.append_inj' h rfl).1, rfl⟩
  · rw [List.concat_eq_append, ← List.cons_append, ← List.append_assoc] at h
    have hpre : a ++ x :: b = pre := (List.append_inj' h rfl).1
    exact absurd (hpre ▸ by simp) hx

theorem mem_history {call : HandleCall} {l : List HandleCall} (h : call.connection = n) :
    call ∈ history n l ↔ call ∈ l := by simp [history, h]

theorem Ledger.tidy (h : Ledger k calls db stmt) : Tidy calls := by
  have honce : ∀ call : HandleCall, calls.count call ≤ 1 := by
    intro call
    rw [← count_history]
    rcases h.history_eq call.connection with hn | ⟨prepared, closed, hn⟩
    · simp [hn]
    · rw [hn]
      cases call <;> cases prepared <;> cases closed <;> simp [life, HandleCall.connection]
  refine ⟨fun n => honce _, fun n => honce _, fun n => honce _, ?_⟩
  rintro n a b rfl
  have hsplit : history n (a ++ .closed n :: b) = history n a ++ .closed n :: history n b := by
    simp [history, HandleCall.connection]
  obtain ⟨prepared, closed, hn⟩ := (h.history_eq n).resolve_left (by simp [hsplit])
  rw [hsplit] at hn
  cases closed with
  | false =>
    have hmem : HandleCall.closed n ∈ life n prepared false := hn ▸ by simp
    cases prepared <;> simp [life] at hmem
  | true =>
    obtain ⟨ha, hb⟩ := eq_of_append_cons (hn.trans (List.append_assoc ..).symm)
      (by cases prepared <;> simp)
    refine ⟨?_, ?_, ?_⟩
    · rw [← mem_history (n := n) rfl, ha]
      simp
    · rw [← mem_history (n := n) rfl, hb]
      simp
    · rw [← mem_history (n := n) rfl, ← mem_history (n := n) (l := a) rfl, ha]
      cases prepared <;> simp

theorem Ledger.allClosed (h : Ledger k calls none stmt) (hn : .opened n ∈ calls) :
    calls.count (.closed n) = 1 := by
  have hlt : n < k := by
    by_contra hge
    have hmem := (mem_history (n := n) rfl).mpr hn
    rw [h.fresh n (by omega)] at hmem
    cases hmem
  obtain ⟨prepared, hp⟩ := h.past n hlt nofun
  have hcount := count_history (.closed n) calls
  rw [show HandleCall.connection (.closed n) = n from rfl, hp] at hcount
  rw [← hcount]
  cases prepared <;> simp [life]

variable {τ : Type u} {order : IterationOrder} {rows : List Row} [DecidableEq τ]

theorem handlesOk_step {s s' : State τ} (hs : Step order s ev s') (hi : Inv s)
    (h : HandlesOk s.engine) : HandlesOk s'.engine := by
  cases hs with
  | call => exact h
  | once => exact handlesOk_ensureInitialized h hi.consistent
  | load => exact h
  | locked _ t sec o _ _ hr =>
    rcases run_handles hr with hk | ⟨rfl, -⟩
    · exact hk.handlesOk h
    · exact handlesOk_close h
  | crash => exact h

theorem handlesOk_of_reachable {s : State τ} (h : (threads τ order rows).Reachable s) :
    HandlesOk s.engine := by
  have hboth : Inv s ∧ HandlesOk s.engine := by
    refine h.invariant (I := fun s => Inv s ∧ HandlesOk s.engine) ?_ ?_
    · rintro _ rfl
      exact ⟨.init, .init⟩
    · exact fun s ev s' hi hs => ⟨hi.1.step hs, handlesOk_step hs hi.1 hi.2⟩
  exact hboth.2

theorem allClosed_close (h : HandlesOk e) :
    ∀ n, .opened n ∈ e.close.handleCalls → e.close.handleCalls.count (.closed n) = 1 := by
  intro n hn
  have hledger : Ledger e.close.opened e.close.handleCalls (e.close.db.map (·.id)) _ :=
    handlesOk_close h
  rw [show e.close.db = none from (closed_closeInternal e).1] at hledger
  exact hledger.allClosed hn

/-- In every reachable state the flag and the two handles agree, and no handle
has been misused. A run that ends with a close, and any other after the
destructor, has closed every connection. -/
theorem handlesConsistent {s : State τ} (h : (threads τ order rows).Trace es s) :
    (s.engine.isInitialized = true ↔ s.engine.db.isSome) ∧
      (s.engine.db.isSome ↔ s.engine.insertStmt.isSome) ∧
      Tidy s.engine.handleCalls ∧ Tidy s.engine.close.handleCalls ∧
      (∀ n, .opened n ∈ s.engine.close.handleCalls →
        s.engine.close.handleCalls.count (.closed n) = 1) ∧
      ∀ es' t o a, es = es' ++ [.locked t .close o a] → ∀ n, .opened n ∈ s.engine.handleCalls →
        s.engine.handleCalls.count (.closed n) = 1 := by
  have hok := handlesOk_of_reachable h.reachable
  obtain ⟨hflag, hstmt⟩ := (inv_of_reachable h.reachable).consistent.iff_isSome
  refine ⟨hflag, hstmt, Ledger.tidy hok, Ledger.tidy (handlesOk_close hok), allClosed_close hok, ?_⟩
  rintro es' t o a rfl
  obtain ⟨m, m', ha, hs, hb⟩ := h.at_step
  obtain rfl := hb.nil_inv
  cases hs with
  | locked _ _ _ _ _ _ hr =>
    simp only [Section.run, Option.some.injEq, Prod.mk.injEq] at hr
    obtain ⟨-, rfl⟩ := hr
    exact allClosed_close (handlesOk_of_reachable ha.reachable)

/-- The preparation of one connection fails. Another has a statement that a
thread inserts with while the other thread waits to close both. -/
theorem handlesConsistent_closed : ∃ s s' : State Bool,
    s.engine.handleCalls = [HandleCall.opened 0, HandleCall.closed 0] ∧
      s.engine.isInitialized = false ∧ Tidy s.engine.handleCalls ∧
      s'.engine.handleCalls =
        [HandleCall.opened 0, HandleCall.prepared 0, HandleCall.finalized 0, HandleCall.closed 0] ∧
      s'.engine.table = [rowOf .byKey {}] ∧ Tidy s'.engine.handleCalls ∧
      s'.engine.handleCalls.count (HandleCall.closed 0) = 1 := by
  have hfailed : (threads Bool .byKey []).Trace _ _ := ⟨_, rfl,
    .cons (.call _ true .init rfl rfl) <|
      .single (.once _ true .init { prepare := false } rfl rfl)⟩
  have hrun : (threads Bool .byKey []).Trace
      ([.call true (.locking (.insertTelemetry {})), .call false (.locking .close), .once true {},
        .load true true, .locked true (.insertTelemetry {}) {} (.returned true)] ++
        [.locked false .close {} .void]) _ := ⟨_, rfl,
    .cons (.call _ true _ rfl rfl) <| .cons (.call _ false _ rfl rfl) <|
      .cons (.once _ true _ {} rfl rfl) <| .cons (.load _ true _ rfl rfl) <|
      .cons (.locked _ true _ {} rfl rfl rfl) <| .single (.locked _ false _ {} rfl rfl rfl)⟩
  obtain ⟨-, -, htidy, -, -, hclosed⟩ := handlesConsistent hrun
  exact ⟨_, _, rfl, rfl, (handlesConsistent hfailed).2.2.1, rfl, rfl, htidy,
    hclosed _ _ _ _ rfl 0 (by decide)⟩

end SecureTelemetryGateway.Storage
