import SecureTelemetryGateway.Lib.Lts
import Mathlib.Data.Set.Card

/-!
# Monitors: one mutex and its condition variables

An object behind a mutex whose operations may wait for a predicate on a
condition variable, and notify after they have released the mutex. Each stretch
under the mutex is one step, and so is each notification. A waiting thread
wakes when it is notified, or at any time of itself, and then tests again; one
with a deadline may give up instead.

`notify_one` is enough where the waiting threads a state could serve never
outnumber the notifications still to come and the threads awake
(`supply_eq_zero`). What an object has to meet for that is `Signals`.
-/

namespace Lib.Monitor

inductive Notification (κ : Type w)
  | one (cv : κ)
  | all (cv : κ)

/-- `cv.wait(lock, ready)`, or `wait_for` if `timed`. -/
structure Wait (σ : Type u) (κ : Type w) where
  cv : κ
  ready : σ → Bool
  timed : Bool

/-- `body acquired op` is what follows the wait under the mutex, `acquired`
being its answer: what the operation returns, the object it leaves, and the
notifications to issue afterwards. -/
structure Object (σ : Type u) (ι : Type v) (ρ : Type v') (κ : Type w) where
  wait? : ι → Option (Wait σ κ)
  body : Bool → ι → σ → ρ × σ × List (Notification κ)

inductive Pc (ι : Type v) (ρ : Type v') (κ : Type w)
  | idle
  | lock (op : ι)
  | waiting (op : ι)
  | woken (op : ι)
  | notifying (op : ι) (answer : ρ) (rest : List (Notification κ))

structure State (τ : Type t) (σ : Type u) (ι : Type v) (ρ : Type v') (κ : Type w) where
  obj : σ
  pc : τ → Pc ι ρ κ

inductive Event (τ : Type t) (ι : Type v) (ρ : Type v') (κ : Type w)
  | call (thread : τ) (op : ι)
  | wait (thread : τ) (op : ι)
  | finish (thread : τ) (op : ι) (acquired : Bool) (answer : ρ)
  | wake (thread : τ) (op : ι)
  | notifyOne (thread : τ) (cv : κ) (woken : Option τ)
  | notifyAll (thread : τ) (cv : κ)
  | ret (thread : τ) (op : ι) (answer : ρ)

variable {τ : Type t} {σ : Type u} {ι : Type v} {ρ : Type v'} {κ : Type w}

/-- A step of a thread inside an operation. -/
def Event.inside : Event τ ι ρ κ → Bool
  | .call _ _ => false
  | _ => true

/-- And one that is not a wake-up out of the blue. -/
def Event.driven : Event τ ι ρ κ → Bool
  | .call _ _ | .wake _ _ => false
  | _ => true

namespace Object

variable (M : Object σ ι ρ κ)

def cv? (op : ι) : Option κ := (M.wait? op).map (·.cv)

/-- The wait may answer `acquired`: its predicate holds, or does not and the
deadline has passed. -/
def May (op : ι) (o : σ) : Bool → Prop
  | true => ∀ w, M.wait? op = some w → w.ready o = true
  | false => ∃ w, M.wait? op = some w ∧ w.timed = true ∧ w.ready o = false

end Object

/-- About to test the predicate under the mutex. Only a thread that has waited
can find its deadline passed. -/
def Pc.testing : Pc ι ρ κ → ι → Bool → Prop
  | .lock op, op', acquired => op = op' ∧ acquired = true
  | .woken op, op', _ => op = op'
  | _, _, _ => False

def Pc.waitsOn (M : Object σ ι ρ κ) (c : κ) : Pc ι ρ κ → Prop
  | .waiting op => M.cv? op = some c
  | _ => False

def Pc.pending : Pc ι ρ κ → List (Notification κ)
  | .notifying _ _ rest => rest
  | _ => []

/-- Awake after a wait on `c`, or about to wake a thread there. -/
def Pc.serves (M : Object σ ι ρ κ) (c : κ) : Pc ι ρ κ → Prop
  | .woken op => M.cv? op = some c
  | .notifying _ _ rest => .one c ∈ rest
  | _ => False

def Pc.wake [DecidableEq κ] (M : Object σ ι ρ κ) (c : κ) : Pc ι ρ κ → Pc ι ρ κ
  | .waiting op => if M.cv? op = some c then .woken op else .waiting op
  | p => p

inductive Step [DecidableEq τ] [DecidableEq κ] (M : Object σ ι ρ κ) :
    State τ σ ι ρ κ → Event τ ι ρ κ → State τ σ ι ρ κ → Prop
  | call (s) (t : τ) (op : ι) : s.pc t = .idle →
      Step M s (.call t op) { s with pc := Function.update s.pc t (.lock op) }
  | wait (s) (t : τ) (op : ι) (w : Wait σ κ) : (s.pc t).testing op true → M.wait? op = some w →
      w.ready s.obj = false →
      Step M s (.wait t op) { s with pc := Function.update s.pc t (.waiting op) }
  | finish (s) (t : τ) (op : ι) (acquired : Bool) : (s.pc t).testing op acquired →
      M.May op s.obj acquired →
      Step M s (.finish t op acquired (M.body acquired op s.obj).1)
        { obj := (M.body acquired op s.obj).2.1
          pc := Function.update s.pc t
            (.notifying op (M.body acquired op s.obj).1 (M.body acquired op s.obj).2.2) }
  -- spuriously, or at the deadline
  | wake (s) (t : τ) (op : ι) : s.pc t = .waiting op →
      Step M s (.wake t op) { s with pc := Function.update s.pc t (.woken op) }
  | notifyOne (s) (t u : τ) (c : κ) : s.pc t = .notifying op r (.one c :: rest) →
      s.pc u = .waiting op' → M.cv? op' = some c →
      Step M s (.notifyOne t c (some u))
        { s with
          pc := Function.update (Function.update s.pc u (.woken op')) t (.notifying op r rest) }
  | notifyNone (s) (t : τ) (c : κ) : s.pc t = .notifying op r (.one c :: rest) →
      (∀ u, ¬(s.pc u).waitsOn M c) →
      Step M s (.notifyOne t c none)
        { s with pc := Function.update s.pc t (.notifying op r rest) }
  | notifyAll (s) (t : τ) (c : κ) : s.pc t = .notifying op r (.all c :: rest) →
      Step M s (.notifyAll t c)
        { s with
          pc := Function.update (fun u => (s.pc u).wake M c) t (.notifying op r rest) }
  | ret (s) (t : τ) : s.pc t = .notifying op r [] →
      Step M s (.ret t op r) { s with pc := Function.update s.pc t .idle }

def system (τ : Type t) [DecidableEq τ] [DecidableEq κ] (M : Object σ ι ρ κ) (o : σ) :
    Lts (State τ σ ι ρ κ) (Event τ ι ρ κ) where
  init s := s = { obj := o, pc := fun _ => .idle }
  step := Step M

/-- No thread can run on: none holds the processor, is awake, or has anything
left to notify. -/
def State.Quiescent (s : State τ σ ι ρ κ) : Prop :=
  ∀ t, s.pc t = .idle ∨ ∃ op, s.pc t = .waiting op

-- ---------------------------------------------------------------------------
-- The sections
-- ---------------------------------------------------------------------------

def Event.entry? : Event τ ι ρ κ → Option (ι × ρ)
  | .finish _ op _ r => some (op, r)
  | _ => none

def entries (es : List (Event τ ι ρ κ)) : List (ι × ρ) := es.filterMap Event.entry?

@[simp] theorem entries_append (es fs : List (Event τ ι ρ κ)) :
    entries (es ++ fs) = entries es ++ entries fs := by simp [entries]

@[simp] theorem entries_cons (ev : Event τ ι ρ κ) (es : List (Event τ ι ρ κ)) :
    entries (ev :: es) = ev.entry?.toList ++ entries es := by
  cases h : ev.entry? <;> simp [entries, h]

@[simp] theorem entries_nil : entries ([] : List (Event τ ι ρ κ)) = [] := rfl

section
variable [DecidableEq τ] [DecidableEq κ] {M : Object σ ι ρ κ}

theorem Run.object_invariant {I : List (ι × ρ) → σ → Prop} {s s' : State τ σ ι ρ κ}
    (h : (system τ M o).Run s es s') (h0 : I [] s.obj)
    (hbody : ∀ l o op acquired, I l o → M.May op o acquired →
      I (l ++ [(op, (M.body acquired op o).1)]) (M.body acquired op o).2.1) :
    I (entries es) s'.obj := by
  refine h.invariant (I := fun es (s : State τ σ ι ρ κ) => I (entries es) s.obj) h0 ?_
  intro es s ev s' hi hs
  cases hs with
  | finish _ t op acquired hp hmay =>
    simpa [Event.entry?] using hbody _ _ op acquired hi hmay
  | _ => simpa [Event.entry?] using hi

theorem object_invariant {I : List (ι × ρ) → σ → Prop} {s : State τ σ ι ρ κ}
    (h : (system τ M o).Trace es s) (h0 : I [] o)
    (hbody : ∀ l o op acquired, I l o → M.May op o acquired →
      I (l ++ [(op, (M.body acquired op o).1)]) (M.body acquired op o).2.1) :
    I (entries es) s.obj := by
  obtain ⟨_, rfl, hr⟩ := h
  exact Run.object_invariant hr h0 hbody

theorem finish_inv {s s' : State τ σ ι ρ κ} (hs : Step M s (.finish t op acquired r) s') :
    M.May op s.obj acquired ∧ M.body acquired op s.obj = (r, s'.obj, (s'.pc t).pending) := by
  cases hs with
  | finish _ _ _ _ hp hmay => exact ⟨hmay, by simp [Pc.pending]⟩

omit [DecidableEq κ] in
theorem eq_of_update_notifying {pc : τ → Pc ι ρ κ}
    (h : Function.update pc t p u = .notifying op r rest) :
    (u = t ∧ p = .notifying op r rest) ∨ pc u = .notifying op r rest := by
  by_cases hu : u = t
  · subst hu
    exact .inl ⟨rfl, by simpa using h⟩
  · exact .inr (by rwa [Function.update_of_ne hu] at h)

theorem notifying_step {s s' : State τ σ ι ρ κ} (hs : Step M s ev s')
    (h : s'.pc u = .notifying op r rest) :
    (∃ rest', s.pc u = .notifying op r rest') ∨ ∃ acquired, ev = .finish u op acquired r := by
  cases hs with
  | finish _ t op' acquired =>
    rcases eq_of_update_notifying h with ⟨rfl, hp⟩ | hu
    · cases hp
      exact .inr ⟨acquired, rfl⟩
    · exact .inl ⟨rest, hu⟩
  | notifyOne _ t v c hp hv =>
    rcases eq_of_update_notifying h with ⟨rfl, hp'⟩ | hu
    · cases hp'
      exact .inl ⟨_, hp⟩
    · rcases eq_of_update_notifying hu with ⟨-, hw⟩ | hu
      · cases hw
      · exact .inl ⟨rest, hu⟩
  | notifyNone _ t c hp =>
    rcases eq_of_update_notifying h with ⟨rfl, hp'⟩ | hu
    · cases hp'
      exact .inl ⟨_, hp⟩
    · exact .inl ⟨rest, hu⟩
  | notifyAll _ t c hp =>
    have h : Function.update (fun u => (s.pc u).wake M c) t _ u = _ := h
    rcases eq_of_update_notifying h with ⟨rfl, hp'⟩ | hu
    · cases hp'
      exact .inl ⟨_, hp⟩
    · cases hpu : s.pc u with
      | waiting op' => by_cases hc : M.cv? op' = some c <;> simp [hpu, Pc.wake, hc] at hu
      | notifying => exact .inl ⟨rest, by simpa [hpu, Pc.wake] using hu⟩
      | _ => simp [hpu, Pc.wake] at hu
  | _ =>
    rcases eq_of_update_notifying h with ⟨-, hp⟩ | hu
    · cases hp
    · exact .inl ⟨rest, hu⟩

theorem finish_of_ret {s : State τ σ ι ρ κ} (h : (system τ M o).Trace es s) :
    (∀ t op r rest, s.pc t = .notifying op r rest → ∃ acquired, .finish t op acquired r ∈ es) ∧
      ∀ t op r, .ret t op r ∈ es → ∃ acquired, .finish t op acquired r ∈ es := by
  refine h.invariant (I := fun es s =>
    (∀ t op r rest, s.pc t = .notifying op r rest → ∃ acquired, .finish t op acquired r ∈ es) ∧
      ∀ t op r, .ret t op r ∈ es → ∃ acquired, .finish t op acquired r ∈ es) ?_ ?_
  · rintro _ rfl
    exact ⟨fun t op r rest hp => (nomatch hp), fun t op r hr => (nomatch hr)⟩
  intro es s ev s' ⟨hnotifying, hret⟩ hs
  have hkept : ∀ {t op r}, (∃ acquired, .finish t op acquired r ∈ es) →
      ∃ acquired, .finish t op acquired r ∈ es ++ [ev] :=
    fun ⟨acquired, hmem⟩ => ⟨acquired, List.mem_append_left _ hmem⟩
  constructor
  · intro t op r rest hp
    rcases notifying_step hs hp with ⟨rest', hp'⟩ | ⟨acquired, rfl⟩
    · exact hkept (hnotifying t op r rest' hp')
    · exact ⟨acquired, by simp⟩
  · intro t op r hmem
    rcases List.mem_append.mp hmem with hmem | hmem
    · exact hkept (hret t op r hmem)
    · obtain rfl := List.mem_singleton.mp hmem
      cases hs with
      | ret _ _ hp => exact hkept (hnotifying t op r [] hp)

theorem exists_step_notifying (s : State τ σ ι ρ κ) (hp : s.pc t = .notifying op r (n :: ns)) :
    ∃ ev s', Step M s ev s' ∧ ev.driven = true ∧ ev.entry? = none ∧ s'.obj = s.obj ∧
      s'.pc t = .notifying op r ns := by
  cases n with
  | all c => exact ⟨_, _, .notifyAll s t c hp, rfl, rfl, rfl, by simp⟩
  | one c =>
    by_cases hnone : ∀ u, ¬(s.pc u).waitsOn M c
    · exact ⟨_, _, .notifyNone s t c hp hnone, rfl, rfl, rfl, by simp⟩
    · push Not at hnone
      obtain ⟨u, hu⟩ := hnone
      cases hpu : s.pc u with
      | waiting op' =>
        rw [hpu] at hu
        exact ⟨_, _, .notifyOne s t u c hp hpu hu, rfl, rfl, rfl, by simp⟩
      | _ => simp [hpu, Pc.waitsOn] at hu

theorem exists_run_notifying (s : State τ σ ι ρ κ) (hp : s.pc t = .notifying op r ns) :
    ∃ es s', (system τ M o).Run s es s' ∧ entries es = [] ∧ s'.obj = s.obj ∧ s'.pc t = .idle := by
  induction ns generalizing s with
  | nil => exact ⟨_, _, .single (.ret s t hp), rfl, rfl, Function.update_self ..⟩
  | cons n ns ih =>
    obtain ⟨ev, s₁, hs, -, hev, hobj, hp₁⟩ := exists_step_notifying (M := M) s hp
    obtain ⟨es, s', hr, hes, hobj', hp'⟩ := ih s₁ hp₁
    exact ⟨ev :: es, s', .cons hs hr, by simp [hes, hev], hobj'.trans hobj, hp'⟩

theorem exists_run_op (s : State τ σ ι ρ κ) (hp : s.pc t = .idle) (hmay : M.May op s.obj true) :
    ∃ es s', (system τ M o).Run s es s' ∧ entries es = [(op, (M.body true op s.obj).1)] ∧
      s'.obj = (M.body true op s.obj).2.1 ∧ s'.pc t = .idle := by
  have hcall : Step M s (.call t op) _ := .call s t op hp
  obtain ⟨m, hfinish, hm, hpm⟩ : ∃ m, Step M { s with pc := Function.update s.pc t (.lock op) }
      (.finish t op true (M.body true op s.obj).1) m ∧ m.obj = (M.body true op s.obj).2.1 ∧
        m.pc t = .notifying op (M.body true op s.obj).1 (M.body true op s.obj).2.2 :=
    ⟨_, .finish _ t op true (by simp [Pc.testing]) hmay, rfl, by simp⟩
  obtain ⟨es, s', hr, hes, hobj, hp'⟩ := exists_run_notifying (M := M) (o := o) m hpm
  rw [hm] at hobj
  exact ⟨_, s', .cons hcall (.cons hfinish hr), by simp [hes, Event.entry?], hobj, hp'⟩

end

-- ---------------------------------------------------------------------------
-- Counting threads
-- ---------------------------------------------------------------------------

open Classical in
noncomputable def oneIf (P : Prop) : ℕ∞ := if P then 1 else 0

@[simp] theorem oneIf_pos {P : Prop} (h : P) : oneIf P = 1 := if_pos h
@[simp] theorem oneIf_neg {P : Prop} (h : ¬P) : oneIf P = 0 := if_neg h

theorem oneIf_le_one (P : Prop) : oneIf P ≤ 1 := by
  by_cases h : P <;> simp [h]

theorem oneIf_mono {P Q : Prop} (h : P → Q) : oneIf P ≤ oneIf Q := by
  by_cases hp : P
  · simp [hp, h hp]
  · simp [hp]

theorem encard_eq_add (P : τ → Prop) (t : τ) :
    {u | P u}.encard = {u | u ≠ t ∧ P u}.encard + oneIf (P t) := by
  by_cases h : P t
  · have hset : {u | u ≠ t ∧ P u} = {u | P u} \ {t} := by
      ext u
      simp [and_comm]
    have hmem : t ∈ {u | P u} := h
    rw [hset, oneIf_pos h, Set.encard_sdiff_singleton_add_one hmem]
  · have hset : {u | u ≠ t ∧ P u} = {u | P u} := by
      ext u
      refine and_iff_right_of_imp fun hu ht => h ?_
      rwa [← ht]
    rw [hset, oneIf_neg h, add_zero]

theorem encard_update [DecidableEq τ] {α : Type*} (P : α → Prop) (f : τ → α) (t : τ) (x : α) :
    {u | P (Function.update f t x u)}.encard + oneIf (P (f t)) =
      {u | P (f u)}.encard + oneIf (P x) := by
  have hrest : {u | u ≠ t ∧ P (Function.update f t x u)} = {u | u ≠ t ∧ P (f u)} := by
    ext u
    refine and_congr_right fun hu => ?_
    rw [Function.update_of_ne hu]
  rw [encard_eq_add (fun u => P (Function.update f t x u)) t, encard_eq_add (fun u => P (f u)) t,
    hrest, Function.update_self, add_right_comm]

-- ---------------------------------------------------------------------------
-- No lost wake-up
-- ---------------------------------------------------------------------------

/-- If a thread waits on `c`, a `notify_all` is to come, or at least `n` threads
are awake or about to wake another. -/
def Covered (M : Object σ ι ρ κ) (c : κ) (n : ℕ∞) (pc : τ → Pc ι ρ κ) : Prop :=
  (∃ t, (pc t).waitsOn M c) →
    (∃ t, .all c ∈ (pc t).pending) ∨ n ≤ {t | (pc t).serves M c}.encard

/-- `supply c` bounds the waiters on `c` an object could serve, `⊤` standing
for all of them. A predicate that fails leaves none to serve; an operation that
adds some notifies, and one that has waited uses one up. -/
structure Signals (M : Object σ ι ρ κ) (supply : κ → σ → ℕ∞) : Prop where
  unready : ∀ op w o, M.wait? op = some w → w.ready o = false → supply w.cv o = 0
  body : ∀ op o, M.May op o true → ∀ c, .all c ∈ (M.body true op o).2.2 ∨
    supply c (M.body true op o).2.1 + oneIf (M.cv? op = some c) ≤
      supply c o + oneIf (.one c ∈ (M.body true op o).2.2)
  expired : ∀ op o, M.May op o false → (M.body false op o).2 = (o, [])

variable {M : Object σ ι ρ κ} {supply : κ → σ → ℕ∞} {c d : κ} {n n' : ℕ∞} {pc : τ → Pc ι ρ κ}

theorem Covered.zero : Covered M c 0 pc := fun _ => .inr zero_le

theorem Covered.update [DecidableEq τ] (h : Covered M c n pc) {t : τ} {p : Pc ι ρ κ}
    (hwait : ¬p.waitsOn M c) (hall : .all c ∈ (pc t).pending → .all c ∈ p.pending)
    (hone : .all c ∈ p.pending ∨
      n' + oneIf ((pc t).serves M c) ≤ n + oneIf (p.serves M c)) :
    Covered M c n' (Function.update pc t p) := by
  rintro ⟨u, hu⟩
  have hself : .all c ∈ p.pending → ∃ v, .all c ∈ (Function.update pc t p v).pending :=
    fun hp => ⟨t, by rwa [Function.update_self]⟩
  by_cases hut : u = t
  · subst hut
    rw [Function.update_self] at hu
    exact absurd hu hwait
  · rw [Function.update_of_ne hut] at hu
    rcases hone with hp | hone
    · exact .inl (hself hp)
    rcases h ⟨u, hu⟩ with ⟨v, hv⟩ | hn
    · by_cases hvt : v = t
      · exact .inl (hself (hall (hvt ▸ hv)))
      · exact .inl ⟨v, by rwa [Function.update_of_ne hvt]⟩
    · have hcount := encard_update (fun q : Pc ι ρ κ => q.serves M c) pc t p
      have hfinite : oneIf ((pc t).serves M c) ≠ ⊤ :=
        ne_top_of_le_ne_top ENat.one_ne_top (oneIf_le_one _)
      refine .inr ((ENat.add_le_add_iff_right hfinite).mp ?_)
      rw [hcount]
      exact hone.trans (by gcongr)

theorem Covered.of_none [DecidableEq τ] {t : τ} {p : Pc ι ρ κ}
    (h : ∀ u, u ≠ t → ¬(pc u).waitsOn M c) (hp : ¬p.waitsOn M c) :
    Covered M c n (Function.update pc t p) := by
  rintro ⟨u, hu⟩
  exact absurd hu ((Function.forall_update_iff pc fun _ q => ¬q.waitsOn M c).mpr ⟨hp, h⟩ u)

@[simp] theorem Pc.pending_idle : (.idle : Pc ι ρ κ).pending = [] := rfl
@[simp] theorem Pc.pending_waiting : (.waiting op : Pc ι ρ κ).pending = [] := rfl
@[simp] theorem Pc.pending_woken : (.woken op : Pc ι ρ κ).pending = [] := rfl
@[simp] theorem Pc.pending_notifying : (.notifying op r rest : Pc ι ρ κ).pending = rest := rfl

@[simp] theorem Pc.serves_idle : (.idle : Pc ι ρ κ).serves M c ↔ False := .rfl
@[simp] theorem Pc.serves_lock : (.lock op : Pc ι ρ κ).serves M c ↔ False := .rfl
@[simp] theorem Pc.serves_waiting : (.waiting op : Pc ι ρ κ).serves M c ↔ False := .rfl
@[simp] theorem Pc.serves_woken :
    (.woken op : Pc ι ρ κ).serves M c ↔ M.cv? op = some c := .rfl
@[simp] theorem Pc.serves_notifying :
    (.notifying op r rest : Pc ι ρ κ).serves M c ↔ .one c ∈ rest := .rfl

theorem Pc.testing.pending {p : Pc ι ρ κ} (h : p.testing op acquired) : p.pending = [] := by
  cases p with
  | notifying => exact h.elim
  | _ => rfl

theorem Pc.testing.serves {p : Pc ι ρ κ} (h : p.testing op acquired) (hc : p.serves M c) :
    M.cv? op = some c := by
  cases p with
  | lock op' => simp at hc
  | woken op' =>
    obtain rfl : op' = op := h
    exact hc
  | _ => exact h.elim

theorem Signals.supply_of_unready (hM : Signals M supply) (hw : M.wait? op = some w)
    (hr : w.ready o = false) (hc : M.cv? op = some c) : supply c o = 0 := by
  simp only [Object.cv?, hw, Option.map_some, Option.some.injEq] at hc
  exact hc ▸ hM.unready op w o hw hr

@[simp] theorem Pc.wake_notifying [DecidableEq κ] :
    (.notifying op r rest : Pc ι ρ κ).wake M c = .notifying op r rest := rfl

theorem Pc.not_waitsOn_wake [DecidableEq κ] (p : Pc ι ρ κ) (c : κ) : ¬(p.wake M c).waitsOn M c := by
  cases p with
  | waiting op =>
    by_cases hc : M.cv? op = some c
    · rw [Pc.wake, if_pos hc]
      exact id
    · rwa [Pc.wake, if_neg hc]
  | _ => exact id

theorem Pc.wake_of_ne [DecidableEq κ] (p : Pc ι ρ κ) (hne : c ≠ d) :
    ((p.wake M d).waitsOn M c ↔ p.waitsOn M c) ∧ (p.wake M d).pending = p.pending ∧
      ((p.wake M d).serves M c ↔ p.serves M c) := by
  cases p with
  | waiting op =>
    by_cases hd : M.cv? op = some d
    · simp [Pc.wake, hd, Pc.waitsOn, Ne.symm hne]
    · simp [Pc.wake, hd]
  | _ => exact ⟨.rfl, rfl, .rfl⟩

theorem Covered.wake [DecidableEq κ] (h : Covered M c n pc) (hne : c ≠ d) :
    Covered M c n fun u => (pc u).wake M d := by
  simpa only [Covered, Pc.wake_of_ne _ hne] using h

variable [DecidableEq τ] [DecidableEq κ]

theorem covered_step (hM : Signals M supply) {s s' : State τ σ ι ρ κ} (hs : Step M s ev s')
    (h : ∀ c, Covered M c (supply c s.obj) s.pc) (c : κ) : Covered M c (supply c s'.obj) s'.pc := by
  cases hs with
  | call _ t op hp => exact (h c).update id (by simp [hp]) (.inr (by simp [hp]))
  | wait _ t op w hp hw hr =>
    by_cases hc : M.cv? op = some c
    · simpa [hM.supply_of_unready hw hr hc] using Covered.zero
    · exact (h c).update hc (by simp [hp.pending]) (.inr (by simp [mt hp.serves hc]))
  | finish _ t op acquired hp hmay =>
    cases acquired with
    | true =>
      refine (h c).update id (by simp [hp.pending]) ((hM.body op _ hmay c).imp id fun hone => ?_)
      exact le_trans (by gcongr; exact oneIf_mono hp.serves) hone
    | false =>
      rw [hM.expired op _ hmay]
      obtain ⟨w, hw, -, hr⟩ := hmay
      by_cases hc : M.cv? op = some c
      · simpa [hM.supply_of_unready hw hr hc] using Covered.zero
      · exact (h c).update id (by simp [hp.pending]) (.inr (by simp [mt hp.serves hc]))
  | wake _ t op hp => exact (h c).update id (by simp [hp]) (.inr (by simp [hp]))
  | @notifyOne op' _ _ _ _ t u d hp hu hd =>
    have hne : t ≠ u := by
      rintro rfl
      rw [hp] at hu
      cases hu
    -- the thread woken makes up for the notification issued
    have hwoken : Covered M c (supply c s.obj + oneIf (d = c))
        (Function.update s.pc u (.woken op')) :=
      (h c).update id (by simp [hu]) (.inr (by simp [hu, hd]))
    refine hwoken.update id ?_ (.inr ?_)
    · simp [Function.update_of_ne hne, hp]
    · rw [Function.update_of_ne hne, hp]
      by_cases hd : d = c
      · simp [hd]
      · simp [hd, Ne.symm hd]
  | notifyNone _ t d hp hnone =>
    rcases eq_or_ne c d with rfl | hc
    · exact .of_none (fun u _ => hnone u) id
    · exact (h c).update id (by simp [hp]) (.inr (by simp [hp, hc]))
  | notifyAll _ t d hp =>
    rcases eq_or_ne c d with rfl | hc
    · exact .of_none (fun u _ => (s.pc u).not_waitsOn_wake c) id
    · exact ((h c).wake hc).update id (by simp [hp, hc]) (.inr (by simp [hp]))
  | ret _ t hp => exact (h c).update id (by simp [hp]) (.inr (by simp [hp]))

/-- Nobody waits in vain: once no thread can run on, an object with a waiter
on `c` has nothing to serve there. -/
theorem supply_eq_zero (hM : Signals M supply) {s : State τ σ ι ρ κ}
    (h : (system τ M o).Reachable s) (hq : s.Quiescent) (ht : (s.pc t).waitsOn M c) :
    supply c s.obj = 0 := by
  have hcovered : ∀ c, Covered M c (supply c s.obj) s.pc := by
    refine h.invariant ?_ fun _ _ _ hi hs => covered_step hM hs hi
    rintro _ rfl c ⟨u, hu⟩
    exact hu.elim
  rcases hcovered c ⟨t, ht⟩ with ⟨u, hu⟩ | hn
  · rcases hq u with hp | ⟨op, hp⟩ <;> simp [hp] at hu
  · have hempty : {u | (s.pc u).serves M c} = ∅ := by
      ext u
      rcases hq u with hp | ⟨op, hp⟩ <;> simp [hp]
    simpa [hempty] using hn

end Lib.Monitor
