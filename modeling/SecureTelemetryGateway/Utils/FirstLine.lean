import SecureTelemetryGateway.Utils.Logger

/-!
# The first line logged

Nothing orders the threads' accesses to the logger's pointer but the order in
which they start. A thread that has logged a line before any other thread logs,
as the one that starts the others does in both programs, leaves a pointer that
is only read from then on, and a logger that is set up.
-/

namespace SecureTelemetryGateway.Utils.Logger

open Lib

def Pc.Writes : Pc → Prop
  | .makeSinks _ _ => True
  | _ => False

def Pc.Settled : Pc → Prop
  | .makeSinks _ _ | .setLevel _ | .flushOn _ | .registerLogger _ => False
  | _ => True

def Event.CallsInit : Event τ → Prop
  | .call _ (.init _) => True
  | _ => False

section System

variable {τ : Type u} {es : List (Event τ)} {s s' : State τ} {l : SpdLogger}

/-- Two threads are in calls, and the one will write what the other reads. -/
def Conflict (s : State τ) : Prop := ∃ t u, t ≠ u ∧ (s.pcs t).Writes ∧ s.pcs u ≠ .idle

def SetUp (s : State τ) : Prop :=
  ∀ l, s.loggerInstance = some l → l.serial ∈ s.atTrace ∧ l.serial ∈ s.flushing

def ErrorsOnDisk (s : State τ) : Prop := ∀ line ∈ s.unflushed, line.2.level.flushes = false

/-- How far `init` has got with the logger it has put behind the pointer. -/
def Pc.HasSetUp (s : State τ) : Pc → Prop
  | .setLevel _ => True
  | .flushOn _ => ∀ l, s.loggerInstance = some l → l.serial ∈ s.atTrace
  | _ => SetUp s

structure Alone (p : τ) (s : State τ) : Prop where
  idle : ∀ u, u ≠ p → s.pcs u = .idle
  hasSetUp : (s.pcs p).HasSetUp s
  errorsOnDisk : ErrorsOnDisk s

structure Settled (l : SpdLogger) (s : State τ) : Prop where
  loggerInstance : s.loggerInstance = some l
  setUp : SetUp s
  pcs : ∀ t, (s.pcs t).Settled
  alive : s.crashed = false
  errorsOnDisk : ErrorsOnDisk s

theorem not_conflict_of_idle (h : ∀ u, u ≠ p → s.pcs u = .idle) : ¬Conflict s := by
  rintro ⟨t, u, hne, ht, hu⟩
  have hu₀ : u = p := Classical.byContradiction fun hu' => hu (h u hu')
  rw [h t (hu₀ ▸ hne)] at ht
  exact ht

theorem Settled.not_conflict (h : Settled l s) : ¬Conflict s := by
  rintro ⟨t, u, -, ht, -⟩
  have hpc := h.pcs t
  cases hp : s.pcs t with
  | makeSinks args line =>
    rw [hp] at hpc
    exact hpc
  | _ =>
    rw [hp] at ht
    exact ht

theorem Alone.setUp (h : Alone p s) (t : τ) (line : Line) (hpc : s.pcs t = .write line) :
    SetUp s := by
  have ht : t = p := Classical.byContradiction fun hne => by
    rw [h.idle t hne] at hpc
    cases hpc
  have hsetUp := h.hasSetUp
  rw [← ht, hpc] at hsetUp
  exact hsetUp

theorem Settled.buffer (h : Settled l s) (herrors : ErrorsOnDisk { s with unflushed := lines }) :
    Settled l { s with unflushed := lines } :=
  ⟨h.loggerInstance, h.setUp, h.pcs, h.alive, herrors⟩

variable [DecidableEq τ]

structure Published (l : SpdLogger) (a b : List (Event τ)) (s : State τ) : Prop where
  /-- Nobody races for the pointer, so that nothing is lost by taking the
  accesses one at a time. -/
  quiet : ∀ c d u, a ++ b = c ++ d → (logger τ).Trace c u → ¬Conflict u
  loggerInstance : s.loggerInstance = some l
  nothingMade : installed b = []
  nothingFails : failures b = []
  written : ∀ t line l', .write t line l' ∈ b → l' = l
  nothingDropped : ∀ t line l', .drop t line l' ∉ a ++ b
  errorsOnDisk : ErrorsOnDisk s
  alive : s.crashed = false

theorem Step.kept (hs : Step s e s') (hsetUp : ∀ t line, s.pcs t = .write line → SetUp s)
    (h : ErrorsOnDisk s) : ErrorsOnDisk s' ∧ ∀ t line l, e ≠ .drop t line l := by
  constructor
  · intro x hx
    rcases hs.unflushed_cases hx with hx | ⟨t, l, rfl, -, hf⟩
    · exact h x hx
    · cases hs with
      | write t line l hpc hl hlog =>
        simpa [SpdLogger.shouldFlush, (hsetUp t _ hpc l hl).2] using hf
  · rintro t line l rfl
    cases hs with
    | drop t line l hpc hl hlog =>
      simp [SpdLogger.shouldLog, (hsetUp t line hpc l hl).1] at hlog

theorem Alone.step (h : Alone p s) (hs : Step s e s') (he : e.thread = p) :
    Alone p s' ∧ ∀ t line l, e ≠ .drop t line l := by
  obtain ⟨herrors, hdrop⟩ := hs.kept h.setUp h.errorsOnDisk
  refine ⟨⟨fun u hu => (hs.frame (he ▸ hu)).trans (h.idle u hu), ?_, herrors⟩, hdrop⟩
  have hin := h.hasSetUp
  subst he
  cases hs with
  | call t c hpc =>
    rw [Event.thread, hpc] at hin
    rw [Event.thread, State.goto_self]
    cases c <;> exact hin
  | found t line l hpc | missing t line hpc | write t line l hpc | drop t line l hpc
  | flush t hpc =>
    rw [Event.thread, hpc] at hin
    rw [Event.thread, State.goto_self]
    exact hin
  | sinksThrow t args line what hpc | register t line l hpc | registerThrows t line l hpc =>
    rw [Event.thread, hpc] at hin
    rw [Event.thread, State.goto_self]
    cases line <;> exact hin
  | install t args line hpc =>
    rw [Event.thread, State.goto_self]
    trivial
  | setLevel t line l hpc hl =>
    rw [Event.thread, State.goto_self]
    intro l' hl'
    obtain rfl : l = l' := Option.some.inj (hl.symm.trans hl')
    simp [State.goto]
  | flushOn t line l hpc hl =>
    rw [Event.thread, hpc] at hin
    rw [Event.thread, State.goto_self]
    intro l' hl'
    obtain rfl : l = l' := Option.some.inj (hl.symm.trans hl')
    exact ⟨hin l hl, by simp [State.goto]⟩
  | crash t line hpc => exact hin

theorem alone_of_trace (h : (logger τ).Trace es s) (halone : ∀ e ∈ es, e.thread = p) :
    Alone p s ∧ ∀ t line l, .drop t line l ∉ es := by
  refine h.invariant (I := fun es s => (∀ e ∈ es, e.thread = p) →
    Alone p s ∧ ∀ t line l, .drop t line l ∉ es) ?_ ?_ halone
  · rintro _ rfl -
    exact ⟨⟨fun _ _ => rfl, nofun, nofun⟩, nofun⟩
  · intro es s e s' ih hs halone
    obtain ⟨hs₀, hes⟩ := ih fun e' he' => halone e' (List.mem_append_left _ he')
    obtain ⟨hs', he⟩ := hs₀.step hs.2 (halone e (by simp))
    refine ⟨hs', fun t line l hmem => ?_⟩
    rcases List.mem_append.mp hmem with hmem | hmem
    · exact hes t line l hmem
    · exact he t line l (List.mem_singleton.mp hmem).symm

theorem Settled.goto (h : Settled l s) (t : τ) (pc : Pc) (hpc : pc.Settled) :
    Settled l (s.goto t pc) where
  loggerInstance := h.loggerInstance
  setUp := h.setUp
  pcs u := by
    by_cases hu : u = t
    · subst hu
      rw [State.goto_self]
      exact hpc
    · rw [State.goto_ne _ _ hu]
      exact h.pcs u
  alive := h.alive
  errorsOnDisk := h.errorsOnDisk

theorem Settled.step (h : Settled l s) (hs : Step s e s') (he : ¬e.CallsInit) :
    Settled l s' ∧ e.installed = [] ∧ e.failures = [] ∧
      (∀ t line l', e = .write t line l' → l' = l) ∧ ∀ t line l', e ≠ .drop t line l' := by
  obtain ⟨herrors, hdrop⟩ := hs.kept (fun _ _ _ => h.setUp) h.errorsOnDisk
  have hin := h.pcs e.thread
  cases hs with
  | call t c hpc =>
    refine ⟨h.goto t c.start ?_, rfl, rfl, by simp, hdrop⟩
    cases c with
    | init args => exact absurd trivial he
    | log line => trivial
    | flush => trivial
  | found t line l' hpc hl => exact ⟨h.goto t (.write line) trivial, rfl, rfl, by simp, hdrop⟩
  | missing t line hpc hl =>
    rw [h.loggerInstance] at hl
    cases hl
  | sinksThrow t args line what hpc | install t args line hpc | setLevel t line l' hpc
  | flushOn t line l' hpc | register t line l' hpc | registerThrows t line l' hpc =>
    rw [Event.thread, hpc] at hin
    exact hin.elim
  | write t line l' hpc hl =>
    refine ⟨(h.buffer herrors).goto t .idle trivial, rfl, rfl, ?_, hdrop⟩
    rintro _ _ _ ⟨⟩
    exact Option.some.inj (hl.symm.trans h.loggerInstance)
  | drop t line l' => exact absurd rfl (hdrop t line l')
  | crash t line hpc hl =>
    rw [h.loggerInstance] at hl
    cases hl
  | flush t hpc => exact ⟨(h.buffer herrors).goto t .idle trivial, rfl, rfl, by simp, hdrop⟩

theorem Settled.run (h : Settled l s) (hr : (logger τ).Run s es s')
    (hinit : ∀ e ∈ es, ¬e.CallsInit) :
    Settled l s' ∧ installed es = [] ∧ failures es = [] ∧
      (∀ t line l', .write t line l' ∈ es → l' = l) ∧ ∀ t line l', .drop t line l' ∉ es := by
  induction hr with
  | nil => exact ⟨h, rfl, rfl, nofun, nofun⟩
  | @snoc es u e s' _ hs ih =>
    obtain ⟨hu, hinst, hfail, hwritten, hdrop⟩ :=
      ih fun e' he' => hinit e' (List.mem_append_left _ he')
    obtain ⟨hs', hinst', hfail', hwritten', hdrop'⟩ := hu.step hs.2 (hinit e (by simp))
    refine ⟨hs', by simp [hinst, hinst'], by simp [hfail, hfail'], fun t line l' hmem => ?_,
      fun t line l' hmem => ?_⟩
    · rcases List.mem_append.mp hmem with hmem | hmem
      · exact hwritten t line l' hmem
      · exact hwritten' t line l' (List.mem_singleton.mp hmem).symm
    · rcases List.mem_append.mp hmem with hmem | hmem
      · exact hdrop t line l' hmem
      · exact hdrop' t line l' (List.mem_singleton.mp hmem).symm

theorem settled_of_alone (h : (logger τ).Trace (a ++ [.write p line l]) s)
    (halone : ∀ e ∈ a, e.thread = p) :
    Settled l s ∧ ∀ t line' l', .drop t line' l' ∉ a ++ [.write p line l] := by
  obtain ⟨hs', hdrop⟩ := alone_of_trace (p := p) h (by
    intro e he
    rcases List.mem_append.mp he with he | he
    · exact halone e he
    · exact List.mem_singleton.mp he ▸ rfl)
  obtain ⟨u, u', ha, ⟨halive, hs⟩, hr⟩ := h.at_step
  cases hr.nil_inv
  have hu := (alone_of_trace (p := p) ha halone).1
  refine ⟨?_, hdrop⟩
  cases hs with
  | write t line l hpc hl =>
    refine ⟨hl, hu.setUp p line hpc, fun v => ?_, halive, hs'.errorsOnDisk⟩
    by_cases hv : v = p
    · subst hv
      rw [State.goto_self]
      trivial
    · rw [hs'.idle v hv]
      trivial

theorem publishedSafely (h : (logger τ).Trace ((a ++ [.write p line l]) ++ b) s)
    (halone : ∀ e ∈ a, e.thread = p) (hinit : ∀ e ∈ b, ¬e.CallsInit) :
    Published l (a ++ [.write p line l]) b s := by
  obtain ⟨s₀, h₀, hr⟩ := h
  obtain ⟨u, hu, hb⟩ := hr.split rfl
  obtain ⟨hsettled, hdrop⟩ := settled_of_alone ⟨s₀, h₀, hu⟩ halone
  obtain ⟨hs, hinst, hfail, hwritten, hdrop'⟩ := hsettled.run hb hinit
  refine ⟨?_, hs.loggerInstance, hinst, hfail, hwritten, fun t line' l' hmem => ?_,
    hs.errorsOnDisk, hs.alive⟩
  · intro c d v hcd hc
    rcases List.append_eq_append_iff.mp hcd with ⟨c', rfl, rfl⟩ | ⟨d', hd, -⟩
    · obtain ⟨s₁, h₁, hr₁⟩ := hc
      obtain ⟨w, hw, hc'⟩ := hr₁.split rfl
      have hw := (settled_of_alone ⟨s₁, h₁, hw⟩ halone).1
      exact (hw.run hc' fun e he => hinit e (List.mem_append_left _ he)).1.not_conflict
    · refine not_conflict_of_idle (alone_of_trace (p := p) hc fun e he => ?_).1.idle
      have hmem : e ∈ a ++ [.write p line l] := hd ▸ List.mem_append_left _ he
      rcases List.mem_append.mp hmem with hmem | hmem
      · exact halone e hmem
      · exact List.mem_singleton.mp hmem ▸ rfl
  · rcases List.mem_append.mp hmem with hmem | hmem
    · exact hdrop t line' l' hmem
    · exact hdrop' t line' l' hmem

/-- Before that, any two threads that log may race. -/
theorem exists_conflict (hi : s.loggerInstance = none) (halive : s.crashed = false) (hne : t ≠ u)
    (ht : s.pcs t = .idle) (hu : s.pcs u = .idle) (line line' : Line) :
    ∃ s', (logger τ).Run s [.call t (.log line), .missing t, .call u (.log line')] s' ∧
      Conflict s' := by
  refine ⟨_, .cons ⟨halive, .call s t (.log line) ht⟩ <|
    .cons ⟨halive, .missing _ t line (State.goto_self ..) hi⟩ <|
      .single ⟨halive, .call _ u (.log line') ?_⟩, t, u, hne, ?_, ?_⟩
  · rw [State.goto_ne _ _ hne.symm, State.goto_ne _ _ hne.symm, hu]
  · rw [State.goto_ne _ _ hne, State.goto_self]
    trivial
  · rw [State.goto_self]
    nofun

end System

def workerLine : Line := ⟨.info, "Gateway worker thread running..."⟩

/-- The constructor of the node logs before it starts the worker. -/
theorem publishedSafely_worker :
    ∃ s : State Bool, Published (.make {} 0)
      [.call true (.log firstLine), .missing true, .install true (.make {} 0),
        .setLevel true (.make {} 0), .flushOn true (.make {} 0), .register true,
        .write true firstLine (.make {} 0)]
      [.call false (.log workerLine), .found false,
        .write false workerLine (.make {} 0)] s := by
  refine ⟨_, publishedSafely (p := true) (a := [.call true (.log firstLine), .missing true,
    .install true (.make {} 0), .setLevel true (.make {} 0), .flushOn true (.make {} 0),
    .register true]) ⟨_, rfl,
      .cons ⟨rfl, .call _ true _ rfl⟩ <| .cons ⟨rfl, .missing _ true firstLine rfl rfl⟩ <|
        .cons ⟨rfl, .install _ true {} (some firstLine) rfl⟩ <|
          .cons ⟨rfl, .setLevel _ true (some firstLine) _ rfl rfl⟩ <|
            .cons ⟨rfl, .flushOn _ true (some firstLine) _ rfl rfl⟩ <|
              .cons ⟨rfl, .register _ true (some firstLine) _ rfl rfl (by simp [isRegistered,
                SpdLogger.make, State.goto])⟩ <|
                .cons ⟨rfl, .write _ true firstLine _ rfl rfl rfl⟩ <|
                  .cons ⟨rfl, .call _ false _ rfl⟩ <|
                    .cons ⟨rfl, .found _ false workerLine _ rfl rfl⟩ <|
                      .single ⟨rfl, .write _ false workerLine _ rfl rfl rfl⟩⟩ ?_ ?_⟩
  · simp [Event.thread]
  · simp [Event.CallsInit]

end SecureTelemetryGateway.Utils.Logger
