import SecureTelemetryGateway.Lib.Lts
import Mathlib.Data.List.Nodup
import Mathlib.Logic.Function.Basic

/-!
# The logger

The process has one spdlog logger, behind a static pointer that no lock
guards. Whichever line is logged first fills the pointer in; `init` replaces
what it points to, and sets the new logger up through the pointer afterwards.
The accesses to the pointer are taken one at a time here, and that is no
simplification as long as one thread logs first.
-/

namespace SecureTelemetryGateway.Utils.Logger

open Lib

-- ---------------------------------------------------------------------------
-- Loggers
-- ---------------------------------------------------------------------------

inductive Level
  | trace
  | debug
  | info
  | warn
  | err
  | critical
  deriving DecidableEq

/-- `flush_on(err)`. -/
def Level.flushes : Level → Bool
  | .err | .critical => true
  | _ => false

/-- Below the level that spdlog gives a new logger. -/
def Level.belowInfo : Level → Bool
  | .trace | .debug => true
  | _ => false

structure Line where
  level : Level
  text : String

structure InitArgs where
  loggerName : String := "gateway"
  logFilePath : String := "logs/gateway.log"
  maxFileSizeMb : UInt64 := 10
  maxFiles : UInt64 := 5

/-- `serial` tells one `make_shared` from another. -/
structure SpdLogger where
  serial : Nat
  loggerName : String
  logFilePath : String
  maxBytes : UInt64
  maxFiles : UInt64

def SpdLogger.make (args : InitArgs) (serial : Nat) : SpdLogger where
  serial := serial
  loggerName := args.loggerName
  logFilePath := args.logFilePath
  maxBytes := args.maxFileSizeMb * 1024 * 1024
  maxFiles := args.maxFiles

/-- The name of spdlog's own logger is the empty one. -/
def isRegistered (registry : List SpdLogger) (loggerName : String) : Bool :=
  loggerName = "" || registry.any fun l => l.loggerName = loggerName

-- ---------------------------------------------------------------------------
-- Threads
-- ---------------------------------------------------------------------------

inductive Call
  | init (args : InitArgs)
  | log (line : Line)
  | flush

/-- Where a thread is between two accesses to the pointer. Under `init` it
keeps the line for which `get_logger` called it, if one did. -/
inductive Pc
  | idle
  | getLogger (line : Line)
  | makeSinks (args : InitArgs) (line : Option Line)
  | setLevel (line : Option Line)
  | flushOn (line : Option Line)
  | registerLogger (line : Option Line)
  | write (line : Line)
  | flush

def Call.start : Call → Pc
  | .init args => .makeSinks args none
  | .log line => .getLogger line
  | .flush => .flush

def Pc.afterInit : Option Line → Pc
  | some line => .write line
  | none => .idle

structure State (τ : Type u) where
  loggerInstance : Option SpdLogger := none
  made : Nat := 0
  registry : List SpdLogger := []
  cerr : List String := []
  /-- The loggers that `set_level(trace)` has been called on. -/
  atTrace : List Nat := []
  /-- The loggers that `flush_on(err)` has been called on. -/
  flushing : List Nat := []
  /-- The lines in the buffer of a log file, each with its logger. -/
  unflushed : List (Nat × Line) := []
  pcs : τ → Pc := fun _ => .idle
  crashed : Bool := false

inductive Event (τ : Type u)
  | call (t : τ) (c : Call)
  | found (t : τ)
  | missing (t : τ)
  | sinksThrow (t : τ) (what : String)
  | install (t : τ) (l : SpdLogger)
  | setLevel (t : τ) (l : SpdLogger)
  | flushOn (t : τ) (l : SpdLogger)
  | register (t : τ)
  | registerThrows (t : τ) (what : String)
  | write (t : τ) (line : Line) (l : SpdLogger)
  | drop (t : τ) (line : Line) (l : SpdLogger)
  | crash (t : τ) (line : Line)
  | flush (t : τ)

def Event.thread : Event τ → τ
  | .call t _ | .found t | .missing t | .sinksThrow t _ | .install t _ | .setLevel t _
  | .flushOn t _ | .register t | .registerThrows t _ | .write t _ _ | .drop t _ _ | .crash t _
  | .flush t => t

def failed (what : String) : String := "[CRITICAL] Logger initialization failed: " ++ what

def alreadyExists (loggerName : String) : String :=
  "logger with name '" ++ loggerName ++ "' already exists"

def flushed (l : SpdLogger) (unflushed : List (Nat × Line)) : List (Nat × Line) :=
  unflushed.filter fun line => line.1 ≠ l.serial

/-- A logger that nobody registered goes with the pointer to it, and closes
its file. -/
def released (s : State τ) : List (Nat × Line) :=
  match s.loggerInstance with
  | some old =>
    if s.registry.any fun l => l.serial = old.serial then s.unflushed
    else flushed old s.unflushed
  | none => s.unflushed

def SpdLogger.shouldLog (l : SpdLogger) (s : State τ) (level : Level) : Bool :=
  s.atTrace.contains l.serial || !level.belowInfo

def SpdLogger.shouldFlush (l : SpdLogger) (s : State τ) (level : Level) : Bool :=
  s.flushing.contains l.serial && level.flushes

def written (l : SpdLogger) (line : Line) (s : State τ) : List (Nat × Line) :=
  if l.shouldFlush s line.level then flushed l s.unflushed
  else s.unflushed ++ [(l.serial, line)]

theorem flushed_subset (l : SpdLogger) (unflushed : List (Nat × Line)) :
    flushed l unflushed ⊆ unflushed := List.filter_sublist.subset

theorem released_subset (s : State τ) : released s ⊆ s.unflushed := by
  unfold released
  split
  · split
    · exact List.Subset.refl _
    · exact flushed_subset _ _
  · exact List.Subset.refl _

def Event.installed : Event τ → List SpdLogger
  | .install _ l => [l]
  | _ => []

def Event.atTrace : Event τ → List Nat
  | .setLevel _ l => [l.serial]
  | _ => []

def Event.flushing : Event τ → List Nat
  | .flushOn _ l => [l.serial]
  | _ => []

def Event.failures : Event τ → List String
  | .sinksThrow _ what | .registerThrows _ what => [failed what]
  | _ => []

def installed (es : List (Event τ)) : List SpdLogger := es.flatMap (·.installed)

def atTrace (es : List (Event τ)) : List Nat := es.flatMap (·.atTrace)

def flushing (es : List (Event τ)) : List Nat := es.flatMap (·.flushing)

def failures (es : List (Event τ)) : List String := es.flatMap (·.failures)

@[simp] theorem installed_snoc (es : List (Event τ)) (e : Event τ) :
    installed (es ++ [e]) = installed es ++ e.installed := by simp [installed]

@[simp] theorem atTrace_snoc (es : List (Event τ)) (e : Event τ) :
    atTrace (es ++ [e]) = atTrace es ++ e.atTrace := by simp [atTrace]

@[simp] theorem flushing_snoc (es : List (Event τ)) (e : Event τ) :
    flushing (es ++ [e]) = flushing es ++ e.flushing := by simp [flushing]

@[simp] theorem failures_snoc (es : List (Event τ)) (e : Event τ) :
    failures (es ++ [e]) = failures es ++ e.failures := by simp [failures]

section System

variable {τ : Type u} [DecidableEq τ]

def State.goto (s : State τ) (t : τ) (pc : Pc) : State τ :=
  { s with pcs := Function.update s.pcs t pc }

inductive Step : State τ → Event τ → State τ → Prop
  | call (s : State τ) (t : τ) (c : Call) :
      s.pcs t = .idle → Step s (.call t c) (s.goto t c.start)
  | found (s : State τ) (t : τ) (line : Line) (l : SpdLogger) :
      s.pcs t = .getLogger line → s.loggerInstance = some l →
        Step s (.found t) (s.goto t (.write line))
  | missing (s : State τ) (t : τ) (line : Line) :
      s.pcs t = .getLogger line → s.loggerInstance = none →
        Step s (.missing t) (s.goto t (.makeSinks {} (some line)))
  | sinksThrow (s : State τ) (t : τ) (args : InitArgs) (line : Option Line) (what : String) :
      s.pcs t = .makeSinks args line →
        Step s (.sinksThrow t what)
          ({ s with cerr := s.cerr ++ [failed what] }.goto t (.afterInit line))
  | install (s : State τ) (t : τ) (args : InitArgs) (line : Option Line) :
      s.pcs t = .makeSinks args line →
        Step s (.install t (.make args s.made))
          ({ s with
              loggerInstance := some (.make args s.made)
              made := s.made + 1
              unflushed := released s }.goto t (.setLevel line))
  | setLevel (s : State τ) (t : τ) (line : Option Line) (l : SpdLogger) :
      s.pcs t = .setLevel line → s.loggerInstance = some l →
        Step s (.setLevel t l)
          ({ s with atTrace := s.atTrace ++ [l.serial] }.goto t (.flushOn line))
  | flushOn (s : State τ) (t : τ) (line : Option Line) (l : SpdLogger) :
      s.pcs t = .flushOn line → s.loggerInstance = some l →
        Step s (.flushOn t l)
          ({ s with flushing := s.flushing ++ [l.serial] }.goto t (.registerLogger line))
  | register (s : State τ) (t : τ) (line : Option Line) (l : SpdLogger) :
      s.pcs t = .registerLogger line → s.loggerInstance = some l →
        isRegistered s.registry l.loggerName = false →
          Step s (.register t)
            ({ s with registry := s.registry ++ [l] }.goto t (.afterInit line))
  | registerThrows (s : State τ) (t : τ) (line : Option Line) (l : SpdLogger) :
      s.pcs t = .registerLogger line → s.loggerInstance = some l →
        isRegistered s.registry l.loggerName = true →
          Step s (.registerThrows t (alreadyExists l.loggerName))
            ({ s with cerr := s.cerr ++ [failed (alreadyExists l.loggerName)] }.goto t
              (.afterInit line))
  | write (s : State τ) (t : τ) (line : Line) (l : SpdLogger) :
      s.pcs t = .write line → s.loggerInstance = some l → l.shouldLog s line.level = true →
        Step s (.write t line l) ({ s with unflushed := written l line s }.goto t .idle)
  | drop (s : State τ) (t : τ) (line : Line) (l : SpdLogger) :
      s.pcs t = .write line → s.loggerInstance = some l → l.shouldLog s line.level = false →
        Step s (.drop t line l) (s.goto t .idle)
  | crash (s : State τ) (t : τ) (line : Line) :
      s.pcs t = .write line → s.loggerInstance = none →
        Step s (.crash t line) { s with crashed := true }
  | flush (s : State τ) (t : τ) :
      s.pcs t = .flush →
        Step s (.flush t)
          ({ s with
              unflushed := s.loggerInstance.elim s.unflushed (flushed · s.unflushed) }.goto t
            .idle)

/-- Nothing runs on after a call through the null pointer. -/
def logger (τ : Type u) [DecidableEq τ] : Lts (State τ) (Event τ) where
  init s := s = {}
  step s e s' := s.crashed = false ∧ Step s e s'

-- ---------------------------------------------------------------------------
-- What a run says of the logger
-- ---------------------------------------------------------------------------

variable {es fs : List (Event τ)} {s s' : State τ}

def Event.calls (t : τ) : Event τ → List Call
  | .call u c => if u = t then [c] else []
  | _ => []

def Event.handled (t : τ) : Event τ → List Line
  | .write u line _ | .drop u line _ => if u = t then [line] else []
  | _ => []

def calls (t : τ) (es : List (Event τ)) : List Call := es.flatMap (·.calls t)

def handledBy (t : τ) (es : List (Event τ)) : List Line := es.flatMap (·.handled t)

def Call.args : Call → InitArgs
  | .init args => args
  | _ => {}

def Call.line? : Call → Option Line
  | .log line => some line
  | _ => none

def loggedBy (t : τ) (es : List (Event τ)) : List Line := (calls t es).filterMap Call.line?

def Pc.line? : Pc → Option Line
  | .getLogger line | .write line => some line
  | .makeSinks _ line | .setLevel line | .flushOn line | .registerLogger line => line
  | .idle | .flush => none

def Pc.Serves (c : Option Call) : Pc → Prop
  | .idle => True
  | .makeSinks args line => c.map Call.args = some args ∧ c.bind Call.line? = line
  | pc => c.bind Call.line? = pc.line?

def BufferedBy (es : List (Event τ)) (line : Nat × Line) : Prop :=
  ∃ a t l b, es = a ++ .write t line.2 l :: b ∧ l.serial = line.1 ∧
    (line.2.level.flushes = true → l.serial ∉ flushing a)

structure Accounted (es : List (Event τ)) (s : State τ) : Prop where
  loggerInstance : s.loggerInstance = (installed es).getLast?
  /-- Each logger is made for the call its thread is in. -/
  made : ∀ a t l b, es = a ++ .install t l :: b →
    ∃ c, (calls t a).getLast? = some c ∧ l = .make c.args (installed a).length
  /-- A line goes to the logger installed last before it. -/
  written : ∀ a t line l b, es = a ++ .write t line l :: b → (installed a).getLast? = some l
  /-- That logger drops it only if it is traced or for debugging, and the
  logger's level has not been set yet. -/
  dropped : ∀ a t line l b, es = a ++ .drop t line l :: b →
    (installed a).getLast? = some l ∧ line.level.belowInfo = true ∧ l.serial ∉ atTrace a
  /-- No line of a thread is passed over, repeated or overtaken. -/
  complete : ∀ t, loggedBy t es = handledBy t es ++ (s.pcs t).line?.toList
  registered : ∀ l ∈ s.registry, l ∈ installed es
  oneByName : (s.registry.map (·.loggerName)).Nodup
  cerr : s.cerr = failures es
  /-- Errors are on the disk, but for those a logger has written before it was
  told to flush. -/
  flushed : ∀ line ∈ s.unflushed, BufferedBy es line
  /-- The process dies of its first line, if no logger was ever made. -/
  crashed : s.crashed = true ↔ ∃ a t line, es = a ++ [.crash t line] ∧ installed a = []

-- ---------------------------------------------------------------------------
-- One step
-- ---------------------------------------------------------------------------

@[simp] theorem State.goto_self (s : State τ) (t : τ) (pc : Pc) : (s.goto t pc).pcs t = pc := by
  simp [State.goto]

theorem State.goto_ne (s : State τ) {t u : τ} (pc : Pc) (hne : u ≠ t) :
    (s.goto t pc).pcs u = s.pcs u := by
  simp [State.goto, hne]

@[simp] theorem line?_afterInit (line : Option Line) : (Pc.afterInit line).line? = line := by
  cases line <;> rfl

@[simp] theorem line?_start (c : Call) : c.start.line? = c.line? := by
  cases c <;> rfl

theorem serves_start (c : Call) : c.start.Serves (some c) := by
  cases c with
  | init args => exact ⟨rfl, rfl⟩
  | log line => exact rfl
  | flush => exact rfl

theorem serves_afterInit {c : Option Call} {line : Option Line} (h : c.bind Call.line? = line) :
    (Pc.afterInit line).Serves c := by
  cases line with
  | none => trivial
  | some line => exact h

theorem Step.frame (hs : Step s e s') {u : τ} (hne : u ≠ e.thread) : s'.pcs u = s.pcs u := by
  cases hs with
  | crash => rfl
  | _ => exact State.goto_ne _ _ hne

@[simp] theorem calls_snoc (t : τ) (es : List (Event τ)) (e : Event τ) :
    calls t (es ++ [e]) = calls t es ++ e.calls t := by simp [calls]

@[simp] theorem handledBy_snoc (t : τ) (es : List (Event τ)) (e : Event τ) :
    handledBy t (es ++ [e]) = handledBy t es ++ e.handled t := by simp [handledBy]

@[simp] theorem loggedBy_snoc (t : τ) (es : List (Event τ)) (e : Event τ) :
    loggedBy t (es ++ [e]) = loggedBy t es ++ (e.calls t).filterMap Call.line? := by
  simp [loggedBy]

theorem Event.calls_of_ne {e : Event τ} {t : τ} (hne : t ≠ e.thread) : e.calls t = [] := by
  cases e with
  | call u c => exact if_neg (Ne.symm hne)
  | _ => rfl

theorem Event.handled_of_ne {e : Event τ} {t : τ} (hne : t ≠ e.thread) : e.handled t = [] := by
  cases e with
  | write u line l | drop u line l => exact if_neg (Ne.symm hne)
  | _ => rfl

theorem eq_log_of_line? {c : Option Call} (h : c.bind Call.line? = some line) :
    c = some (.log line) := by
  obtain ⟨c, rfl, hc⟩ := Option.bind_eq_some_iff.mp h
  cases c with
  | log line' => exact congrArg (some ∘ Call.log) (Option.some.inj hc)
  | init args => cases hc
  | flush => cases hc

theorem Step.serves (hs : Step s e s') (h : ∀ t, (s.pcs t).Serves (calls t es).getLast?)
    (u : τ) : (s'.pcs u).Serves (calls u (es ++ [e])).getLast? := by
  rw [calls_snoc]
  by_cases hu : u = e.thread
  · subst hu
    have hu := h e.thread
    cases hs with
    | call t c => simpa [Event.calls, Event.thread] using serves_start c
    | found t line l hpc =>
      rw [Event.thread, hpc] at hu
      simp only [Event.thread, State.goto_self, Event.calls, List.append_nil]
      exact hu
    | missing t line hpc =>
      rw [Event.thread, hpc] at hu
      simp only [Event.thread, State.goto_self, Event.calls, List.append_nil, eq_log_of_line? hu]
      exact ⟨rfl, rfl⟩
    | sinksThrow t args line what hpc =>
      rw [Event.thread, hpc] at hu
      simp only [Event.thread, State.goto_self, Event.calls, List.append_nil]
      exact serves_afterInit hu.2
    | install t args line hpc =>
      rw [Event.thread, hpc] at hu
      simp only [Event.thread, State.goto_self, Event.calls, List.append_nil]
      exact hu.2
    | setLevel t line l hpc | flushOn t line l hpc =>
      rw [Event.thread, hpc] at hu
      simp only [Event.thread, State.goto_self, Event.calls, List.append_nil]
      exact hu
    | register t line l hpc | registerThrows t line l hpc =>
      rw [Event.thread, hpc] at hu
      simp only [Event.thread, State.goto_self, Event.calls, List.append_nil]
      exact serves_afterInit hu
    | crash t line hpc => simpa [Event.calls, Event.thread] using hu
    | write t line l hpc | drop t line l hpc | flush t hpc => simp [Event.thread, Pc.Serves]
  · rw [Event.calls_of_ne hu, List.append_nil, hs.frame hu]
    exact h u

theorem Step.complete (hs : Step s e s')
    (h : ∀ t, loggedBy t es = handledBy t es ++ (s.pcs t).line?.toList) (u : τ) :
    loggedBy u (es ++ [e]) = handledBy u (es ++ [e]) ++ (s'.pcs u).line?.toList := by
  rw [loggedBy_snoc, handledBy_snoc]
  by_cases hu : u = e.thread
  · subst hu
    rw [h]
    cases hs with
    | call t c hpc =>
      rw [Event.thread, State.goto_self, line?_start, hpc]
      cases hc : c.line? <;> simp [Event.calls, Event.handled, Pc.line?, hc]
    | sinksThrow t args line what hpc | register t line l hpc | registerThrows t line l hpc =>
      rw [Event.thread, State.goto_self, line?_afterInit, hpc]
      simp [Event.calls, Event.handled, Pc.line?]
    | found t line l hpc | missing t line hpc | install t args line hpc | setLevel t line l hpc
    | flushOn t line l hpc | write t line l hpc | drop t line l hpc | flush t hpc =>
      rw [Event.thread, State.goto_self, hpc]
      simp [Event.calls, Event.handled, Pc.line?]
    | crash => simp [Event.calls, Event.handled]
  · rw [Event.calls_of_ne hu, Event.handled_of_ne hu, hs.frame hu]
    simpa using h u

theorem Step.installed_eq (hs : Step s e s') (h : s.loggerInstance = (installed es).getLast?)
    (hmade : s.made = (installed es).length) :
    s'.loggerInstance = (installed (es ++ [e])).getLast? ∧
      s'.made = (installed (es ++ [e])).length := by
  rw [installed_snoc]
  cases hs with
  | install t args line hpc => simp [Event.installed, State.goto, hmade]
  | _ => simpa [Event.installed, State.goto] using ⟨h, hmade⟩

theorem Step.cerr_eq (hs : Step s e s') (h : s.cerr = failures es) :
    s'.cerr = failures (es ++ [e]) := by
  rw [failures_snoc]
  cases hs with
  | sinksThrow | registerThrows => exact congrArg (· ++ _) h
  | _ => simpa [Event.failures, State.goto] using h

theorem Step.atTrace_eq (hs : Step s e s') (h : s.atTrace = atTrace es) :
    s'.atTrace = atTrace (es ++ [e]) := by
  rw [atTrace_snoc]
  cases hs with
  | setLevel => exact congrArg (· ++ _) h
  | _ => simpa [Event.atTrace, State.goto] using h

theorem Step.flushing_eq (hs : Step s e s') (h : s.flushing = flushing es) :
    s'.flushing = flushing (es ++ [e]) := by
  rw [flushing_snoc]
  cases hs with
  | flushOn => exact congrArg (· ++ _) h
  | _ => simpa [Event.flushing, State.goto] using h

omit [DecidableEq τ] in
theorem BufferedBy.snoc (h : BufferedBy es line) (e : Event τ) : BufferedBy (es ++ [e]) line := by
  obtain ⟨a, t, l, b, rfl, hl, hflush⟩ := h
  exact ⟨a, t, l, b ++ [e], by simp, hl, hflush⟩

theorem Step.unflushed_cases (hs : Step s e s') (hx : x ∈ s'.unflushed) :
    x ∈ s.unflushed ∨ ∃ t l, e = .write t x.2 l ∧ l.serial = x.1 ∧
      l.shouldFlush s x.2.level = false := by
  cases hs with
  | install t args line hpc => exact .inl (released_subset s hx)
  | write t line l hpc hl hlog =>
    cases hf : l.shouldFlush s line.level with
    | true =>
      simp only [State.goto, Logger.written, hf, ↓reduceIte] at hx
      exact .inl (flushed_subset l _ hx)
    | false =>
      simp only [State.goto, Logger.written, hf, Bool.false_eq_true, ↓reduceIte, List.mem_append,
        List.mem_singleton] at hx
      rcases hx with hx | rfl
      · exact .inl hx
      · exact .inr ⟨t, l, rfl, rfl, hf⟩
  | flush t hpc =>
    cases hl : s.loggerInstance with
    | none =>
      simp only [State.goto, hl, Option.elim_none] at hx
      exact .inl hx
    | some l =>
      simp only [State.goto, hl, Option.elim_some] at hx
      exact .inl (flushed_subset l _ hx)
  | _ => exact .inl hx

theorem Step.flushed (hs : Step s e s') (hflushing : s.flushing = flushing es)
    (h : ∀ line ∈ s.unflushed, BufferedBy es line) :
    ∀ line ∈ s'.unflushed, BufferedBy (es ++ [e]) line := by
  intro x hx
  rcases hs.unflushed_cases hx with hx | ⟨t, l, rfl, hl, hf⟩
  · exact (h x hx).snoc e
  · refine ⟨es, t, l, [], rfl, hl, fun hlevel hmem => ?_⟩
    simp [SpdLogger.shouldFlush, hflushing, hmem, hlevel] at hf

theorem Step.registered (hs : Step s e s') (h : s.loggerInstance = (installed es).getLast?)
    (hr : ∀ l ∈ s.registry, l ∈ installed es) :
    ∀ l ∈ s'.registry, l ∈ installed (es ++ [e]) := by
  rw [installed_snoc]
  cases hs with
  | register t line l hpc hl =>
    intro x hx
    simp only [State.goto, List.mem_append, List.mem_singleton] at hx
    rcases hx with hx | rfl
    · exact List.mem_append_left _ (hr x hx)
    · exact List.mem_append_left _ (List.mem_of_getLast? (h.symm.trans hl))
  | _ => exact fun x hx => List.mem_append_left _ (hr x hx)

theorem not_mem_of_not_isRegistered {registry : List SpdLogger} {loggerName : String}
    (h : isRegistered registry loggerName = false) :
    loggerName ∉ registry.map (·.loggerName) := by
  intro hmem
  obtain ⟨l, hl, rfl⟩ := List.mem_map.mp hmem
  simp only [isRegistered, Bool.or_eq_false_iff, List.any_eq_false] at h
  exact h.2 l hl (by simp)

theorem Step.oneByName (hs : Step s e s') (h : (s.registry.map (·.loggerName)).Nodup) :
    (s'.registry.map (·.loggerName)).Nodup := by
  cases hs with
  | register t line l hpc hl hnew =>
    have hnew := not_mem_of_not_isRegistered hnew
    rw [State.goto, List.map_append, List.map_singleton]
    exact h.append (List.nodup_singleton _) (List.disjoint_singleton.mpr hnew)
  | _ => exact h

-- ---------------------------------------------------------------------------
-- Runs
-- ---------------------------------------------------------------------------

structure Inv (es : List (Event τ)) (s : State τ) : Prop where
  loggerInstance : s.loggerInstance = (installed es).getLast?
  made : s.made = (installed es).length
  serves : ∀ t, (s.pcs t).Serves (calls t es).getLast?
  complete : ∀ t, loggedBy t es = handledBy t es ++ (s.pcs t).line?.toList
  registered : ∀ l ∈ s.registry, l ∈ installed es
  oneByName : (s.registry.map (·.loggerName)).Nodup
  cerr : s.cerr = failures es
  atTrace : s.atTrace = atTrace es
  flushing : s.flushing = flushing es
  flushed : ∀ line ∈ s.unflushed, BufferedBy es line

theorem Inv.init : Inv ([] : List (Event τ)) {} where
  loggerInstance := rfl
  made := rfl
  serves _ := trivial
  complete _ := rfl
  registered _ hl := absurd hl List.not_mem_nil
  oneByName := List.nodup_nil
  cerr := rfl
  atTrace := rfl
  flushing := rfl
  flushed _ hl := absurd hl List.not_mem_nil

theorem Inv.step (h : Inv es s) (hs : Step s e s') : Inv (es ++ [e]) s' where
  loggerInstance := (hs.installed_eq h.loggerInstance h.made).1
  made := (hs.installed_eq h.loggerInstance h.made).2
  serves := hs.serves h.serves
  complete := hs.complete h.complete
  registered := hs.registered h.loggerInstance h.registered
  oneByName := hs.oneByName h.oneByName
  cerr := hs.cerr_eq h.cerr
  atTrace := hs.atTrace_eq h.atTrace
  flushing := hs.flushing_eq h.flushing
  flushed := hs.flushed h.flushing h.flushed

theorem Step.crashed (hs : Step s e s') (h : s.crashed = false) :
    s'.crashed = true ↔ ∃ t line, e = .crash t line := by
  cases hs with
  | crash => simp
  | _ => simp [State.goto, h]

end System

def firstLine : Line := ⟨.info, "Initializing Secure Telemetry Gateway ROS 2 Node..."⟩

end SecureTelemetryGateway.Utils.Logger
