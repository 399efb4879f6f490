import Mymuduo.Library.Halting
import Mymuduo.Log.LogStream
import Mymuduo.Poller.EPollPoller

/-!
# System calls, log statements and the objects they act on

A process makes system calls, which fail as the kernel decides, and executes log
statements, whose file may not open. Everything it does is appended to a trace. The
programs built from these primitives stay sound: as long as the process runs, no call whose
failure the code treats as fatal has failed, and if one fails, only its `LOG_FATAL` follows.
-/

namespace Mymuduo

open Mymuduo.Library

namespace Process

/-- The object that a channel belongs to: an `EventLoop`, an `Acceptor` or a connection. -/
inductive ChannelId
  | wakeup (loop : Nat)
  | accept (acceptor : Nat)
  | connection (conn : Nat)
  deriving DecidableEq, Repr

inductive SystemCall
  | eventfd
  | socket
  | bind (sockfd : Int)
  | listen (sockfd : Int) (backlog : Nat)
  | epoll_ctl (epollfd : Int) (operation : CtlOp) (fd : Int) (ptr : ChannelId) (events : Events)
  | epoll_create1
  | setsockopt (sockfd : Int) (optname : String)
  | close (fd : Int)
  | other (name : String)
  deriving DecidableEq, Repr

/-- The calls after whose failure there is a `LOG_FATAL`. -/
def SystemCall.fatal : SystemCall → Bool
  | .eventfd | .socket | .bind _ | .listen _ _ | .epoll_ctl .. => true
  | .epoll_create1 | .setsockopt _ _ | .close _ | .other _ => false

inductive CallResult
  | ok (fd : Nat)
  | failed (errno : Nat)
  deriving DecidableEq, Repr

def CallResult.isFailed : CallResult → Bool
  | .ok _ => false
  | .failed _ => true

/-- What the call returns: -1 on failure, otherwise a new descriptor or zero. -/
def SystemCall.value (f : SystemCall) : CallResult → Int
  | .failed _ => -1
  | .ok fd =>
    match f with
    | .eventfd | .socket | .epoll_create1 | .other _ => fd
    | .bind _ | .listen _ _ | .epoll_ctl .. | .setsockopt _ _ | .close _ => 0

/-- History: what the process has done. -/
inductive Event
  | call (f : SystemCall) (r : CallResult)
  | log (l : LogStream)
  | store
  deriving DecidableEq, Repr

/-- What a destructor finds when it writes: the time, and whether the file is open. -/
structure Attempt where
  now : String
  is_open : Bool

/-- The outside of the objects: the results of all calls and the outcomes of all log
statements, both unknown to the process in advance, and what it has done so far. -/
structure Environment where
  /-- the result of the n-th system call, counted apart where a failure is fatal -/
  kernel : (fatal : Bool) → Nat → CallResult
  /-- the outcome of the n-th message of a level -/
  sink : LogLevel → Nat → Attempt
  calls : Bool → Nat := fun _ => 0
  logged : LogLevel → Nat := fun _ => 0
  errno : Nat := 0
  logFile : List (String × String) := []
  exited : Bool := false
  trace : List Event := []

structure EventLoop where
  threadId_ : Nat
  wakeupFd_ : Int
  deriving DecidableEq, Repr

structure Acceptor where
  loop_ : Nat
  acceptSocket_ : Int
  listenning_ : Bool
  deriving DecidableEq, Repr

structure Poller where
  epollfd_ : Int := -1
  channels_ : Int → Option ChannelId := fun _ => none

structure OwnedChannel extends Channel where
  loop_ : Nat

/-- The objects, by the numbers that stand for their addresses. -/
structure Objects where
  t_loopInThisThread : Nat → Option Nat := fun _ => none
  loops : Nat → Option EventLoop := fun _ => none
  pollers : Nat → Poller := fun _ => {}
  acceptors : Nat → Option Acceptor := fun _ => none
  connections : Nat → Bool := fun _ => false
  channels : ChannelId → OwnedChannel := fun _ => { fd_ := -1, loop_ := 0 }
  /-- history: the last `EPOLL_CTL_ADD` or `EPOLL_CTL_DEL` of a channel and whether it succeeded -/
  lastCtl : ChannelId → Option (CtlOp × Bool) := fun _ => none

end Process

structure Process where
  env : Process.Environment
  objects : Process.Objects := {}

abbrev Program (α : Type) := Halting Process α

namespace Process

/-! ## Primitives -/

def errno : Program Nat := do
  return (← get).env.errno

/-- A read of the members and variables. -/
def load : Program Objects := do
  return (← get).objects

/-- An assignment to a member or a variable. -/
def store (f : Objects → Objects) : Program Unit :=
  modify fun p =>
    { p with
      env := { p.env with trace := p.env.trace ++ [.store] }
      objects := f p.objects }

/-- The result of the system call that comes now. -/
def Environment.result (f : SystemCall) (env : Environment) : CallResult :=
  env.kernel f.fatal (env.calls f.fatal)

def Environment.called (f : SystemCall) (env : Environment) : Environment :=
  { env with
    calls := Function.update env.calls f.fatal (env.calls f.fatal + 1)
    errno :=
      match env.result f with
      | .ok _ => env.errno
      | .failed e => e
    trace := env.trace ++ [.call f (env.result f)] }

/-- The record that is kept of an `epoll_ctl`. -/
def Objects.recordCtl (operation : CtlOp) (ptr : ChannelId) (succeeded : Bool) (o : Objects) :
    Objects :=
  match operation with
  | .EPOLL_CTL_MOD => o
  | .EPOLL_CTL_ADD | .EPOLL_CTL_DEL =>
    { o with lastCtl := Function.update o.lastCtl ptr (some (operation, succeeded)) }

def Objects.record (f : SystemCall) (succeeded : Bool) (o : Objects) : Objects :=
  match f with
  | .epoll_ctl _ operation _ ptr _ => o.recordCtl operation ptr succeeded
  | _ => o

def call (f : SystemCall) : Program Int := do
  let p ← get
  let result := p.env.result f
  set { p with env := p.env.called f, objects := p.objects.record f (!result.isFailed) }
  return f.value result

/-- What the destructor of the log statement will do. -/
def Environment.destroy (l : LogStream) (env : Environment) : Option (String × String) × Bool :=
  let attempt := env.sink l.logLevel_ (env.logged l.logLevel_)
  l.destroy attempt.now attempt.is_open

def Environment.wrote (l : LogStream) (env : Environment) : Environment :=
  { env with
    logged :=
      if l.ss_.isEmpty then env.logged
      else Function.update env.logged l.logLevel_ (env.logged l.logLevel_ + 1)
    logFile := env.logFile ++ (env.destroy l).1.toList
    exited := (env.destroy l).2
    trace := env.trace ++ [.log l] }

/-- A log statement up to the end of its destructor. -/
def log (l : LogStream) : Program Unit := do
  let p ← get
  set { p with env := p.env.wrote l }
  if (p.env.destroy l).2 then failure

/-! ## Sound processes -/

/-- No call whose failure is treated as fatal has failed. -/
def Clean (trace : List Event) : Prop :=
  ∀ f e, .call f (.failed e) ∈ trace → f.fatal = false

/-- After a failure that is treated as fatal there is one `LOG_FATAL` and nothing else. -/
def StopsAtFatal (trace : List Event) : Prop :=
  ∀ before f e after, trace = before ++ .call f (.failed e) :: after → f.fatal = true →
    ∃ l, after = [.log l] ∧ l.logLevel_ = .FATAL

namespace Environment

/-- The first fatal message will reach the log file, or there is no occasion for one. -/
def Alert (env : Environment) : Prop :=
  ((env.sink .FATAL 0).is_open = true ∧ env.logged .FATAL = 0) ∨
  ∀ n, (env.kernel true n).isFailed = false

structure Sound (env : Environment) : Prop where
  alert : env.Alert
  clean : Clean env.trace
  runs : env.exited = false

/-- A call has just failed, and the code comes to its `LOG_FATAL`. -/
structure Failing (env : Environment) : Prop where
  is_open : (env.sink .FATAL 0).is_open = true
  unused : env.logged .FATAL = 0
  last : ∃ trace f e, Clean trace ∧ env.trace = trace ++ [.call f (.failed e)]

structure Stopped (env : Environment) : Prop where
  exited : env.exited = true
  trace : StopsAtFatal env.trace

end Environment

theorem Clean.append {trace : List Event} {a : Event} (h : Clean trace)
    (ha : ∀ f e, a = .call f (.failed e) → f.fatal = false) : Clean (trace ++ [a]) := by
  intro f e hmem
  rcases List.mem_append.mp hmem with hmem | hmem
  · exact h f e hmem
  · exact ha f e (List.mem_singleton.mp hmem).symm

theorem Clean.stopsAtFatal {trace : List Event} (h : Clean trace) : StopsAtFatal trace := by
  intro before f e after htrace hf
  have hmem : Event.call f (.failed e) ∈ trace := by simp [htrace]
  rw [h f e hmem] at hf
  cases hf

/-- The trace of a process that has done what it should. -/
theorem Clean.stopsAtFatal_failed {trace : List Event} {f : SystemCall} {e : Nat} {l : LogStream}
    (h : Clean trace) (hl : l.logLevel_ = .FATAL) :
    StopsAtFatal (trace ++ [.call f (.failed e), .log l]) := by
  intro before f' e' after htrace hf
  rcases List.append_eq_append_iff.mp htrace with ⟨rest, hbefore, hrest⟩ | ⟨rest, htr, hrest⟩
  · rcases rest with _ | ⟨a, _ | ⟨b, rest⟩⟩
    · obtain ⟨-, rfl⟩ := List.cons.inj hrest
      exact ⟨l, rfl, hl⟩
    · obtain ⟨-, htail⟩ := List.cons.inj hrest
      cases htail
    · have hlen := congrArg List.length hrest
      simp at hlen
  · rcases rest with _ | ⟨a, rest⟩
    · obtain ⟨-, rfl⟩ := List.cons.inj hrest
      exact ⟨l, rfl, hl⟩
    · obtain ⟨rfl, -⟩ := List.cons.inj hrest
      have hmem : Event.call f' (.failed e') ∈ trace := by simp [htr]
      rw [h f' e' hmem] at hf
      cases hf

/-! ## What the primitives keep -/

/-- The process is sound and its objects satisfy `P`. -/
def Runs (P : Objects → Prop) (p : Process) : Prop := p.env.Sound ∧ P p.objects

/-- The program takes a sound process with `P` to one with `Q`, or the process has stopped. -/
def Keeps {α : Type} (P : Objects → Prop) (m : Program α) (Q : α → Objects → Prop) : Prop :=
  Halting.Triple (Runs P) m (fun a => Runs (Q a)) fun p => p.env.Stopped

section Rules

variable {α β : Type} {P P' : Objects → Prop} {Q Q' : α → Objects → Prop} {R : β → Objects → Prop}

theorem Keeps.pure {a : α} (h : ∀ o, P o → Q a o) : Keeps P (pure a) Q := by
  refine Halting.Triple.pure ?_
  rintro s ⟨hs, ho⟩
  exact ⟨hs, h _ ho⟩

theorem Keeps.bind {m : Program α} {k : α → Program β} (hm : Keeps P m Q)
    (hk : ∀ a, Keeps (Q a) (k a) R) : Keeps P (m >>= k) R :=
  Halting.Triple.bind hm hk

theorem Keeps.ite {c : Prop} [Decidable c] {m m' : Program α} (hpos : c → Keeps P m Q)
    (hneg : ¬ c → Keeps P m' Q) : Keeps P (if c then m else m') Q :=
  Halting.Triple.ite hpos hneg

theorem Keeps.weaken {m : Program α} (h : Keeps P' m Q') (hP : ∀ o, P o → P' o)
    (hQ : ∀ a o, Q' a o → Q a o) : Keeps P m Q := by
  refine Halting.Triple.weaken h ?_ ?_
  · rintro s ⟨hs, ho⟩
    exact ⟨hs, hP _ ho⟩
  · rintro a s ⟨hs, ho⟩
    exact ⟨hs, hQ a _ ho⟩

theorem Keeps.load {k : Objects → Program β} (h : ∀ o, P o → Keeps (fun o' => o' = o) (k o) R) :
    Keeps P (load >>= k) R := by
  rintro s ⟨hs, ho⟩
  exact h s.objects ho s ⟨hs, rfl⟩

/-- After a read the objects are still the ones that were read. -/
theorem Keeps.again {m : Program α} {o : Objects} (h : Keeps P m Q) (ho : P o) :
    Keeps (fun o' => o' = o) m Q := by
  refine Keeps.weaken h ?_ fun _ _ hq => hq
  rintro _ rfl
  exact ho

theorem Keeps.store {f : Objects → Objects} {Q : Unit → Objects → Prop}
    (h : ∀ o, P o → Q () (f o)) : Keeps P (store f) Q := by
  refine Halting.Triple.modify ?_
  rintro s ⟨hs, ho⟩
  exact ⟨⟨hs.alert, hs.clean.append (by simp), hs.runs⟩, h _ ho⟩

end Rules

theorem Environment.Alert.wrote {env : Environment} {l : LogStream} (h : env.Alert)
    (hstays : (env.destroy l).2 = false) : (env.wrote l).Alert := by
  rcases h with ⟨hopen, hunused⟩ | hok
  · refine .inl ⟨hopen, ?_⟩
    simp only [Environment.wrote]
    cases hss : l.ss_.isEmpty
    · have hlevel : LogLevel.FATAL ≠ l.logLevel_ := by
        intro hl
        have hexit : (env.destroy l).2 = true :=
          LogStream.destroy_exits.mpr ⟨hl.symm, hss, by rw [← hl, hunused]; exact hopen⟩
        rw [hexit] at hstays
        cases hstays
      simp [Function.update_of_ne hlevel, hunused]
    · simpa using hunused
  · exact .inr hok

theorem log_result (l : LogStream) (p : Process) : (log l).result p =
    (if (p.env.destroy l).2 then none else some (), { p with env := p.env.wrote l }) := by
  simp only [log, Halting.result_bind, Halting.result_get, Halting.result_set]
  split
  · rfl
  · rfl

theorem call_result (f : SystemCall) (p : Process) :
    (call f).result p =
      (some (f.value (p.env.result f)),
        { env := p.env.called f, objects := p.objects.record f (!(p.env.result f).isFailed) }) := by
  simp only [call, Halting.result_bind, Halting.result_get, Halting.result_set,
    Halting.result_pure]

/-- A log statement in a sound process, of whichever level. -/
theorem keeps_log (l : LogStream) {P : Objects → Prop} : Keeps P (log l) fun _ => P := by
  rintro s ⟨hs, ho⟩
  rw [log_result]
  have hclean : Clean (s.env.trace ++ [.log l]) := hs.clean.append (by simp)
  cases hexit : (s.env.destroy l).2
  · exact ⟨⟨hs.alert.wrote hexit, hclean, hexit⟩, ho⟩
  · exact ⟨hexit, hclean.stopsAtFatal⟩

/-- The `LOG_FATAL` after a failure ends the process. -/
theorem fatal_stops {l : LogStream} (hl : l.logLevel_ = .FATAL) (hss : l.ss_.isEmpty = false)
    {R : Unit → Process → Prop} :
    Halting.Triple (fun p => p.env.Failing) (log l) R fun p => p.env.Stopped := by
  intro s hs
  obtain ⟨trace, f, e, hclean, htrace⟩ := hs.last
  have hexit : (s.env.destroy l).2 = true :=
    LogStream.destroy_exits.mpr ⟨hl, hss, by rw [hl, hs.unused]; exact hs.is_open⟩
  rw [log_result, if_pos hexit]
  refine ⟨hexit, ?_⟩
  have hwrote : (s.env.wrote l).trace = trace ++ [.call f (.failed e), .log l] := by
    simp [Environment.wrote, htrace]
  show StopsAtFatal (s.env.wrote l).trace
  rw [hwrote]
  exact hclean.stopsAtFatal_failed hl

/-- `errno` is read for a message. -/
theorem read_errno {α : Type} {k : Nat → Program α} {P E : Process → Prop} {R : α → Process → Prop}
    (h : ∀ e, Halting.Triple P (k e) R E) : Halting.Triple P (errno >>= k) R E := by
  intro s hs
  exact h s.env.errno s hs

/-- A call whose failure is not treated as fatal. -/
theorem keeps_call {f : SystemCall} (hf : f.fatal = false) {P : Objects → Prop} :
    Keeps P (call f) fun _ => P := by
  rintro s ⟨hs, ho⟩
  rw [call_result]
  have hrecord : s.objects.record f (!(s.env.result f).isFailed) = s.objects := by
    cases f <;> first | rfl | cases hf
  refine ⟨⟨hs.alert, hs.clean.append ?_, hs.runs⟩, ?_⟩
  · rintro g e heq
    obtain ⟨rfl, -⟩ := Event.call.inj heq
    exact hf
  · rw [hrecord]
    exact ho

/-- A call whose failure is treated as fatal either succeeds, or it leaves the process
before its `LOG_FATAL`. -/
theorem checked_call {f : SystemCall} (hf : f.fatal = true) {P : Objects → Prop} :
    Halting.Triple (Runs P) (call f)
      (fun r p =>
        ((∃ fd, r = f.value (.ok fd)) ∧
          Runs (fun o => ∃ o', P o' ∧ o = o'.record f true) p) ∨
        (r = -1 ∧ p.env.Failing))
      fun p => p.env.Stopped := by
  rintro s ⟨hs, ho⟩
  rw [call_result]
  cases hres : s.env.result f with
  | ok fd =>
    refine .inl ⟨⟨fd, rfl⟩, ⟨hs.alert, hs.clean.append ?_, hs.runs⟩, s.objects, ho, rfl⟩
    intro g e heq
    rw [hres] at heq
    cases heq
  | failed e =>
    refine .inr ⟨rfl, ?_⟩
    rcases hs.alert with ⟨hopen, hunused⟩ | hok
    · exact ⟨hopen, hunused, s.env.trace, f, e, hs.clean, by simp [Environment.called, hres]⟩
    · have hbad := hok (s.env.calls f.fatal)
      rw [← hf] at hbad
      rw [show s.env.kernel f.fatal (s.env.calls f.fatal) = .failed e from hres] at hbad
      cases hbad

/-- The rule for a call with a check of its result. -/
theorem Keeps.checked {α : Type} {f : SystemCall} (hf : f.fatal = true) {k : Int → Program α}
    {P : Objects → Prop} {Q : α → Objects → Prop}
    (hgood : ∀ fd, Keeps (fun o => ∃ o', P o' ∧ o = o'.record f true) (k (f.value (.ok fd))) Q)
    (hbad : Halting.Triple (fun p => p.env.Failing) (k (-1)) (fun a => Runs (Q a))
      fun p => p.env.Stopped) :
    Keeps P (call f >>= k) Q := by
  refine Halting.Triple.bind (checked_call hf) ?_
  intro r
  refine Halting.Triple.cases (Halting.Triple.assume ?_) (Halting.Triple.assume ?_)
  · rintro ⟨fd, rfl⟩
    exact hgood fd
  · rintro rfl
    exact hbad

end Process

end Mymuduo
