import Mathlib.Data.Nat.Find
import Mymuduo.Library.Execution
import Mymuduo.Process.Soundness

/-!
# Fatal errors

A `LOG_FATAL` ends the process at the end of its destructor, unless the log file cannot be
opened. So a failure that the code treats as fatal stops every run exactly where the file
opens for the first fatal message, or none of these calls fails.

An operation is one function of the source, executed by the thread that its objects belong
to. The operations of different threads come in any order.
-/

namespace Mymuduo.Process

open Mymuduo.Library
open Mymuduo.Library.Execution
open Objects

/-! ## Runs of the process -/

/-- What the process can do next. The last two stand for all other code. -/
inductive Op
  | newEventLoop (loop tid : Nat)
  | deleteEventLoop (loop tid : Nat)
  | newAcceptor (acceptor loop : Nat)
  | listen (acceptor : Nat)
  | deleteAcceptor (acceptor : Nat)
  | newConnection (conn loop : Nat) (sockfd : Int)
  | channelOp (op : ChannelOp) (conn : Nat)
  | deleteConnection (conn : Nat)
  | call (f : SystemCall)
  | log (l : LogStream)
  deriving DecidableEq, Repr

namespace Op

def program : Op → Program Unit
  | .newEventLoop loop tid => Process.newEventLoop loop tid
  | .deleteEventLoop loop tid => Process.deleteEventLoop loop tid
  | .newAcceptor acceptor loop => Process.newAcceptor acceptor loop
  | .listen acceptor => acceptorListen acceptor
  | .deleteAcceptor acceptor => Process.deleteAcceptor acceptor
  | .newConnection conn loop sockfd => do
    store (Objects.setConnection conn true)
    store (Objects.newChannel (.connection conn) loop sockfd)
  | .channelOp op conn => Process.channelOp op (.connection conn)
  | .deleteConnection conn => store (Objects.setConnection conn false)
  | .call f => do
    let _ ← Process.call f
  | .log l => Process.log l

/-- An object is constructed at a free address, and its methods are called while it and
its loop live. Every call whose check ends in a `LOG_FATAL` is in a function above. -/
def enabled (o : Objects) : Op → Bool
  | .newEventLoop loop _ => (o.loops loop).isNone
  | .deleteEventLoop loop _ => (o.loops loop).isSome
  | .newAcceptor acceptor _ => (o.acceptors acceptor).isNone
  | .listen acceptor | .deleteAcceptor acceptor =>
    (o.acceptors acceptor).any fun a => (o.loops a.loop_).isSome
  | .newConnection conn _ _ => !o.connections conn
  | .channelOp _ conn =>
    o.connections conn && (o.loops (o.channels (.connection conn)).loop_).isSome
  | .deleteConnection conn => o.connections conn
  | .call f => !f.fatal
  | .log _ => true

end Op

def start (kernel : Bool → Nat → CallResult) (sink : LogLevel → Nat → Attempt) : Process :=
  { env := { kernel := kernel, sink := sink } }

/-- One operation up to its end, or up to the end of the process. -/
def step (p : Process) (op : Op) : Option Process :=
  if p.env.exited then none
  else if op.enabled p.objects then some (op.program.result p).2
  else none

theorem keeps_program {op : Op} {o : Objects} (h : op.enabled o = true) :
    Keeps Sane op.program fun _ => Sane := by
  cases op with
  | newEventLoop loop tid => exact keeps_newEventLoop loop tid
  | deleteEventLoop loop tid => exact keeps_deleteEventLoop loop tid
  | newAcceptor acceptor loop => exact keeps_newAcceptor acceptor loop
  | listen acceptor => exact keeps_acceptorListen acceptor
  | deleteAcceptor acceptor => exact keeps_deleteAcceptor acceptor
  | newConnection conn loop sockfd =>
    refine Keeps.bind (Q := fun _ => Sane) (Keeps.store ?_) fun _ => Keeps.store ?_
    · exact fun o ho => ho.congr rfl rfl rfl rfl
    · exact fun o ho => ho.newChannel _ _ _
  | channelOp op conn => exact keeps_channelOp op _
  | deleteConnection conn => exact Keeps.store fun o ho => ho.congr rfl rfl rfl rfl
  | call f =>
    have hf : f.fatal = false := by simpa [Op.enabled] using h
    exact Keeps.bind (keeps_call hf) fun _ => Keeps.pure fun _ h => h
  | log l => exact keeps_log l

/-- A fatal error has really stopped the process, and while it runs, nothing works with the
result of a call that failed. -/
structure FatalStops (p : Process) : Prop where
  stopped : ∀ before f e after, p.env.trace = before ++ .call f (.failed e) :: after →
    f.fatal = true → p.env.exited = true ∧ ∃ l, after = [.log l] ∧ l.logLevel_ = .FATAL
  loops : p.env.exited = false → ∀ ℓ l, p.objects.loops ℓ = some l → l.wakeupFd_ ≠ -1
  acceptors : p.env.exited = false →
    ∀ n a, p.objects.acceptors n = some a → a.acceptSocket_ ≠ -1
  added : p.env.exited = false → ∀ ch, (p.objects.channels ch).index_ = .kAdded →
    p.objects.lastCtl ch = some (.EPOLL_CTL_ADD, true)
  deleted : p.env.exited = false → ∀ ch, (p.objects.channels ch).index_ = .kDeleted →
    p.objects.lastCtl ch = some (.EPOLL_CTL_DEL, true)

theorem Runs.fatalStops {p : Process} (h : Runs Sane p) : FatalStops p where
  stopped before f e after htrace hf := by
    have hmem : Event.call f (.failed e) ∈ p.env.trace := by simp [htrace]
    rw [h.1.clean f e hmem] at hf
    cases hf
  loops _ ℓ l hl := by
    have hfd := h.2.loops ℓ l hl
    omega
  acceptors _ n a ha := by
    have hfd := h.2.acceptors n a ha
    omega
  added _ ch := (h.2.registered ch).added
  deleted _ ch := (h.2.registered ch).deleted

theorem Environment.Stopped.fatalStops {p : Process} (h : p.env.Stopped) : FatalStops p where
  stopped before f e after htrace hf := ⟨h.exited, h.trace before f e after htrace hf⟩
  loops hruns := by rw [h.exited] at hruns; cases hruns
  acceptors hruns := by rw [h.exited] at hruns; cases hruns
  added hruns := by rw [h.exited] at hruns; cases hruns
  deleted hruns := by rw [h.exited] at hruns; cases hruns

/-- An operation that is enabled takes the process where its program's triple says. -/
theorem step_triple {p : Process} {op : Op} (hruns : p.env.exited = false)
    (hen : op.enabled p.objects = true) {P E : Process → Prop} {Q : Unit → Process → Prop}
    (h : Halting.Triple P op.program Q E) (hp : P p) :
    ∃ p', step p op = some p' ∧ (Q () p' ∨ E p') := by
  refine ⟨(op.program.result p).2, ?_, ?_⟩
  · rw [step, hruns, if_neg Bool.false_ne_true, if_pos hen]
  · have hres := h p hp
    rcases hprog : op.program.result p with ⟨_ | _, p'⟩
    · rw [hprog] at hres
      exact .inr hres
    · rw [hprog] at hres
      exact .inl hres

/-- Every step of a sound process leads to a sound process or stops it. -/
theorem step_sound {p p' : Process} {op : Op} (hp : Runs Sane p) (h : step p op = some p') :
    Runs Sane p' ∨ p'.env.Stopped := by
  cases hen : op.enabled p.objects
  · rw [step, hp.1.runs, if_neg Bool.false_ne_true, hen] at h
    cases h
  · obtain ⟨q, hq, hres⟩ := step_triple hp.1.runs hen (keeps_program hen) hp
    rw [h] at hq
    obtain rfl := Option.some.inj hq
    exact hres

theorem run_sound {p p' : Process} {ops : List Op} (hp : Runs Sane p)
    (h : exec step p ops = some p') : Runs Sane p' ∨ p'.env.Stopped := by
  refine exec_preserves (fun p => Runs Sane p ∨ p.env.Stopped) ?_ (.inl hp) h
  rintro s op s' (hs | hs) hstep
  · exact step_sound hs hstep
  · rw [step, hs.exited, if_pos rfl] at hstep
    cases hstep

theorem sane_start : Sane ({} : Objects) where
  loops := by simp
  acceptors := by simp
  registered _ := registered_new rfl

/-! ## A failure that is overlooked -/

/-- The process has gone on after the `LOG_FATAL`. -/
def Overlooked (p : Process) : Prop :=
  ∃ before f e a after, p.env.trace = before ++ .call f (.failed e) :: a :: after ∧
    f.fatal = true ∧ (after ≠ [] ∨ p.env.exited = false)

theorem Overlooked.not_fatalStops {p : Process} (h : Overlooked p) : ¬ FatalStops p := by
  intro hp
  obtain ⟨before, f, e, a, after, htrace, hf, hon⟩ := h
  obtain ⟨hexited, l, hafter, -⟩ := hp.stopped before f e (a :: after) htrace hf
  rcases hon with hon | hruns
  · exact hon (List.cons.inj hafter).2
  · rw [hruns] at hexited
    cases hexited

/-- What has been overlooked stays overlooked. -/
theorem Overlooked.grow {p p' : Process} {a : Event} (h : Overlooked p)
    (htrace : p'.env.trace = p.env.trace ++ [a]) : Overlooked p' := by
  obtain ⟨before, f, e, b, after, hbefore, hf, -⟩ := h
  exact ⟨before, f, e, b, after ++ [a], by simp [htrace, hbefore], hf, .inl (by simp)⟩

theorem overlooked_log (l : LogStream) :
    Halting.Triple Overlooked (log l) (fun _ => Overlooked) Overlooked := by
  intro s hs
  rw [log_result]
  cases (s.env.destroy l).2
  · exact hs.grow rfl
  · exact hs.grow rfl

theorem overlooked_store (f : Objects → Objects) :
    Halting.Triple Overlooked (store f) (fun _ => Overlooked) Overlooked :=
  Halting.Triple.modify fun _ hs => hs.grow rfl

theorem overlooked_call (f : SystemCall) :
    Halting.Triple Overlooked (call f) (fun _ => Overlooked) Overlooked := by
  intro s hs
  rw [call_result]
  exact hs.grow rfl

theorem overlooked_bindAddress (sockfd : Int) :
    Halting.Triple Overlooked (bindAddress sockfd) (fun _ => Overlooked) Overlooked := by
  unfold bindAddress
  refine Halting.Triple.bind (overlooked_call _) fun _ => Halting.Triple.ite ?_ ?_
  · exact fun _ => read_errno fun _ => overlooked_log _
  · exact fun _ => Halting.Triple.pure fun _ hs => hs

theorem overlooked_setReusePort (sockfd : Int) (on : Bool) :
    Halting.Triple Overlooked (setReusePort sockfd on) (fun _ => Overlooked) Overlooked := by
  unfold setReusePort
  refine Halting.Triple.bind (overlooked_call _) fun _ => Halting.Triple.ite ?_ ?_
  · exact fun _ => overlooked_log _
  · exact fun _ => Halting.Triple.pure fun _ hs => hs

/-! ## Coming to the failure -/

section Approach

variable (kernel : Bool → Nat → CallResult) (sink : LogLevel → Nat → Attempt)

/-- The process has made `n` calls whose failure is treated as fatal, without a fatal
message, and there is no acceptor from the number `m` on. -/
structure Approach (n m : Nat) (p : Process) : Prop where
  kernel : p.env.kernel = kernel
  sink : p.env.sink = sink
  runs : p.env.exited = false
  calls : p.env.calls true = n
  unused : p.env.logged .FATAL = 0
  free : ∀ i, m ≤ i → p.objects.acceptors i = none

/-- The n-th such call has failed. -/
structure Missed (p : Process) : Prop where
  sink : p.env.sink = sink
  unused : p.env.logged .FATAL = 0
  last : ∃ before f e, p.env.trace = before ++ [.call f (.failed e)] ∧ f.fatal = true

variable {kernel sink} {n m : Nat} {E : Process → Prop}

theorem approach_log {l : LogStream} (hl : l.logLevel_ ≠ .FATAL) :
    Halting.Triple (Approach kernel sink n m) (log l) (fun _ => Approach kernel sink n m) E := by
  intro s hs
  have hstays : (s.env.destroy l).2 = false := LogStream.destroy_stays hl
  rw [log_result, hstays]
  refine ⟨hs.kernel, hs.sink, hstays, hs.calls, ?_, hs.free⟩
  simp only [Environment.wrote]
  split
  · exact hs.unused
  · exact (Function.update_of_ne (Ne.symm hl) _ _).trans hs.unused

theorem approach_store {f : Objects → Objects} {m' : Nat}
    (hf : ∀ o, (∀ i, m ≤ i → o.acceptors i = none) → ∀ i, m' ≤ i → (f o).acceptors i = none) :
    Halting.Triple (Approach kernel sink n m) (store f) (fun _ => Approach kernel sink n m') E :=
  Halting.Triple.modify fun _ hs =>
    ⟨hs.kernel, hs.sink, hs.runs, hs.calls, hs.unused, hf _ hs.free⟩

theorem record_acceptors (f : SystemCall) (succeeded : Bool) (o : Objects) :
    (o.record f succeeded).acceptors = o.acceptors := by
  unfold Objects.record
  split
  · rename_i operation _ _ _
    cases operation <;> rfl
  · rfl

theorem approach_call {f : SystemCall} (hf : f.fatal = false) :
    Halting.Triple (Approach kernel sink n m) (call f) (fun _ => Approach kernel sink n m) E := by
  intro s hs
  rw [call_result]
  refine ⟨hs.kernel, hs.sink, hs.runs, ?_, hs.unused, ?_⟩
  · simp [Environment.called, hf, hs.calls]
  · rw [record_acceptors]
    exact hs.free

theorem approach_succeeded {f : SystemCall} (hf : f.fatal = true) {fd : Nat}
    (hok : kernel true n = .ok fd) :
    Halting.Triple (Approach kernel sink n m) (call f)
      (fun r p => r = f.value (.ok fd) ∧ Approach kernel sink (n + 1) m p) E := by
  intro s hs
  have hres : s.env.result f = .ok fd := by
    rw [Environment.result, hf, hs.calls, hs.kernel, hok]
  rw [call_result, hres]
  refine ⟨rfl, hs.kernel, hs.sink, hs.runs, ?_, hs.unused, ?_⟩
  · simp [Environment.called, hf, hs.calls]
  · rw [record_acceptors]
    exact hs.free

theorem approach_failed {f : SystemCall} (hf : f.fatal = true) {e : Nat}
    (hfail : kernel true n = .failed e) :
    Halting.Triple (Approach kernel sink n m) (call f) (fun r p => r = -1 ∧ Missed sink p) E := by
  intro s hs
  have hres : s.env.result f = .failed e := by
    rw [Environment.result, hf, hs.calls, hs.kernel, hfail]
  rw [call_result, hres]
  refine ⟨rfl, hs.sink, hs.unused, s.env.trace, f, e, ?_, hf⟩
  simp [Environment.called, hres]

/-- The log file does not open, and the process goes on after its `LOG_FATAL`. -/
theorem missed_log {l : LogStream} (hl : l.logLevel_ = .FATAL)
    (hopen : (sink .FATAL 0).is_open = false) :
    Halting.Triple (Missed sink) (log l) (fun _ => Overlooked) E := by
  intro s hs
  obtain ⟨before, f, e, htrace, hf⟩ := hs.last
  have hstays : (s.env.destroy l).2 = false := by
    rw [← Bool.not_eq_true, Environment.destroy, LogStream.destroy_exits, hl, hs.unused, hs.sink,
      hopen]
    simp
  rw [log_result, hstays]
  exact ⟨before, f, e, .log l, [], by simp [Environment.wrote, htrace], hf, .inr hstays⟩

/-- The constructor between `socket` and `bind`. -/
theorem approach_bind {sockfd : Int} {R : Unit → Process → Prop}
    (h : Halting.Triple (Approach kernel sink n (m + 1)) (bindAddress sockfd) R E) :
    Halting.Triple (Approach kernel sink n m)
      (do
        store (Objects.setAcceptor m
          (some { loop_ := 0, acceptSocket_ := sockfd, listenning_ := false }))
        store (Objects.newChannel (.accept m) 0 sockfd)
        setReuseAddr sockfd
        setReusePort sockfd true
        bindAddress sockfd) R E := by
  refine Halting.Triple.bind (Q := fun _ => Approach kernel sink n (m + 1)) ?_ fun _ => ?_
  · refine approach_store ?_
    intro o hfree i hi
    exact (Function.update_of_ne (by omega) _ _).trans (hfree i (by omega))
  refine Halting.Triple.bind (approach_store fun _ hfree => hfree) fun _ => ?_
  unfold setReuseAddr setReusePort
  refine Halting.Triple.bind (Halting.Triple.bind (approach_call rfl) fun _ =>
    Halting.Triple.pure (Q := fun _ => Approach kernel sink n (m + 1)) fun _ hs => hs) fun _ => ?_
  refine Halting.Triple.bind (Q := fun _ => Approach kernel sink n (m + 1)) ?_ fun _ => h
  refine Halting.Triple.bind (approach_call rfl) fun _ => Halting.Triple.ite ?_ ?_
  · exact fun _ => approach_log (by decide)
  · exact fun _ => Halting.Triple.pure fun _ hs => hs

theorem approach_createNonblocking {fd : Nat} (hsocket : kernel true n = .ok fd) :
    Halting.Triple (Approach kernel sink n m) createNonblocking
      (fun _ => Approach kernel sink (n + 1) m) E := by
  unfold createNonblocking
  refine Halting.Triple.bind (approach_succeeded rfl hsocket) fun r => ?_
  refine Halting.Triple.assume ?_
  rintro rfl
  exact Halting.Triple.pure fun _ hs => hs

/-- Both calls of a new acceptor succeed. -/
theorem newAcceptor_succeeds {fd fd' : Nat} (hsocket : kernel true n = .ok fd)
    (hbind : kernel true (n + 1) = .ok fd') :
    Halting.Triple (Approach kernel sink n m) (newAcceptor m 0)
      (fun _ => Approach kernel sink (n + 2) (m + 1)) E := by
  unfold newAcceptor
  refine Halting.Triple.bind (approach_createNonblocking hsocket) fun sockfd => ?_
  refine approach_bind ?_
  unfold bindAddress
  refine Halting.Triple.bind (approach_succeeded rfl hbind) fun r => ?_
  refine Halting.Triple.assume ?_
  rintro rfl
  exact Halting.Triple.pure fun _ hs => hs

/-- `socket` fails, and the constructor goes on with -1. -/
theorem newAcceptor_socket (hopen : (sink .FATAL 0).is_open = false) {e : Nat}
    (hsocket : kernel true n = .failed e) :
    Halting.Triple (Approach kernel sink n m) (newAcceptor m 0) (fun _ => Overlooked)
      Overlooked := by
  unfold newAcceptor createNonblocking
  refine Halting.Triple.bind (Q := fun _ => Overlooked) ?_ fun sockfd => ?_
  · refine Halting.Triple.bind (approach_failed rfl hsocket) fun r => ?_
    refine Halting.Triple.assume ?_
    rintro rfl
    refine read_errno fun _ => ?_
    refine Halting.Triple.bind (missed_log rfl hopen) fun _ => ?_
    exact Halting.Triple.pure fun _ hs => hs
  · refine Halting.Triple.bind (overlooked_store _) fun _ => ?_
    refine Halting.Triple.bind (overlooked_store _) fun _ => ?_
    refine Halting.Triple.bind (Q := fun _ => Overlooked) ?_ fun _ => ?_
    · exact Halting.Triple.bind (overlooked_call _) fun _ => Halting.Triple.pure fun _ hs => hs
    refine Halting.Triple.bind (overlooked_setReusePort _ _) fun _ => ?_
    exact overlooked_bindAddress _

/-- `bind` fails, and the acceptor is there all the same. -/
theorem newAcceptor_bind (hopen : (sink .FATAL 0).is_open = false) {fd e : Nat}
    (hsocket : kernel true n = .ok fd) (hbind : kernel true (n + 1) = .failed e) :
    Halting.Triple (Approach kernel sink n m) (newAcceptor m 0) (fun _ => Overlooked) E := by
  unfold newAcceptor
  refine Halting.Triple.bind (approach_createNonblocking hsocket) fun sockfd => ?_
  refine approach_bind ?_
  unfold bindAddress
  refine Halting.Triple.bind (approach_failed rfl hbind) fun r => ?_
  refine Halting.Triple.assume ?_
  rintro rfl
  exact read_errno fun _ => missed_log rfl hopen

/-- A run of constructors, two calls in each. -/
def acceptors (m : Nat) : List Op := (List.range m).map fun i => .newAcceptor i 0

variable (kernel sink)

theorem run_approach (hok : ∀ j, j < 2 * m → ∃ fd, kernel true j = .ok fd) :
    ∃ p, exec step (start kernel sink) (acceptors m) = some p ∧
      Approach kernel sink (2 * m) m p := by
  induction m with
  | zero => exact ⟨_, rfl, rfl, rfl, rfl, rfl, rfl, fun _ _ => rfl⟩
  | succ m ih =>
    obtain ⟨p, hp, happ⟩ := ih fun j hj => hok j (by omega)
    obtain ⟨fd, hsocket⟩ := hok (2 * m) (by omega)
    obtain ⟨fd', hbind⟩ := hok (2 * m + 1) (by omega)
    have hen : (Op.newAcceptor m 0).enabled p.objects = true := by
      simp [Op.enabled, happ.free m le_rfl]
    obtain ⟨p', hp', hres⟩ := step_triple happ.runs hen
      (newAcceptor_succeeds (E := fun _ => False) hsocket hbind) happ
    refine ⟨p', ?_, hres.resolve_right id⟩
    have hruns : acceptors (m + 1) = acceptors m ++ [.newAcceptor m 0] := by
      simp [acceptors, List.range_succ]
    rw [hruns, exec_append, hp]
    exact exec_cons_some.mpr ⟨p', hp', rfl⟩

/-- The first failing call is reached, and its `LOG_FATAL` does not end the process. -/
theorem run_overlooked (hopen : (sink .FATAL 0).is_open = false)
    (hfail : ∃ n, (kernel true n).isFailed = true) :
    ∃ ops p, exec step (start kernel sink) ops = some p ∧ Overlooked p := by
  classical
  have hfirst : ∀ j, j < Nat.find hfail → ∃ fd, kernel true j = .ok fd := by
    intro j hj
    have hmin := Nat.find_min hfail hj
    cases h : kernel true j with
    | ok fd => exact ⟨fd, rfl⟩
    | failed e => exact absurd (by rw [h]; rfl) hmin
  obtain ⟨e, he⟩ : ∃ e, kernel true (Nat.find hfail) = .failed e := by
    have hspec := Nat.find_spec hfail
    cases h : kernel true (Nat.find hfail) with
    | ok fd =>
      rw [h] at hspec
      cases hspec
    | failed e => exact ⟨e, rfl⟩
  obtain ⟨m, hn⟩ : ∃ m, Nat.find hfail = 2 * m ∨ Nat.find hfail = 2 * m + 1 :=
    ⟨Nat.find hfail / 2, by omega⟩
  obtain ⟨p, hp, happ⟩ := run_approach kernel sink
    fun j (hj : j < 2 * m) => hfirst j (by omega)
  have hen : (Op.newAcceptor m 0).enabled p.objects = true := by
    simp [Op.enabled, happ.free m le_rfl]
  have hlast : ∃ p', step p (.newAcceptor m 0) = some p' ∧ Overlooked p' := by
    rcases hn with hn | hn
    · rw [hn] at he
      obtain ⟨p', hp', hres⟩ := step_triple happ.runs hen (newAcceptor_socket hopen he) happ
      exact ⟨p', hp', hres.elim id id⟩
    · rw [hn] at he
      obtain ⟨fd, hsocket⟩ := hfirst (2 * m) (by omega)
      obtain ⟨p', hp', hres⟩ := step_triple happ.runs hen
        (newAcceptor_bind (E := Overlooked) hopen hsocket he) happ
      exact ⟨p', hp', hres.elim id id⟩
  obtain ⟨p', hp', hover⟩ := hlast
  refine ⟨acceptors m ++ [.newAcceptor m 0], p', ?_, hover⟩
  rw [exec_append, hp]
  exact exec_cons_some.mpr ⟨p', hp', rfl⟩

end Approach

/-- A failure that is treated as fatal really stops every run if and only if the log file
opens for the first fatal message, or no such failure comes. -/
theorem fatal_error_stops_iff (kernel : Bool → Nat → CallResult)
    (sink : LogLevel → Nat → Attempt) :
    (∀ ops p, exec step (start kernel sink) ops = some p → FatalStops p) ↔
      (sink .FATAL 0).is_open = true ∨ ∀ n, (kernel true n).isFailed = false := by
  constructor
  · intro h
    by_contra hcond
    rw [not_or, not_forall, Bool.not_eq_true] at hcond
    obtain ⟨hopen, n, hn⟩ := hcond
    obtain ⟨ops, p, hrun, hover⟩ :=
      run_overlooked kernel sink hopen ⟨n, by simpa using hn⟩
    exact hover.not_fatalStops (h ops p hrun)
  · intro hcond ops p hrun
    have hstart : Runs Sane (start kernel sink) := by
      refine ⟨⟨?_, ?_, rfl⟩, sane_start⟩
      · exact hcond.imp (fun hopen => ⟨hopen, rfl⟩) id
      · intro f e hmem
        cases hmem
    rcases run_sound hstart hrun with hp | hp
    · exact hp.fatalStops
    · exact hp.fatalStops

/-- Where the file opens, the constructor of `EventLoop` ends at the `LOG_FATAL` of
`createEventfd`, the fifth thing it does. -/
example : (exec step (start (fun _ _ => .failed 24) fun _ _ =>
      { now := "2024-01-01 00:00:00", is_open := true }) [.newEventLoop 0 0]).map
    (fun p => (p.env.exited, p.env.trace.length, p.objects.loops 0)) = some (true, 5, none) := rfl

/-- No descriptor is left (`EMFILE`): every call fails, and so does opening the log file. -/
def exhausted : Process :=
  start (fun _ _ => .failed 24) fun _ _ => { now := "2024-01-01 00:00:00", is_open := false }

/-- The constructor of `EventLoop` returns in a process without descriptors: the loop has the
`wakeupFd_` -1, and its channel is `kAdded` although the `EPOLL_CTL_ADD` has failed. -/
theorem fatal_error_stops_fails : ∃ p, exec step exhausted [.newEventLoop 0 0] = some p ∧
    p.env.exited = false ∧ (p.objects.loops 0).map EventLoop.wakeupFd_ = some (-1) ∧
    (p.objects.channels (.wakeup 0)).index_ = .kAdded ∧
    p.objects.lastCtl (.wakeup 0) = some (.EPOLL_CTL_ADD, false) ∧ ¬ FatalStops p := by
  refine ⟨_, rfl, rfl, rfl, rfl, rfl, ?_⟩
  intro h
  have hadded := h.added rfl (.wakeup 0) rfl
  cases hadded

end Mymuduo.Process
