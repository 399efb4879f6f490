import Mathlib.Logic.Function.Basic
import Mymuduo.Connection.OutputStream
import Mymuduo.Library.Execution
import Mymuduo.Library.TaskQueue

/-!
# A connection called from other threads

The connection with the queue of its loop and the threads that call `send` and
`shutdown` on it. The test of `state_`, the store of `kDisconnecting` and the
`emplace_back` are steps of their own on a foreign thread; a method that runs
on the loop's thread is one step. The strings of the callers are character
arrays in a store, and a queued send holds what the bind expression captures:
the address and the length of such an array.
-/

namespace Mymuduo.Connection

open Mymuduo.Library

universe u v

/-- A message as its sender sees it when it calls `send`: history. -/
structure Message (T : Type u) where
  sender : Option T
  text : List Byte
  deriving DecidableEq

/-- `message.c_str()` and `message.size()`, of a string of thread `owner`. -/
structure Capture (T : Type u) (A : Type v) where
  owner : T
  c_str : A
  size : Nat
  deriving DecidableEq

/-- What is queued on the loop; a send also carries its message as history. -/
inductive Functor (T : Type u) (A : Type v)
  | connectEstablished
  | connectDestroyed
  | sendInLoop (captured : Capture T A) (message : Message T)
  | shutdownInLoop
  | notice (n : Notice)
  deriving DecidableEq

/-- Where a foreign thread stands in `send` or `shutdown`. -/
inductive Caller (T : Type u) (A : Type v)
  | idle
  /-- `send` has found `kConnected`; the bind and the `emplace_back` come next -/
  | sending (captured : Capture T A) (message : Message T)
  /-- `shutdown` has found `kConnected`; `setState(kDisconnecting)` comes next -/
  | leaving
  /-- the state is set; `runInLoop` comes next -/
  | left
  deriving DecidableEq

/-- One call of `sendInLoop`: the message it is for, the bytes it got, and
whether they entered the output stream. -/
structure Handed (T : Type u) where
  message : Message T
  bytes : List Byte
  entered : Bool
  deriving DecidableEq

structure SharedConn (T : Type u) (A : Type v) where
  site : Site Unit
  queue : TaskQueue (Functor T A) := {}
  /-- the loop's thread is in `doPendingFunctors` -/
  calling : Bool := false
  caller : T → Caller T A := fun _ => .idle
  /-- the character arrays of each thread's strings -/
  store : T → A → Nat → Byte
  /-- history: the calls of `sendInLoop` -/
  handed : List (Handed T) := []
  /-- history: messages whose `send` found `kConnected` and has returned -/
  returned : List (Message T) := []
  /-- history: when `shutdownWrite` was first called, the bytes the kernel had
  accepted and the messages whose `send` had returned -/
  cut : Option (List Byte × List (Message T)) := none

namespace SharedConn

variable {T : Type u} {A : Type v}

/-- The bytes an address and a length denote. -/
def read (store : T → A → Nat → Byte) (c : Capture T A) : List Byte :=
  (List.range c.size).map (store c.owner c.c_str)

/-- The store after thread `t` has changed, reused or freed a string of its own. -/
def overwritten [DecidableEq T] [DecidableEq A] (store : T → A → Nat → Byte) (t : T) (a : A)
    (content : Nat → Byte) : T → A → Nat → Byte :=
  Function.update store t (Function.update (store t) a content)

/-- The site before a method runs. -/
def quiet (s : SharedConn T A) : Site Unit := { s.site with queued := [] }

/-- Run a method of the connection on the loop's thread; what it queues goes
to the end of the queue. -/
def act (f : Site Unit → Site Unit) (s : SharedConn T A) : SharedConn T A :=
  let site := f s.quiet
  { s with
    site := site
    queue := s.queue.pushAll (site.queued.map .notice)
    cut :=
      if !s.site.conn.socket_.writeShut && site.conn.socket_.writeShut then
        some (site.conn.socket_.accepted, s.returned)
      else s.cut }

def entered (s : SharedConn T A) (r : WriteResult) : Bool :=
  decide (s.site.conn.state_ ≠ .kDisconnected) && !reset s.site r

/-- Call `sendInLoop` with some bytes. -/
def hand (message : Message T) (bytes : List Byte) (r : WriteResult) (s : SharedConn T A) :
    SharedConn T A :=
  { s.act (Site.sendInLoop () bytes r) with
    handed := s.handed ++ [⟨message, bytes, s.entered r⟩] }

/-- Run a functor. A queued send reads its bytes through the captured pointer. -/
def call (s : SharedConn T A) (r : WriteResult) : Functor T A → SharedConn T A
  | .connectEstablished => s.act (Site.connectEstablished ())
  | .connectDestroyed => s.act (Site.connectDestroyed ())
  | .sendInLoop captured message => s.hand message (read s.store captured) r
  | .shutdownInLoop => s.act Site.shutdownInLoop
  | .notice _ => s

inductive Action (T : Type u) (A : Type v)
  -- foreign threads
  | send (t : T) (c_str : A) (size : Nat)
  | enqueueSend (t : T)
  | shutdown (t : T)
  | storeDisconnecting (t : T)
  | enqueueShutdown (t : T)
  | overwrite (t : T) (a : A) (content : Nat → Byte)
  | queueDestroyed
  -- the loop's thread
  | loopSend (text : List Byte) (r : WriteResult)
  | loopShutdown
  | handleRead (r : ReadvResult)
  | handleWrite (r : WriteResult)
  | handleClose
  | swap
  | start (r : WriteResult)
  | finish

section Frame

variable (f : Site Unit → Site Unit) (s : SharedConn T A)

@[simp] theorem quiet_conn : s.quiet.conn = s.site.conn := rfl
@[simp] theorem act_site : (s.act f).site = f s.quiet := rfl
@[simp] theorem act_caller : (s.act f).caller = s.caller := rfl
@[simp] theorem act_store : (s.act f).store = s.store := rfl
@[simp] theorem act_handed : (s.act f).handed = s.handed := rfl
@[simp] theorem act_returned : (s.act f).returned = s.returned := rfl

/-- Only notices are queued by the connection itself. -/
theorem mem_waiting_act {g : Functor T A} (h : g ∈ (s.act f).queue.waiting) :
    g ∈ s.queue.waiting ∨ ∃ n, g = .notice n := by
  simp only [act, TaskQueue.waiting_pushAll, List.mem_append, List.mem_map] at h
  obtain h | ⟨n, -, rfl⟩ := h
  · exact .inl h
  · exact .inr ⟨n, rfl⟩

theorem mem_waiting_call {r : WriteResult} {g f : Functor T A}
    (h : g ∈ (s.call r f).queue.waiting) : g ∈ s.queue.waiting ∨ ∃ n, g = .notice n := by
  cases f with
  | notice n => exact .inl h
  | _ => exact mem_waiting_act _ _ h

@[simp] theorem call_caller (r : WriteResult) (g : Functor T A) :
    (s.call r g).caller = s.caller := by cases g <;> rfl
@[simp] theorem call_store (r : WriteResult) (g : Functor T A) :
    (s.call r g).store = s.store := by cases g <;> rfl

end Frame

variable [DecidableEq T] [DecidableEq A]

def setCaller (t : T) (c : Caller T A) (s : SharedConn T A) : SharedConn T A :=
  { s with caller := Function.update s.caller t c }

def step (s : SharedConn T A) : Action T A → Option (SharedConn T A)
  | .send t c_str size =>
    if s.caller t = .idle then
      let captured : Capture T A := ⟨t, c_str, size⟩
      if s.site.conn.state_ = .kConnected then
        some (s.setCaller t (.sending captured ⟨some t, read s.store captured⟩))
      else some s
    else none
  | .enqueueSend t =>
    match s.caller t with
    | .sending captured message =>
      some { s.setCaller t .idle with
        queue := s.queue.push (.sendInLoop captured message)
        returned := s.returned ++ [message] }
    | _ => none
  | .shutdown t =>
    if s.caller t = .idle then
      if s.site.conn.state_ = .kConnected then some (s.setCaller t .leaving) else some s
    else none
  | .storeDisconnecting t =>
    if s.caller t = .leaving then
      some { s.setCaller t .left with site := s.site.setState .kDisconnecting }
    else none
  | .enqueueShutdown t =>
    if s.caller t = .left then
      some { s.setCaller t .idle with queue := s.queue.push .shutdownInLoop }
    else none
  -- the string is a reference argument: its owner leaves it alone during the call
  | .overwrite t a content =>
    if s.caller t = .idle then some { s with store := overwritten s.store t a content } else none
  -- the base loop, or ~TcpServer
  | .queueDestroyed => some { s with queue := s.queue.push .connectDestroyed }
  | .loopSend text r =>
    if s.site.conn.state_ = .kConnected then
      let s' := s.hand ⟨none, text⟩ text r
      some { s' with returned := s'.returned ++ [⟨none, text⟩] }
    else some s
  | .loopShutdown => some (s.act Site.shutdown)
  | .handleRead r => if s.calling then none else some (s.act (Site.handleRead () r))
  | .handleWrite r => if s.calling then none else some (s.act (Site.handleWrite () r))
  | .handleClose => if s.calling then none else some (s.act (Site.handleClose ()))
  | .swap => if s.calling then none else some { s with queue := s.queue.swap, calling := true }
  | .start r =>
    if s.calling then s.queue.start.map fun (f, queue) => { s with queue := queue }.call r f
    else none
  | .finish =>
    if s.calling && s.queue.todo.isEmpty then
      some { s with queue := s.queue.finish, calling := false }
    else none

/-- The actions of the loop's thread. -/
def Action.onLoop : Action T A → Bool
  | .loopSend .. | .loopShutdown | .handleRead _ | .handleWrite _ | .handleClose | .swap | .start _
  | .finish => true
  | _ => false

section Inversion

variable {s s' : SharedConn T A} {t : T}

-- the equations of `step`, for all the lemmas below
attribute [local simp] step

theorem step_send {c_str : A} {size : Nat} (h : s.step (.send t c_str size) = some s') :
    s.caller t = .idle ∧ (s.site.conn.state_ ≠ .kConnected ∧ s' = s ∨
      s.site.conn.state_ = .kConnected ∧ s' = s.setCaller t
        (.sending ⟨t, c_str, size⟩ ⟨some t, read s.store ⟨t, c_str, size⟩⟩)) := by
  simp only [step] at h
  split at h
  · rename_i hi
    split at h <;> cases h
    · rename_i hc
      exact ⟨hi, .inr ⟨hc, rfl⟩⟩
    · rename_i hc
      exact ⟨hi, .inl ⟨hc, rfl⟩⟩
  · cases h

theorem step_enqueueSend (h : s.step (.enqueueSend t) = some s') :
    ∃ captured message, s.caller t = .sending captured message ∧
      s' = { s.setCaller t .idle with
        queue := s.queue.push (.sendInLoop captured message)
        returned := s.returned ++ [message] } := by
  simp only [step] at h
  split at h <;> cases h
  rename_i captured message hc
  exact ⟨captured, message, hc, rfl⟩

theorem step_shutdown (h : s.step (.shutdown t) = some s') :
    s.caller t = .idle ∧ (s.site.conn.state_ ≠ .kConnected ∧ s' = s ∨
      s.site.conn.state_ = .kConnected ∧ s' = s.setCaller t .leaving) := by
  simp only [step] at h
  split at h
  · rename_i hi
    split at h <;> cases h
    · rename_i hc
      exact ⟨hi, .inr ⟨hc, rfl⟩⟩
    · rename_i hc
      exact ⟨hi, .inl ⟨hc, rfl⟩⟩
  · cases h

theorem step_storeDisconnecting (h : s.step (.storeDisconnecting t) = some s') :
    s.caller t = .leaving ∧
      s' = { s.setCaller t .left with site := s.site.setState .kDisconnecting } := by
  simp only [step] at h
  split at h <;> cases h
  rename_i hc
  exact ⟨hc, rfl⟩

theorem step_enqueueShutdown (h : s.step (.enqueueShutdown t) = some s') :
    s.caller t = .left ∧
      s' = { s.setCaller t .idle with queue := s.queue.push .shutdownInLoop } := by
  simp only [step] at h
  split at h <;> cases h
  rename_i hc
  exact ⟨hc, rfl⟩

theorem step_overwrite {a : A} {content : Nat → Byte}
    (h : s.step (.overwrite t a content) = some s') :
    s.caller t = .idle ∧ s' = { s with store := overwritten s.store t a content } := by
  simp only [step] at h
  split at h <;> cases h
  rename_i hc
  exact ⟨hc, rfl⟩

theorem step_start {r : WriteResult} (h : s.step (.start r) = some s') :
    s.calling = true ∧ ∃ f queue, s.queue.start = some (f, queue) ∧
      s' = { s with queue := queue }.call r f := by
  simp only [step] at h
  split at h
  · rename_i hc
    obtain ⟨⟨f, queue⟩, hq, he⟩ := Option.map_eq_some_iff.mp h
    exact ⟨hc, f, queue, hq, he.symm⟩
  · cases h

/-- The loop's thread changes no string and moves no other thread, and it
queues nothing but notices. -/
theorem step_onLoop {a : Action T A} (h : s.step a = some s') (ha : a.onLoop = true) :
    s'.store = s.store ∧ s'.caller = s.caller ∧
      ∀ g ∈ s'.queue.waiting, g ∈ s.queue.waiting ∨ ∃ n, g = .notice n := by
  cases a with
  | loopSend text r =>
    simp only [step] at h
    split at h <;> cases h
    · exact ⟨rfl, rfl, fun g hg => mem_waiting_act _ _ hg⟩
    · exact ⟨rfl, rfl, fun g hg => .inl hg⟩
  | loopShutdown => cases h; exact ⟨rfl, rfl, fun g hg => mem_waiting_act _ _ hg⟩
  | handleRead r | handleWrite r | handleClose =>
    simp only [step] at h
    split at h <;> cases h
    exact ⟨rfl, rfl, fun g hg => mem_waiting_act _ _ hg⟩
  | swap =>
    simp only [step] at h
    split at h <;> cases h
    refine ⟨rfl, rfl, fun g hg => .inl ?_⟩
    simp only [TaskQueue.waiting, TaskQueue.swap_todo, TaskQueue.swap_pending,
      List.append_nil] at hg ⊢
    exact List.mem_append_right _ hg
  | start r =>
    obtain ⟨-, f, queue, hq, rfl⟩ := step_start h
    refine ⟨call_store _ _ _, call_caller _ _ _, fun g hg => ?_⟩
    obtain hg | hn := mem_waiting_call _ hg
    · rw [(TaskQueue.waiting_of_start hq).1]
      exact .inl (List.mem_cons_of_mem f hg)
    · exact .inr hn
  | finish =>
    simp only [step] at h
    split at h <;> cases h
    exact ⟨rfl, rfl, fun g hg => .inl hg⟩
  | _ => cases ha

omit [DecidableEq A] in
/-- A thread that is back to `idle`, or in `shutdown`, carries no message. -/
theorem sending_of_setCaller {u : T} {x : Caller T A} {c : Capture T A} {m : Message T}
    (hx : ∀ c m, x ≠ .sending c m) (h : (s.setCaller t x).caller u = .sending c m) :
    s.caller u = .sending c m := by
  simp only [setCaller, Function.update_apply] at h
  split at h
  · exact absurd h (hx c m)
  · exact h

end Inversion

/-- An established connection, with nothing queued and nobody calling. -/
def established (name : List Char) (sockfd : Int) (callbacks : Callbacks)
    (store : T → A → Nat → Byte) : SharedConn T A where
  site := { ({ conn := TcpConnection.new name sockfd callbacks } : Site Unit).connectEstablished ()
    with queued := [] }
  store := store

end SharedConn

end Mymuduo.Connection
