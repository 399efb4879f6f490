import Mymuduo.Buffer.Storage
import Mymuduo.Library.Execution

/-!
# The buffer refines a byte queue

A byte queue is a list: bytes enter at the tail and leave at the head. Every
sequence of buffer operations runs without leaving the vector, answers what
the queue answers, and ends with the queue's bytes in the readable region.
-/

namespace Mymuduo.Buffer

open Mymuduo.Library.Execution

inductive Op
  | append (data : List Byte)
  | ensureWritableBytes (len : Nat)
  | retrieve (len : Nat)
  | retrieveAll
  | retrieveAsString (len : Nat)
  | retrieveAllAsString
  | readFd (r : ReadvResult)
  | writeFd (r : WriteResult)
  deriving DecidableEq, Repr

/-- What an operation returns; `writeFd` also shows what reached the kernel. -/
inductive Result
  | void
  | string (s : List Byte)
  | read (n : Int)
  | wrote (n : Int) (accepted : List Byte)
  deriving DecidableEq, Repr

def apply (b : Buffer) : Op → Option (Result × Buffer)
  | .append data => (b.append data).map (.void, ·)
  | .ensureWritableBytes len => (b.ensureWritableBytes len).map (.void, ·)
  | .retrieve len => some (.void, b.retrieve len)
  | .retrieveAll => some (.void, b.retrieveAll)
  | .retrieveAsString len => (b.retrieveAsString len).map fun (s, b') => (.string s, b')
  | .retrieveAllAsString => b.retrieveAllAsString.map fun (s, b') => (.string s, b')
  | .readFd r => (b.readFd r).map fun (n, _, b') => (.read n, b')
  | .writeFd r => (b.writeFd r).map fun (n, _, accepted) => (.wrote n accepted, b)

/-- The caller's part: a string is taken from the readable bytes only, and
`readv` delivers no more than its iovecs hold. -/
def Admissible (b : Buffer) : Op → Prop
  | .retrieveAsString len => len ≤ b.readableBytes
  | .readFd (.delivered bytes) => bytes.length ≤ b.readCapacity
  | _ => True

instance (b : Buffer) : ∀ op, Decidable (b.Admissible op)
  | .retrieveAsString _ => inferInstanceAs (Decidable (_ ≤ _))
  | .readFd (.delivered _) => inferInstanceAs (Decidable (_ ≤ _))
  | .readFd (.failed _) | .append _ | .ensureWritableBytes _ | .retrieve _ | .retrieveAll
  | .retrieveAllAsString | .writeFd _ => .isTrue trivial

/-- The purpose of the buffer, on the bytes alone. -/
def queueOp (q : List Byte) : Op → Result × List Byte
  | .append data => (.void, q ++ data)
  | .ensureWritableBytes _ => (.void, q)
  | .retrieve len => (.void, q.drop len)
  | .retrieveAll => (.void, [])
  | .retrieveAsString len => (.string (q.take len), q.drop len)
  | .retrieveAllAsString => (.string q, [])
  | .readFd (.delivered bytes) => (.read bytes.length, q ++ bytes)
  | .readFd (.failed _) => (.read (-1), q)
  | .writeFd r => (.wrote (r.count q) (r.accepted q), q)

/-- One operation: it is carried out inside the vector, keeps the invariant
and does to the readable bytes what it does to the queue. -/
theorem apply_refines {b : Buffer} (h : b.WF) (op : Op) (hop : b.Admissible op) :
    ∃ b', b.apply op = some ((queueOp b.contents op).1, b') ∧ b'.WF ∧
      b'.contents = (queueOp b.contents op).2 := by
  cases op with
  | append data =>
    obtain ⟨b', hb, hwf, hc⟩ := append_spec h data
    exact ⟨b', by rw [apply, hb]; rfl, hwf, hc⟩
  | ensureWritableBytes len =>
    obtain ⟨b', hb, hwf, hc, -⟩ := ensureWritableBytes_spec h len
    exact ⟨b', by rw [apply, hb]; rfl, hwf, hc⟩
  | retrieve len => exact ⟨_, rfl, h.retrieve len, contents_retrieve h len⟩
  | retrieveAll => exact ⟨_, rfl, h.retrieveAll, contents_retrieveAll b⟩
  | retrieveAsString len =>
    exact ⟨_, by rw [apply, retrieveAsString_eq h hop]; rfl, h.retrieve len,
      contents_retrieve h len⟩
  | retrieveAllAsString =>
    have htake : b.contents.take b.readableBytes = b.contents :=
      List.take_of_length_le h.length_contents.le
    refine ⟨b.retrieve b.readableBytes, ?_, h.retrieve _, ?_⟩
    · rw [apply, retrieveAllAsString, retrieveAsString_eq h le_rfl, htake]
      rfl
    · rw [contents_retrieve h, ← h.length_contents, List.drop_length]
      rfl
  | readFd r =>
    cases r with
    | delivered bytes =>
      obtain ⟨b', hb, hwf, hc⟩ := readFd_delivered h bytes
      exact ⟨b', by rw [apply, hb]; rfl, hwf, hc⟩
    | failed errno => exact ⟨b, by rw [apply, readFd_failed]; rfl, h, rfl⟩
  | writeFd r => exact ⟨b, by rw [apply, writeFd_eq h r]; rfl, h, rfl⟩

/-- A run of operations with the results collected on the way. -/
structure Session (σ : Type) where
  state : σ
  results : List Result := []

def step (s : Session Buffer) (op : Op) : Option (Session Buffer) :=
  (s.state.apply op).map fun (r, b) => ⟨b, s.results ++ [r]⟩

def queueStep (s : Session (List Byte)) (op : Op) : Session (List Byte) :=
  ⟨(queueOp s.state op).2, s.results ++ [(queueOp s.state op).1]⟩

/-- The relation between buffer and queue that every operation keeps. -/
def Represents (s : Session Buffer) (t : Session (List Byte)) : Prop :=
  s.state.WF ∧ s.state.contents = t.state ∧ s.results = t.results

theorem step_simulates (s : Session Buffer) (op : Op) (t : Session (List Byte))
    (h : Represents s t) (hop : s.state.Admissible op) :
    ∃ s', step s op = some s' ∧ Represents s' (queueStep t op) := by
  obtain ⟨hwf, hc, hr⟩ := h
  obtain ⟨b', hb, hwf', hc'⟩ := apply_refines hwf op hop
  rw [hc] at hb hc'
  refine ⟨⟨b', s.results ++ [(queueOp t.state op).1]⟩, by rw [step, hb]; rfl, hwf', hc', ?_⟩
  rw [hr]
  rfl

/-- From a fresh buffer of any size, every sequence of admissible operations
runs inside the vector and refines the byte queue. -/
theorem refines_byteQueue (initialSize : Nat) (ops : List Op)
    (h : Guarded step (fun s op => s.state.Admissible op) ⟨new initialSize, []⟩ ops) :
    ∃ s, exec step ⟨new initialSize, []⟩ ops = some s ∧
      (kCheapPrepend ≤ s.state.readerIndex_ ∧ s.state.readerIndex_ ≤ s.state.writerIndex_ ∧
        s.state.writerIndex_ ≤ s.state.buffer_.length) ∧
      (s.state.readableBytes = 0 →
        s.state.readerIndex_ = kCheapPrepend ∧ s.state.writerIndex_ = kCheapPrepend) ∧
      s.state.contents = (ops.foldl queueStep ⟨[], []⟩).state ∧
      s.results = (ops.foldl queueStep ⟨[], []⟩).results := by
  have h₀ : Represents ⟨new initialSize, []⟩ ⟨[], []⟩ :=
    ⟨wf_new initialSize, contents_new initialSize, rfl⟩
  obtain ⟨s, hs, hwf, hc, hr⟩ := exec_simulates step_simulates h₀ h
  refine ⟨s, hs, ⟨hwf.prepend, hwf.ordered, hwf.inside⟩, fun hz => ?_, hc, hr⟩
  have ho := hwf.ordered
  have heq : s.state.readerIndex_ = s.state.writerIndex_ := by
    simp only [readableBytes] at hz; omega
  exact ⟨hwf.reset heq, heq ▸ hwf.reset heq⟩

/-- A session that grows the vector, spills into `extrabuf` and takes a string. -/
theorem refines_byteQueue_mixed :
    ∃ s, exec step ⟨new 2, []⟩ [.append [1, 2, 3], .retrieve 2, .readFd (.delivered [4, 5, 6]),
        .retrieveAsString 3, .ensureWritableBytes 4, .writeFd (.took 1)] = some s ∧
      s.state.contents = [6] := by
  obtain ⟨s, hs, -, -, hc, -⟩ := refines_byteQueue 2
    [.append [1, 2, 3], .retrieve 2, .readFd (.delivered [4, 5, 6]), .retrieveAsString 3,
      .ensureWritableBytes 4, .writeFd (.took 1)] (by decide)
  exact ⟨s, hs, hc.trans (by decide)⟩

end Mymuduo.Buffer
