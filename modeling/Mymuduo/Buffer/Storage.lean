import Mathlib.Order.Basic
import Mathlib.Order.Nat
import Mymuduo.Library.Window

/-!
# The buffer as the code stores it

`Buffer` is the vector with its two indices. Every access to the vector goes
through a checked read, write or copy, so that an operation answers `none`
where the code would touch memory outside the vector. Sizes and indices are
natural numbers: the sums of these operations are taken to fit `size_t`.
-/

namespace Mymuduo

open Mymuduo.Library.Window

abbrev Byte := UInt8

inductive Errno
  | EWOULDBLOCK
  | EPIPE
  | ECONNRESET
  | other (code : Nat)
  deriving DecidableEq, Repr

/-- Outcome of `::readv`: the bytes it placed, first iovec first, or -1. -/
inductive ReadvResult
  | delivered (bytes : List Byte)
  | failed (errno : Errno)
  deriving DecidableEq, Repr

/-- Outcome of `::write`: how many of the bytes offered the kernel would take,
or -1. -/
inductive WriteResult
  | took (n : Nat)
  | failed (errno : Errno)
  deriving DecidableEq, Repr

/-- The bytes the kernel accepts of those offered. -/
def WriteResult.accepted : WriteResult → List Byte → List Byte
  | .took n, data => data.take n
  | .failed _, _ => []

/-- What `::write` returns. -/
def WriteResult.count : WriteResult → List Byte → Int
  | .took n, data => (data.take n).length
  | .failed _, _ => -1

/-- The `errno` a failed call leaves; after other results it is stale. -/
def WriteResult.errno : WriteResult → Option Errno
  | .took _ => none
  | .failed errno => some errno

def kCheapPrepend : Nat := 8
def kInitialSize : Nat := 1024

/-- `sizeof extrabuf`. -/
def extrabufSize : Nat := 65536

structure Buffer where
  buffer_ : List Byte
  readerIndex_ : Nat
  writerIndex_ : Nat
  deriving DecidableEq, Repr

namespace Buffer

/-- The constructor. -/
def new (initialSize : Nat) : Buffer where
  buffer_ := List.replicate (kCheapPrepend + initialSize) 0
  readerIndex_ := kCheapPrepend
  writerIndex_ := kCheapPrepend

def readableBytes (b : Buffer) : Nat := b.writerIndex_ - b.readerIndex_
def writableBytes (b : Buffer) : Nat := b.buffer_.length - b.writerIndex_
def prependableBytes (b : Buffer) : Nat := b.readerIndex_

/-- The readable region. -/
def contents (b : Buffer) : List Byte := window b.buffer_ b.readerIndex_ b.writerIndex_

def retrieveAll (b : Buffer) : Buffer :=
  { b with readerIndex_ := kCheapPrepend, writerIndex_ := kCheapPrepend }

def retrieve (b : Buffer) (len : Nat) : Buffer :=
  if len < b.readableBytes then { b with readerIndex_ := b.readerIndex_ + len } else b.retrieveAll

/-- `std::string result(peek(), len)` comes before the length is clamped. -/
def retrieveAsString (b : Buffer) (len : Nat) : Option (List Byte × Buffer) :=
  (readRange b.buffer_ b.readerIndex_ len).map fun result => (result, b.retrieve len)

def retrieveAllAsString (b : Buffer) : Option (List Byte × Buffer) :=
  b.retrieveAsString b.readableBytes

/-- `std::copy` of `[first, first + n)` to `d_first`, which is undefined where
the destination starts inside the source range. -/
def stdCopy (v : List Byte) (first n d_first : Nat) : Option (List Byte) :=
  if first ≤ d_first ∧ d_first < first + n then none else copyForward v first d_first n

def makeSpace (b : Buffer) (len : Nat) : Option Buffer :=
  if b.writableBytes + b.prependableBytes < len + kCheapPrepend then
    some { b with buffer_ := resize b.buffer_ (b.writerIndex_ + len) 0 }
  else
    let readable := b.readableBytes
    (stdCopy b.buffer_ b.readerIndex_ readable kCheapPrepend).map fun v =>
      { buffer_ := v, readerIndex_ := kCheapPrepend, writerIndex_ := kCheapPrepend + readable }

def ensureWritableBytes (b : Buffer) (len : Nat) : Option Buffer :=
  if b.writableBytes < len then b.makeSpace len else some b

def append (b : Buffer) (data : List Byte) : Option Buffer :=
  (b.ensureWritableBytes data.length).bind fun b' =>
    (overwrite b'.buffer_ b'.writerIndex_ data).map fun v =>
      { b' with buffer_ := v, writerIndex_ := b'.writerIndex_ + data.length }

/-- What the iovecs of `readFd` hold together. -/
def readCapacity (b : Buffer) : Nat :=
  if b.writableBytes < extrabufSize then b.writableBytes + extrabufSize else b.writableBytes

/-- `readv` fills the tail of the vector first and `extrabuf` with the rest.
The result is the return value, `*savedErrno` where it is set, and the buffer. -/
def readFd (b : Buffer) : ReadvResult → Option (Int × Option Errno × Buffer)
  | .failed errno => some (-1, some errno, b)
  | .delivered bytes =>
    let writable := b.writableBytes
    let n := bytes.length
    (overwrite b.buffer_ b.writerIndex_ (bytes.take writable)).bind fun v =>
      if n < writable then
        some (n, none, { b with buffer_ := v, writerIndex_ := b.writerIndex_ + n })
      else
        (append { b with buffer_ := v, writerIndex_ := v.length } (bytes.drop writable)).map
          fun b' => (n, none, b')

/-- The return value of `write` on the readable region, `*savedErrno` where the
call has set it, and the bytes the kernel accepted. -/
def writeFd (b : Buffer) (r : WriteResult) : Option (Int × Option Errno × List Byte) :=
  (readRange b.buffer_ b.readerIndex_ b.readableBytes).map fun data =>
    (r.count data, r.errno, r.accepted data)

/-! ## The index invariant -/

structure WF (b : Buffer) : Prop where
  prepend : kCheapPrepend ≤ b.readerIndex_
  ordered : b.readerIndex_ ≤ b.writerIndex_
  inside : b.writerIndex_ ≤ b.buffer_.length
  reset : b.readerIndex_ = b.writerIndex_ → b.readerIndex_ = kCheapPrepend

theorem WF.length_contents {b : Buffer} (h : b.WF) : b.contents.length = b.readableBytes :=
  length_window h.inside

theorem wf_new (initialSize : Nat) : (new initialSize).WF where
  prepend := le_rfl
  ordered := le_rfl
  inside := by simp [new]
  reset := fun _ => rfl

@[simp] theorem contents_new (initialSize : Nat) : (new initialSize).contents = [] :=
  window_self _ _

theorem WF.retrieveAll {b : Buffer} (h : b.WF) : b.retrieveAll.WF where
  prepend := le_rfl
  ordered := le_rfl
  inside := h.prepend.trans (h.ordered.trans h.inside)
  reset := fun _ => rfl

@[simp] theorem contents_retrieveAll (b : Buffer) : b.retrieveAll.contents = [] := window_self _ _

theorem WF.retrieve {b : Buffer} (h : b.WF) (len : Nat) : (b.retrieve len).WF := by
  unfold Buffer.retrieve
  split
  · rename_i hlt
    simp only [readableBytes] at hlt
    exact ⟨Nat.le_add_right_of_le h.prepend, by simp only; omega, h.inside, by simp only; omega⟩
  · exact h.retrieveAll

/-- `retrieve` drops `len` bytes from the front, or all there are. -/
theorem contents_retrieve {b : Buffer} (h : b.WF) (len : Nat) :
    (b.retrieve len).contents = b.contents.drop len := by
  unfold Buffer.retrieve
  split
  · exact (drop_window b.buffer_ b.readerIndex_ b.writerIndex_ len).symm
  · rename_i hge
    rw [contents_retrieveAll, List.drop_eq_nil_of_le]
    rw [h.length_contents]
    omega

theorem retrieveAsString_eq {b : Buffer} (h : b.WF) {len : Nat} (hlen : len ≤ b.readableBytes) :
    b.retrieveAsString len = some (b.contents.take len, b.retrieve len) := by
  have ho := h.ordered
  have hi := h.inside
  simp only [readableBytes] at hlen
  have hread : readRange b.buffer_ b.readerIndex_ len = some (b.contents.take len) := by
    rw [readRange, if_pos (by omega), contents, take_window (by omega)]
  rw [retrieveAsString, hread, Option.map_some]

/-- Compaction finds its destination before the readable region: the free
bytes behind the region do not suffice, those in front are needed. -/
theorem compact_below {b : Buffer} (h : b.WF) {len : Nat} (hw : b.writableBytes < len)
    (hc : ¬ b.writableBytes + b.prependableBytes < len + kCheapPrepend) :
    kCheapPrepend < b.readerIndex_ := by
  have hp := h.prepend
  simp only [prependableBytes] at hc
  omega

theorem makeSpace_spec {b : Buffer} (h : b.WF) {len : Nat} (hw : b.writableBytes < len) :
    ∃ b', b.makeSpace len = some b' ∧ b'.WF ∧ b'.contents = b.contents ∧
      len ≤ b'.writableBytes := by
  have hp := h.prepend
  have ho := h.ordered
  have hi := h.inside
  unfold makeSpace
  split
  · refine ⟨_, rfl, ⟨hp, ho, by simp, h.reset⟩, window_resize hi (Nat.le_add_right _ _), ?_⟩
    simp [writableBytes]
  · rename_i hc
    have hlt := compact_below h hw hc
    have hread : b.readerIndex_ + b.readableBytes = b.writerIndex_ := by
      simp only [readableBytes]; omega
    obtain ⟨v, hv, hlen, hwin⟩ := window_copyForward b.buffer_ b.readableBytes
      hlt.le (by omega : b.readerIndex_ + b.readableBytes ≤ b.buffer_.length)
    rw [hread] at hwin
    have hcopy : stdCopy b.buffer_ b.readerIndex_ b.readableBytes kCheapPrepend = some v := by
      rw [stdCopy, if_neg (by omega), hv]
    simp only [hcopy, Option.map_some]
    refine ⟨_, rfl, ⟨le_rfl, Nat.le_add_right _ _, ?_, fun _ => rfl⟩, hwin, ?_⟩
    · simp only [hlen]; omega
    · simp only [writableBytes, prependableBytes] at hw hc ⊢
      rw [hlen]
      omega

theorem ensureWritableBytes_spec {b : Buffer} (h : b.WF) (len : Nat) :
    ∃ b', b.ensureWritableBytes len = some b' ∧ b'.WF ∧ b'.contents = b.contents ∧
      len ≤ b'.writableBytes := by
  unfold ensureWritableBytes
  split
  · rename_i hw
    exact makeSpace_spec h hw
  · rename_i hw
    exact ⟨b, rfl, h, rfl, by omega⟩

theorem append_spec {b : Buffer} (h : b.WF) (data : List Byte) :
    ∃ b', b.append data = some b' ∧ b'.WF ∧ b'.contents = b.contents ++ data := by
  obtain ⟨m, hm, hwf, hcont, hroom⟩ := ensureWritableBytes_spec h data.length
  have hi := hwf.inside
  simp only [writableBytes] at hroom
  obtain ⟨v, hv, hlen, hwin⟩ := window_overwrite data hwf.ordered
    (by omega : m.writerIndex_ + data.length ≤ m.buffer_.length)
  refine ⟨{ m with buffer_ := v, writerIndex_ := m.writerIndex_ + data.length },
    by rw [append, hm, Option.bind_some, hv, Option.map_some],
    ⟨hwf.prepend, Nat.le_add_right_of_le hwf.ordered, by simp only [hlen]; omega, ?_⟩, ?_⟩
  · have ho := hwf.ordered
    have hr := hwf.reset
    intro he
    simp only at he ⊢
    exact hr (by omega)
  · rw [contents, hwin, ← hcont]
    rfl

/-- `readFd` appends what was delivered, however it was split over the iovecs. -/
theorem readFd_delivered {b : Buffer} (h : b.WF) (bytes : List Byte) :
    ∃ b' : Buffer, b.readFd (.delivered bytes) = some ((bytes.length : Int), none, b') ∧ b'.WF ∧
      b'.contents = b.contents ++ bytes := by
  have ho := h.ordered
  have hi := h.inside
  have hfit : b.writerIndex_ + (bytes.take b.writableBytes).length ≤ b.buffer_.length := by
    simp only [List.length_take, writableBytes]; omega
  obtain ⟨v, hv, hlen, hwin⟩ := window_overwrite _ ho hfit
  unfold readFd
  simp only [hv, Option.bind_some]
  split
  · rename_i hlt
    have htake : bytes.take b.writableBytes = bytes := List.take_of_length_le hlt.le
    rw [htake] at hwin hfit
    refine ⟨_, rfl, ⟨h.prepend, Nat.le_add_right_of_le ho, by simp only [hlen]; exact hfit, ?_⟩, hwin⟩
    have hr := h.reset
    intro he
    simp only at he ⊢
    exact hr (by omega)
  · rename_i hge
    -- the vector is full; the rest of the bytes sits in `extrabuf`
    have hfull : b.writerIndex_ + (bytes.take b.writableBytes).length = v.length := by
      simp only [List.length_take, writableBytes] at hge ⊢; omega
    have hwf : Buffer.WF { b with buffer_ := v, writerIndex_ := v.length } := by
      refine ⟨h.prepend, by simp only; omega, le_rfl, ?_⟩
      have hr := h.reset
      intro he
      simp only at he ⊢
      exact hr (by omega)
    obtain ⟨b', hb', hwf', hcont'⟩ := append_spec hwf (bytes.drop b.writableBytes)
    refine ⟨b', by rw [hb', Option.map_some], hwf', hcont'.trans ?_⟩
    rw [hfull] at hwin
    rw [contents, hwin, List.append_assoc, List.take_append_drop]
    rfl

theorem readFd_failed (b : Buffer) (errno : Errno) :
    b.readFd (.failed errno) = some (-1, some errno, b) := rfl

theorem writeFd_eq {b : Buffer} (h : b.WF) (r : WriteResult) :
    b.writeFd r = some (r.count b.contents, r.errno, r.accepted b.contents) := by
  have ho := h.ordered
  have hi := h.inside
  have hsum : b.readerIndex_ + b.readableBytes = b.writerIndex_ := by
    simp only [readableBytes]; omega
  have hread : readRange b.buffer_ b.readerIndex_ b.readableBytes = some b.contents := by
    rw [readRange, hsum, if_pos hi, contents]
  rw [writeFd, hread, Option.map_some]

end Buffer

end Mymuduo
