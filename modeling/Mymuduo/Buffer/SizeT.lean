import Mymuduo.Buffer.ByteQueue

/-!
# The buffer in the arithmetic of `size_t`

The operations of `Buffer` with every sum and difference taken modulo 2^64, and
with a `resize` that may throw. A call returns, or throws, or accesses memory
outside the vector; the first two leave a buffer. Sums and differences that do
not wrap are those of the natural numbers.
-/

namespace Mymuduo

open Mymuduo.Library
open Mymuduo.Library.Window
open Mymuduo.Buffer (Op Result)

universe u v

/-- `a + b` in `size_t`. -/
def addSize (a b : Nat) : Nat := (a + b) % 0x10000000000000000

/-- `a - b` in `size_t`. -/
def subSize (a b : Nat) : Nat := (a + (0x10000000000000000 - b)) % 0x10000000000000000

theorem addSize_of_lt {a b : Nat} (h : a + b < 0x10000000000000000) : addSize a b = a + b :=
  Nat.mod_eq_of_lt h

theorem addSize_of_ge {a b : Nat} (ha : a < 0x10000000000000000) (hb : b < 0x10000000000000000)
    (h : 0x10000000000000000 ≤ a + b) : addSize a b = a + b - 0x10000000000000000 := by
  unfold addSize
  omega

theorem subSize_of_le {a b : Nat} (hle : b ≤ a) (ha : a < 0x10000000000000000) :
    subSize a b = a - b := by
  unfold subSize
  omega

/-- `max_size()` of a `std::vector<char>`. -/
def maxSize : Nat := 0x7fffffffffffffff

/-- How a call ends, with the buffer it leaves. -/
inductive Outcome (α : Type u)
  | returned (value : α) (b : Buffer)
  /-- `resize` has thrown -/
  | threw (b : Buffer)
  /-- memory outside the vector is accessed -/
  | outside
  deriving DecidableEq

namespace Outcome

variable {α : Type u} {β : Type v}

/-- Go on after a call that returns. -/
def bind (o : Outcome α) (f : α → Buffer → Outcome β) : Outcome β :=
  match o with
  | returned a b => f a b
  | threw b => threw b
  | outside => outside

/-- The buffer that is left, if the call ends. -/
def left? : Outcome α → Option Buffer
  | returned _ b | threw b => some b
  | outside => none

/-- Whatever buffer is left meets `P`. -/
def Leaves (P : Buffer → Prop) (o : Outcome α) : Prop := ∀ b, o.left? = some b → P b

theorem leaves_returned {P : Buffer → Prop} {a : α} {b : Buffer} (h : P b) :
    (returned a b).Leaves P := by
  intro b' hb'
  obtain rfl := Option.some.inj hb'
  exact h

theorem leaves_threw {P : Buffer → Prop} {b : Buffer} (h : P b) : (threw b : Outcome α).Leaves P := by
  intro b' hb'
  obtain rfl := Option.some.inj hb'
  exact h

theorem leaves_outside {P : Buffer → Prop} : (outside : Outcome α).Leaves P := by
  intro b' hb'
  cases hb'

theorem Leaves.bind {P Q : Buffer → Prop} {o : Outcome α} {f : α → Buffer → Outcome β}
    (h : o.Leaves P) (hf : ∀ a b, P b → (f a b).Leaves Q) (hq : ∀ b, P b → Q b) :
    (o.bind f).Leaves Q := by
  cases o with
  | returned a b => exact hf a b (h b rfl)
  | threw b => exact leaves_threw (hq b (h b rfl))
  | outside => exact leaves_outside

/-- A call that answers with what another one has found. -/
theorem Leaves.reply {P : Buffer → Prop} {o : Outcome α} {f : α → Buffer → β} (h : o.Leaves P) :
    (o.bind fun a b => .returned (f a b) b).Leaves P :=
  h.bind (fun _ _ h' => leaves_returned h') fun _ h' => h'

end Outcome

namespace SizeT

open Outcome

/-- The constructor; none if it throws. -/
def new (alloc : Bool) (initialSize : Nat) : Option Buffer :=
  let n := addSize kCheapPrepend initialSize
  if maxSize < n ∨ ¬alloc then none
  else some
    { buffer_ := List.replicate n 0
      readerIndex_ := kCheapPrepend
      writerIndex_ := kCheapPrepend }

def readableBytes (b : Buffer) : Nat := subSize b.writerIndex_ b.readerIndex_
def writableBytes (b : Buffer) : Nat := subSize b.buffer_.length b.writerIndex_

def retrieve (b : Buffer) (len : Nat) : Buffer :=
  if len < readableBytes b then { b with readerIndex_ := addSize b.readerIndex_ len }
  else b.retrieveAll

def retrieveAsString (b : Buffer) (len : Nat) : Outcome (List Byte) :=
  match readRange b.buffer_ b.readerIndex_ len with
  | some result => .returned result (retrieve b len)
  | none => .outside

def retrieveAllAsString (b : Buffer) : Outcome (List Byte) := retrieveAsString b (readableBytes b)

/-- `std::vector::resize`; none if it throws. A vector that shrinks needs no memory. -/
def vectorResize (alloc : Bool) (v : List Byte) (n : Nat) : Option (List Byte) :=
  if v.length < n ∧ (maxSize < n ∨ ¬alloc) then none else some (resize v n 0)

def makeSpace (alloc : Bool) (b : Buffer) (len : Nat) : Outcome Unit :=
  if addSize (writableBytes b) b.prependableBytes < addSize len kCheapPrepend then
    match vectorResize alloc b.buffer_ (addSize b.writerIndex_ len) with
    | some v => .returned () { b with buffer_ := v }
    | none => .threw b
  else
    let readable := readableBytes b
    match Buffer.stdCopy b.buffer_ b.readerIndex_ readable kCheapPrepend with
    | some v => .returned ()
        { buffer_ := v
          readerIndex_ := kCheapPrepend
          writerIndex_ := addSize kCheapPrepend readable }
    | none => .outside

def ensureWritableBytes (alloc : Bool) (b : Buffer) (len : Nat) : Outcome Unit :=
  if writableBytes b < len then makeSpace alloc b len else .returned () b

/-- `append` after it has made room. -/
def copyIn (data : List Byte) (b : Buffer) : Outcome Unit :=
  match overwrite b.buffer_ b.writerIndex_ data with
  | some v => .returned () { b with
      buffer_ := v
      writerIndex_ := addSize b.writerIndex_ data.length }
  | none => .outside

def append (alloc : Bool) (b : Buffer) (data : List Byte) : Outcome Unit :=
  (ensureWritableBytes alloc b data.length).bind fun _ b' => copyIn data b'

/-- What the iovecs of `readFd` hold together. -/
def readCapacity (b : Buffer) : Nat :=
  if writableBytes b < extrabufSize then writableBytes b + extrabufSize else writableBytes b

def readFd (alloc : Bool) (b : Buffer) : ReadvResult → Outcome Int
  | .failed _ => .returned (-1) b
  | .delivered bytes =>
    let writable := writableBytes b
    let n := bytes.length
    match overwrite b.buffer_ b.writerIndex_ (bytes.take writable) with
    | some v =>
      if n < writable then
        .returned n { b with buffer_ := v, writerIndex_ := addSize b.writerIndex_ n }
      else
        (append alloc { b with buffer_ := v, writerIndex_ := v.length } (bytes.drop writable)).bind
          fun _ b' => .returned n b'
    | none => .outside

def writeFd (b : Buffer) (r : WriteResult) : Outcome (Int × List Byte) :=
  match readRange b.buffer_ b.readerIndex_ (readableBytes b) with
  | some data => .returned (r.count data, r.accepted data) b
  | none => .outside

def apply (alloc : Bool) (b : Buffer) : Op → Outcome Result
  | .append data => (append alloc b data).bind fun _ b' => .returned .void b'
  | .ensureWritableBytes len =>
    (ensureWritableBytes alloc b len).bind fun _ b' => .returned .void b'
  | .retrieve len => .returned .void (retrieve b len)
  | .retrieveAll => .returned .void b.retrieveAll
  | .retrieveAsString len => (retrieveAsString b len).bind fun s b' => .returned (.string s) b'
  | .retrieveAllAsString => (retrieveAllAsString b).bind fun s b' => .returned (.string s) b'
  | .readFd r => (readFd alloc b r).bind fun n b' => .returned (.read n) b'
  | .writeFd r => (writeFd b r).bind fun (n, accepted) b' => .returned (.wrote n accepted) b'

/-- The lengths are of type `size_t`, and `readv` delivers no more than its iovecs hold. -/
def Sized (b : Buffer) : Op → Prop
  | .append data => data.length < 0x10000000000000000
  | .ensureWritableBytes len | .retrieve len | .retrieveAsString len => len < 0x10000000000000000
  | .readFd (.delivered bytes) => bytes.length ≤ readCapacity b
  | .readFd (.failed _) | .retrieveAll | .retrieveAllAsString | .writeFd _ => True

instance (b : Buffer) : ∀ op, Decidable (Sized b op)
  | .append _ | .ensureWritableBytes _ | .retrieve _ | .retrieveAsString _ =>
    inferInstanceAs (Decidable (_ < _))
  | .readFd (.delivered _) => inferInstanceAs (Decidable (_ ≤ _))
  | .readFd (.failed _) | .retrieveAll | .retrieveAllAsString | .writeFd _ => .isTrue trivial

/-- One operation and whether memory can be had; an exception is caught by the
caller, who goes on with the buffer. -/
def step (b : Buffer) (call : Op × Bool) : Option Buffer :=
  if Sized b call.1 then (apply call.2 b call.1).left? else none

/-! ## What every operation keeps -/

/-- What holds of the indices even where a sum has wrapped. -/
structure Ordered (b : Buffer) : Prop where
  prepend : kCheapPrepend ≤ b.readerIndex_
  ordered : b.readerIndex_ ≤ b.writerIndex_
  writer : b.writerIndex_ ≤ maxSize
  size : b.buffer_.length ≤ maxSize

theorem Ordered.readableBytes_eq {b : Buffer} (h : Ordered b) :
    SizeT.readableBytes b = b.readableBytes := by
  have hw := h.writer
  rw [maxSize] at hw
  exact subSize_of_le h.ordered (by omega)

theorem ordered_new {alloc : Bool} {initialSize : Nat} {b : Buffer}
    (h : new alloc initialSize = some b) : Ordered b := by
  simp only [new, Option.ite_none_left_eq_some, not_or, Option.some.injEq] at h
  obtain ⟨⟨hmax, -⟩, rfl⟩ := h
  constructor
  · exact Nat.le_refl _
  · exact Nat.le_refl _
  · show 8 ≤ 0x7fffffffffffffff
    omega
  · rw [List.length_replicate]
    omega

theorem Ordered.retrieveAll {b : Buffer} (h : Ordered b) : Ordered b.retrieveAll := by
  constructor
  · exact Nat.le_refl _
  · exact Nat.le_refl _
  · show 8 ≤ 0x7fffffffffffffff
    omega
  · exact h.size

/-- `retrieve` never wraps. -/
theorem Ordered.retrieve_eq {b : Buffer} (h : Ordered b) (len : Nat) :
    SizeT.retrieve b len = b.retrieve len := by
  have ho := h.ordered
  have hw := h.writer
  rw [maxSize] at hw
  rw [SizeT.retrieve, Buffer.retrieve, h.readableBytes_eq]
  split
  · rename_i hlt
    rw [Buffer.readableBytes] at hlt
    rw [addSize_of_lt (by omega)]
  · rfl

theorem Ordered.retrieve {b : Buffer} (h : Ordered b) (len : Nat) :
    Ordered (SizeT.retrieve b len) := by
  have hp := h.prepend
  have ho := h.ordered
  rw [h.retrieve_eq, Buffer.retrieve]
  split
  · rename_i hlt
    rw [Buffer.readableBytes] at hlt
    constructor
    · show kCheapPrepend ≤ b.readerIndex_ + len
      omega
    · show b.readerIndex_ + len ≤ b.writerIndex_
      omega
    · exact h.writer
    · exact h.size
  · exact h.retrieveAll

theorem Ordered.retrieveAsString {b : Buffer} (h : Ordered b) (len : Nat) :
    (SizeT.retrieveAsString b len).Leaves Ordered := by
  unfold SizeT.retrieveAsString
  split
  · exact leaves_returned (h.retrieve len)
  · exact leaves_outside

theorem length_vectorResize {alloc : Bool} {v v' : List Byte} {n : Nat}
    (h : vectorResize alloc v n = some v') (hv : v.length ≤ maxSize) : v'.length ≤ maxSize := by
  simp only [vectorResize, Option.ite_none_left_eq_some, not_and_or, not_or, not_lt,
    Option.some.injEq] at h
  obtain ⟨hcases, rfl⟩ := h
  rw [length_resize]
  omega

theorem length_stdCopy {v v' : List Byte} {first n d_first : Nat}
    (h : Buffer.stdCopy v first n d_first = some v') : v'.length = v.length := by
  rw [Buffer.stdCopy, Option.ite_none_left_eq_some] at h
  exact length_of_copyForward n h.2

theorem Ordered.makeSpace {b : Buffer} (h : Ordered b) (alloc : Bool) (len : Nat) :
    (SizeT.makeSpace alloc b len).Leaves Ordered := by
  unfold SizeT.makeSpace
  split
  · split
    · rename_i v hv
      exact leaves_returned ⟨h.prepend, h.ordered, h.writer, length_vectorResize hv h.size⟩
    · exact leaves_threw h
  · have hp := h.prepend
    have ho := h.ordered
    have hw := h.writer
    rw [maxSize] at hw
    have hread : kCheapPrepend + b.readableBytes ≤ b.writerIndex_ := by
      rw [Buffer.readableBytes]
      omega
    dsimp only
    split
    · rename_i v hv
      rw [h.readableBytes_eq, addSize_of_lt (by omega)]
      refine leaves_returned ⟨Nat.le_refl _, Nat.le_add_right _ _, hread.trans h.writer, ?_⟩
      rw [length_stdCopy hv]
      exact h.size
    · exact leaves_outside

theorem Ordered.ensureWritableBytes {b : Buffer} (h : Ordered b) (alloc : Bool) (len : Nat) :
    (SizeT.ensureWritableBytes alloc b len).Leaves Ordered := by
  unfold SizeT.ensureWritableBytes
  split
  · exact h.makeSpace alloc len
  · exact leaves_returned h

/-- Bytes that are copied into the vector end before its end. -/
theorem fits_of_overwrite {v v' xs : List Byte} {pos : Nat} (h : overwrite v pos xs = some v') :
    pos + xs.length ≤ v.length := by
  rw [overwrite, Option.ite_none_right_eq_some] at h
  exact h.1

/-- The writing end moves over bytes that fit into the vector. -/
theorem Ordered.write {b : Buffer} (h : Ordered b) {v : List Byte}
    (hlen : v.length = b.buffer_.length) {n : Nat} (hfits : b.writerIndex_ + n ≤ v.length) :
    Ordered { b with buffer_ := v, writerIndex_ := addSize b.writerIndex_ n } := by
  have ho := h.ordered
  have hsize := h.size
  have hsum : addSize b.writerIndex_ n = b.writerIndex_ + n := by
    rw [maxSize] at hsize
    exact addSize_of_lt (by omega)
  rw [maxSize] at hsize
  refine ⟨h.prepend, ?_, ?_, ?_⟩
  · show b.readerIndex_ ≤ addSize b.writerIndex_ n
    omega
  · show addSize b.writerIndex_ n ≤ 0x7fffffffffffffff
    omega
  · show v.length ≤ 0x7fffffffffffffff
    omega

theorem Ordered.copyIn {b : Buffer} (h : Ordered b) (data : List Byte) :
    (SizeT.copyIn data b).Leaves Ordered := by
  unfold SizeT.copyIn
  split
  · rename_i v hv
    have hfits := fits_of_overwrite hv
    have hlen := length_of_overwrite hv
    exact leaves_returned (h.write hlen (by omega))
  · exact leaves_outside

theorem Ordered.append {b : Buffer} (h : Ordered b) (alloc : Bool) (data : List Byte) :
    (SizeT.append alloc b data).Leaves Ordered :=
  (h.ensureWritableBytes alloc data.length).bind (fun _ _ h' => h'.copyIn data) fun _ h' => h'

theorem Ordered.readFd {b : Buffer} (h : Ordered b) (alloc : Bool) (r : ReadvResult) :
    (SizeT.readFd alloc b r).Leaves Ordered := by
  cases r with
  | failed errno => exact leaves_returned h
  | delivered bytes =>
    rw [SizeT.readFd]
    split
    · rename_i v hv
      have hfits := fits_of_overwrite hv
      have hlen := length_of_overwrite hv
      have ho := h.ordered
      have hsize := h.size
      split
      · rename_i hlt
        -- all that was delivered is in the vector
        have htake : bytes.take (writableBytes b) = bytes :=
          List.take_of_length_le (Nat.le_of_lt hlt)
        rw [htake] at hfits
        exact leaves_returned (h.write hlen (by omega))
      · have hfull : Ordered { b with buffer_ := v, writerIndex_ := v.length } := by
          constructor
          · exact h.prepend
          · show b.readerIndex_ ≤ v.length
            omega
          · show v.length ≤ maxSize
            omega
          · show v.length ≤ maxSize
            omega
        exact (hfull.append alloc _).bind (fun _ _ h' => leaves_returned h') fun _ h' => h'
    · exact leaves_outside

theorem Ordered.apply {b : Buffer} (h : Ordered b) (alloc : Bool) (op : Op) :
    (SizeT.apply alloc b op).Leaves Ordered := by
  cases op with
  | append data => exact (h.append alloc data).reply
  | ensureWritableBytes len => exact (h.ensureWritableBytes alloc len).reply
  | retrieve len => exact leaves_returned (h.retrieve len)
  | retrieveAll => exact leaves_returned h.retrieveAll
  | retrieveAsString len => exact (h.retrieveAsString len).reply
  | retrieveAllAsString => exact (h.retrieveAsString _).reply
  | readFd r => exact (h.readFd alloc r).reply
  | writeFd r =>
    refine Leaves.reply ?_
    unfold SizeT.writeFd
    split
    · exact leaves_returned h
    · exact leaves_outside

theorem Ordered.step {b b' : Buffer} (h : Ordered b) {call : Op × Bool}
    (hs : SizeT.step b call = some b') : Ordered b' := by
  rw [SizeT.step, Option.ite_none_right_eq_some] at hs
  exact h.apply call.2 call.1 b' hs.2

/-- A buffer after its constructor and any operations, some of which may have thrown. -/
def Reachable (b : Buffer) : Prop :=
  ∃ alloc initialSize b₀ calls, new alloc initialSize = some b₀ ∧
    Execution.exec step b₀ calls = some b

theorem Reachable.ordered {b : Buffer} (h : Reachable b) : Ordered b := by
  obtain ⟨alloc, initialSize, b₀, calls, hnew, hrun⟩ := h
  exact Execution.exec_preserves Ordered (fun _ _ _ hi hs => hi.step hs) (ordered_new hnew) hrun

end SizeT

end Mymuduo
