import Mymuduo.Buffer.Storage

/-!
# Buffers that keep their invariant

A `SoundBuffer` is a buffer together with the proof of its index invariant.
Its operations are those of the code, which the invariant makes total, and
each of them is described by what it does to the readable bytes.
-/

namespace Mymuduo

structure SoundBuffer where
  raw : Buffer
  wf : raw.WF
  deriving DecidableEq

namespace SoundBuffer

def new (initialSize : Nat) : SoundBuffer := ⟨Buffer.new initialSize, Buffer.wf_new initialSize⟩

def contents (b : SoundBuffer) : List Byte := b.raw.contents
def readableBytes (b : SoundBuffer) : Nat := b.raw.readableBytes
def writableBytes (b : SoundBuffer) : Nat := b.raw.writableBytes

def retrieve (b : SoundBuffer) (len : Nat) : SoundBuffer := ⟨b.raw.retrieve len, b.wf.retrieve len⟩

theorem append_isSome (b : SoundBuffer) (data : List Byte) : (b.raw.append data).isSome := by
  obtain ⟨b', hb, -, -⟩ := Buffer.append_spec b.wf data
  rw [hb, Option.isSome_some]

theorem append_get (b : SoundBuffer) (data : List Byte) :
    ((b.raw.append data).get (b.append_isSome data)).WF ∧
      ((b.raw.append data).get (b.append_isSome data)).contents = b.raw.contents ++ data := by
  obtain ⟨b', hb, hwf, hc⟩ := Buffer.append_spec b.wf data
  simp only [hb, Option.get_some]
  exact ⟨hwf, hc⟩

def append (b : SoundBuffer) (data : List Byte) : SoundBuffer :=
  ⟨(b.raw.append data).get (b.append_isSome data), (b.append_get data).1⟩

/-- `readv` places no more than the iovecs hold. -/
def arrived (b : SoundBuffer) : ReadvResult → ReadvResult
  | .delivered bytes => .delivered (bytes.take b.raw.readCapacity)
  | .failed errno => .failed errno

theorem readFd_isSome (b : SoundBuffer) (r : ReadvResult) : (b.raw.readFd r).isSome := by
  cases r with
  | delivered bytes =>
    obtain ⟨b', hb, -, -⟩ := Buffer.readFd_delivered b.wf bytes
    rw [hb, Option.isSome_some]
  | failed errno => rw [Buffer.readFd_failed, Option.isSome_some]

theorem readFd_wf (b : SoundBuffer) (r : ReadvResult) :
    ((b.raw.readFd r).get (b.readFd_isSome r)).2.2.WF := by
  cases r with
  | delivered bytes =>
    obtain ⟨b', hb, hwf, -⟩ := Buffer.readFd_delivered b.wf bytes
    simp only [hb, Option.get_some]
    exact hwf
  | failed errno => exact b.wf

/-- The return value of `readFd`, and the buffer. -/
def readFd (b : SoundBuffer) (r : ReadvResult) : Int × SoundBuffer :=
  (((b.raw.readFd (b.arrived r)).get (b.readFd_isSome _)).1,
    ⟨((b.raw.readFd (b.arrived r)).get (b.readFd_isSome _)).2.2, b.readFd_wf _⟩)

theorem writeFd_isSome (b : SoundBuffer) (r : WriteResult) : (b.raw.writeFd r).isSome := by
  rw [Buffer.writeFd_eq b.wf, Option.isSome_some]

/-- The return value of `writeFd`, and the bytes that reached the kernel. -/
def writeFd (b : SoundBuffer) (r : WriteResult) : Int × List Byte :=
  (((b.raw.writeFd r).get (b.writeFd_isSome r)).1, ((b.raw.writeFd r).get (b.writeFd_isSome r)).2.2)

theorem retrieveAllAsString_eq (b : SoundBuffer) :
    b.raw.retrieveAllAsString = some (b.contents, b.raw.retrieve b.raw.readableBytes) := by
  have htake : b.raw.contents.take b.raw.readableBytes = b.raw.contents :=
    List.take_of_length_le b.wf.length_contents.le
  rw [Buffer.retrieveAllAsString, Buffer.retrieveAsString_eq b.wf le_rfl, htake, contents]

theorem retrieveAllAsString_isSome (b : SoundBuffer) : b.raw.retrieveAllAsString.isSome := by
  rw [retrieveAllAsString_eq, Option.isSome_some]

theorem retrieveAllAsString_wf (b : SoundBuffer) :
    ((b.raw.retrieveAllAsString).get b.retrieveAllAsString_isSome).2.WF := by
  simp only [retrieveAllAsString_eq, Option.get_some]
  exact b.wf.retrieve _

def retrieveAllAsString (b : SoundBuffer) : List Byte × SoundBuffer :=
  ((b.raw.retrieveAllAsString.get b.retrieveAllAsString_isSome).1,
    ⟨(b.raw.retrieveAllAsString.get b.retrieveAllAsString_isSome).2, b.retrieveAllAsString_wf⟩)

@[simp] theorem retrieveAllAsString_fst (b : SoundBuffer) :
    b.retrieveAllAsString.1 = b.contents := by
  simp only [retrieveAllAsString, retrieveAllAsString_eq, Option.get_some]

@[simp] theorem contents_retrieveAllAsString (b : SoundBuffer) :
    b.retrieveAllAsString.2.contents = [] := by
  have hlen := b.wf.length_contents
  simp only [retrieveAllAsString, retrieveAllAsString_eq, Option.get_some, contents]
  rw [Buffer.contents_retrieve b.wf, ← hlen, List.drop_length]

/-- What `readv` has delivered follows what was there. -/
theorem readFd_delivered (b : SoundBuffer) (bytes : List Byte) :
    (b.readFd (.delivered bytes)).1 = ((bytes.take b.raw.readCapacity).length : Int) ∧
      (b.readFd (.delivered bytes)).2.contents =
        b.contents ++ bytes.take b.raw.readCapacity := by
  obtain ⟨b', hb, -, hc⟩ := Buffer.readFd_delivered b.wf (bytes.take b.raw.readCapacity)
  simp only [readFd, arrived, hb, Option.get_some, contents]
  exact ⟨trivial, hc⟩

theorem readFd_failed (b : SoundBuffer) (errno : Errno) : b.readFd (.failed errno) = (-1, b) := by
  simp only [readFd, arrived, Buffer.readFd_failed, Option.get_some]

@[simp] theorem contents_new (initialSize : Nat) : (new initialSize).contents = [] :=
  Buffer.contents_new initialSize

@[simp] theorem contents_append (b : SoundBuffer) (data : List Byte) :
    (b.append data).contents = b.contents ++ data :=
  (b.append_get data).2

@[simp] theorem contents_retrieve (b : SoundBuffer) (len : Nat) :
    (b.retrieve len).contents = b.contents.drop len :=
  Buffer.contents_retrieve b.wf len

theorem length_contents (b : SoundBuffer) : b.contents.length = b.readableBytes :=
  b.wf.length_contents

theorem readableBytes_eq_zero {b : SoundBuffer} : b.readableBytes = 0 ↔ b.contents = [] := by
  rw [← length_contents, List.length_eq_zero_iff]

@[simp] theorem writeFd_fst (b : SoundBuffer) (r : WriteResult) :
    (b.writeFd r).1 = r.count b.contents := by
  simp only [writeFd, Buffer.writeFd_eq b.wf, Option.get_some, contents]

@[simp] theorem writeFd_snd (b : SoundBuffer) (r : WriteResult) :
    (b.writeFd r).2 = r.accepted b.contents := by
  simp only [writeFd, Buffer.writeFd_eq b.wf, Option.get_some, contents]

end SoundBuffer

end Mymuduo
