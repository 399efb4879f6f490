import Mymuduo.Buffer.ByteQueue

/-!
# How making room changes the vector

`makeSpace` resizes only where the free bytes in front of and behind the
readable region do not suffice together. So a vector that is long enough for
everything that is ever readable at once is never resized again, and one that
is resized was short: it at most doubles what is needed.
-/

namespace Mymuduo.Buffer

open Mymuduo.Library.Window

/-- What happens to the size of a vector that is to hold `M` readable bytes. -/
structure Grows (M before after : Nat) : Prop where
  no_shrink : before ≤ after
  bounded : after ≤ max before (2 * M + 8)
  settled : M + 8 ≤ before → after = before

theorem Grows.refl (M n : Nat) : Grows M n n := ⟨le_rfl, le_max_left _ _, fun _ => rfl⟩

theorem Grows.trans {M k m n : Nat} (h : Grows M k m) (h' : Grows M m n) : Grows M k n where
  no_shrink := h.no_shrink.trans h'.no_shrink
  bounded := h'.bounded.trans (max_le h.bounded (le_max_right _ _))
  settled hk := by
    have hm := h.settled hk
    rw [h'.settled (hm ▸ hk), hm]

variable {M : Nat} {b b' : Buffer}

/-- A resize is called for by bytes that do not fit beside the readable ones. -/
theorem grows_makeSpace (h : b.WF) {len : Nat} (hw : b.writableBytes < len)
    (hM : b.readableBytes + len ≤ M) (hb : b.makeSpace len = some b') :
    Grows M b.buffer_.length b'.buffer_.length := by
  have hp := h.prepend
  have ho := h.ordered
  have hi := h.inside
  simp only [writableBytes, readableBytes] at hw hM
  unfold makeSpace at hb
  split at hb
  · rename_i hshort
    obtain rfl := Option.some.inj hb
    simp only [writableBytes, prependableBytes, kCheapPrepend] at hshort
    simp only [length_resize]
    exact ⟨by omega, by omega, fun hlong => by omega⟩
  · obtain ⟨v, hv, rfl⟩ := Option.map_eq_some_iff.mp hb
    have hlen : v.length = b.buffer_.length := by
      unfold stdCopy at hv
      split at hv
      · cases hv
      · exact length_of_copyForward _ hv
    simp only [hlen]
    exact .refl M _

theorem grows_ensureWritableBytes (h : b.WF) {len : Nat} (hM : b.readableBytes + len ≤ M)
    (hb : b.ensureWritableBytes len = some b') :
    Grows M b.buffer_.length b'.buffer_.length := by
  unfold ensureWritableBytes at hb
  split at hb
  · rename_i hw
    exact grows_makeSpace h hw hM hb
  · obtain rfl := Option.some.inj hb
    exact .refl M _

theorem grows_append (h : b.WF) {data : List Byte} (hM : b.readableBytes + data.length ≤ M)
    (hb : b.append data = some b') : Grows M b.buffer_.length b'.buffer_.length := by
  obtain ⟨m, hm, hb⟩ := Option.bind_eq_some_iff.mp hb
  obtain ⟨v, hv, rfl⟩ := Option.map_eq_some_iff.mp hb
  simp only [length_of_overwrite hv]
  exact grows_ensureWritableBytes h hM hm

theorem length_retrieve (b : Buffer) (len : Nat) :
    (b.retrieve len).buffer_.length = b.buffer_.length := by
  unfold retrieve retrieveAll
  split <;> rfl

end Mymuduo.Buffer
