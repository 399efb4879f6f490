import Mathlib.Data.List.Basic
import Mathlib.Data.List.TakeDrop

/-!
# Checked accesses to a vector

Reads and writes at an offset answer `none` where they would leave the vector.
`copyForward` is the element-by-element loop of an overlapping copy towards
the front. `window v lo hi` is the content of the half-open range.
-/

namespace Mymuduo.Library.Window

universe u

variable {α : Type u}

/-- The elements at the positions from `lo` up to `hi`. -/
def window (v : List α) (lo hi : Nat) : List α := (v.take hi).drop lo

def readRange (v : List α) (pos len : Nat) : Option (List α) :=
  if pos + len ≤ v.length then some (window v pos (pos + len)) else none

def overwrite (v : List α) (pos : Nat) (xs : List α) : Option (List α) :=
  if pos + xs.length ≤ v.length then some (v.take pos ++ xs ++ v.drop (pos + xs.length)) else none

/-- Copy `n` elements one by one, from low to high positions. -/
def copyForward (v : List α) (src dst : Nat) : Nat → Option (List α)
  | 0 => some v
  | n + 1 =>
    match v[src]? with
    | some x => if dst < v.length then copyForward (v.set dst x) (src + 1) (dst + 1) n else none
    | none => none

/-- Cut the vector off, or fill it up, to `n` elements. -/
def resize (v : List α) (n : Nat) (fill : α) : List α :=
  v.take n ++ List.replicate (n - v.length) fill

@[simp] theorem length_resize (v : List α) (n : Nat) (fill : α) :
    (resize v n fill).length = n := by
  simp [resize]
  omega

theorem length_window {v : List α} {lo hi : Nat} (h : hi ≤ v.length) :
    (window v lo hi).length = hi - lo := by
  simp [window]
  omega

@[simp] theorem window_self (v : List α) (lo : Nat) : window v lo lo = [] :=
  List.drop_eq_nil_of_le (List.length_take_le lo v)

theorem drop_window (v : List α) (lo hi n : Nat) :
    (window v lo hi).drop n = window v (lo + n) hi := by
  simp [window, List.drop_drop]

theorem take_window {v : List α} {lo hi n : Nat} (h : lo + n ≤ hi) :
    (window v lo hi).take n = window v lo (lo + n) := by
  rw [window, window, List.take_drop, List.take_take, Nat.min_eq_left h]

theorem window_resize {v : List α} {lo hi n : Nat} {fill : α} (hv : hi ≤ v.length)
    (hn : hi ≤ n) : window (resize v n fill) lo hi = window v lo hi := by
  rw [window, window, resize, List.take_append_of_le_length (by simp; omega), List.take_take,
    Nat.min_eq_left hn]

theorem length_of_overwrite {v v' xs : List α} {pos : Nat} (h : overwrite v pos xs = some v') :
    v'.length = v.length := by
  unfold overwrite at h
  split at h
  · obtain rfl := Option.some.inj h
    simp only [List.length_append, List.length_take, List.length_drop]
    omega
  · cases h

theorem length_of_copyForward {v v' : List α} {src dst : Nat} (n : Nat)
    (h : copyForward v src dst n = some v') : v'.length = v.length := by
  induction n generalizing v src dst with
  | zero =>
    obtain rfl := Option.some.inj h
    rfl
  | succ n ih =>
    rw [copyForward] at h
    split at h
    · split at h
      · exact (ih h).trans List.length_set
      · cases h
    · cases h

/-- Writing at the end of a window extends it. -/
theorem window_overwrite {v : List α} (xs : List α) {lo pos : Nat} (hlo : lo ≤ pos)
    (hv : pos + xs.length ≤ v.length) :
    ∃ v', overwrite v pos xs = some v' ∧ v'.length = v.length ∧
      window v' lo (pos + xs.length) = window v lo pos ++ xs := by
  refine ⟨_, if_pos hv, by simp; omega, ?_⟩
  have hp : (v.take pos).length = pos := by rw [List.length_take]; omega
  have htake : (v.take pos ++ xs ++ v.drop (pos + xs.length)).take (pos + xs.length) =
      v.take pos ++ xs := List.take_left' (by rw [List.length_append, hp])
  rw [window, window, htake, List.drop_append_of_le_length (by rw [hp]; exact hlo)]

/-- Towards the front the loop reads every element before it overwrites it. -/
theorem copyForward_eq {v : List α} {src dst : Nat} (n : Nat) (hd : dst ≤ src)
    (hv : src + n ≤ v.length) :
    copyForward v src dst n =
      some (v.take dst ++ window v src (src + n) ++ v.drop (dst + n)) := by
  induction n generalizing v src dst with
  | zero => simp [copyForward]
  | succ n ih =>
    have hs : src < v.length := by omega
    have hdl : dst < v.length := by omega
    rw [copyForward, List.getElem?_eq_getElem hs]
    simp only [hdl, if_true]
    rw [ih (by omega) (by rw [List.length_set]; omega)]
    have htake : (v.set dst v[src]).take (dst + 1) = v.take dst ++ [v[src]] := by
      rw [List.take_succ_eq_append_getElem (by rw [List.length_set]; exact hdl),
        List.getElem_set_self, List.take_set, List.set_eq_of_length_le (List.length_take_le dst v)]
    have hmid : window (v.set dst v[src]) (src + 1) (src + 1 + n) =
        window v (src + 1) (src + 1 + n) := by
      rw [window, window, List.take_set, List.drop_set, if_pos (by omega)]
    have hend : (v.set dst v[src]).drop (dst + 1 + n) = v.drop (dst + 1 + n) := by
      rw [List.drop_set, if_pos (by omega)]
    have hhead : window v src (src + (n + 1)) = v[src] :: window v (src + 1) (src + 1 + n) := by
      rw [window, window, List.drop_eq_getElem_cons (by rw [List.length_take]; omega),
        List.getElem_take]
      congr 3
      omega
    rw [htake, hmid, hend, hhead, List.append_assoc, List.append_assoc, List.append_assoc,
      Nat.add_right_comm dst 1 n]
    rfl

/-- After the copy the moved elements stand at the destination. -/
theorem window_copyForward (v : List α) {src dst : Nat} (n : Nat) (hd : dst ≤ src)
    (hv : src + n ≤ v.length) :
    ∃ v', copyForward v src dst n = some v' ∧ v'.length = v.length ∧
      window v' dst (dst + n) = window v src (src + n) := by
  have hlen : (window v src (src + n)).length = n := by rw [length_window hv]; omega
  have hp : (v.take dst).length = dst := by rw [List.length_take]; omega
  refine ⟨_, copyForward_eq n hd hv, ?_, ?_⟩
  · rw [List.length_append, List.length_append, hp, hlen, List.length_drop]
    omega
  · have htake : (v.take dst ++ window v src (src + n) ++ v.drop (dst + n)).take (dst + n) =
        v.take dst ++ window v src (src + n) :=
      List.take_left' (by rw [List.length_append, hp, hlen])
    rw [window, htake, List.drop_left' hp]

end Mymuduo.Library.Window
