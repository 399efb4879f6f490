import Mathlib.Logic.Function.Basic
import Mymuduo.Library.Execution
import Mymuduo.Log.LogStream

/-!
# Log statements on several threads

The destructor of a log statement reads the clock, locks `fileMutex`, opens the file of the day and
puts its line into it; the lock is released before a fatal message ends the process. The characters
of a line reach the file in pieces, as the stream's buffer is written out, and a write may fail. To
the file it is as if the destructors ran one after the other, in the order in which they release the
lock.
-/

namespace Mymuduo.LogFile

open Mymuduo.Library

universe u

/-- The characters inserted into the stream, `std::endl` included. -/
def lineOf (l : LogStream) (time : String) : List Char :=
  (l.logLevel_.output ++ time ++ " " ++ l.ss_ ++ l.ssEnd_).toList ++ ['\n']

/-- What has become of a line. -/
inductive Outcome
  /-- `file.is_open()` was false -/
  | notOpen
  | whole
  /-- a write has failed, and `put` is what is in the file -/
  | failed (put : List Char)
  deriving DecidableEq

def Outcome.is_open : Outcome → Bool
  | .notOpen => false
  | .whole | .failed _ => true

def Outcome.failures : Outcome → Nat
  | .failed _ => 1
  | .notOpen | .whole => 0

/-- Where a thread stands in the destructor. -/
inductive Stage
  | idle
  /-- `time` is the text of the time just read -/
  | locking (l : LogStream) (time : String)
  /-- `std::ofstream file(filePath, std::ios::app)` -/
  | opening (l : LogStream) (time : String)
  /-- the file is open, and `written` characters of the line are in it -/
  | writing (l : LogStream) (time : String) (written : Nat)
  /-- at the end of the block -/
  | unlocking (l : LogStream) (time : String) (outcome : Outcome)
  /-- before `exit(-1)` -/
  | exiting
  deriving DecidableEq

/-- The thread has locked `fileMutex`. -/
def Stage.holds : Stage → Bool
  | .opening _ _ | .writing _ _ _ | .unlocking _ _ _ => true
  | .idle | .locking _ _ | .exiting => false

/-- A destructor that has had the lock, and what it found. -/
structure Record (T : Type u) where
  thread : T
  l : LogStream
  time : String
  outcome : Outcome

structure LogFiles (T : Type u) where
  files : String → List Char
  fileMutex : Option T := none
  stage : T → Stage := fun _ => .idle
  exited : Bool := false
  /-- history: the destructors in the order in which they have released the lock -/
  records : List (Record T) := []

inductive Action (T : Type u)
  /-- a log statement ends, at this time -/
  | log (t : T) (l : LogStream) (time : String)
  | lock (t : T)
  | openFile (t : T) (is_open : Bool)
  /-- the kernel takes `n` characters of what is left of the line -/
  | write (t : T) (n : Nat)
  /-- a write fails, and `rest` is what the stream still puts into the file before it is closed -/
  | fail (t : T) (rest : List Char)
  | close (t : T)
  | unlock (t : T)
  | exit (t : T)

def Action.thread {T : Type u} : Action T → T
  | .log t _ _ | .lock t | .openFile t _ | .write t _ => t
  | .fail t _ | .close t | .unlock t | .exit t => t

namespace LogFiles

variable {T : Type u} [DecidableEq T]

def setStage (t : T) (x : Stage) (s : LogFiles T) : LogFiles T :=
  { s with stage := Function.update s.stage t x }

/-- Characters at the end of a file. -/
def append (path : String) (text : List Char) (s : LogFiles T) : LogFiles T :=
  { s with files := Function.update s.files path (s.files path ++ text) }

/-- Nothing is said of other threads once `exit` has been called. -/
def step (s : LogFiles T) (a : Action T) : Option (LogFiles T) :=
  if s.exited then none else
  match a with
  | .log t l time =>
    if s.stage t = .idle then
      if l.ss_.isEmpty then some s else some (s.setStage t (.locking l time))
    else none
  | .lock t =>
    match s.stage t with
    | .locking l time =>
      if s.fileMutex = none then
        some { s.setStage t (.opening l time) with fileMutex := some t }
      else none
    | _ => none
  | .openFile t is_open =>
    match s.stage t with
    | .opening l time =>
      some (s.setStage t (if is_open then .writing l time 0 else .unlocking l time .notOpen))
    | _ => none
  | .write t n =>
    match s.stage t with
    | .writing l time written =>
      if 0 < n ∧ written + n ≤ (lineOf l time).length then
        some ((s.append (LogStream.filePath time)
          (((lineOf l time).drop written).take n)).setStage t (.writing l time (written + n)))
      else none
    | _ => none
  | .fail t rest =>
    match s.stage t with
    | .writing l time written =>
      if written < (lineOf l time).length then
        some ((s.append (LogStream.filePath time) rest).setStage t
          (.unlocking l time (.failed ((lineOf l time).take written ++ rest))))
      else none
    | _ => none
  | .close t =>
    match s.stage t with
    | .writing l time written =>
      if written = (lineOf l time).length then some (s.setStage t (.unlocking l time .whole))
      else none
    | _ => none
  | .unlock t =>
    match s.stage t with
    | .unlocking l time outcome =>
      some { s.setStage t
          (if outcome.is_open = true ∧ l.logLevel_ = .FATAL then .exiting else .idle) with
        fileMutex := none
        records := s.records ++ [⟨t, l, time, outcome⟩] }
    | _ => none
  | .exit t => if s.stage t = .exiting then some { s with exited := true } else none

end LogFiles

/-! ## One destructor after the other -/

/-- What a line is, or what a failed write has left of it. -/
def Outcome.of (line : List Char) : Outcome → List Char
  | .failed put => put
  | .notOpen | .whole => line

/-- What the destructor, taken as one step, adds to a file. -/
def Record.text {T : Type u} (r : Record T) (path : String) : List Char :=
  match (r.l.destroy r.time r.outcome.is_open).1 with
  | some (filePath, line) => if filePath = path then r.outcome.of (line.toList ++ ['\n']) else []
  | none => []

/-- What the destructors, taken one after the other, leave in a file. -/
def contents {T : Type u} (path : String) : List (Record T) → List Char
  | [] => []
  | r :: rs => r.text path ++ contents path rs

theorem contents_append {T : Type u} (path : String) (rs rs' : List (Record T)) :
    contents path (rs ++ rs') = contents path rs ++ contents path rs' := by
  induction rs with
  | nil => rfl
  | cons r rs ih => rw [List.cons_append, contents, contents, ih, List.append_assoc]

/-- What a thread has put into a file since it has locked `fileMutex`. -/
def Stage.text (path : String) : Stage → List Char
  | .writing l time written =>
    if LogStream.filePath time = path then (lineOf l time).take written else []
  | .unlocking l time outcome =>
    if outcome.is_open = true ∧ LogStream.filePath time = path then outcome.of (lineOf l time)
    else []
  | .idle | .locking _ _ | .opening _ _ | .exiting => []

/-- The log statement that a thread is in. -/
def Stage.current : Stage → List (LogStream × String)
  | .locking l time | .opening l time | .writing l time _ | .unlocking l time _ => [(l, time)]
  | .idle | .exiting => []

def Stage.failures : Stage → Nat
  | .unlocking _ _ outcome => outcome.failures
  | .idle | .locking _ _ | .opening _ _ | .writing _ _ _ | .exiting => 0

section

variable {T : Type u} [DecidableEq T]

/-- The log statements of a thread in a run; one without a message does nothing. -/
def statements (t : T) : List (Action T) → List (LogStream × String)
  | [] => []
  | .log t' l time :: as =>
    (if t' = t ∧ l.ss_.isEmpty = false then [(l, time)] else []) ++ statements t as
  | _ :: as => statements t as

/-- The writes of a thread that fail in a run. -/
def failures (t : T) : List (Action T) → Nat
  | [] => 0
  | .fail t' _ :: as => (if t' = t then 1 else 0) + failures t as
  | _ :: as => failures t as

/-- The failed writes among the records of a thread. -/
def failed (t : T) : List (Record T) → Nat
  | [] => 0
  | r :: rs => (if r.thread = t then r.outcome.failures else 0) + failed t rs

theorem failed_append (t : T) (rs rs' : List (Record T)) :
    failed t (rs ++ rs') = failed t rs + failed t rs' := by
  induction rs with
  | nil => rw [List.nil_append, failed, Nat.zero_add]
  | cons r rs ih => rw [List.cons_append, failed, failed, ih, Nat.add_assoc]

theorem statements_cons (t : T) (a : Action T) (as : List (Action T)) :
    statements t (a :: as) = statements t [a] ++ statements t as := by
  cases a with
  | log => rw [statements, statements, statements, List.append_nil]
  | lock | openFile | write | fail | close | unlock | exit => rfl

theorem failures_cons (t : T) (a : Action T) (as : List (Action T)) :
    failures t (a :: as) = failures t [a] + failures t as := by
  cases a with
  | fail => rw [failures, failures, failures, Nat.add_zero]
  | log | lock | openFile | write | close | unlock | exit => exact (Nat.zero_add _).symm

theorem statements_other {t : T} {a : Action T} (h : t ≠ a.thread) : statements t [a] = [] := by
  cases a with
  | log t' l time =>
    rw [statements, statements, List.append_nil]
    exact if_neg fun hc => h hc.1.symm
  | lock | openFile | write | fail | close | unlock | exit => rfl

theorem failures_other {t : T} {a : Action T} (h : t ≠ a.thread) : failures t [a] = 0 := by
  cases a with
  | fail t' rest =>
    rw [failures, failures, Nat.add_zero]
    exact if_neg fun hc => h hc.symm
  | log | lock | openFile | write | close | unlock | exit => rfl

end

/-! ## What the threads keep -/

section

variable {T : Type u} [DecidableEq T]

/-- A thread in a destructor. -/
def Sound : Stage → Prop
  | .idle | .exiting => True
  | .locking l _ | .opening l _ | .unlocking l _ _ => l.ss_.isEmpty = false
  | .writing l time written => l.ss_.isEmpty = false ∧ written ≤ (lineOf l time).length

/-- Behind what was in a file before stand the lines of the records, one after the other, and what
the holder of the lock has put behind them. -/
structure Kept (old : String → List Char) (s : LogFiles T)
    (past : T → List (LogStream × String)) (cut : T → Nat) : Prop where
  files : ∀ path, s.files path = old path ++ contents path s.records ++
    match s.fileMutex with
    | some t => (s.stage t).text path
    | none => []
  holder : ∀ t, (s.stage t).holds = true ↔ s.fileMutex = some t
  sound : ∀ t, Sound (s.stage t)
  order : ∀ t, (s.records.filter (·.thread = t)).map (fun r => (r.l, r.time)) ++
    (s.stage t).current = past t
  cuts : ∀ t, failed t s.records + (s.stage t).failures = cut t
  messages : ∀ r ∈ s.records, r.l.ss_.isEmpty = false
  fatal : (s.exited = true ∨ ∃ t, s.stage t = .exiting) →
    ∃ r ∈ s.records, r.l.logLevel_ = .FATAL ∧ r.outcome.is_open = true

theorem kept_start (old : String → List Char) :
    Kept old ({ files := old } : LogFiles T) (fun _ => []) fun _ => 0 where
  files path := by simp [contents]
  holder _ := by simp [Stage.holds]
  sound _ := trivial
  order _ := rfl
  cuts _ := rfl
  messages r hr := by cases hr
  fatal h := by
    rcases h with h | ⟨t, h⟩
    · cases h
    · cases h

theorem text_of_not_holds {x : Stage} (h : x.holds = false) (path : String) : x.text path = [] := by
  cases x with
  | idle | exiting | locking => rfl
  | opening | writing | unlocking => cases h

variable {old : String → List Char} {s s' : LogFiles T} {past : T → List (LogStream × String)}
  {cut : T → Nat} {t : T}

@[simp] theorem setStage_self (s : LogFiles T) (t : T) (x : Stage) :
    (s.setStage t x).stage t = x := by simp [LogFiles.setStage]

theorem setStage_of_ne (s : LogFiles T) {t t' : T} (x : Stage) (h : t' ≠ t) :
    (s.setStage t x).stage t' = s.stage t' := by simp [LogFiles.setStage, h]

theorem forall_setStage {P : T → Stage → Prop} {x : Stage} (hx : P t x)
    (h : ∀ t', t' ≠ t → P t' (s.stage t')) (t' : T) : P t' ((s.setStage t x).stage t') := by
  by_cases ht : t' = t
  · subst ht
    rw [setStage_self]
    exact hx
  · rw [setStage_of_ne s x ht]
    exact h t' ht

theorem exiting_setStage {t' : T} {x : Stage} (h : (s.setStage t x).stage t' = .exiting) :
    s.stage t' = .exiting ∨ t' = t ∧ x = .exiting := by
  by_cases ht : t' = t
  · subst ht
    rw [setStage_self] at h
    exact .inr ⟨rfl, h⟩
  · rw [setStage_of_ne s x ht] at h
    exact .inl h

theorem Kept.free (h : Kept old s past cut) (ht : s.fileMutex ≠ some t) :
    (s.stage t).holds = false := by
  by_contra hno
  exact ht ((h.holder t).mp (by simpa using hno))

/-- What a run adds to the log statements and the failed writes of the threads. -/
def pastOf (past : T → List (LogStream × String)) (as : List (Action T)) (t : T) :
    List (LogStream × String) := past t ++ statements t as

def cutOf (cut : T → Nat) (as : List (Action T)) (t : T) : Nat := cut t + failures t as

/-- A thread goes on before or inside the block; what it adds to the files is its own text. -/
theorem Kept.go_on (h : Kept old s past cut) (a : Action T) (ha : a.thread = t) {x y : Stage}
    (hstage : s.stage t = y) {files : String → List Char} (hholds : x.holds = y.holds)
    (hcurrent : x.current = y.current ++ statements t [a])
    (hcuts : x.failures = y.failures + failures t [a])
    (hsound : Sound x) (hexiting : x ≠ .exiting)
    (hfiles : ∀ path, ∃ text, files path = s.files path ++ text ∧
      x.text path = y.text path ++ text) :
    Kept old { s.setStage t x with files := files } (pastOf past [a]) (cutOf cut [a]) := by
  subst hstage
  constructor
  case files =>
    intro path
    show files path = old path ++ contents path s.records ++ match s.fileMutex with
      | some t' => ((s.setStage t x).stage t').text path
      | none => []
    obtain ⟨text, hfile, htext⟩ := hfiles path
    have hkept := h.files path
    -- a thread without the lock has no text, and adds none
    have hnone : s.fileMutex ≠ some t → text = [] := by
      intro hlock
      have hfree := h.free hlock
      rw [text_of_not_holds (hholds.trans hfree), text_of_not_holds hfree] at htext
      exact htext.symm
    cases hlock : s.fileMutex with
    | none =>
      rw [hlock] at hkept
      rw [hfile, hnone (by rw [hlock]; simp), hkept, List.append_nil]
    | some t' =>
      rw [hlock] at hkept
      by_cases ht : t' = t
      · subst ht
        simp only [setStage_self]
        rw [hfile, hkept, htext, List.append_assoc]
      · have hne : s.fileMutex ≠ some t := by
          rw [hlock]
          exact fun he => ht (Option.some.inj he)
        simp only [setStage_of_ne s x ht]
        rw [hfile, hnone hne, hkept, List.append_nil]
  case holder =>
    refine forall_setStage (P := fun t' y => y.holds = true ↔ s.fileMutex = some t') ?_ ?_
    · rw [hholds]
      exact h.holder t
    · exact fun t' _ => h.holder t'
  case sound =>
    exact forall_setStage (P := fun _ y => Sound y) hsound fun t' _ => h.sound t'
  case order =>
    refine forall_setStage (P := fun t' y => (s.records.filter (·.thread = t')).map
      (fun r => (r.l, r.time)) ++ y.current = pastOf past [a] t') ?_ ?_
    · rw [hcurrent, ← List.append_assoc, h.order t]
      rfl
    · intro t' ht
      rw [h.order t', pastOf, statements_other (by rw [ha]; exact ht), List.append_nil]
  case cuts =>
    refine forall_setStage
      (P := fun t' y => failed t' s.records + y.failures = cutOf cut [a] t') ?_ ?_
    · rw [hcuts, ← Nat.add_assoc, h.cuts t]
      rfl
    · intro t' ht
      rw [h.cuts t', cutOf, failures_other (by rw [ha]; exact ht), Nat.add_zero]
  case messages => exact h.messages
  case fatal =>
    intro hf
    refine h.fatal ?_
    rcases hf with hf | ⟨t', ht'⟩
    · exact .inl hf
    · exact .inr ⟨t', (exiting_setStage ht').resolve_right fun hx => hexiting hx.2⟩

/-- A thread that gets the lock has put nothing into the files yet. -/
theorem Kept.locked (h : Kept old s past cut) {l : LogStream} {time : String}
    (hstage : s.stage t = .locking l time) (hlock : s.fileMutex = none) :
    Kept old { s.setStage t (.opening l time) with fileMutex := some t } past cut where
  files path := by
    show s.files path = old path ++ contents path s.records ++
      ((s.setStage t (.opening l time)).stage t).text path
    rw [setStage_self]
    have hkept := h.files path
    rw [hlock] at hkept
    exact hkept
  holder t' := by
    refine forall_setStage (P := fun t' y => y.holds = true ↔ some t = some t') ?_ ?_ t'
    · exact ⟨fun _ => rfl, fun _ => rfl⟩
    · intro t' ht
      have hfree := h.free (t := t') (by rw [hlock]; simp)
      constructor
      · intro hholds
        rw [hfree] at hholds
        cases hholds
      · intro he
        exact absurd (Option.some.inj he).symm ht
  sound t' := by
    have hsound := h.sound t
    rw [hstage] at hsound
    exact forall_setStage (P := fun _ y => Sound y) (x := .opening l time) hsound
      (fun t' _ => h.sound t') t'
  order t' := by
    have horder := h.order t
    rw [hstage] at horder
    exact forall_setStage (P := fun t' y => (s.records.filter (·.thread = t')).map
      (fun r => (r.l, r.time)) ++ y.current = past t') (x := .opening l time) horder
      (fun t' _ => h.order t') t'
  cuts t' := by
    have hcuts := h.cuts t
    rw [hstage] at hcuts
    exact forall_setStage (P := fun t' y => failed t' s.records + y.failures = cut t')
      (x := .opening l time) hcuts (fun t' _ => h.cuts t') t'
  messages := h.messages
  fatal hf := by
    refine h.fatal ?_
    rcases hf with hf | ⟨t', ht'⟩
    · exact .inl hf
    · exact .inr ⟨t', (exiting_setStage ht').resolve_right fun hx => nomatch hx.2⟩

omit [DecidableEq T] in
/-- What a thread in the block leaves in a file is what the destructor leaves there as one step. -/
theorem record_text {l : LogStream} (hss : l.ss_.isEmpty = false) (time : String)
    (outcome : Outcome) (path : String) :
    (Record.mk t l time outcome).text path = (Stage.unlocking l time outcome).text path := by
  unfold Record.text Stage.text LogStream.destroy
  cases outcome with
  | notOpen => simp [hss, Outcome.is_open]
  | whole | failed put => simp [hss, Outcome.is_open, lineOf]

theorem filter_append_one (rs : List (Record T)) (r : Record T) (t' : T) :
    ((rs ++ [r]).filter (·.thread = t')).map (fun r => (r.l, r.time)) =
      (rs.filter (·.thread = t')).map (fun r => (r.l, r.time)) ++
        if r.thread = t' then [(r.l, r.time)] else [] := by
  rw [List.filter_append, List.map_append]
  by_cases ht : r.thread = t'
  · simp [ht]
  · simp [ht]

/-- A thread that releases the lock leaves a record of its line. -/
theorem Kept.released (h : Kept old s past cut) {l : LogStream} {time : String} {outcome : Outcome}
    (hstage : s.stage t = .unlocking l time outcome) :
    Kept old { s.setStage t
          (if outcome.is_open = true ∧ l.logLevel_ = .FATAL then .exiting else .idle) with
        fileMutex := none
        records := s.records ++ [⟨t, l, time, outcome⟩] } past cut := by
  have hlock : s.fileMutex = some t := (h.holder t).mp (by rw [hstage]; rfl)
  have hss : l.ss_.isEmpty = false := by
    have hsound := h.sound t
    rw [hstage] at hsound
    exact hsound
  obtain ⟨x, hx, hout⟩ : ∃ x : Stage,
      (if outcome.is_open = true ∧ l.logLevel_ = .FATAL then Stage.exiting else .idle) = x ∧
      (x = .idle ∨ x = .exiting ∧ outcome.is_open = true ∧ l.logLevel_ = .FATAL) := by
    by_cases hc : outcome.is_open = true ∧ l.logLevel_ = .FATAL
    · exact ⟨_, if_pos hc, .inr ⟨rfl, hc⟩⟩
    · exact ⟨_, if_neg hc, .inl rfl⟩
  have hx0 : x.holds = false ∧ x.current = [] ∧ x.failures = 0 ∧ Sound x := by
    rcases hout with rfl | ⟨rfl, -⟩
    · exact ⟨rfl, rfl, rfl, trivial⟩
    · exact ⟨rfl, rfl, rfl, trivial⟩
  obtain ⟨hholds, hcurrent, hfailures, hsound⟩ := hx0
  rw [hx]
  constructor
  case files =>
    intro path
    show s.files path = old path ++ contents path (s.records ++ [⟨t, l, time, outcome⟩]) ++ []
    have hkept := h.files path
    rw [hlock] at hkept
    have htext : (s.stage t).text path = contents path [Record.mk t l time outcome] := by
      rw [hstage, contents, contents, List.append_nil, record_text hss]
    rw [hkept, contents_append, List.append_nil, ← List.append_assoc]
    exact congrArg _ htext
  case holder =>
    refine forall_setStage (P := fun t' y => y.holds = true ↔ none = some t') ?_ ?_
    · rw [hholds]
      simp
    · intro t' ht
      have hfree := h.free (t := t') (by rw [hlock]; exact fun he => ht (Option.some.inj he).symm)
      rw [hfree]
      simp
  case sound =>
    exact forall_setStage (P := fun _ y => Sound y) hsound (fun t' _ => h.sound t')
  case order =>
    refine forall_setStage (P := fun t' y => ((s.records ++ [Record.mk t l time outcome]).filter
      (·.thread = t')).map (fun r => (r.l, r.time)) ++ y.current = past t') ?_ ?_
    · have horder := h.order t
      rw [hstage] at horder
      rw [filter_append_one, hcurrent, List.append_nil, if_pos rfl]
      exact horder
    · intro t' ht
      rw [filter_append_one, if_neg (fun he => ht he.symm), List.append_nil]
      exact h.order t'
  case cuts =>
    refine forall_setStage (P := fun t' y =>
      failed t' (s.records ++ [⟨t, l, time, outcome⟩]) + y.failures = cut t') ?_ ?_
    · have hcuts := h.cuts t
      rw [hstage] at hcuts
      rw [failed_append, hfailures, failed, failed, if_pos rfl]
      exact hcuts
    · intro t' ht
      rw [failed_append, failed, failed, if_neg (fun he => ht he.symm)]
      exact h.cuts t'
  case messages =>
    intro r hr
    rcases List.mem_append.mp hr with hr | hr
    · exact h.messages r hr
    · obtain rfl := List.mem_singleton.mp hr
      exact hss
  case fatal =>
    intro hf
    have hlast : Record.mk t l time outcome ∈ s.records ++ [⟨t, l, time, outcome⟩] := by simp
    have hbefore : (s.exited = true ∨ ∃ t, s.stage t = .exiting) →
        ∃ r ∈ s.records ++ [⟨t, l, time, outcome⟩],
          r.l.logLevel_ = .FATAL ∧ r.outcome.is_open = true := by
      intro hf
      obtain ⟨r, hr, hfatal⟩ := h.fatal hf
      exact ⟨r, List.mem_append_left _ hr, hfatal⟩
    rcases hf with hf | ⟨t', ht'⟩
    · exact hbefore (.inl hf)
    · rcases exiting_setStage ht' with hexit | ⟨-, hexit⟩
      · exact hbefore (.inr ⟨t', hexit⟩)
      · rcases hout with rfl | ⟨-, hopen, hfatal⟩
        · cases hexit
        · exact ⟨_, hlast, hfatal, hopen⟩

omit [DecidableEq T] in
/-- A thread that is writing puts `text` behind its file. -/
theorem append_files (s : LogFiles T) {x : Stage} {l : LogStream} {time : String} {written : Nat}
    {text : List Char} (hx : ∀ path, x.text path =
      if LogStream.filePath time = path then (lineOf l time).take written ++ text else [])
    (path : String) :
    ∃ more, (s.append (LogStream.filePath time) text).files path = s.files path ++ more ∧
      x.text path = (Stage.writing l time written).text path ++ more := by
  rw [hx path]
  by_cases hpath : LogStream.filePath time = path
  · subst hpath
    exact ⟨text, by simp [LogFiles.append], by simp [Stage.text]⟩
  · refine ⟨[], ?_, by simp [Stage.text, hpath]⟩
    simp [LogFiles.append, Function.update_of_ne (Ne.symm hpath)]

omit [DecidableEq T] in
theorem same_files (s : LogFiles T) {x y : Stage} (hx : ∀ path, x.text path = y.text path)
    (path : String) : ∃ more, s.files path = s.files path ++ more ∧
      x.text path = y.text path ++ more :=
  ⟨[], (List.append_nil _).symm, by rw [hx path, List.append_nil]⟩

theorem Kept.step (h : Kept old s past cut) {a : Action T} (hstep : s.step a = some s') :
    Kept old s' (pastOf past [a]) (cutOf cut [a]) := by
  have hquiet : (∀ t, statements t [a] = []) → (∀ t, failures t [a] = 0) →
      Kept old s' past cut → Kept old s' (pastOf past [a]) (cutOf cut [a]) := by
    intro hst hfa hkept
    rw [show pastOf past [a] = past from funext fun t => by rw [pastOf, hst, List.append_nil],
      show cutOf cut [a] = cut from funext fun t => by rw [cutOf, hfa, Nat.add_zero]]
    exact hkept
  cases hexited : s.exited with
  | true =>
    rw [LogFiles.step.eq_def, if_pos hexited] at hstep
    cases hstep
  | false =>
    have hrun : ¬ s.exited = true := by rw [hexited]; simp
    rw [LogFiles.step.eq_def, if_neg hrun] at hstep
    cases a with
    | log t l time =>
      simp only at hstep
      split at hstep
      case isFalse => cases hstep
      case isTrue hidle =>
        cases hss : l.ss_.isEmpty with
        | true =>
          rw [if_pos hss] at hstep
          obtain rfl := Option.some.inj hstep
          refine hquiet (fun t' => ?_) (fun _ => rfl) h
          rw [statements, statements, List.append_nil]
          exact if_neg fun hc => by rw [hss] at hc; cases hc.2
        | false =>
          rw [if_neg (by rw [hss]; simp)] at hstep
          obtain rfl := Option.some.inj hstep
          have hst : statements t [.log t l time] = [(l, time)] := by
            rw [statements, statements, List.append_nil, if_pos ⟨rfl, hss⟩]
          exact h.go_on (.log t l time) rfl hidle (x := .locking l time) rfl hst.symm rfl hss
            (by simp) (same_files s fun _ => rfl)
    | lock t =>
      simp only at hstep
      split at hstep
      case h_2 => cases hstep
      case h_1 l time hstage =>
        split at hstep
        case isFalse => cases hstep
        case isTrue hfree =>
          obtain rfl := Option.some.inj hstep
          exact hquiet (fun _ => rfl) (fun _ => rfl) (h.locked hstage hfree)
    | openFile t is_open =>
      simp only at hstep
      split at hstep
      case h_2 => cases hstep
      case h_1 l time hstage =>
        have hsound := h.sound t
        rw [hstage] at hsound
        obtain rfl := Option.some.inj hstep
        cases is_open with
        | true =>
          exact h.go_on (.openFile t true) rfl hstage (x := .writing l time 0) rfl rfl rfl
            ⟨hsound, Nat.zero_le _⟩ (by simp) (same_files s fun path => by simp [Stage.text])
        | false =>
          exact h.go_on (.openFile t false) rfl hstage (x := .unlocking l time .notOpen) rfl rfl rfl
            hsound (by simp) (same_files s fun path => by simp [Stage.text, Outcome.is_open])
    | write t n =>
      simp only at hstep
      split at hstep
      case h_2 => cases hstep
      case h_1 l time written hstage =>
        have hsound := h.sound t
        rw [hstage] at hsound
        split at hstep
        case isFalse => cases hstep
        case isTrue hn =>
          obtain rfl := Option.some.inj hstep
          refine h.go_on (.write t n) rfl hstage (x := .writing l time (written + n)) rfl rfl rfl
            ⟨hsound.1, hn.2⟩ (by simp) (append_files s fun path => ?_)
          rw [← List.take_add]
          rfl
    | fail t rest =>
      simp only at hstep
      split at hstep
      case h_2 => cases hstep
      case h_1 l time written hstage =>
        have hsound := h.sound t
        rw [hstage] at hsound
        split at hstep
        case isFalse => cases hstep
        case isTrue hn =>
          obtain rfl := Option.some.inj hstep
          have hfail : failures t [.fail t rest] = 1 := by rw [failures, failures, if_pos rfl]
          refine h.go_on (.fail t rest) rfl hstage
            (x := .unlocking l time (.failed ((lineOf l time).take written ++ rest))) rfl rfl
            (hfail.symm.trans (Nat.zero_add _).symm) hsound.1 (by simp)
            (append_files s fun path => ?_)
          simp [Stage.text, Outcome.is_open, Outcome.of]
    | close t =>
      simp only at hstep
      split at hstep
      case h_2 => cases hstep
      case h_1 l time written hstage =>
        have hsound := h.sound t
        rw [hstage] at hsound
        split at hstep
        case isFalse => cases hstep
        case isTrue hn =>
          obtain rfl := Option.some.inj hstep
          exact h.go_on (.close t) rfl hstage (x := .unlocking l time .whole) rfl rfl rfl hsound.1
            (by simp) (same_files s fun path => by
              simp [Stage.text, Outcome.is_open, Outcome.of, hn])
    | unlock t =>
      simp only at hstep
      split at hstep
      case h_2 => cases hstep
      case h_1 l time outcome hstage =>
        obtain rfl := Option.some.inj hstep
        exact hquiet (fun _ => rfl) (fun _ => rfl) (h.released hstage)
    | exit t =>
      simp only at hstep
      split at hstep
      case isFalse => cases hstep
      case isTrue hstage =>
        obtain rfl := Option.some.inj hstep
        refine hquiet (fun _ => rfl) (fun _ => rfl) ?_
        exact ⟨h.files, h.holder, h.sound, h.order, h.cuts, h.messages,
          fun _ => h.fatal (.inr ⟨t, hstage⟩)⟩

theorem Kept.exec {as : List (Action T)} (h : Kept old s past cut)
    (hr : Execution.exec LogFiles.step s as = some s') :
    Kept old s' (pastOf past as) (cutOf cut as) := by
  induction as generalizing s past cut with
  | nil =>
    obtain rfl := Option.some.inj hr
    rw [show pastOf past ([] : List (Action T)) = past from funext fun t => List.append_nil _]
    exact h
  | cons a as ih =>
    obtain ⟨m, hm, hrest⟩ := Execution.exec_cons_some.mp hr
    have hfin := ih (h.step hm) hrest
    rw [show pastOf past (a :: as) = pastOf (pastOf past [a]) as from funext fun t => by
        rw [pastOf, pastOf, pastOf, statements_cons, List.append_assoc],
      show cutOf cut (a :: as) = cutOf (cutOf cut [a]) as from funext fun t => by
        rw [cutOf, cutOf, cutOf, failures_cons, Nat.add_assoc]]
    exact hfin

/-- A record stays where it is. -/
theorem records_step {a : Action T} (hstep : s.step a = some s') :
    ∃ rs, s'.records = s.records ++ rs := by
  cases a with
  | unlock t =>
    have hrs : s'.records = s.records ∨ ∃ r, s'.records = s.records ++ [r] := by
      grind [LogFiles.step, LogFiles.setStage]
    rcases hrs with hrs | ⟨r, hrs⟩
    · exact ⟨[], by rw [hrs, List.append_nil]⟩
    · exact ⟨[r], hrs⟩
  | log | lock | openFile | write | fail | close | exit =>
    have hrs : s'.records = s.records := by
      grind [LogFiles.step, LogFiles.setStage, LogFiles.append]
    exact ⟨[], by rw [hrs, List.append_nil]⟩

theorem records_exec {as : List (Action T)} (hr : Execution.exec LogFiles.step s as = some s') :
    ∃ rs, s'.records = s.records ++ rs := by
  refine Execution.exec_preserves (fun m : LogFiles T => ∃ rs, m.records = s.records ++ rs) ?_
    ⟨[], (List.append_nil _).symm⟩ hr
  rintro m a m' ⟨rs, hrs⟩ hstep
  obtain ⟨rs', hrs'⟩ := records_step hstep
  exact ⟨rs ++ rs', by rw [hrs', hrs, List.append_assoc]⟩

/-- In every run, a file is what was in it before, then what the destructors leave that have
released the lock, one after the other, and then what the holder of the lock has put there. The
order keeps each thread's own order, and a destructor that is through comes before every later one;
no line is without its place, none has two, and only a failed write cuts one off. The process ends
after a fatal line only. -/
theorem log_linearizable (old : String → List Char) (as : List (Action T))
    (hr : Execution.exec LogFiles.step { files := old } as = some s) :
    (∀ path, s.files path = old path ++ contents path s.records ++
      match s.fileMutex with
      | some t => (s.stage t).text path
      | none => []) ∧
    (∀ t, (s.records.filter (·.thread = t)).map (fun r => (r.l, r.time)) ++ (s.stage t).current =
      statements t as) ∧
    (∀ t, failed t s.records + (s.stage t).failures = failures t as) ∧
    (s.exited = true → ∃ r ∈ s.records, (r.l.destroy r.time r.outcome.is_open).2 = true) ∧
    ∀ bs s', Execution.exec LogFiles.step s bs = some s' → ∃ rs, s'.records = s.records ++ rs := by
  have hkept := (kept_start (T := T) old).exec hr
  refine ⟨hkept.files, fun t => ?_, fun t => ?_, fun hexited => ?_, fun bs s' => records_exec⟩
  · have horder := hkept.order t
    rw [pastOf, List.nil_append] at horder
    exact horder
  · have hcuts := hkept.cuts t
    rw [cutOf, Nat.zero_add] at hcuts
    exact hcuts
  · obtain ⟨r, hr, hlevel, hopen⟩ := hkept.fatal (.inl hexited)
    exact ⟨r, hr, LogStream.destroy_exits.mpr ⟨hlevel, hkept.messages r hr, hopen⟩⟩

/-- Two threads; the second one has the lock first, and the other's line is cut off. -/
theorem log_linearizable_two : ∃ s : LogFiles Bool,
    s.files "2024-06-01-log.txt" = "old\n[FATAL]2024-06-01 12:00:01 b --FILE:f\n[INF".toList ∧
      s.files "2024-06-01-log.txt" = "old\n".toList ++ contents "2024-06-01-log.txt" s.records ++
        (s.stage false).text "2024-06-01-log.txt" := by
  have hrun : (Execution.exec LogFiles.step { files := fun _ => "old\n".toList } [
      .log false ⟨.INFO, "a", " --FILE:f"⟩ "2024-06-01 12:00:00",
      .log true ⟨.FATAL, "b", " --FILE:f"⟩ "2024-06-01 12:00:01",
      .lock true, .openFile true true, .write true 12, .write true 26, .close true, .unlock true,
      .lock false, .openFile false true, .write false 4]).map (fun s : LogFiles Bool =>
        decide (s.fileMutex = some false ∧ s.files "2024-06-01-log.txt" =
          "old\n[FATAL]2024-06-01 12:00:01 b --FILE:f\n[INF".toList)) = some true := by
    decide +kernel
  obtain ⟨s, hs, hres⟩ := Option.map_eq_some_iff.mp hrun
  obtain ⟨hlock, hfile⟩ := of_decide_eq_true hres
  have hfiles := (log_linearizable _ _ hs).1 "2024-06-01-log.txt"
  rw [hlock] at hfiles
  exact ⟨s, hfile, hfiles⟩

end

end Mymuduo.LogFile
