import Mathlib.Data.List.Basic

/-!
# Log statements

A `LogStream` lives for one log statement. Its constructor notes the place, `<<` collects
the message, and the destructor appends one line to the log file of the day and, at level
`FATAL`, calls `exit(-1)`. It returns early if the message is empty or the file is not open.
-/

namespace Mymuduo

inductive LogLevel
  | INFO
  | ERROR
  | FATAL
  | DEBUG
  deriving DecidableEq, Repr

/-- What the `switch` of the destructor puts before the line. -/
def LogLevel.output : LogLevel → String
  | .INFO => "[INFO] "
  | .ERROR => "[ERROR]"
  | .FATAL => "[FATAL]"
  | .DEBUG => "[DEBUG]"

structure LogStream where
  logLevel_ : LogLevel
  ss_ : String := ""
  ssEnd_ : String
  deriving DecidableEq, Repr

namespace LogStream

/-- The constructor with the macros' arguments `__FILE__`, `__LINE__` and `__FUNCTION__`. -/
def create (logLevel : LogLevel) (file : String) (line : Nat) (func : String) : LogStream :=
  { logLevel_ := logLevel
    ssEnd_ := " --FILE:" ++ file ++ " LINE:" ++ toString line ++ " FUNC:" ++ func }

/-- `operator<<` of the value's text. -/
def shift (l : LogStream) (value : String) : LogStream := { l with ss_ := l.ss_ ++ value }

def filePath (time : String) : String := String.ofList (time.toList.take 10) ++ "-log.txt"

/-- The destructor, with the current time and `file.is_open()`: the file and the line
appended to it, if there is one, and whether `exit(-1)` is called. -/
def destroy (l : LogStream) (time : String) (is_open : Bool) : Option (String × String) × Bool :=
  if l.ss_.isEmpty then (none, false)
  else if is_open then
    (some (filePath time, l.logLevel_.output ++ time ++ " " ++ l.ss_ ++ l.ssEnd_),
      l.logLevel_ == .FATAL)
  else (none, false)

end LogStream

/-! ## The macros -/

def LOG_INFO : String → Nat → String → LogStream := LogStream.create .INFO
def LOG_ERROR : String → Nat → String → LogStream := LogStream.create .ERROR
def LOG_FATAL : String → Nat → String → LogStream := LogStream.create .FATAL
def LOG_DEBUG : String → Nat → String → LogStream := LogStream.create .DEBUG

namespace LogStream

variable {l : LogStream} {time : String} {is_open : Bool}

/-- The process ends exactly at a fatal message that reaches the log file. -/
theorem destroy_exits : (l.destroy time is_open).2 = true ↔
    l.logLevel_ = .FATAL ∧ l.ss_.isEmpty = false ∧ is_open = true := by
  unfold destroy
  cases hss : l.ss_.isEmpty
  · cases is_open
    · simp
    · simp
  · simp

theorem destroy_stays (h : l.logLevel_ ≠ .FATAL) : (l.destroy time is_open).2 = false := by
  by_contra hexit
  rw [Bool.not_eq_false, destroy_exits] at hexit
  exact h hexit.1

/-- No exit without a line that says why. -/
theorem destroy_tells (h : (l.destroy time is_open).2 = true) :
    (l.destroy time is_open).1 =
      some (filePath time, "[FATAL]" ++ time ++ " " ++ l.ss_ ++ l.ssEnd_) := by
  obtain ⟨hlevel, hss, hopen⟩ := destroy_exits.mp h
  simp [destroy, hlevel, hss, hopen, LogLevel.output]

end LogStream

end Mymuduo
