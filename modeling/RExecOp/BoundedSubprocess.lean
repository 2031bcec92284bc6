import Mathlib.Data.Fintype.Basic
import Mathlib.Tactic.SplitIfs
import RExecOp.Commands

/-! The capture of a process's two output pipes under one limit
(`execution/bounded_subprocess.py`). A run is given by its reads; no timeout occurs. -/

namespace RExecOp.BoundedSubprocess

open Commands (CapturedStream BoundedSubprocessResult)

inductive Pipe where
  | stdout
  | stderr
  deriving DecidableEq

def readChunkBytes : Nat := 64 * 1024

/-- `hashed` is what the digest has been updated with. -/
structure StreamAccumulator where
  retained : List UInt8
  hashed : List UInt8
  totalBytes : Nat

def StreamAccumulator.empty : StreamAccumulator := ⟨[], [], 0⟩

def StreamAccumulator.consume (stream : StreamAccumulator) (chunk : List UInt8)
    (retainBytes : Nat) : StreamAccumulator where
  retained :=
    if 0 < retainBytes then stream.retained ++ chunk.take retainBytes else stream.retained
  hashed := stream.hashed ++ chunk
  totalBytes := stream.totalBytes + chunk.length

def hexDigits : List Char := "0123456789abcdef".toList

structure Encoding where
  /-- `.decode("utf-8", errors="ignore").strip()` -/
  decode : List UInt8 → String
  /-- `hashlib.sha256(...).hexdigest()` -/
  hexdigest : List UInt8 → String
  length_hexdigest : ∀ bytes, (hexdigest bytes).toList.length = 64
  hex_hexdigest : ∀ bytes, ∀ c ∈ (hexdigest bytes).toList, c ∈ hexDigits

def StreamAccumulator.result (encoding : Encoding) (stream : StreamAccumulator) :
    CapturedStream where
  text := encoding.decode stream.retained
  digest := "sha256:" ++ encoding.hexdigest stream.hashed
  totalBytes := stream.totalBytes
  truncated := stream.retained.length < stream.totalBytes

/-- The state of the capture; `exceeded` is its one termination reason. -/
structure Capture where
  streams : Pipe → StreamAccumulator
  exceeded : Bool
  peakRetainedBytes : Nat

namespace Capture

variable (limit : Nat) (capture : Capture)

def empty : Capture := ⟨fun _ => .empty, false, 0⟩

def totalDrained : Nat :=
  (capture.streams .stdout).totalBytes + (capture.streams .stderr).totalBytes

def retainedTotal : Nat :=
  (capture.streams .stdout).retained.length + (capture.streams .stderr).retained.length

def readSize : Nat :=
  if capture.exceeded then readChunkBytes
  else min readChunkBytes (max 1 (limit - capture.totalDrained + 1))

def drain (pipe : Pipe) (chunk : List UInt8) : Capture :=
  let retainBytes := min chunk.length (limit - capture.retainedTotal)
  { streams := Function.update capture.streams pipe
      ((capture.streams pipe).consume chunk retainBytes)
    peakRetainedBytes := max capture.peakRetainedBytes (capture.retainedTotal + retainBytes)
    exceeded := capture.exceeded || decide (limit < capture.totalDrained + chunk.length) }

end Capture

/-- `BlockingIOError`, or up to `more + 1` of the bytes left in the pipe. -/
inductive Read where
  | blocked
  | bytes (more : Nat)

structure State where
  capture : Capture
  left : Pipe → List UInt8

def step (limit : Nat) (s : State) : Pipe × Read → State
  | (_, .blocked) => s
  | (pipe, .bytes more) =>
    let size := min (more + 1) (s.capture.readSize limit)
    let chunk := (s.left pipe).take size
    if chunk.isEmpty then s
    else
      { capture := s.capture.drain limit pipe chunk
        left := Function.update s.left pipe ((s.left pipe).drop size) }

def run (limit : Nat) (output : Pipe → List UInt8) (reads : List (Pipe × Read)) : State :=
  reads.foldl (step limit) ⟨.empty, output⟩

theorem run_concat (limit : Nat) (output : Pipe → List UInt8) (reads : List (Pipe × Read))
    (read : Pipe × Read) :
    run limit output (reads ++ [read]) = step limit (run limit output reads) read := by
  rw [run, List.foldl_append]
  rfl

def result (encoding : Encoding) (returncode : Int) (capture : Capture) :
    BoundedSubprocessResult where
  returncode := returncode
  stdout := (capture.streams .stdout).result encoding
  stderr := (capture.streams .stderr).result encoding
  outputLimitExceeded := capture.exceeded

/-- Until the limit is passed everything is retained; then the budget is used up. -/
structure Accounts (limit : Nat) (output : Pipe → List UInt8) (s : State) : Prop where
  whole : ∀ pipe, (s.capture.streams pipe).hashed ++ s.left pipe = output pipe
  counted : ∀ pipe, (s.capture.streams pipe).totalBytes = (s.capture.streams pipe).hashed.length
  front : ∀ pipe, (s.capture.streams pipe).retained <+: (s.capture.streams pipe).hashed
  reported : s.capture.exceeded = true ↔ limit < s.capture.totalDrained
  full : s.capture.exceeded = false →
    ∀ pipe, (s.capture.streams pipe).retained = (s.capture.streams pipe).hashed
  spent : s.capture.exceeded = true → s.capture.retainedTotal = limit
  peak : s.capture.peakRetainedBytes ≤ limit

variable {limit : Nat} {output : Pipe → List UInt8} {s : State}

theorem accounts_empty : Accounts limit output ⟨.empty, output⟩ where
  whole _ := rfl
  counted _ := rfl
  front _ := List.prefix_refl _
  reported := by simp [Capture.empty, Capture.totalDrained, StreamAccumulator.empty]
  full _ _ := rfl
  spent exceeded := nomatch exceeded
  peak := Nat.zero_le limit

theorem totalDrained_drain (capture : Capture) (pipe : Pipe) (chunk : List UInt8) :
    (capture.drain limit pipe chunk).totalDrained = capture.totalDrained + chunk.length := by
  cases pipe <;> simp [Capture.drain, Capture.totalDrained, StreamAccumulator.consume] <;> omega

theorem retained_consume (stream : StreamAccumulator) (chunk : List UInt8) (retainBytes : Nat) :
    (stream.consume chunk retainBytes).retained = stream.retained ++ chunk.take retainBytes := by
  rw [StreamAccumulator.consume]
  split_ifs with some
  · rfl
  · rw [Nat.eq_zero_of_not_pos some, List.take_zero, List.append_nil]

theorem retainedTotal_drain (capture : Capture) (pipe : Pipe) (chunk : List UInt8) :
    (capture.drain limit pipe chunk).retainedTotal =
      capture.retainedTotal + min chunk.length (limit - capture.retainedTotal) := by
  cases pipe <;> simp [Capture.drain, Capture.retainedTotal, retained_consume] <;> omega

theorem Accounts.retainedTotal_eq (accounts : Accounts limit output s)
    (within : s.capture.exceeded = false) :
    s.capture.retainedTotal = s.capture.totalDrained := by
  rw [Capture.retainedTotal, Capture.totalDrained, accounts.counted, accounts.counted,
    accounts.full within, accounts.full within]

theorem Accounts.retainedTotal_le (accounts : Accounts limit output s) :
    s.capture.retainedTotal ≤ limit := by
  cases exceeded : s.capture.exceeded with
  | true => exact (accounts.spent exceeded).le
  | false =>
    rw [accounts.retainedTotal_eq exceeded]
    exact Nat.le_of_not_lt fun above => by simp [accounts.reported.mpr above] at exceeded

theorem Accounts.totalDrained_add_le (accounts : Accounts limit output s)
    (within : s.capture.exceeded = false) {size : Nat} (small : size ≤ s.capture.readSize limit) :
    s.capture.totalDrained + size ≤ limit + 1 := by
  have drained : s.capture.totalDrained ≤ limit := by
    rw [← accounts.retainedTotal_eq within]
    exact accounts.retainedTotal_le
  rw [Capture.readSize, within, if_neg Bool.false_ne_true] at small
  omega

theorem streams_drain (capture : Capture) (pipe : Pipe) (chunk : List UInt8) :
    (capture.drain limit pipe chunk).streams = Function.update capture.streams pipe
      ((capture.streams pipe).consume chunk
        (min chunk.length (limit - capture.retainedTotal))) := rfl

theorem exceeded_drain (capture : Capture) (pipe : Pipe) (chunk : List UInt8) :
    (capture.drain limit pipe chunk).exceeded = true ↔
      capture.exceeded = true ∨ limit < capture.totalDrained + chunk.length := by
  simp [Capture.drain]

theorem accounts_drain (accounts : Accounts limit output s) (pipe : Pipe) (size : Nat) :
    Accounts limit output
      ⟨s.capture.drain limit pipe ((s.left pipe).take size),
        Function.update s.left pipe ((s.left pipe).drop size)⟩ where
  whole other := by
    rw [streams_drain]
    by_cases same : other = pipe
    · subst same
      simp [StreamAccumulator.consume, accounts.whole]
    · simp [same, accounts.whole]
  counted other := by
    rw [streams_drain]
    by_cases same : other = pipe
    · subst same
      simp [StreamAccumulator.consume, accounts.counted]
    · simp [same, accounts.counted]
  front other := by
    rw [streams_drain]
    by_cases same : other = pipe
    · subst same
      rw [Function.update_self, retained_consume, StreamAccumulator.consume]
      cases exceeded : s.capture.exceeded with
      | true =>
        rw [accounts.spent exceeded, Nat.sub_self, Nat.min_zero, List.take_zero, List.append_nil]
        exact (accounts.front other).trans (List.prefix_append _ _)
      | false =>
        rw [accounts.full exceeded, List.prefix_append_right_inj]
        exact List.take_prefix _ _
    · rw [Function.update_of_ne same]
      exact accounts.front other
  reported := by
    rw [exceeded_drain, totalDrained_drain, accounts.reported]
    omega
  full within other := by
    have before : ¬ (s.capture.exceeded = true ∨
        limit < s.capture.totalDrained + ((s.left pipe).take size).length) := by
      rw [← exceeded_drain, within]
      exact Bool.false_ne_true
    rw [not_or, Bool.not_eq_true, Nat.not_lt] at before
    obtain ⟨before, fits⟩ := before
    rw [streams_drain]
    by_cases same : other = pipe
    · subst same
      rw [← accounts.retainedTotal_eq before] at fits
      rw [Function.update_self, retained_consume, StreamAccumulator.consume,
        Nat.min_eq_left (by omega), List.take_length, accounts.full before]
    · rw [Function.update_of_ne same]
      exact accounts.full before other
  spent exceeded := by
    have budget := accounts.retainedTotal_le
    rw [retainedTotal_drain]
    rw [exceeded_drain] at exceeded
    cases before : s.capture.exceeded with
    | true => rw [accounts.spent before, Nat.sub_self, Nat.min_zero, Nat.add_zero]
    | false =>
      rw [before, ← accounts.retainedTotal_eq before] at exceeded
      have above := exceeded.resolve_left Bool.false_ne_true
      omega
  peak := by
    have budget := accounts.retainedTotal_le
    have peak := accounts.peak
    refine max_le peak ?_
    omega

theorem accounts_step (accounts : Accounts limit output s) (read : Pipe × Read) :
    Accounts limit output (step limit s read) := by
  obtain ⟨pipe, _ | more⟩ := read
  · exact accounts
  · rw [step]
    split_ifs with ended
    · exact accounts
    · exact accounts_drain accounts pipe _

theorem accounts_run (limit : Nat) (output : Pipe → List UInt8) (reads : List (Pipe × Read)) :
    Accounts limit output (run limit output reads) := by
  induction reads using List.reverseRecOn with
  | nil => exact accounts_empty
  | append_singleton reads read ih =>
    rw [run_concat]
    exact accounts_step ih read

theorem totalDrained_of_detected (accounts : Accounts limit output s) (read : Pipe × Read)
    (within : s.capture.exceeded = false)
    (detected : (step limit s read).capture.exceeded = true) :
    (step limit s read).capture.totalDrained ≤ limit + 1 := by
  obtain ⟨pipe, _ | more⟩ := read
  · rw [step, within] at detected
    cases detected
  · rw [step] at detected ⊢
    split_ifs at detected ⊢ with ended
    · rw [within] at detected
      cases detected
    · have drained := accounts.totalDrained_add_le within
        (Nat.min_le_right (more + 1) (s.capture.readSize limit))
      have chunk := List.length_take_le (min (more + 1) (s.capture.readSize limit)) (s.left pipe)
      rw [totalDrained_drain]
      omega

end RExecOp.BoundedSubprocess
