import CameraService.Spdlog.PoolOrder
import CameraService.Spdlog.RotatingKept

/-!
# From the threads to the files

The log as it is set up: the threads post their lines to a pool with one worker, which
writes them to a `rotating_file_sink`.  What the pool says about the sinks and what the
sink says about its files give what is in the files when the pool has been destroyed.

## Main definitions

* `rotating` — loggers with one worker and such a sink.
* `callsOf`, `bytesOf` — what a message makes of the sink, and what it adds to the files.
* `log_in_files` — what the files hold.
-/

namespace CameraService.Spdlog

open Transition Monitor RotatingFileSink

variable {μ : Type} {sink : RotatingFileSink} {format : μ → Bytes} {cap threads : ℕ}
  {s s' : SinkState} {ms : List (AsyncMsg μ)} {ls : List (Option (ℕ × Event μ))}

/-- The call of the sink that a message leads to. -/
def callsOf (format : μ → Bytes) : AsyncMsg μ → List SinkCall
  | .log msg => [.log (format msg)]
  | .flush _ => [.flush]
  | .terminate => []

/-- The line of a message. -/
def bytesOf (format : μ → Bytes) : AsyncMsg μ → Bytes
  | .log msg => format msg
  | _ => []

/-- Loggers that wait for room, with one worker that writes to files. -/
def rotating (sink : RotatingFileSink) (format : μ → Bytes) : Loggers μ SinkState where
  policy := fun p => p = .block
  sink := fun msg s s' => s' = (exec (sink.perform (.log (format msg))) s).2
  flush := fun s s' => s' = (exec (sink.perform .flush) s).2
  workers := 1

theorem bytes_callsOf (ms : List (AsyncMsg μ)) :
    (ms.flatMap (callsOf format)).flatMap SinkCall.bytes = ms.flatMap (bytesOf format) := by
  rw [List.flatMap_assoc]
  refine List.flatMap_congr fun m _ => ?_
  cases m with
  | log => exact List.append_nil _
  | _ => rfl

/-- What the worker does to the sink, message after message. -/
theorem performAll_of_sinks (h : Path (Sinks (rotating sink format)) s ms s') :
    s' = sink.performAll s (ms.flatMap (callsOf format)) := by
  induction h with
  | nil => rfl
  | cons hm _ ih =>
      rename_i m _ _
      rw [ih]
      cases m with
      | log | flush | terminate =>
          cases hm
          rfl

/-- **From the threads to the files.**  When the destructor of the pool has returned, the
files hold, in order, some of what they held before and of the lines that went into the
queue, which each thread put there in its order.  They hold the end of all that, if no
call to the system failed. -/
theorem log_in_files [Inhabited μ] {rotate_on_open : Bool} {s₀ : SinkState}
    {p : Threads μ SinkState}
    (hcreate : exec (sink.create rotate_on_open) s₀ = (.ok (), s)) (hcap : cap + 1 < 2 ^ 64)
    (h : Path (Step (rotating sink format)) (start (rotating sink format) cap threads s) ls p)
    (hd : .destroyed ∈ p.threads) :
    (sink.kept p.shared.sinks).Sublist
        (sink.kept s₀ ++ ((events ls).flatMap Event.pushes).flatMap (bytesOf format)) ∧
      (∀ i, (eventsOf i ls).flatMap Event.pushes = (eventsOf i ls).flatMap Event.calls) ∧
      (s₀.answers = [] → sink.base_filename_ ≠ [] →
        (sink.kept p.shared.sinks).IsSuffix
          (sink.kept s₀ ++ ((events ls).flatMap Event.pushes).flatMap (bytesOf format))) := by
  have hpolicy : ∀ q, (rotating sink format).policy q → q = .block := fun _ hq => hq
  have hdrained := drained_of_path Nat.zero_lt_one hcap h hd
  have hsinks := sinks_of_path h
  rw [handles_eq_pushes hpolicy rfl hcap h hd] at hsinks
  have hall := performAll_of_sinks hsinks
  have hlossy : sink.Lossy s₀ s := by
    have := loses_create (c := sink) rotate_on_open s₀
    rwa [hcreate] at this
  refine ⟨?_, pushes_eq_calls hpolicy h hdrained, fun hs₀ hne => ?_⟩
  · rw [hall, ← bytes_callsOf]
    exact (hlossy.trans_gains (performAll_gains _ s)).kept
  · obtain ⟨hsize, hfiles⟩ := limits_of_create hcreate
    obtain ⟨s', hs', hready, hkept⟩ := exec_create_of_fine hs₀ hne hsize hfiles rotate_on_open
    rw [hcreate] at hs'
    cases hs'
    rw [hall, ← bytes_callsOf]
    exact (performAll_of_ready hready hne _).2.1.trans (List.suffix_append_self_iff.mpr hkept)

/-- The file of a log in which one line was logged. -/
theorem log_in_files_closing : ∃ p s,
    Path (Step (rotating ⟨['l'], 4, 1⟩ fun n => [UInt8.ofNat n]))
      (start (rotating ⟨['l'], 4, 1⟩ fun n => [UInt8.ofNat n]) 1 1 s) closing p ∧
    RotatingFileSink.kept ⟨['l'], 4, 1⟩ p.shared.sinks = [7] := by
  let sink : RotatingFileSink := ⟨['l'], 4, 1⟩
  let s₀ : SinkState := ⟨fun _ => none, [], false, 0⟩
  have hcreate : exec (sink.create false) s₀ = (.ok (), (exec (sink.create false) s₀).2) := rfl
  obtain ⟨p, h, hthreads, hsinks⟩ := path_closing (rotating sink fun n => [UInt8.ofNat n])
    (exec (sink.create false) s₀).2 rfl rfl rfl
  have hend : (sink.kept p.shared.sinks).IsSuffix [7] :=
    (log_in_files hcreate (by decide) h (by simp [hthreads])).2.2 rfl (by decide)
  have hsize : (sink.kept p.shared.sinks).length = 1 := by
    rw [hsinks]
    rfl
  exact ⟨p, _, h, hend.eq_of_length hsize⟩

end CameraService.Spdlog
