import CameraService.Concurrent.Invariant
import CameraService.Pictures

/-!
# Whose image a response carries

A request carries its own buffer from section to section.  The buffer holds no data
until `take_picture` succeeds, and then it holds the image of the one capture that the
request has made.

## Main definitions

* `FromCapture` — the image of the capture in a log.
* `Carries` — what the buffer of a request holds.
* `imageOutline`, `carries_of_reachable` — it holds that in every reachable state.
-/

namespace CameraService

open Interaction Provider Transition

variable {S : Service} {t : Thread} {os : List Thread} {tr : SdkTrace} {a b : DevId}
  {sn : Key} {P P' : Provider} {pc pc' : Pc} {held : DevId → Bool} {r : Ret}

/-! ## Captures of a section -/

theorem captured_of_release (h : Runs (release held a) P tr P' ()) : captured tr = [] :=
  captured_of_asks (release_harmless.imp captures_of_harmless) h

theorem Found.captured {x : Option DevId} (h : Found held P sn tr P' x) :
    CameraService.captured tr = [] := by
  cases h with
  | hit hl hs => rfl
  | miss hl => rfl
  | evict hl hs h => exact captured_of_release h

/-- Starting a device captures nothing. -/
theorem captured_of_createDevice {info : RecordPtr}
    (h : Runs (createDevice info) P tr P' (r, a)) : captured tr = [] := by
  obtain ⟨-, i, d, t₁, t₂, rfl, hread, hstart, -⟩ := createDevice_spec h
  have hasks : Asks (I := sdk) (fun op : Call => op.captures = false)
      (CameraDevice.start (some i)) :=
    CameraDevice.start_asks captures_of_harmless (fun _ _ => rfl) (fun _ => rfl) fun _ => rfl
  rw [captured_append, captured_of_asks hasks hstart]
  rcases hread with ⟨-, rfl⟩ | ⟨-, rfl⟩
  · rfl
  · rfl

/-- The caches keep their capacities. -/
theorem Effect.sized (h : Effect held P pc tr P') (hs : ∀ b, (P.heap b).cache_data_.Sized) (b : DevId) :
    (P'.heap b).cache_data_.Sized := by
  cases h with
  | edit hpc hm h =>
      rw [h.cache b]
      exact hs b
  | @create _ _ _ _ d _ h =>
      obtain ⟨-, i, d', t₁, t₂, -, -, hstart, hd⟩ := createDevice_spec h
      by_cases hb : b = P.next
      · rw [hd, hb]
        simp [withDevice, CameraDevice.start_cache hstart, CameraDevice.new, Buff.sized_empty]
      · simpa [withDevice, hb] using hs b
  | @take a _ _ _ d _ h =>
      by_cases hb : b = a
      · subst hb
        simpa using CameraDevice.takePicture_sized (hs b) h
      · simpa [hb] using hs b
  | @closing a _ d h =>
      by_cases hb : b = a
      · subst hb
        simpa [(CameraDevice.stopAndClose_spec h).1] using hs b
      · simpa [hb] using hs b
  | enumerate => exact hs b

/-! ## The buffer of a request -/

/-- The log has one capture, of its own frame, and `sent` holds of its image. -/
def FromCapture (log : SdkTrace) (sent : Bytes → Prop) : Prop :=
  ∃ c : Capture, captured log = c.events ∧ c.Own ∧ (c.Promised → sent c.saved.image)

/-- What the buffer of a request holds, and what its response carries. -/
def Carries (t : Thread) : Prop :=
  match t.pc with
  | .arrive _ => captured t.log = []
  | .lookup _ data | .findInfo _ data | .create _ _ data | .abandon _ data | .publish _ _ data
  | .take _ data => captured t.log = [] ∧ data.data_size_t_ = 0 ∧ data.Sized
  | .leave _ ret data => (ret ≠ .ok → data.data_size_t_ = 0) ∧
      (ret = .ok → FromCapture t.log fun image => setContent data = some image)
  | .replied reply => (reply.ret ≠ .ok → reply.content = []) ∧
      (reply.ret = .ok → FromCapture t.log fun image => reply.content = image)
  | _ => True

/-- A failure is answered with an empty content. -/
theorem carries_failure {log : SdkTrace} {data : Buff} {e : Err} (hd : data.data_size_t_ = 0) :
    Carries ⟨.replied (imageReply (.err e) data), log⟩ := by
  rw [imageReply_blank hd]
  exact ⟨fun _ => rfl, fun hok => by cases hok⟩

/-- A section without a capture leaves the log as empty as it was. -/
theorem FromCapture.append {log : SdkTrace} {sent : Bytes → Prop} (h : FromCapture log sent)
    (htr : captured tr = []) : FromCapture (log ++ tr) sent := by
  obtain ⟨c, hc, hown, hsent⟩ := h
  exact ⟨c, by rw [captured_append, htr, List.append_nil, hc], hown, hsent⟩

theorem Carries.next (hI : ∀ b, (S.provider.heap b).cache_data_.Sized) (ht : Carries t)
    (h : Section held S.provider t.pc tr P' pc') : Carries ⟨pc', t.log ++ tr⟩ := by
  obtain ⟨q, log⟩ := t
  have hkeep : captured log = [] → captured tr = [] → captured (log ++ tr) = [] := by
    intro hlog htr
    rw [captured_append, hlog, htr]
    rfl
  cases h with
  | arrive h =>
      have hg := Buff.grown_of_ensureSize h
      exact ⟨hkeep ht (captured_of_malloc (Buff.ensureSize_trace h)), hg.blank rfl,
        hg.sized Buff.sized_empty⟩
  | hit h => exact ⟨hkeep ht.1 h.captured, ht.2⟩
  | miss h => exact ⟨hkeep ht.1 h.captured, ht.2⟩
  | unknown h => exact carries_failure ht.2.1
  | known h => exact ⟨hkeep ht.1 rfl, ht.2⟩
  | failed h hr hd => exact ⟨hkeep ht.1 (captured_of_createDevice h), ht.2⟩
  | created h hd => exact ⟨hkeep ht.1 (captured_of_createDevice h), ht.2⟩
  | abandon h => exact carries_failure ht.2.1
  | publish h =>
      exact ⟨hkeep ht.1 (captured_of_asks (addCameraDevice_harmless.imp captures_of_harmless) h),
        ht.2⟩
  | @take a data data' _ d ret h =>
      refine ⟨fun hr => CameraDevice.takePicture_blank ht.2.1 h hr, fun hr => ?_⟩
      subst hr
      obtain ⟨c, hc, hown, hsent⟩ := CameraDevice.takePicture_capture (hI a) ht.2.2 h
      have hlog : captured log = [] := ht.1
      exact ⟨c, by rw [captured_append, hlog, List.nil_append, hc], hown, hsent⟩
  | @leave a ret data _ _ h =>
      refine ⟨fun hr => ?_, fun hr => ?_⟩
      · rw [imageReply_ret] at hr
        rw [imageReply_blank (ht.1 hr)]
      · rw [imageReply_ret] at hr
        obtain ⟨c, hc, hown, hsent⟩ := (ht.2 hr).append (captured_of_release h)
        refine ⟨c, hc, hown, fun hprom => ?_⟩
        rw [imageReply, hsent hprom]
  | _ => trivial

end CameraService
