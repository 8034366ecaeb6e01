import CameraService.HandleProtocol
import CameraService.Lib.Family

/-!
# Many handles at once

A server has several cameras open, and their calls interleave.  `Phases` follows
each handle by itself: a call moves the handle that it is made on along the protocol
of one handle.  A trace in which every handle starts and ends idle is well formed,
since every clause is about the calls on one handle.

## Main definitions

* `subject` — the handle that an event concerns.
* `Phases` — one protocol for each handle.
* `Fresh` — no handle is handed out while it is alive.
* `wellFormed_of_phases` — a trace of all the protocols is well formed.
* `place`, `place_path` — the protocol of one handle amid the others.
-/

namespace CameraService

open Interaction Transition

/-- The handle that an event concerns. -/
def subject (e : SdkEvent) : Option Handle :=
  match e with
  | ⟨.createHandle _, .created h⟩ => some h
  | e => e.op.onHandle.join

/-- The events of one handle. -/
def eventsOn (h : Handle) (tr : SdkTrace) : SdkTrace := tr.filter fun e => subject e = some h

/-- One protocol for each handle.  A call that concerns no handle is not made on `NULL`. -/
abbrev Phases : (Handle → Phase) → SdkEvent → (Handle → Phase) → Prop :=
  Family subject (fun e => e.op.onHandle = none) Advance

/-- No handle is handed out while it is alive. -/
def Fresh (tr : SdkTrace) : Prop := ∀ before i h after,
  tr = before ++ ⟨.createHandle i, .created h⟩ :: after → ¬ Alive before h

variable {φ φ' : Phase} {Φ Φ' : Handle → Phase} {e : SdkEvent} {h : Handle} {tr t : SdkTrace}

/-! ## The events of one handle -/

theorem subject_of_gives (he : gives h e = true) : subject e = some h := by
  obtain ⟨op, ans⟩ := e
  cases op with
  | createHandle i =>
      cases ans with
      | created h' => simpa [gives, subject] using he
      | refused e left => simp [gives] at he
  | _ => simp [gives] at he

theorem subject_of_onHandle (he : e.op.onHandle = some (some h)) : subject e = some h := by
  obtain ⟨op, ans⟩ := e
  cases op with
  | createHandle i => cases he
  | _ => simp_all [subject]

theorem subject_of_destroys (he : destroys h e = true) : subject e = some h :=
  subject_of_onHandle (onHandle_of_destroys he)

theorem subject_of_closes (he : closes h e = true) : subject e = some h :=
  subject_of_onHandle (onHandle_of_closes he)

theorem subject_of_stops (he : stops h e = true) : subject e = some h := by
  obtain ⟨op, ans⟩ := e
  cases op with
  | stopGrabbing x => exact subject_of_onHandle (by simpa [stops, Call.onHandle] using he)
  | _ => simp [stops] at he

theorem subject_of_failsToOpen (he : failsToOpen h e = true) : subject e = some h := by
  obtain ⟨op, ans⟩ := e
  cases op with
  | openDevice x =>
      simp only [failsToOpen, decide_eq_true_eq] at he
      exact subject_of_onHandle (by simp [Call.onHandle, he.1])
  | _ => simp [failsToOpen] at he

section Filter
variable {p : SdkEvent → Bool}

/-- Whether some event on the handle has a property that only such events have. -/
theorem any_eventsOn (hp : ∀ e, p e = true → subject e = some h) :
    (eventsOn h tr).any p = tr.any p := by
  rw [eventsOn, List.any_filter]
  congr 1
  funext e
  by_cases he : p e = true
  · simp [he, hp e he]
  · simp [he]

theorem countP_eventsOn (hp : ∀ e, p e = true → subject e = some h) :
    (eventsOn h tr).countP p = tr.countP p := by
  rw [eventsOn, List.countP_filter]
  refine List.countP_congr fun e _ => ?_
  constructor
  · intro he
    simp only [Bool.and_eq_true] at he
    exact he.1
  · intro he
    simpa [he] using hp e he

theorem lifetime_eventsOn : lifetime h (eventsOn h tr) = eventsOn h (lifetime h tr) := by
  rw [lifetime, eventsOn, List.takeWhile_filter, lifetime, eventsOn]
  congr 2
  funext e
  by_cases he : gives h e = true
  · simp [he, subject_of_gives he]
  · simp [he]

/-- An event on the handle splits the events on it where it splits the trace. -/
theorem eventsOn_split {after : SdkTrace} (he : subject e = some h) :
    eventsOn h (tr ++ e :: after) = eventsOn h tr ++ e :: eventsOn h after := by
  simp [eventsOn, he]

/-- Conversely, a split of the events on the handle is one of the trace. -/
theorem exists_split {a b : SdkTrace} (ht : eventsOn h tr = a ++ e :: b) :
    ∃ a' b', tr = a' ++ e :: b' ∧ eventsOn h a' = a ∧ eventsOn h b' = b := by
  rw [eventsOn, List.filter_eq_append_iff] at ht
  obtain ⟨l₁, l₂, rfl, rfl, ht⟩ := ht
  obtain ⟨l₃, b', rfl, hl₃, -, rfl⟩ := List.filter_eq_cons_iff.mp ht
  refine ⟨l₁ ++ l₃, b', by simp, ?_, rfl⟩
  rw [eventsOn, List.filter_append, List.filter_eq_nil_iff.mpr hl₃, List.append_nil]

theorem alive_eventsOn : Alive (eventsOn h tr) h ↔ Alive tr h := by
  constructor
  · intro ha
    obtain ⟨before, e, after, htr, he, hn⟩ := ha
    obtain ⟨a, b, rfl, -, rfl⟩ := exists_split htr
    exact ⟨a, e, b, rfl, he, by rwa [any_eventsOn fun _ => subject_of_destroys] at hn⟩
  · intro ha
    obtain ⟨before, e, after, rfl, he, hn⟩ := ha
    exact ⟨_, e, _, eventsOn_split (subject_of_gives he), he,
      by rwa [any_eventsOn fun _ => subject_of_destroys]⟩

end Filter

/-- **A trace is well formed when the events on each handle are**, and no call is made
on `NULL`. -/
theorem wellFormed_of_eventsOn (hnull : ∀ e ∈ tr, e.op.onHandle ≠ some none)
    (hwf : ∀ h, WellFormed (eventsOn h tr)) : WellFormed tr where
  destroyed_once := by
    intro before i h after htr
    have hcount := (hwf h).destroyed_once (eventsOn h before) i h (eventsOn h after)
      (by rw [htr, eventsOn_split rfl])
    rwa [lifetime_eventsOn, countP_eventsOn fun _ => subject_of_destroys] at hcount
  closed_once := by
    intro before h after htr
    obtain ⟨hcount, a, c, b, d, rest, hlife, hc, hd⟩ :=
      (hwf h).closed_once (eventsOn h before) h (eventsOn h after)
        (by rw [htr, eventsOn_split rfl])
    rw [lifetime_eventsOn] at hcount hlife
    rw [countP_eventsOn fun _ => subject_of_closes] at hcount
    have hsplit : eventsOn h (lifetime h after) = a ++ c :: (b ++ d :: rest) := by
      rw [hlife, List.append_assoc, List.cons_append]
    obtain ⟨a', r, hafter, -, hr⟩ := exists_split hsplit
    obtain ⟨b', rest', rfl, -, -⟩ := exists_split hr
    exact ⟨hcount, a', c, b', d, rest', by rw [hafter, List.append_assoc, List.cons_append],
      hc, hd⟩
  used_alive := by
    intro before e after x htr hx
    cases x with
    | none => exact absurd hx (hnull e (by simp [htr]))
    | some h =>
        obtain ⟨h', hh, ha⟩ := (hwf h).used_alive (eventsOn h before) e (eventsOn h after) _
          (by rw [htr, eventsOn_split (subject_of_onHandle hx)]) hx
        obtain rfl : h = h' := Option.some.inj hh
        exact ⟨h, rfl, alive_eventsOn.mp ha⟩
  closed_unused := by
    intro before i h life e after htr hn hc he
    refine (hwf h).closed_unused (eventsOn h before) i h (eventsOn h life) e (eventsOn h after)
      ?_ ?_ ?_ he
    · rw [htr, eventsOn_split rfl, eventsOn_split (subject_of_onHandle he)]
    · rwa [any_eventsOn fun _ => subject_of_destroys]
    · rwa [any_eventsOn fun _ => subject_of_closes, any_eventsOn fun _ => subject_of_failsToOpen]
  fetched_grabbing := by
    intro before x p n m answer after htr
    cases x with
    | none => exact absurd rfl (hnull _ (by rw [htr]; exact List.mem_append_right _ List.mem_cons_self))
    | some h =>
        obtain ⟨h', a, b, hh, hab, hs, hd⟩ := (hwf h).fetched_grabbing (eventsOn h before) _ p n m
          answer (eventsOn h after) (by rw [htr, eventsOn_split rfl])
        obtain rfl : h = h' := Option.some.inj hh
        obtain ⟨a', b', rfl, -, rfl⟩ := exists_split hab
        rw [any_eventsOn fun _ => subject_of_stops] at hs
        rw [any_eventsOn fun _ => subject_of_destroys] at hd
        exact ⟨h, a', b', rfl, rfl, hs, hd⟩
  stopped := by
    intro before h after htr
    obtain ⟨a, c, b, hab, hc, ha, hpos, hle⟩ := (hwf h).stopped (eventsOn h before) h
      (eventsOn h after) (by rw [htr, eventsOn_split rfl])
    obtain ⟨a', b', rfl, rfl, -⟩ := exists_split hab
    rw [any_eventsOn fun _ => subject_of_closes] at ha
    rw [countP_eventsOn fun _ => subject_of_stops] at hpos hle
    exact ⟨a', c, b', rfl, hc, ha, hpos, hle⟩
  none_left := by
    intro h ha
    exact (hwf h).none_left h (alive_eventsOn.mpr ha)

/-- **A trace of all the protocols is well formed.** -/
theorem wellFormed_of_phases (hp : Path Phases (fun _ => .idle) tr fun _ => .idle) :
    WellFormed tr := by
  refine wellFormed_of_eventsOn (fun e he hnull => ?_) fun h => ?_
  · have hnone : subject e = none := by
      obtain ⟨op, ans⟩ := e
      cases op with
      | createHandle i => cases hnull
      | _ => simp_all [subject]
    have hfree := Family.free_of_path hp e he hnone
    rw [hnull] at hfree
    cases hfree
  · exact wellFormed_of_path (Family.project hp h)

/-! ## Alive handles -/

/-- An event moves the protocol of its own handle, which was in use or is handed out. -/
theorem subject_cases_of_advance (ha : Advance φ e φ') :
    (subject e = none ∧ e.op.onHandle = none ∧ φ' = φ) ∨
      ∃ h, subject e = some h ∧ (φ.handle = some h ∨ (φ = .idle ∧ gives h e = true)) ∧
        (φ'.handle = some h ∨ φ' = .idle) := by
  cases ha with
  | malloc => exact Or.inl ⟨rfl, rfl, rfl⟩
  | refused => exact Or.inl ⟨rfl, rfl, rfl⟩
  | create => exact Or.inr ⟨_, rfl, Or.inr ⟨rfl, by simp [gives]⟩, Or.inl rfl⟩
  | configure he => exact Or.inr ⟨_, subject_of_onHandle he.onHandle, Or.inl rfl, Or.inl rfl⟩
  | picture he => exact Or.inr ⟨_, subject_of_onHandle he.onHandle, Or.inl rfl, Or.inl rfl⟩
  | destroyFailed => exact Or.inr ⟨_, rfl, Or.inl rfl, Or.inr rfl⟩
  | destroy => exact Or.inr ⟨_, rfl, Or.inl rfl, Or.inr rfl⟩
  | _ => exact Or.inr ⟨_, rfl, Or.inl rfl, Or.inl rfl⟩

/-- The events of a handle put no other handle in use. -/
theorem handle_of_eventsOn (hp : Path Advance φ t φ') (ht : ∀ e ∈ t, subject e = some h)
    (hφ : φ = .idle ∨ φ.handle = some h) : φ' = .idle ∨ φ'.handle = some h := by
  induction t generalizing φ with
  | nil => rwa [Path.nil_iff.mp hp]
  | cons e t ih =>
      obtain ⟨ψ, ha, hp⟩ := Path.cons_iff.mp hp
      rw [List.forall_mem_cons] at ht
      refine ih hp ht.2 ?_
      rcases subject_cases_of_advance ha with ⟨hnone, -⟩ | ⟨h', hs, -, hψ⟩
      · simp [ht.1] at hnone
      · obtain rfl : h = h' := Option.some.inj (ht.1.symm.trans hs)
        exact hψ.symm

/-- **A handle is alive when its protocol is not idle.** -/
theorem alive_iff (hp : Path Phases (fun _ => .idle) tr Φ) : Alive tr h ↔ Φ h ≠ .idle := by
  have hh : Path Advance .idle (eventsOn h tr) (Φ h) := Family.project hp h
  rw [← alive_eventsOn]
  constructor
  · intro ha hidle
    obtain ⟨before, e, after, htr, he, hn⟩ := ha
    rw [htr] at hh
    obtain ⟨ψ, ψ', -, hadv, hafter⟩ := hh.split
    rw [(hadv.gives he).2, hidle] at hafter
    cases handle_of_path hafter rfl hn
  · intro hne
    have hsub : ∀ e ∈ eventsOn h tr, subject e = some h := by
      intro e he
      simpa using (List.mem_filter.mp he).2
    have hhandle := (handle_of_eventsOn hh hsub (Or.inl rfl)).resolve_left hne
    exact (alive_of_path hh hhandle).resolve_left fun hc => by cases hc.1

/-- An event that concerns no handle, and is not made on `NULL`. -/
structure Neutral (e : SdkEvent) : Prop where
  subject : subject e = none
  onHandle : e.op.onHandle = none

theorem phases_of_neutral (ht : ∀ e ∈ t, Neutral e) : Path Phases Φ t Φ :=
  Path.of_forall fun e he => .free (ht e he).subject (ht e he).onHandle

/-- The handle that an event hands out. -/
def handed (e : SdkEvent) : Option Handle :=
  match e with
  | ⟨.createHandle _, .created h⟩ => some h
  | _ => none

theorem handed_eq_some : handed e = some h ↔ gives h e = true := by
  obtain ⟨op, ans⟩ := e
  cases op with
  | createHandle i =>
      cases ans with
      | created h' => simp [handed, gives]
      | refused r left => simp [handed, gives]
  | _ => simp [handed, gives]

/-- No handle is handed out twice. -/
theorem fresh_of_nodup (hd : (tr.filterMap handed).Nodup) : Fresh tr := by
  intro before i x after htr hal
  obtain ⟨b₁, e, b₂, rfl, he, -⟩ := hal
  have hlast : handed ⟨.createHandle i, .created x⟩ = some x := rfl
  rw [htr] at hd
  simp [List.filterMap_append, handed_eq_some.mpr he, hlast, List.nodup_append] at hd

theorem Fresh.prefix {t₁ t₂ : SdkTrace} (hf : Fresh (t₁ ++ t₂)) : Fresh t₁ := by
  intro before i h after ht
  exact hf before i h (after ++ t₂) (by rw [ht, List.append_assoc, List.cons_append])

/-! ## One device among many -/

/-- The phases of all handles, with that of one device put in. -/
def place (φ : Phase) (Ψ : Handle → Phase) : Handle → Phase :=
  fun h => if φ.handle = some h then φ else Ψ h

section Place
variable {Ψ : Handle → Phase}

theorem place_of_handle (hh : φ.handle = some h) : place φ Ψ h = φ := if_pos hh

theorem place_of_ne (hh : φ.handle ≠ some h) : place φ Ψ h = Ψ h := if_neg hh

/-- A call of one device is a step of all the protocols. -/
theorem phases_place (ha : Advance φ e φ') (hφ : ∀ h, φ.handle = some h → Ψ h = .idle)
    (hg : ∀ h, gives h e = true → Ψ h = .idle) :
    Phases (place φ Ψ) e (place φ' Ψ) ∧ ∀ h, φ'.handle = some h → Ψ h = .idle := by
  rcases subject_cases_of_advance ha with ⟨hs, hn, rfl⟩ | ⟨h, hs, hbefore, hafter⟩
  · exact ⟨.free hs hn, hφ⟩
  · have hΨ : Ψ h = .idle := by
      rcases hbefore with hh | ⟨-, hgives⟩
      · exact hφ h hh
      · exact hg h hgives
    have hat : place φ Ψ h = φ := by
      rcases hbefore with hh | ⟨rfl, -⟩
      · exact place_of_handle hh
      · exact hΨ
    have hto : place φ' Ψ =
        Function.update (place φ Ψ) h φ' := by
      funext k
      by_cases hk : k = h
      · rw [hk, Function.update_self]
        rcases hafter with hh | rfl
        · exact place_of_handle hh
        · exact hΨ
      · have hφk : φ.handle ≠ some k := by
          rcases hbefore with hh | ⟨rfl, -⟩
          · simp [hh, Ne.symm hk]
          · simp [Phase.handle]
        have hφk' : φ'.handle ≠ some k := by
          rcases hafter with hh | rfl
          · simp [hh, Ne.symm hk]
          · simp [Phase.handle]
        rw [Function.update_of_ne hk, place_of_ne hφk, place_of_ne hφk']
    refine ⟨hto ▸ .own hs (hat.symm ▸ ha), fun k hk => ?_⟩
    rcases hafter with hh | rfl
    · obtain rfl : h = k := Option.some.inj (hh.symm.trans hk)
      exact hΨ
    · cases hk

/-- **A run of one device is a run of all the protocols**, when the handles that it is
given are not in use. -/
theorem place_path {T : SdkTrace} (hT : Path Phases (fun _ => .idle) T (place φ Ψ))
    (hφ : ∀ h, φ.handle = some h → Ψ h = .idle) (hp : Path Advance φ tr φ')
    (hf : Fresh (T ++ tr)) :
    Path Phases (fun _ => .idle) (T ++ tr) (place φ' Ψ) ∧
      ∀ h, φ'.handle = some h → Ψ h = .idle := by
  induction tr generalizing T φ with
  | nil =>
      obtain rfl := Path.nil_iff.mp hp
      rw [List.append_nil]
      exact ⟨hT, hφ⟩
  | cons e tr ih =>
      obtain ⟨ψ, ha, hp⟩ := Path.cons_iff.mp hp
      have hg : ∀ h, gives h e = true → Ψ h = .idle := by
        intro h he
        obtain ⟨rfl, -⟩ := ha.gives he
        by_contra hne
        obtain ⟨op, ans⟩ := e
        cases op with
        | createHandle i =>
            cases ans with
            | created h' =>
                obtain rfl : h' = h := by simpa [gives] using he
                exact hf T i h' tr rfl ((alive_iff hT).mpr hne)
            | refused e left => simp [gives] at he
        | _ => simp [gives] at he
      obtain ⟨hstep, hψ⟩ := phases_place ha hφ hg
      rw [List.append_cons] at hf ⊢
      exact ih (hT.append (.single hstep)) hψ hp hf

end Place

end CameraService
