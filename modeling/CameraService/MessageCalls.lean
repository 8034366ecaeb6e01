import CameraService.MessageTransfer

/-!
# A request under any calls

`ImageRequest_` keeps a pointer and a bit for its shape, and takes the bit away without the
pointer.  Whatever is called on it, in any order, it behaves like a value that has a shape
or none: so says `has_imageshape`, so says `imageshape`, which does not look at the bit, and
so is the message written.

## Main definitions

* `ImageRequest.Call` — the calls; `ImageRequest.runs` — a request after calls.
* `ImageRequest.stated` — what the calls say about a plain value.
* `ImageRequest.calls_spec` — the request is that value.
-/

namespace CameraService.Pb

open Wire

namespace ImageShape

/-- The calls on a shape. -/
inductive Setter
  | width (value : Int32)
  | height (value : Int32)
  | channel (value : Int32)

def Setter.run (m : ImageShape) : Setter → ImageShape
  | width i => m.setWidth i
  | height i => m.setHeight i
  | channel i => m.setChannel i

/-- What a call says about a plain value. -/
def Setter.after (v : Message CameraService.ImageShape) :
    Setter → Message CameraService.ImageShape
  | width i => { v with known := { v.known with width := i } }
  | height i => { v with known := { v.known with height := i } }
  | channel i => { v with known := { v.known with channel := i } }

theorem value_setters (m : ImageShape) (sets : List Setter) :
    (sets.foldl Setter.run m).value = sets.foldl Setter.after m.value := by
  induction sets generalizing m with
  | nil => rfl
  | cons s sets ih =>
      rw [List.foldl_cons, List.foldl_cons, ih]
      cases s <;> rfl

/-- A shape on top of another: a number that is zero says nothing. -/
def merged (v w : Message CameraService.ImageShape) : Message CameraService.ImageShape where
  known :=
    { width := if w.known.width ≠ 0 then w.known.width else v.known.width
      height := if w.known.height ≠ 0 then w.known.height else v.known.height
      channel := if w.known.channel ≠ 0 then w.known.channel else v.known.channel }
  unknown := v.unknown ++ w.unknown

theorem value_mergeFrom (a b : ImageShape) : (a.mergeFrom b).value = merged a.value b.value := rfl

end ImageShape

namespace ImageRequest

/-- The calls on a request. -/
inductive Call
  | setSn (sn : Bytes)
  | mutableImageshape (sets : List ImageShape.Setter)
  | clearImageshape
  | setAllocatedImageshape (value : Option ImageShape)
  | releaseImageshape
  | clear
  | mergeFrom (src : ImageRequest)
  | copyFrom (src : ImageRequest)
  | byteSizeLong

def Call.run (r : Runtime) (m : ImageRequest) : Call → ImageRequest
  | setSn sn => m.setSn sn
  | mutableImageshape sets => m.mutableImageshape fun p => sets.foldl ImageShape.Setter.run p
  | clearImageshape => m.clearImageshape
  | setAllocatedImageshape value => m.setAllocatedImageshape value
  | releaseImageshape => m.releaseImageshape
  | clear => m.clear
  | mergeFrom src => m.mergeFrom src
  | copyFrom src => m.copyFrom src
  | byteSizeLong => (m.byteSizeLong r).2

/-- A request after calls. -/
def runs (r : Runtime) (calls : List Call) : ImageRequest := calls.foldl (Call.run r) new

/-- A request on top of another. -/
def merged (v w : Message RequestValue) : Message RequestValue where
  known :=
    { sn := if w.known.sn ≠ [] then w.known.sn else v.known.sn
      shape := match w.known.shape with
        | none => v.known.shape
        | some s => some (ImageShape.merged (v.known.shape.getD ImageShape.schema.none) s) }
  unknown := v.unknown ++ w.unknown

/-- What a call says about a plain value. -/
def Call.after (v : Message RequestValue) : Call → Message RequestValue
  | setSn sn => { v with known := { v.known with sn := sn } }
  | mutableImageshape sets => { v with known := { v.known with
      shape := some (sets.foldl ImageShape.Setter.after
        (v.known.shape.getD ImageShape.schema.none)) } }
  | clearImageshape | releaseImageshape => { v with known := { v.known with shape := none } }
  | setAllocatedImageshape value =>
    { v with known := { v.known with shape := value.map (·.value) } }
  | clear => schema.none
  | mergeFrom src => merged v src.value
  | copyFrom src => src.value
  | byteSizeLong => v

/-- What calls say. -/
def stated (calls : List Call) : Message RequestValue := calls.foldl Call.after schema.none

variable {r : Runtime}

/-- `imageshape()` may be asked without `has_imageshape()`. -/
theorem value_imageshape (m : ImageRequest) :
    m.imageshape.value = m.value.known.shape.getD ImageShape.schema.none := by
  cases hp : m.imageshape_ with
  | none => simp [imageshape, value, shape?, hp]
  | some p =>
      cases hb : m.has_bits_ with
      | true => simp [imageshape, value, shape?, hp, hb]
      | false => simp [imageshape, value, shape?, hp, hb, value_of_not_has hb hp]

theorem value_mergeFrom (a b : ImageRequest) : (a.mergeFrom b).value = merged a.value b.value := by
  have hshape := shape?_mergeFrom a b
  have hmerge : (a.mergeFrom b).value =
      ⟨⟨if b.sn_ ≠ [] then b.sn_ else a.sn_, (a.mergeFrom b).shape?.map (·.value)⟩,
        a._internal_metadata_.fields ++ b._internal_metadata_.fields⟩ := rfl
  rw [hmerge, hshape]
  cases hb : b.shape? with
  | none => simp [merged, value, hb]
  | some shape => simp [merged, value, hb, value_getD, ImageShape.value_mergeFrom]

/-- A call does to the message what it says. -/
theorem value_run (m : ImageRequest) (c : Call) : (c.run r m).value = c.after m.value := by
  cases c with
  | setSn sn => rfl
  | mutableImageshape sets =>
      have hp := value_imageshape m
      simp only [Call.run, Call.after, value, mutableImageshape, shape?, if_true, Option.map_some,
        ImageShape.value_setters]
      rw [show (m.imageshape_.getD .new).value = m.imageshape.value from rfl, hp]
      rfl
  | clearImageshape => simp [Call.run, Call.after, value, clearImageshape, shape?]
  | setAllocatedImageshape value =>
      cases value <;>
        simp [Call.run, Call.after, ImageRequest.value, setAllocatedImageshape, shape?]
  | releaseImageshape =>
      simp [Call.run, Call.after, value, releaseImageshape, setAllocatedImageshape, shape?]
  | clear => rfl
  | mergeFrom src => exact value_mergeFrom m src
  | copyFrom src => exact value_copyFrom m src
  | byteSizeLong =>
      change (m.byteSizeLong r).2.value = m.value
      rw [value, value, shape_measured, Option.map_map]
      rfl

theorem value_runs (calls : List Call) : (runs r calls).value = stated calls := by
  have h : ∀ m : ImageRequest,
      (calls.foldl (Call.run r) m).value = calls.foldl Call.after m.value := by
    induction calls with
    | nil => intro m; rfl
    | cons c calls ih =>
        intro m
        rw [List.foldl_cons, List.foldl_cons, ih, value_run]
  exact h new

/-- **A request is a plain value**, under any calls: the bit, the shape that is asked for
without the bit, and what is written and measured are those of the value. -/
theorem calls_spec (hr : r.Lawful) (calls : List Call) :
    (runs r calls).has_bits_ = (stated calls).known.shape.isSome ∧
      (runs r calls).imageshape.value =
        (stated calls).known.shape.getD ImageShape.schema.none ∧
      (Within (runs r calls).fields →
        ((runs r calls).sent r).length = ((runs r calls).byteSizeLong r).1 ∧
        schema.read ((runs r calls).sent r) =
          if isUtf8 (stated calls).known.sn then some (stated calls) else none) := by
  have hvalue := value_runs (r := r) calls
  rw [← hvalue]
  refine ⟨?_, value_imageshape _, fun hfit => ⟨?_, read_sent hr hfit⟩⟩
  · have hset := (runs r calls).set_of_has
    cases hb : (runs r calls).has_bits_ with
    | false => simp [value, shape?, hb]
    | true => simp [value, shape?, hb, hset hb]
  · rw [sent, (measured_writes hr hfit).1, (measured_writes hr hfit).2]

/-- A shape that was given, taken away and given again. -/
def replaced : List Call :=
  [.mutableImageshape [.width 640], .clearImageshape, .mutableImageshape [.height 2], .setSn [65]]

theorem calls_spec_replaced : Within (runs .documented replaced).fields ∧
    (runs .documented replaced).imageshape.value = ⟨⟨0, 2, 0⟩, []⟩ ∧
    schema.read ((runs .documented replaced).sent .documented) =
      some ⟨⟨[65], some ⟨⟨0, 2, 0⟩, []⟩⟩, []⟩ := by
  have hfit : Within (runs .documented replaced).fields := by decide +kernel
  obtain ⟨-, hshape, hwire⟩ := calls_spec Runtime.documented_lawful replaced
  exact ⟨hfit, hshape, (hwire hfit).2.trans (if_pos (by decide +kernel))⟩

end ImageRequest

end CameraService.Pb
