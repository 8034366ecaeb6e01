import CameraService.MessageReading

/-!
# Messages from one program to another

What one program writes after measuring, another reads back; a copy stands for the same, no
matter what was in the message before; and two messages that follow each other on the wire
are read as the one that `MergeFrom` makes of them.

## Main definitions

* `ImageRequest.sent`, `BytesBody.sent`, `CameraMetas.sent` — the bytes of a measured message.
* `ImageRequest.read_sent`, `BytesBody.read_sent`, `CameraMetas.read_sent` — what is read.
* `copies` — a copy stands for what was copied.
* `merge_concatenates` — merging is reading what follows.
-/

namespace CameraService.Pb

open Wire

variable {r : Runtime} {deterministic : Bool}

/-! ## `ImageRequest_` -/

namespace ImageRequest

/-- The bytes of a measured request. -/
def sent (r : Runtime) (m : ImageRequest) : Bytes := (m.byteSizeLong r).2.internalSerialize r

theorem value_new : new.value = schema.none := rfl

theorem value_clear (m : ImageRequest) : m.clear.value = schema.none := rfl

/-- A request that has nothing in it is overwritten by a merge. -/
theorem value_mergeFrom_none {a : ImageRequest} (h : a.value = schema.none) (b : ImageRequest) :
    (a.mergeFrom b).value = b.value := by
  simp only [value, schema, Schema.none, Message.mk.injEq, RequestValue.mk.injEq,
    Option.map_eq_none_iff] at h
  obtain ⟨⟨hsn, hshape⟩, hu⟩ := h
  have hmerge : (a.mergeFrom b).value =
      ⟨⟨if b.sn_ ≠ [] then b.sn_ else a.sn_, (a.mergeFrom b).shape?.map (·.value)⟩,
        a._internal_metadata_.fields ++ b._internal_metadata_.fields⟩ := rfl
  rw [hmerge, shape?_mergeFrom, hshape, hsn, hu]
  cases hb : b.shape? with
  | none => by_cases hs : b.sn_ = [] <;> simp [value, hb, hs]
  | some shape =>
      by_cases hs : b.sn_ = [] <;>
        simp [value, hb, hs, ImageShape.value_mergeFrom_none ImageShape.value_new]

/-- A copy stands for what was copied. -/
theorem value_copyFrom (a b : ImageRequest) : (a.copyFrom b).value = b.value :=
  value_mergeFrom_none (value_clear a) b

/-- A request is read back. -/
theorem read_sent (hr : r.Lawful) {m : ImageRequest} (h : Within m.fields) :
    schema.read (m.sent r) = if isUtf8 m.sn_ then some m.value else none := by
  rw [sent, (measured_writes hr h).1, Schema.read, Schema.readOn_encodeAll, ← value_new, reads,
    value_mergeFrom_none value_new]

end ImageRequest

/-! ## `BytesBody` -/

namespace BytesBody

/-- The bytes of a measured body. -/
def sent (r : Runtime) (m : BytesBody) : Bytes := (m.byteSizeLong r).2.internalSerialize r

theorem value_new : new.value = schema.none := rfl

/-- A body that has nothing in it is overwritten by a merge. -/
theorem value_mergeFrom_none {a : BytesBody} (h : a.value = schema.none) (b : BytesBody) :
    (a.mergeFrom b).value = b.value := by
  simp only [value, schema, Schema.none, Message.mk.injEq] at h
  by_cases hc : b.content_ = [] <;>
    simp [value, mergeFrom, UnknownFieldSet.append, h.1, h.2, hc]

/-- A body is read back. -/
theorem read_sent (hr : r.Lawful) {m : BytesBody} (h : Within m.fields) :
    schema.read (m.sent r) = some m.value := by
  rw [sent, (measured_writes hr h).1, Schema.read, Schema.readOn_encodeAll, ← value_new, reads,
    value_mergeFrom_none value_new]

end BytesBody

/-! ## `CameraMetas` -/

namespace CameraMetas

/-- The bytes of a measured list of cameras. -/
def sent (r : Runtime) (deterministic : Bool) (m : CameraMetas) : Bytes :=
  (m.byteSizeLong r).2.internalSerialize r deterministic

theorem value_new : new.value = schema.none := rfl

/-- A list that has nothing in it is overwritten by a merge. -/
theorem value_mergeFrom_none (hr : r.Lawful) {a : CameraMetas} (h : a.value = schema.none)
    (b : CameraMetas) : (a.mergeFrom r b).value = b.value := by
  simp only [value, schema, Schema.none, Message.mk.injEq, List.map_eq_nil_iff] at h
  simp only [value, mergeFrom, UnknownFieldSet.append, h.1, h.2, List.nil_append, List.map_map,
    Function.comp_def, CameraMeta.value_mergeFrom_none hr CameraMeta.value_new]

/-- A list of cameras is read back, if all of its strings are UTF-8. -/
theorem read_sent (hr : r.Lawful) {m : CameraMetas} (h : Within (m.fields r deterministic)) :
    schema.read (m.sent r deterministic) = if m.Utf8 then some m.value else none := by
  rw [sent, (measured_writes hr h).1, Schema.read, Schema.readOn_encodeAll, ← value_new,
    reads hr, value_mergeFrom_none hr value_new]

end CameraMetas

/-! ## Copies and merges -/

/-- **A copy stands for what was copied**, whatever was in the message before. -/
theorem copies (hr : r.Lawful) :
    (∀ a b : ImageShape, (a.copyFrom b).value = b.value) ∧
      (∀ a b : ImageRequest, (a.copyFrom b).value = b.value) ∧
      (∀ a b : BytesBody, (a.copyFrom b).value = b.value) ∧
      (∀ a b : CameraMeta, (a.copyFrom r b).value = b.value) ∧
      ∀ a b : CameraMetas, (a.copyFrom r b).value = b.value := by
  refine ⟨fun a b => ?_, ImageRequest.value_copyFrom, fun a b => ?_, fun a b => ?_, fun a b => ?_⟩
  · exact ImageShape.value_mergeFrom_none (ImageShape.value_clear a) b
  · exact BytesBody.value_mergeFrom_none rfl b
  · exact CameraMeta.value_mergeFrom_none hr CameraMeta.value_new b
  · exact CameraMetas.value_mergeFrom_none hr rfl b

/-- **Merging is reading what follows.**  Two requests, or two lists of cameras, one after the
other on the wire: a reader ends with what `MergeFrom` makes of the two messages, unless it
rejects one of them. -/
theorem merge_concatenates (hr : r.Lawful) {d : Bool} :
    (∀ a b : ImageRequest, Within a.fields → Within b.fields →
      ImageRequest.schema.read (a.sent r ++ b.sent r) =
        if isUtf8 a.sn_ && isUtf8 b.sn_ then some (a.mergeFrom b).value else none) ∧
    ∀ a b : CameraMetas, Within (a.fields r d) → Within (b.fields r d) →
      CameraMetas.schema.read (a.sent r d ++ b.sent r d) =
        if a.Utf8 ∧ b.Utf8 then some (a.mergeFrom r b).value else none := by
  constructor
  · intro a b ha hb
    have hread := ImageRequest.read_sent hr ha
    rw [ImageRequest.sent, (ImageRequest.measured_writes hr ha).1] at hread
    rw [ImageRequest.sent, ImageRequest.sent, (ImageRequest.measured_writes hr ha).1,
      (ImageRequest.measured_writes hr hb).1, Schema.read_append, hread]
    by_cases h : isUtf8 a.sn_ = true
    · simp [h, ImageRequest.reads]
    · simp [h]
  · intro a b ha hb
    have hread := CameraMetas.read_sent hr ha
    rw [CameraMetas.sent, (CameraMetas.measured_writes hr ha).1] at hread
    rw [CameraMetas.sent, CameraMetas.sent, (CameraMetas.measured_writes hr ha).1,
      (CameraMetas.measured_writes hr hb).1, Schema.read_append, hread]
    by_cases h : a.Utf8
    · simp [h, CameraMetas.reads hr]
    · simp [h]

/-- A width, and behind it a height. -/
theorem merge_concatenates_shapes :
    ImageRequest.schema.read
      ((ImageRequest.new.mutableImageshape (·.setWidth 640)).sent .documented ++
        (ImageRequest.new.mutableImageshape (·.setHeight 2)).sent .documented) =
      some ⟨⟨[], some ⟨⟨640, 2, 0⟩, []⟩⟩, []⟩ :=
  ((merge_concatenates (d := false) Runtime.documented_lawful).1
    (ImageRequest.new.mutableImageshape (·.setWidth 640))
    (ImageRequest.new.mutableImageshape (·.setHeight 2))
    (by decide +kernel) (by decide +kernel)).trans (if_pos (by decide +kernel))

end CameraService.Pb
