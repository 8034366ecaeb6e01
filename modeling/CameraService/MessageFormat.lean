import CameraService.Messages

/-!
# What the messages write

A message writes a list of fields, and `ByteSizeLong` is the number of bytes they take.  The
size of a message within another is written in front of it from what the last measuring
left, so the outer message has to be measured before it is written; what it writes then is
well formed.  The sizes of the tags are constants in the code, which the field numbers bear
out.

## Main definitions

* `Runtime.Lawful` — what is documented about the protobuf library.
* `ImageShape.fields`, `ImageRequest.fields`, `BytesBody.fields`, `CameraMeta.fields`,
  `CameraMetas.fields` — the fields of a message.
* `ImageRequest.measured_writes`, `CameraMetas.measured_writes` — a measured message writes
  its fields, and the bytes that were measured.
-/

namespace CameraService.Pb

open Wire

/-! ## The library -/

/-- An `int32` goes to the wire as a number of 64 bits. -/
def signExtend (v : Int32) : UInt64 := v.toInt64.toUInt64

def int32Field (n : Number) (v : Int32) : List Field :=
  if v ≠ 0 then [.value n (.varint (signExtend v))] else []

def bytesField (n : Number) (s : Bytes) : List Field :=
  if s ≠ [] then [.value n (.bytes s)] else []

/-- A message within a message. -/
def messageField (n : Number) (fs : List Field) : Field := .value n (.bytes (encodeAll fs))

/-- The fields of an entry of a map; neither is left out. -/
def entryFields (k v : Bytes) : List Field := [.value 1 (.bytes k), .value 2 (.bytes v)]

/-- The bytes of the fields stay below the limit of the library. -/
def Within (fs : List Field) : Prop := (encodeAll fs).length < 2 ^ 31

instance (fs : List Field) : Decidable (Within fs) := inferInstanceAs (Decidable (_ < _))

/-- What is documented about the protobuf library, for messages below its limit. -/
structure Runtime.Lawful (r : Runtime) : Prop where
  writeInt32 : ∀ n v, r.writeInt32 n v = encode (.value n (.varint (signExtend v)))
  int32SizePlusOne : ∀ v, r.int32SizePlusOne v = 1 + (Payload.varint (signExtend v)).encode.length
  writeString : ∀ n s, s.length < 2 ^ 31 → r.writeString n s = encode (.value n (.bytes s))
  stringSize : ∀ s, s.length < 2 ^ 31 → r.stringSize s = (Payload.bytes s).encode.length
  writeBytes : ∀ n s, s.length < 2 ^ 31 → r.writeBytes n s = encode (.value n (.bytes s))
  bytesSize : ∀ s, s.length < 2 ^ 31 → r.bytesSize s = (Payload.bytes s).encode.length
  writeMessage : ∀ n size body,
    r.writeMessage n size body = tag n 2 ++ varint size.toUInt32.toNat ++ body
  messageSize : ∀ n, n < 2 ^ 31 → r.messageSize n = (varint n).length + n
  writeEntry : ∀ n k v, Within (entryFields k v) →
    r.writeEntry n k v = encode (messageField n (entryFields k v))
  entrySize : ∀ k v, Within (entryFields k v) →
    r.entrySize k v = (Payload.bytes (encodeAll (entryFields k v))).encode.length
  iterate : ∀ m, (r.iterate m).Perm (m.entries.map fun e => (e.1, e.2))
  sorted : ∀ m, (r.sorted m).Perm (m.entries.map fun e => (e.1, e.2))
  writeUnknown : ∀ fs, Within fs → r.writeUnknown fs = encodeAll fs
  unknownSize : ∀ fs, Within fs → r.unknownSize fs = (encodeAll fs).length

/-- The order of the bytes of two strings. -/
def leBytes : Bytes → Bytes → Bool
  | [], _ => true
  | _ :: _, [] => false
  | a :: as, b :: bs => a.toNat < b.toNat || (a.toNat == b.toNat && leBytes as bs)

/-- The library as it is documented, with the entries of a map in the order of their keys. -/
def Runtime.documented : Runtime where
  writeInt32 n v := encode (.value n (.varint (signExtend v)))
  int32SizePlusOne v := 1 + (Payload.varint (signExtend v)).encode.length
  writeString n s := encode (.value n (.bytes s))
  stringSize s := (Payload.bytes s).encode.length
  writeBytes n s := encode (.value n (.bytes s))
  bytesSize s := (Payload.bytes s).encode.length
  writeMessage n size body := tag n 2 ++ varint size.toUInt32.toNat ++ body
  messageSize n := (varint n).length + n
  writeEntry n k v := encode (messageField n (entryFields k v))
  entrySize k v := (Payload.bytes (encodeAll (entryFields k v))).encode.length
  iterate m := m.entries.map fun e => (e.1, e.2)
  sorted m := (m.entries.map fun e => (e.1, e.2)).mergeSort fun a b => leBytes a.1 b.1
  writeUnknown := encodeAll
  unknownSize fs := (encodeAll fs).length

theorem Runtime.documented_lawful : documented.Lawful where
  writeInt32 _ _ := rfl
  int32SizePlusOne _ := rfl
  writeString _ _ _ := rfl
  stringSize _ _ := rfl
  writeBytes _ _ _ := rfl
  bytesSize _ _ := rfl
  writeMessage _ _ _ := rfl
  messageSize _ _ := rfl
  writeEntry _ _ _ _ := rfl
  entrySize _ _ _ := rfl
  iterate _ := .refl _
  sorted _ := List.mergeSort_perm _ _
  writeUnknown _ _ := rfl
  unknownSize _ _ := rfl

/-! ## Lengths -/

theorem Within.left {fs gs : List Field} (h : Within (fs ++ gs)) : Within fs := by
  simp only [Within, encodeAll_append, List.length_append] at h ⊢
  omega

theorem Within.right {fs gs : List Field} (h : Within (fs ++ gs)) : Within gs := by
  simp only [Within, encodeAll_append, List.length_append] at h ⊢
  omega

theorem length_le_encodeAll {fs : List Field} {f : Field} (h : f ∈ fs) :
    (encode f).length ≤ (encodeAll fs).length := by
  induction fs with
  | nil => simp at h
  | cons g fs ih =>
      simp only [encodeAll_cons, List.length_append]
      by_cases hf : f = g
      · subst hf
        omega
      · have := ih (by simpa [hf] using h)
        omega

/-- A tag and a length take five bytes each, at most. -/
theorem length_encode_bytes_le (n : Number) {s : Bytes} (h : s.length < 2 ^ 31) :
    (encode (.value n (.bytes s))).length ≤ s.length + 10 := by
  have htag : (tag n 2).length ≤ 5 := varint_length_le 4 _ (by omega)
  have hlength : (varint s.length).length ≤ 5 := varint_length_le 4 _ (by omega)
  simp only [encode_value, Payload.wireType, Payload.encode, List.length_append]
  omega

theorem length_le_encode_bytes (n : Number) (s : Bytes) :
    s.length ≤ (encode (.value n (.bytes s))).length := by
  simp only [encode_value, Payload.encode, List.length_append]
  omega

/-- What is within a field is below the limit, too. -/
theorem Within.bytes_lt {fs : List Field} {n : Number} {s : Bytes} (h : Within fs)
    (hmem : .value n (.bytes s) ∈ fs) : s.length < 2 ^ 31 := by
  have h₁ := length_le_encode_bytes n s
  have h₂ := length_le_encodeAll hmem
  simp only [Within] at h
  omega

theorem Within.message {fs gs : List Field} {n : Number} (h : Within fs)
    (hmem : messageField n gs ∈ fs) : Within gs := h.bytes_lt hmem

/-- The tag of a field with a number below 16 is one byte. -/
theorem tag_length {n : Number} {k : ℕ} (h : n.val * 8 + k < 128) : (tag n k).length = 1 := by
  rw [tag, varint, if_pos h]
  rfl

theorem encode_value_length {n : Number} {p : Payload} (h : n.val < 15) :
    (encode (.value n p)).length = 1 + p.encode.length := by
  have hw : p.wireType < 8 := (Token.payload p).wireType_lt
  rw [encode_value, List.length_append, tag_length (by omega)]

/-- The size that was cached is the size that is written. -/
theorem cached_size {n : ℕ} (h : n < 2 ^ 31) : (Int32.ofNat n).toUInt32.toNat = n := by
  have : (Int32.ofNat n).toUInt32 = UInt32.ofNat n := rfl
  rw [this, UInt32.toNat_ofNat_of_lt' (show n < 2 ^ 32 by omega)]

theorem encodeAll_length_perm {fs gs : List Field} (h : fs.Perm gs) :
    (encodeAll fs).length = (encodeAll gs).length := by
  induction h with
  | nil => rfl
  | cons f _ ih => simp [ih]
  | swap f g fs => simp only [encodeAll_cons, List.length_append]; omega
  | trans _ _ ih₁ ih₂ => exact ih₁.trans ih₂

/-- Measuring the fields of a list, the tags first. -/
theorem foldl_size {α : Type} {g : α → Field} {f : α → ℕ} {l : List α} (a : ℕ)
    (h : ∀ e ∈ l, (encode (g e)).length = 1 + f e) :
    l.foldl (fun n e => n + f e) (1 * l.length + a) = (encodeAll (l.map g)).length + a := by
  induction l generalizing a with
  | nil => simp
  | cons e l ih =>
      have he := h e (by simp)
      have hl := ih (f e + 1 + a) fun e' he' => h e' (by simp [he'])
      have hacc : 1 * (e :: l).length + a + f e = 1 * l.length + (f e + 1 + a) := by
        simp only [List.length_cons]
        omega
      rw [List.foldl_cons, hacc, hl]
      simp only [List.map_cons, encodeAll_cons, List.length_append, he]
      omega

theorem encodeAll_flatMap {α : Type} (f : α → List Field) (l : List α) :
    encodeAll (l.flatMap f) = l.flatMap fun e => encodeAll (f e) := by
  induction l with
  | nil => simp
  | cons e l ih => simp [ih]

theorem encodeAll_map {α : Type} (f : α → Field) (l : List α) :
    encodeAll (l.map f) = l.flatMap fun e => encode (f e) := by
  induction l with
  | nil => simp
  | cons e l ih => simp [ih]

theorem Within.of_mem_flatMap {α : Type} {f : α → List Field} {l : List α} {e : α}
    (h : Within (l.flatMap f)) (he : e ∈ l) : Within (f e) := by
  obtain ⟨l₁, l₂, rfl⟩ := List.append_of_mem he
  rw [List.flatMap_append, List.flatMap_cons] at h
  exact h.right.left

theorem length_flatMap_le {α : Type} {f : α → List Field} {l : List α} {b : ℕ}
    (h : ∀ e ∈ l, (encodeAll (f e)).length ≤ b) :
    (encodeAll (l.flatMap f)).length ≤ l.length * b := by
  induction l with
  | nil => simp
  | cons e l ih =>
      have he := h e (by simp)
      have hl := ih fun e' he' => h e' (by simp [he'])
      simp only [List.flatMap_cons, encodeAll_append, List.length_append, List.length_cons,
        Nat.succ_mul]
      omega

/-- Measuring the fields that are not left out. -/
theorem foldl_size_optional {α : Type} {g : α → List Field} {f : α → ℕ} {p : α → Prop}
    [DecidablePred p] {l : List α} (a : ℕ)
    (h : ∀ e ∈ l, (if p e then f e else 0) = (encodeAll (g e)).length) :
    l.foldl (fun n e => if p e then n + f e else n) a =
      a + (encodeAll (l.flatMap g)).length := by
  induction l generalizing a with
  | nil => simp
  | cons e l ih =>
      have he := h e (by simp)
      have hacc : (if p e then a + f e else a) = a + (encodeAll (g e)).length := by
        rw [← he]
        split <;> rfl
      rw [List.foldl_cons, hacc, ih _ fun e' he' => h e' (by simp [he'])]
      simp only [List.flatMap_cons, encodeAll_append, List.length_append]
      omega

variable {r : Runtime}

/-! ## Single fields -/

theorem string_writes {w : Number → Bytes → Bytes}
    (hw : ∀ n s, s.length < 2 ^ 31 → w n s = encode (.value n (.bytes s))) {n : Number}
    {s : Bytes} (h : Within (bytesField n s)) :
    (if s ≠ [] then w n s else []) = encodeAll (bytesField n s) := by
  rw [bytesField] at h ⊢
  split
  next hs =>
    rw [if_pos hs] at h
    have hlen := h.bytes_lt (List.mem_singleton.mpr rfl)
    simp [hw n s hlen]
  · simp

theorem string_size {f : Bytes → ℕ}
    (hf : ∀ s, s.length < 2 ^ 31 → f s = (Payload.bytes s).encode.length) {n : Number}
    {s : Bytes} (hn : n.val < 15) (h : Within (bytesField n s)) :
    (if s ≠ [] then 1 + f s else 0) = (encodeAll (bytesField n s)).length := by
  rw [bytesField] at h ⊢
  split
  next hs =>
    rw [if_pos hs] at h
    have hlen := h.bytes_lt (List.mem_singleton.mpr rfl)
    simp [hf s hlen, encode_value_length hn]
  · simp

namespace Runtime.Lawful

variable (hr : r.Lawful)

include hr

theorem int32_writes (n : Number) (v : Int32) :
    (if v ≠ 0 then r.writeInt32 n v else []) = encodeAll (int32Field n v) := by
  rw [int32Field]
  split
  · simp [hr.writeInt32]
  · simp

theorem int32_size {n : Number} (hn : n.val < 15) (v : Int32) :
    (if v ≠ 0 then r.int32SizePlusOne v else 0) = (encodeAll (int32Field n v)).length := by
  rw [int32Field]
  split
  · simp [hr.int32SizePlusOne, encode_value_length hn]
  · simp

theorem unknown_writes {t : Table} {u : UnknownFieldSet t} (h : Within u.fields) :
    u.internalSerialize r = encodeAll u.fields := by
  rw [UnknownFieldSet.internalSerialize]
  split
  next hu => simp [List.isEmpty_iff.mp hu]
  · exact hr.writeUnknown _ h

theorem unknown_size {t : Table} {u : UnknownFieldSet t} (n : ℕ) (h : Within u.fields) :
    u.maybeComputeSize r n = n + (encodeAll u.fields).length := by
  rw [UnknownFieldSet.maybeComputeSize]
  split
  next hu => simp [List.isEmpty_iff.mp hu]
  · rw [hr.unknownSize _ h]

/-- A message within a message, of which the cached size is the size. -/
theorem message_writes {n : Number} {fs : List Field} (h : Within fs) :
    r.writeMessage n (.ofNat (encodeAll fs).length) (encodeAll fs) =
      encode (messageField n fs) := by
  rw [hr.writeMessage, cached_size h, messageField, encode_value]
  simp [Payload.wireType, Payload.encode]

theorem message_size {n : Number} {fs : List Field} (hn : n.val < 15) (h : Within fs) :
    1 + r.messageSize (encodeAll fs).length = (encode (messageField n fs)).length := by
  rw [hr.messageSize _ h, messageField, encode_value_length hn]
  simp [Payload.encode]

theorem entry_size {n : Number} {k v : Bytes} (hn : n.val < 15) (h : Within (entryFields k v)) :
    (encode (messageField n (entryFields k v))).length = 1 + r.entrySize k v := by
  rw [hr.entrySize k v h, messageField, encode_value_length hn]

end Runtime.Lawful

/-! ## `ImageShape_` -/

namespace ImageShape

/-- The fields of a message; a number that is zero is left out. -/
def fields (m : ImageShape) : List Field :=
  int32Field 1 m.width_ ++ int32Field 2 m.height_ ++ int32Field 3 m.channel_ ++
    m._internal_metadata_.fields

variable {m : ImageShape}

theorem writes (hr : r.Lawful) (h : Within m.fields) :
    m.internalSerialize r = encodeAll m.fields := by
  simp only [internalSerialize, fields, encodeAll_append, hr.int32_writes,
    hr.unknown_writes h.right]

theorem size (hr : r.Lawful) (h : Within m.fields) :
    (m.byteSizeLong r).1 = (encodeAll m.fields).length := by
  simp only [byteSizeLong, hr.unknown_size _ h.right, fields, encodeAll_append,
    List.length_append]
  rw [hr.int32_size (n := 1) (by decide), hr.int32_size (n := 2) (by decide),
    hr.int32_size (n := 3) (by decide)]

@[simp] theorem fields_measured : (m.byteSizeLong r).2.fields = m.fields := rfl

theorem measured (hr : r.Lawful) (h : Within m.fields) :
    (m.byteSizeLong r).2._cached_size_ = .ofNat (encodeAll m.fields).length := by
  rw [← size hr h]
  rfl

end ImageShape

/-! ## `ImageRequest_` -/

namespace ImageRequest

/-- What the request says about the shape. -/
def shape? (m : ImageRequest) : Option ImageShape := if m.has_bits_ then m.imageshape_ else none

/-- The fields of a message. -/
def fields (m : ImageRequest) : List Field :=
  bytesField 1 m.sn_ ++ (m.shape?.map fun shape => messageField 2 shape.fields).toList ++
    m._internal_metadata_.fields

variable {m : ImageRequest}

theorem internalSerialize_eq : m.internalSerialize r =
    (if m.sn_ ≠ [] then r.writeString 1 m.sn_ else []) ++
    (m.shape?.map fun shape =>
      r.writeMessage 2 shape._cached_size_ (shape.internalSerialize r)).getD [] ++
    m._internal_metadata_.internalSerialize r := by
  rw [internalSerialize, shape?]
  cases m.has_bits_ <;> cases m.imageshape_ <;> rfl

theorem byteSizeLong_eq : (m.byteSizeLong r).1 =
    m._internal_metadata_.maybeComputeSize r
      ((if m.sn_ ≠ [] then 1 + r.stringSize m.sn_ else 0) +
        (m.shape?.map fun shape => 1 + r.messageSize (shape.byteSizeLong r).1).getD 0) := by
  simp only [byteSizeLong, shape?]
  cases m.has_bits_ <;> cases m.imageshape_ <;> rfl

theorem shape_measured :
    (m.byteSizeLong r).2.shape? = m.shape?.map fun shape => (shape.byteSizeLong r).2 := by
  simp only [byteSizeLong, shape?]
  by_cases h : m.has_bits_ = true <;> simp [h]

/-- **A measured request writes its fields, and the bytes that were measured.** -/
theorem measured_writes (hr : r.Lawful) (h : Within m.fields) :
    (m.byteSizeLong r).2.internalSerialize r = encodeAll m.fields ∧
      (m.byteSizeLong r).1 = (encodeAll m.fields).length := by
  have hsn : Within (bytesField 1 m.sn_) := h.left.left
  have hu : Within m._internal_metadata_.fields := h.right
  have hw := string_writes hr.writeString hsn
  have hs := string_size hr.stringSize (by decide) hsn
  rw [internalSerialize_eq, byteSizeLong_eq, shape_measured]
  cases hshape : m.shape? with
  | none =>
      have hb : ((m.byteSizeLong r).2).sn_ = m.sn_ := rfl
      have hm : (m.byteSizeLong r).2._internal_metadata_ = m._internal_metadata_ := rfl
      simp only [Option.map_none, Option.getD_none, fields, hshape, Option.toList_none,
        List.append_nil, encodeAll_append, List.length_append, hb, hm, hw, hs,
        hr.unknown_writes hu, hr.unknown_size _ hu, and_self, Nat.add_zero]
  | some shape =>
      have hfs : Within shape.fields := h.message (n := 2) (by simp [fields, hshape])
      have hb : ((m.byteSizeLong r).2).sn_ = m.sn_ := rfl
      have hm : (m.byteSizeLong r).2._internal_metadata_ = m._internal_metadata_ := rfl
      have hwrites := ImageShape.writes (m := (shape.byteSizeLong r).2) hr hfs
      simp only [ImageShape.fields_measured] at hwrites
      simp only [Option.map_some, Option.getD_some, fields, hshape, Option.toList_some,
        encodeAll_append, List.length_append, encodeAll_cons, encodeAll_nil, List.append_nil, hb,
        hm, hw, hs, hr.unknown_writes hu, hr.unknown_size _ hu, ImageShape.measured hr hfs,
        hwrites, ImageShape.size hr hfs, hr.message_writes hfs,
        hr.message_size (n := 2) (by decide) hfs, and_self]

end ImageRequest

/-! ## `BytesBody` -/

namespace BytesBody

/-- The fields of a message. -/
def fields (m : BytesBody) : List Field :=
  bytesField 1 m.content_ ++ m._internal_metadata_.fields

/-- **A measured body writes its fields, and the bytes that were measured.** -/
theorem measured_writes {m : BytesBody} (hr : r.Lawful) (h : Within m.fields) :
    (m.byteSizeLong r).2.internalSerialize r = encodeAll m.fields ∧
      (m.byteSizeLong r).1 = (encodeAll m.fields).length := by
  have hc : Within (bytesField 1 m.content_) := h.left
  have hu : Within m._internal_metadata_.fields := h.right
  have hw := string_writes hr.writeBytes hc
  have hs := string_size hr.bytesSize (by decide) hc
  simp only [byteSizeLong, internalSerialize, fields, encodeAll_append, List.length_append, hw,
    hs, hr.unknown_writes hu, hr.unknown_size _ hu, and_self]

end BytesBody

/-! ## `CameraMeta_` -/

namespace CameraMeta

/-- An entry of `info`. -/
def infoField (e : Bytes × Bytes) : Field := messageField 7 (entryFields e.1 e.2)

/-- The fields of a message, in the order in which a `Map` is written. -/
def fields (r : Runtime) (deterministic : Bool) (m : CameraMeta) : List Field :=
  (m.strings.flatMap fun e => bytesField e.1 e.2) ++ (m.entries r deterministic).map infoField ++
    m._internal_metadata_.fields

variable {m : CameraMeta} {deterministic : Bool}

theorem entries_perm (hr : r.Lawful) :
    (m.entries r deterministic).Perm (m.info_.entries.map fun e => (e.1, e.2)) := by
  rw [entries]
  split
  · exact hr.sorted m.info_
  · exact hr.iterate m.info_

theorem number_lt {e : Number × Bytes} (h : e ∈ m.strings) : e.1.val < 15 := by
  have hn : e.1 ∈ ([1, 2, 3, 4, 5, 6] : List Number) := by
    have hmem : e.1 ∈ m.strings.map (·.1) := List.mem_map_of_mem h
    simpa only [strings, List.map_cons, List.map_nil] using hmem
  simp only [List.mem_cons, List.not_mem_nil, or_false] at hn
  rcases hn with h | h | h | h | h | h <;> rw [h] <;> decide

theorem writes (hr : r.Lawful) (h : Within (m.fields r deterministic)) :
    m.internalSerialize r deterministic = encodeAll (m.fields r deterministic) := by
  have hstrings : Within (m.strings.flatMap fun e => bytesField e.1 e.2) := h.left.left
  have hinfo : Within ((m.entries r deterministic).map infoField) := h.left.right
  have h₁ : (m.strings.flatMap fun e => if e.2 ≠ [] then r.writeString e.1 e.2 else []) =
      m.strings.flatMap fun e => encodeAll (bytesField e.1 e.2) :=
    List.flatMap_congr fun e he =>
      string_writes hr.writeString (hstrings.of_mem_flatMap he)
  have h₂ : ((m.entries r deterministic).flatMap fun e => r.writeEntry 7 e.1 e.2) =
      (m.entries r deterministic).flatMap fun e => encode (infoField e) :=
    List.flatMap_congr fun e he =>
      hr.writeEntry 7 e.1 e.2 (hinfo.message (List.mem_map_of_mem he))
  rw [internalSerialize, h₁, h₂, hr.unknown_writes h.right, fields]
  simp only [encodeAll_append, encodeAll_flatMap, encodeAll_map]

theorem size (hr : r.Lawful) (h : Within (m.fields r deterministic)) :
    (m.byteSizeLong r).1 = (encodeAll (m.fields r deterministic)).length := by
  have hstrings : Within (m.strings.flatMap fun e => bytesField e.1 e.2) := h.left.left
  have hinfo : Within ((m.entries r deterministic).map infoField) := h.left.right
  have hperm : (m.entries r deterministic).Perm (r.iterate m.info_) :=
    (entries_perm hr).trans (hr.iterate m.info_).symm
  have hlen : m.info_.entries.length = (r.iterate m.info_).length := by
    rw [(hr.iterate m.info_).length_eq, List.length_map]
  have h₁ := foldl_size (g := infoField) (f := fun e => r.entrySize e.1 e.2)
    (l := r.iterate m.info_) 0 fun e he => hr.entry_size (n := 7) (by decide)
      (hinfo.message (List.mem_map_of_mem (hperm.mem_iff.mpr he)))
  have h₂ := foldl_size_optional (g := fun e => bytesField e.1 e.2)
    (f := fun e => 1 + r.stringSize e.2) (p := fun e => e.2 ≠ []) (l := m.strings)
    ((encodeAll ((r.iterate m.info_).map infoField)).length + 0) fun e he =>
      string_size hr.stringSize (number_lt he) (hstrings.of_mem_flatMap he)
  have h₃ := encodeAll_length_perm (hperm.map infoField)
  rw [Nat.add_zero] at h₁
  simp only [byteSizeLong, hlen, h₁, h₂, hr.unknown_size _ h.right, fields, encodeAll_append,
    List.length_append, h₃]
  omega

@[simp] theorem fields_measured :
    (m.byteSizeLong r).2.fields r deterministic = m.fields r deterministic := rfl

theorem measured (hr : r.Lawful) (h : Within (m.fields r deterministic)) :
    (m.byteSizeLong r).2._cached_size_ =
      .ofNat (encodeAll (m.fields r deterministic)).length := by
  rw [← size hr h]
  rfl

/-- How long a message is whose strings have `k` bytes at most. -/
theorem length_le {k : ℕ} (hr : r.Lawful) (hk : k < 2 ^ 29)
    (hstrings : ∀ e ∈ m.strings, e.2.length ≤ k)
    (hinfo : ∀ e ∈ m.info_.entries, e.1.length ≤ k ∧ e.2.length ≤ k)
    (hu : m._internal_metadata_.fields = []) :
    (encodeAll (m.fields r deterministic)).length ≤
      (6 + m.info_.entries.length) * (2 * k + 30) := by
  have h₁ : (encodeAll (m.strings.flatMap fun e => bytesField e.1 e.2)).length ≤
      6 * (2 * k + 30) := length_flatMap_le fun e he => by
    have hs := hstrings e he
    have := length_encode_bytes_le e.1 (s := e.2) (by omega)
    rw [bytesField]
    split
    · simp only [encodeAll_cons, encodeAll_nil, List.append_nil]
      omega
    · simp
  have h₂ : (encodeAll ((m.entries r deterministic).map infoField)).length ≤
      (m.entries r deterministic).length * (2 * k + 30) := by
    rw [List.map_eq_flatMap]
    refine length_flatMap_le fun e he => ?_
    obtain ⟨e', he', rfl⟩ := List.mem_map.mp ((entries_perm hr).mem_iff.mp he)
    obtain ⟨hkey, hvalue⟩ := hinfo e' he'
    have hkeys := length_encode_bytes_le 1 (s := e'.1) (by omega)
    have hvalues := length_encode_bytes_le 2 (s := e'.2) (by omega)
    have hentry : (encodeAll (entryFields e'.1 e'.2)).length ≤ 2 * k + 20 := by
      simp only [entryFields, encodeAll_cons, encodeAll_nil, List.append_nil, List.length_append]
      omega
    have := length_encode_bytes_le 7 (s := encodeAll (entryFields e'.1 e'.2)) (by omega)
    simp only [infoField, messageField, encodeAll_cons, encodeAll_nil, List.append_nil]
    omega
  have hlength : (m.entries r deterministic).length = m.info_.entries.length := by
    rw [(entries_perm hr).length_eq, List.length_map]
  rw [hlength] at h₂
  rw [fields, hu, List.append_nil, encodeAll_append, List.length_append, Nat.add_mul]
  omega

end CameraMeta

/-! ## `CameraMetas` -/

namespace CameraMetas

/-- The fields of a message. -/
def fields (r : Runtime) (deterministic : Bool) (m : CameraMetas) : List Field :=
  (m.data_.map fun msg => messageField 1 (msg.fields r deterministic)) ++
    m._internal_metadata_.fields

/-- **A measured list writes its fields, and the bytes that were measured.**  The order of the
map entries may be another one when the list is written. -/
theorem measured_writes {m : CameraMetas} {deterministic : Bool} (hr : r.Lawful)
    (h : Within (m.fields r deterministic)) :
    (m.byteSizeLong r).2.internalSerialize r deterministic =
        encodeAll (m.fields r deterministic) ∧
      (m.byteSizeLong r).1 = (encodeAll (m.fields r deterministic)).length := by
  have hdata : ∀ msg ∈ m.data_, Within (msg.fields r deterministic) := fun msg hmsg =>
    h.left.message (n := 1) (List.mem_map_of_mem (f := fun msg : CameraMeta =>
      messageField 1 (msg.fields r deterministic)) hmsg)
  constructor
  · have h₁ : ((m.byteSizeLong r).2.data_.flatMap fun msg =>
        r.writeMessage 1 msg._cached_size_ (msg.internalSerialize r deterministic)) =
        m.data_.flatMap fun msg => encode (messageField 1 (msg.fields r deterministic)) := by
      have hd : (m.byteSizeLong r).2.data_ = m.data_.map fun msg => (msg.byteSizeLong r).2 := rfl
      rw [hd, List.flatMap_map]
      refine List.flatMap_congr fun msg hmsg => ?_
      have hw := CameraMeta.writes (m := (msg.byteSizeLong r).2) hr (hdata msg hmsg)
      rw [CameraMeta.fields_measured] at hw
      rw [CameraMeta.measured hr (hdata msg hmsg), hw, hr.message_writes (hdata msg hmsg)]
    rw [internalSerialize, h₁]
    have hu : (m.byteSizeLong r).2._internal_metadata_ = m._internal_metadata_ := rfl
    rw [hu, hr.unknown_writes h.right, fields, encodeAll_append, encodeAll_map]
  · have h₁ := foldl_size (g := fun msg => messageField 1 (msg.fields r deterministic))
      (f := fun msg => r.messageSize (msg.byteSizeLong r).1) (l := m.data_) 0
      fun msg hmsg => by
        rw [CameraMeta.size hr (hdata msg hmsg),
          hr.message_size (n := 1) (by decide) (hdata msg hmsg)]
    rw [Nat.add_zero] at h₁
    simp only [byteSizeLong, h₁, hr.unknown_size _ h.right, fields, encodeAll_append,
      List.length_append, Nat.add_zero]

end CameraMetas

end CameraService.Pb
