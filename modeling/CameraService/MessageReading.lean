import CameraService.MessageFormat

/-!
# What a reader makes of the messages

A reader of the schema goes through the fields: the last number or string wins, a message
in a message is read on top of the one before it, the messages of a list are collected, and
a string has to be UTF-8.  `MergeFrom` is what such a reader does to two messages that
follow each other, although it never sees a field; in `ImageRequest_` this rests on the
message that stays behind when its bit is taken away being cleared.

## Main definitions

* `ImageShape.schema`, `ImageRequest.schema`, `BytesBody.schema`, `CameraMeta.schema`,
  `CameraMetas.schema` — the readers.
* `ImageShape.value`, … — what a message stands for.
* `ImageRequest.merged_reads`, `CameraMetas.merged_reads` — `MergeFrom` is reading on.
-/

namespace CameraService.Pb

open Wire

/-! ## Strings -/

/-- The bytes are UTF-8, which a reader checks for a `string`. -/
def isUtf8 (s : Bytes) : Bool := (ByteArray.mk s.toArray).validateUTF8

/-- The bytes of a literal. -/
def ofLiteral (s : String) : Bytes := s.toUTF8.data.toList

@[simp] theorem isUtf8_ofLiteral (s : String) : isUtf8 (ofLiteral s) = true := by
  rw [isUtf8, ByteArray.validateUTF8_eq_true_iff]
  simpa [ofLiteral] using s.isValidUTF8

@[simp] theorem isUtf8_nil : isUtf8 [] = true := isUtf8_ofLiteral ""

theorem toInt32_signExtend (v : Int32) : (signExtend v).toInt64.toInt32 = v := by
  simp [signExtend]

theorem isUtf8_append {s t : Bytes} (hs : isUtf8 s = true) (ht : isUtf8 t = true) :
    isUtf8 (s ++ t) = true := by
  simp only [isUtf8, ByteArray.validateUTF8_eq_true_iff] at hs ht ⊢
  have happend : ByteArray.mk (s ++ t).toArray =
      ByteArray.mk s.toArray ++ ByteArray.mk t.toArray := by
    apply ByteArray.ext
    simp
  rw [happend]
  exact hs.append ht

/-- The ASCII characters are UTF-8. -/
theorem isUtf8_of_ascii {s : Bytes} (h : ∀ b ∈ s, b.toNat < 128) : isUtf8 s = true := by
  have hall : ∀ b : Fin 128, isUtf8 [.ofNat b.val] = true := by decide +kernel
  induction s with
  | nil => exact isUtf8_nil
  | cons b s ih =>
      have hb : isUtf8 [b] = true := by simpa using hall ⟨b.toNat, h b (by simp)⟩
      exact isUtf8_append hb (ih fun c hc => h c (by simp [hc]))

/-! ## Fields that may be left out -/

section

variable {V : Type} {S : Schema V} {m m' : Message V} {n : Number}

theorem readFrom_int32Field {i : Int32}
    (h : S.step m (.value n (.varint (signExtend i))) = some m') :
    S.readFrom m (int32Field n i) = some (if i ≠ 0 then m' else m) := by
  by_cases hi : i ≠ 0
  · simp [int32Field, hi, Schema.readFrom_cons, h]
  · simp [int32Field, hi]

theorem readFrom_bytesField {s : Bytes} {x : Option (Message V)}
    (h : S.step m (.value n (.bytes s)) = x) :
    S.readFrom m (bytesField n s) = if s ≠ [] then x else some m := by
  by_cases hs : s ≠ []
  · simp [bytesField, hs, Schema.readFrom_cons, h]
  · simp [bytesField, hs]

theorem readFrom_unknownFieldSet {t : Table} (hS : S.knows = t.lists) (u : UnknownFieldSet t) :
    S.readFrom m u.fields = some { m with unknown := m.unknown ++ u.fields } :=
  Schema.readFrom_unknown (hS ▸ u.foreign)

end

/-! ## `ImageShape_` -/

namespace ImageShape

/-- The reader of a shape. -/
def schema : Schema CameraService.ImageShape where
  empty := ⟨0, 0, 0⟩
  knows := table.lists
  take v
    | .value n (.varint x) =>
      let i := x.toInt64.toInt32
      some (if n = 1 then { v with width := i } else if n = 2 then { v with height := i }
        else { v with channel := i })
    | _ => none

/-- What a message stands for. -/
def value (m : ImageShape) : Message CameraService.ImageShape :=
  ⟨⟨m.width_, m.height_, m.channel_⟩, m._internal_metadata_.fields⟩

variable {v : Message CameraService.ImageShape}

theorem step_width (i : Int32) :
    schema.step v (.value 1 (.varint (signExtend i))) =
      some { v with known := { v.known with width := i } } := by
  simp [Schema.step, schema, table, Table.lists, FieldType.wireType, Payload.wireType,
    toInt32_signExtend]

theorem step_height (i : Int32) :
    schema.step v (.value 2 (.varint (signExtend i))) =
      some { v with known := { v.known with height := i } } := by
  simp [Schema.step, schema, table, Table.lists, FieldType.wireType, Payload.wireType,
    toInt32_signExtend]

theorem step_channel (i : Int32) :
    schema.step v (.value 3 (.varint (signExtend i))) =
      some { v with known := { v.known with channel := i } } := by
  simp [Schema.step, schema, table, Table.lists, FieldType.wireType, Payload.wireType,
    toInt32_signExtend]

/-- Merging a shape is reading it on top of what there is. -/
theorem reads (a b : ImageShape) :
    schema.readFrom a.value b.fields = some (a.mergeFrom b).value := by
  simp only [fields, Schema.readFrom_append, readFrom_int32Field (step_width _),
    readFrom_int32Field (step_height _), readFrom_int32Field (step_channel _),
    readFrom_unknownFieldSet (S := schema) rfl, Option.bind_some]
  by_cases hw : b.width_ = 0 <;> by_cases hh : b.height_ = 0 <;> by_cases hc : b.channel_ = 0 <;>
    simp [hw, hh, hc, value, mergeFrom, UnknownFieldSet.append]

@[simp] theorem value_new : new.value = schema.none := rfl

@[simp] theorem value_clear (m : ImageShape) : m.clear.value = schema.none := rfl

/-- A message that has nothing in it is overwritten by a merge. -/
theorem value_mergeFrom_none {a : ImageShape} (h : a.value = schema.none) (b : ImageShape) :
    (a.mergeFrom b).value = b.value := by
  simp only [value, schema, Schema.none, Message.mk.injEq, CameraService.ImageShape.mk.injEq]
    at h
  obtain ⟨⟨hw, hh, hc⟩, hu⟩ := h
  simp only [value, mergeFrom, UnknownFieldSet.append, hw, hh, hc, hu, List.nil_append]
  by_cases h₁ : b.width_ = 0 <;> by_cases h₂ : b.height_ = 0 <;> by_cases h₃ : b.channel_ = 0 <;>
    simp [h₁, h₂, h₃]

end ImageShape

/-! ## `ImageRequest_` -/

/-- What a request says. -/
@[ext] structure RequestValue where
  sn : Bytes
  shape : Option (Message CameraService.ImageShape)

namespace ImageRequest

/-- The reader of a request. -/
def schema : Schema RequestValue where
  empty := ⟨[], none⟩
  knows := table.lists
  take v
    | .value n (.bytes s) =>
      if n = 1 then if isUtf8 s then some { v with sn := s } else none
      else (ImageShape.schema.readOn (v.shape.getD ImageShape.schema.none) s).map fun shape =>
        { v with shape := some shape }
    | _ => none

/-- What a message stands for. -/
def value (m : ImageRequest) : Message RequestValue :=
  ⟨⟨m.sn_, m.shape?.map (·.value)⟩, m._internal_metadata_.fields⟩

variable {v : Message RequestValue}

theorem step_sn (s : Bytes) : schema.step v (.value 1 (.bytes s)) =
    if isUtf8 s then some { v with known := { v.known with sn := s } } else none := by
  by_cases h : isUtf8 s = true <;>
    simp [Schema.step, schema, table, Table.lists, FieldType.wireType, Payload.wireType, h]

theorem step_shape (fs : List Field) : schema.step v (messageField 2 fs) =
    (ImageShape.schema.readFrom (v.known.shape.getD ImageShape.schema.none) fs).map fun shape =>
      { v with known := { v.known with shape := some shape } } := by
  simp [Schema.step, schema, table, Table.lists, FieldType.wireType, Payload.wireType,
    messageField, Function.comp_def]

/-- A shape that is there without the bit is cleared. -/
theorem value_of_not_has {m : ImageRequest} {p : ImageShape} (h : m.has_bits_ = false)
    (hp : m.imageshape_ = some p) : p.value = ImageShape.schema.none := by
  have hclear := m.clear_of_not_has h
  rw [hp, Option.map_some, Option.some.injEq] at hclear
  rw [← hclear, ImageShape.value_clear]

/-- What a merge does to the shape. -/
theorem shape?_mergeFrom (a b : ImageRequest) :
    (a.mergeFrom b).shape?.map (·.value) =
      match b.shape? with
      | none => a.shape?.map (·.value)
      | some shape => some ((a.shape?.getD .new).mergeFrom shape).value := by
  cases hb : b.has_bits_ with
  | false => simp [shape?, mergeFrom, hb]
  | true =>
      obtain ⟨shape, hshape⟩ := Option.isSome_iff_exists.mp (b.set_of_has hb)
      cases hp : a.imageshape_ with
      | none => simp [shape?, mergeFrom, hb, hshape, hp, ImageShape.copyConstruct]
      | some p =>
          cases ha : a.has_bits_ with
          | true => simp [shape?, mergeFrom, hb, hshape, hp, ha]
          | false =>
              -- the pointer is still there, and what it leads to says nothing
              have hnone := value_of_not_has ha hp
              simp [shape?, mergeFrom, hb, hshape, hp, ha, ImageShape.value_mergeFrom_none hnone,
                ImageShape.value_mergeFrom_none ImageShape.value_new]

theorem value_getD (m : ImageRequest) :
    (m.shape?.map (·.value)).getD ImageShape.schema.none = (m.shape?.getD .new).value := by
  cases m.shape? <;> rfl

/-- **Merging a request is reading it on top of what there is.** -/
theorem reads (a b : ImageRequest) : schema.readFrom a.value b.fields =
    if isUtf8 b.sn_ then some (a.mergeFrom b).value else none := by
  have hmerge : (a.mergeFrom b).value =
      ⟨⟨if b.sn_ ≠ [] then b.sn_ else a.sn_, (a.mergeFrom b).shape?.map (·.value)⟩,
        a._internal_metadata_.fields ++ b._internal_metadata_.fields⟩ := rfl
  rw [hmerge, shape?_mergeFrom]
  simp only [fields, Schema.readFrom_append, readFrom_bytesField (step_sn _)]
  by_cases hs : isUtf8 b.sn_ = true
  · simp only [hs, if_true]
    have hsn : (if b.sn_ ≠ [] then
        some { a.value with known := { a.value.known with sn := b.sn_ } } else some a.value) =
        some { a.value with known := { a.value.known with
          sn := if b.sn_ ≠ [] then b.sn_ else a.sn_ } } := by
      by_cases h : b.sn_ = [] <;> simp [h, value]
    rw [hsn]
    cases hb : b.shape? with
    | none =>
        simp [readFrom_unknownFieldSet (S := schema) rfl, value]
    | some shape =>
        have hread := ImageShape.reads (a.shape?.getD .new) shape
        simp only [Option.map_some, Option.toList_some, Schema.readFrom_cons, step_shape, value,
          value_getD, hread, Schema.readFrom_nil, Option.bind_some,
          readFrom_unknownFieldSet (S := schema) rfl]
  · have hne : b.sn_ ≠ [] := by
      intro he
      simp [he] at hs
    simp [hs, hne]

end ImageRequest

/-! ## `BytesBody` -/

namespace BytesBody

/-- The reader of a body. -/
def schema : Schema Bytes where
  empty := []
  knows := table.lists
  take _
    | .value _ (.bytes s) => some s
    | _ => none

/-- What a message stands for. -/
def value (m : BytesBody) : Message Bytes := ⟨m.content_, m._internal_metadata_.fields⟩

theorem step_content {v : Message Bytes} (s : Bytes) :
    schema.step v (.value 1 (.bytes s)) = some { v with known := s } := by
  simp [Schema.step, schema, table, Table.lists, FieldType.wireType, Payload.wireType]

/-- Merging a body is reading it on top of what there is. -/
theorem reads (a b : BytesBody) :
    schema.readFrom a.value b.fields = some (a.mergeFrom b).value := by
  simp only [fields, Schema.readFrom_append, readFrom_bytesField (step_content _)]
  by_cases h : b.content_ = [] <;>
    simp [h, readFrom_unknownFieldSet (S := schema) rfl, value, mergeFrom, UnknownFieldSet.append]

end BytesBody

/-! ## `CameraMeta_` -/

/-- What a message says about a camera: the string under each number, and the entries of
`info`. -/
@[ext] structure MetaValue where
  names : Number → Bytes
  info : Bytes → Option Bytes

namespace CameraMeta

/-- The fields of a map entry. -/
def entryTable : Table := [(1, .utf8String), (2, .utf8String)]

/-- The reader of a map entry. -/
def entrySchema : Schema (Bytes × Bytes) where
  empty := ([], [])
  knows := entryTable.lists
  take v
    | .value n (.bytes s) =>
      if isUtf8 s then some (if n = 1 then (s, v.2) else (v.1, s)) else none
    | _ => none

/-- The reader of a camera; an entry replaces the one under its key. -/
def schema : Schema MetaValue where
  empty := ⟨fun _ => [], fun _ => none⟩
  knows := table.lists
  take v
    | .value n (.bytes s) =>
      if n = 7 then (entrySchema.read s).map fun e =>
        { v with info := Function.update v.info e.known.1 (some e.known.2) }
      else if isUtf8 s then some { v with names := Function.update v.names n s } else none
    | _ => none

/-- The string under a number. -/
def name (m : CameraMeta) (n : Number) : Bytes := (m.strings.lookup n).getD []

/-- What a message stands for. -/
def value (m : CameraMeta) : Message MetaValue :=
  ⟨⟨m.name, fun k => m.info_.lookup k⟩, m._internal_metadata_.fields⟩

/-- All of its strings are UTF-8. -/
structure Utf8 (m : CameraMeta) : Prop where
  names : ∀ e ∈ m.strings, isUtf8 e.2 = true
  info : ∀ e ∈ m.info_.entries, isUtf8 e.1 = true ∧ isUtf8 e.2 = true

instance (m : CameraMeta) : Decidable m.Utf8 :=
  decidable_of_iff ((∀ e ∈ m.strings, isUtf8 e.2 = true) ∧
      ∀ e ∈ m.info_.entries, isUtf8 e.1 = true ∧ isUtf8 e.2 = true)
    ⟨fun h => ⟨h.1, h.2⟩, fun h => ⟨h.names, h.info⟩⟩

/-! ### Names -/

variable {v : Message MetaValue}

theorem step_name {n : Number} (hn : n ∈ table.map (·.1)) (h7 : n ≠ 7) (s : Bytes) :
    schema.step v (.value n (.bytes s)) =
      if isUtf8 s then
        some { v with known := { v.known with names := Function.update v.known.names n s } }
      else none := by
  have hlists : table.lists (.value n (.bytes s)) = true := by
    simp only [table, List.map_cons, List.map_nil, List.mem_cons, List.not_mem_nil,
      or_false] at hn
    simp only [table, Table.lists, FieldType.wireType, Payload.wireType, List.any_cons,
      List.any_nil, Bool.or_false, Bool.or_eq_true, decide_eq_true_eq, and_true]
    grind
  by_cases h : isUtf8 s = true <;> simp [Schema.step, schema, hlists, h7, h]

/-- What the strings of a message leave of the names. -/
def putNames (names : Number → Bytes) (l : List (Number × Bytes)) : Number → Bytes :=
  l.foldl (fun names e => if e.2 ≠ [] then Function.update names e.1 e.2 else names) names

theorem putNames_of_notMem {names : Number → Bytes} {l : List (Number × Bytes)} {n : Number}
    (h : n ∉ l.map (·.1)) : putNames names l n = names n := by
  induction l generalizing names with
  | nil => rfl
  | cons e l ih =>
      simp only [List.map_cons, List.mem_cons, not_or] at h
      rw [putNames, List.foldl_cons]
      refine (ih h.2).trans ?_
      split
      · exact Function.update_of_ne h.1 _ _
      · rfl

theorem lookup_cons_getD (n k : Number) (x : Bytes) (l : List (Number × Bytes)) :
    (((k, x) :: l).lookup n).getD [] = if n = k then x else (l.lookup n).getD [] := by
  by_cases h : n = k
  · rw [h, List.lookup_cons_self, if_pos rfl, Option.getD_some]
  · have hb : (n == k) = false := by simpa using h
    rw [List.lookup_cons, hb, if_neg h]

/-- A string that is not empty replaces the one under its number. -/
theorem putNames_eq {names : Number → Bytes} {l : List (Number × Bytes)}
    (hl : (l.map (·.1)).Nodup) (n : Number) : putNames names l n =
      if (l.lookup n).getD [] ≠ [] then (l.lookup n).getD [] else names n := by
  induction l generalizing names with
  | nil => simp [putNames]
  | cons e l ih =>
      rw [List.map_cons, List.nodup_cons] at hl
      rw [putNames, List.foldl_cons, lookup_cons_getD]
      by_cases hn : n = e.1
      · subst hn
        refine (putNames_of_notMem hl.1).trans ?_
        by_cases hs : e.2 = [] <;> simp [hs]
      · refine (ih hl.2).trans ?_
        by_cases hs : e.2 = [] <;> simp [hs, hn]

theorem readFrom_strings {l : List (Number × Bytes)}
    (hl : ∀ e ∈ l, e.1 ∈ table.map (·.1) ∧ e.1 ≠ 7) :
    schema.readFrom v (l.flatMap fun e => bytesField e.1 e.2) =
      if l.all fun e => isUtf8 e.2 then
        some { v with known := { v.known with names := putNames v.known.names l } }
      else none := by
  induction l generalizing v with
  | nil => simp [putNames]
  | cons e l ih =>
      have hstep := readFrom_bytesField (step_name (v := v) (hl e (by simp)).1
        (hl e (by simp)).2 e.2)
      have hrest := fun v => ih (v := v) fun e' he' => hl e' (by simp [he'])
      rw [List.flatMap_cons, Schema.readFrom_append, hstep]
      by_cases hne : e.2 ≠ []
      · have hput : putNames v.known.names (e :: l) =
            putNames (Function.update v.known.names e.1 e.2) l := by
          simp [putNames, hne]
        by_cases hutf8 : isUtf8 e.2 = true
        · simp only [if_pos hne, hutf8, if_true, Option.bind_some, hrest, List.all_cons,
            Bool.true_and, hput]
        · simp only [if_pos hne, hutf8, Bool.false_eq_true, if_false, Option.bind_none,
            List.all_cons, Bool.false_and]
      · have hput : putNames v.known.names (e :: l) = putNames v.known.names l := by
          simp [putNames, not_not.mp hne]
        have hutf8 : isUtf8 e.2 = true := by
          rw [not_not.mp hne, isUtf8_nil]
        simp only [if_neg hne, Option.bind_some, hrest, List.all_cons, hutf8, Bool.true_and, hput]

theorem number_mem {m : CameraMeta} {e : Number × Bytes} (h : e ∈ m.strings) :
    e.1 ∈ table.map (·.1) ∧ e.1 ≠ 7 := by
  have hn : e.1 ∈ m.strings.map (·.1) := List.mem_map_of_mem h
  simp only [strings, table, List.map_cons, List.map_nil, List.mem_cons, List.not_mem_nil,
    or_false] at hn ⊢
  rcases hn with h | h | h | h | h | h <;> rw [h] <;> decide

/-! ### Entries -/

/-- What the entries of a message leave of the map. -/
def putInfo (info : Bytes → Option Bytes) (l : List (Bytes × Bytes)) : Bytes → Option Bytes :=
  l.foldl (fun info e => Function.update info e.1 (some e.2)) info

theorem read_entry (k x : Bytes) :
    entrySchema.read (encodeAll (entryFields k x)) =
      if isUtf8 k && isUtf8 x then some ⟨(k, x), []⟩ else none := by
  rw [Schema.read, Schema.readOn_encodeAll]
  by_cases hk : isUtf8 k = true <;> by_cases hx : isUtf8 x = true <;>
    simp [entryFields, Schema.readFrom_cons, Schema.step, entrySchema, Schema.none, entryTable,
      Table.lists, FieldType.wireType, Payload.wireType, hk, hx]

theorem step_info (e : Bytes × Bytes) : schema.step v (infoField e) =
    if isUtf8 e.1 && isUtf8 e.2 then
      some { v with known := { v.known with
        info := Function.update v.known.info e.1 (some e.2) } }
    else none := by
  have hlists : table.lists (infoField e) = true := by
    simp [infoField, messageField, table, Table.lists, FieldType.wireType, Payload.wireType]
  have hread := read_entry e.1 e.2
  rw [Schema.step, show schema.knows (infoField e) = true from hlists]
  by_cases h : (isUtf8 e.1 && isUtf8 e.2) = true <;>
    simp [schema, infoField, messageField, hread, h]

theorem readFrom_info {l : List (Bytes × Bytes)} : schema.readFrom v (l.map infoField) =
    if l.all fun e => isUtf8 e.1 && isUtf8 e.2 then
      some { v with known := { v.known with info := putInfo v.known.info l } }
    else none := by
  induction l generalizing v with
  | nil => simp [putInfo]
  | cons e l ih =>
      rw [List.map_cons, Schema.readFrom_cons, step_info]
      by_cases h : (isUtf8 e.1 && isUtf8 e.2) = true
      · simp only [h, if_true, Option.bind_some, ih, List.all_cons, Bool.true_and]
        rfl
      · simp only [h, Bool.false_eq_true, if_false, Option.bind_none, List.all_cons,
          Bool.false_and]

theorem putInfo_of_notMem {info : Bytes → Option Bytes} {l : List (Bytes × Bytes)} {k : Bytes}
    (h : k ∉ l.map (·.1)) : putInfo info l k = info k := by
  induction l generalizing info with
  | nil => rfl
  | cons e l ih =>
      simp only [List.map_cons, List.mem_cons, not_or] at h
      rw [putInfo, List.foldl_cons]
      exact (ih h.2).trans (Function.update_of_ne h.1 _ _)

theorem putInfo_of_mem {info : Bytes → Option Bytes} {l : List (Bytes × Bytes)} {k x : Bytes}
    (hl : (l.map (·.1)).Nodup) (h : (k, x) ∈ l) : putInfo info l k = some x := by
  induction l generalizing info with
  | nil => simp at h
  | cons e l ih =>
      rw [List.map_cons, List.nodup_cons] at hl
      rw [putInfo, List.foldl_cons]
      by_cases he : (k, x) = e
      · subst he
        exact (putInfo_of_notMem hl.1).trans (Function.update_self _ _ _)
      · exact ih hl.2 (by simpa [he] using h)

/-- The order of the entries does not matter. -/
theorem putInfo_perm {info : Bytes → Option Bytes} {l l' : List (Bytes × Bytes)}
    (h : l.Perm l') (hl : (l.map (·.1)).Nodup) : putInfo info l = putInfo info l' := by
  funext k
  by_cases hk : k ∈ l.map (·.1)
  · obtain ⟨e, he, rfl⟩ := List.mem_map.mp hk
    rw [putInfo_of_mem hl he, putInfo_of_mem ((h.map _).nodup_iff.mp hl) (h.mem_iff.mp he)]
  · rw [putInfo_of_notMem hk, putInfo_of_notMem fun hk' => hk ((h.map _).mem_iff.mpr hk')]

/-! ### Merging -/

variable {r : Runtime} {deterministic : Bool}

theorem name_mergeFrom (a b : CameraMeta) (n : Number) :
    (a.mergeFrom r b).name n = if b.name n ≠ [] then b.name n else a.name n := by
  simp only [name, strings, mergeFrom, lookup_cons_getD, List.lookup_nil, Option.getD_none]
  grind

theorem putNames_strings (a b : CameraMeta) :
    putNames a.name b.strings = (a.mergeFrom r b).name := by
  funext n
  have hl : (b.strings.map (·.1)).Nodup := by
    simp only [strings, List.map_cons, List.map_nil]
    decide
  rw [putNames_eq hl, name_mergeFrom]
  rfl

theorem lookup_mergeInfo (l : List (Bytes × Bytes)) (m : StringMap) (k : Bytes) :
    (l.foldl (fun (m : StringMap) e => m.insert e.1 e.2) m).lookup k =
      putInfo (fun k => m.lookup k) l k := by
  induction l generalizing m with
  | nil => rfl
  | cons e l ih =>
      have hinsert : (fun k => (m.insert e.1 e.2).lookup k) =
          Function.update (fun k => m.lookup k) e.1 (some e.2) := by
        funext j
        by_cases hj : j = e.1
        · subst hj
          simp
        · simp [AList.lookup_insert_ne hj, hj]
      rw [List.foldl_cons, ih, hinsert]
      rfl

theorem keys_nodup {l : List (Bytes × Bytes)} {m : StringMap}
    (h : l.Perm (m.entries.map fun e => (e.1, e.2))) : (l.map (·.1)).Nodup := by
  rw [(h.map _).nodup_iff, List.map_map]
  exact m.nodupKeys

/-- **Merging a camera is reading it on top of what there is**, if its strings are UTF-8; it is
rejected otherwise. -/
theorem reads (hr : r.Lawful) (a b : CameraMeta) :
    schema.readFrom a.value (b.fields r deterministic) =
      if b.Utf8 then some (a.mergeFrom r b).value else none := by
  have hperm : (b.entries r deterministic).Perm (b.info_.entries.map fun e => (e.1, e.2)) :=
    entries_perm hr
  have hinfo : putInfo (fun k => a.info_.lookup k) (b.entries r deterministic) =
      fun k => (a.mergeFrom r b).info_.lookup k := by
    rw [putInfo_perm (hperm.trans (hr.iterate b.info_).symm) (keys_nodup hperm)]
    funext k
    exact (lookup_mergeInfo _ _ _).symm
  have hutf8 : b.Utf8 ↔ (b.strings.all fun e => isUtf8 e.2) = true ∧
      ((b.entries r deterministic).all fun e => isUtf8 e.1 && isUtf8 e.2) = true := by
    simp only [List.all_eq_true, Bool.and_eq_true]
    constructor
    · intro h
      refine ⟨h.names, fun e he => ?_⟩
      obtain ⟨e', he', rfl⟩ := List.mem_map.mp (hperm.mem_iff.mp he)
      exact h.info e' he'
    · intro h
      exact ⟨h.1, fun e he => h.2 (e.1, e.2) (hperm.mem_iff.mpr (List.mem_map_of_mem he))⟩
  have hmerge : (a.mergeFrom r b).value =
      ⟨⟨putNames a.name b.strings,
        putInfo (fun k => a.info_.lookup k) (b.entries r deterministic)⟩,
        a._internal_metadata_.fields ++ b._internal_metadata_.fields⟩ := by
    rw [hinfo, putNames_strings (r := r)]
    rfl
  simp only [fields, Schema.readFrom_append, readFrom_strings fun e => number_mem, hutf8, hmerge]
  by_cases h₁ : (b.strings.all fun e => isUtf8 e.2) = true
  · by_cases h₂ : ((b.entries r deterministic).all fun e => isUtf8 e.1 && isUtf8 e.2) = true
    · simp only [h₁, h₂, if_true, and_self, Option.bind_some, readFrom_info,
        readFrom_unknownFieldSet (S := schema) rfl]
      rfl
    · simp only [h₁, h₂, if_true, Bool.false_eq_true, and_false, if_false, Option.bind_some,
        readFrom_info, Option.bind_none]
  · simp only [h₁, Bool.false_eq_true, false_and, if_false, Option.bind_none]

theorem value_new : new.value = schema.none := by
  have hnames : new.name = fun _ => [] := by
    funext n
    simp [name, strings, new, lookup_cons_getD]
  rw [value, hnames]
  rfl

/-- A message that has nothing in it is overwritten by a merge. -/
theorem value_mergeFrom_none (hr : r.Lawful) {a : CameraMeta} (h : a.value = schema.none)
    (b : CameraMeta) : (a.mergeFrom r b).value = b.value := by
  simp only [value, schema, Schema.none, Message.mk.injEq, MetaValue.mk.injEq] at h
  obtain ⟨⟨hnames, hinfo⟩, hu⟩ := h
  have h₁ : (a.mergeFrom r b).name = b.name := by
    funext n
    rw [name_mergeFrom, hnames]
    by_cases hn : b.name n = [] <;> simp [hn]
  have h₂ : (fun k => (a.mergeFrom r b).info_.lookup k) = fun k => b.info_.lookup k := by
    have hperm := hr.iterate b.info_
    funext k
    refine (lookup_mergeInfo _ _ _).trans ?_
    rw [hinfo, putInfo_perm hperm (keys_nodup hperm)]
    cases hk : b.info_.lookup k with
    | none =>
        refine putInfo_of_notMem fun hmem => ?_
        rw [AList.lookup_eq_none, AList.mem_keys] at hk
        rw [List.map_map] at hmem
        exact hk hmem
    | some x =>
        have hmem : (⟨k, x⟩ : Sigma fun _ : Bytes => Bytes) ∈ b.info_.entries :=
          AList.mem_lookup_iff.mp hk
        exact putInfo_of_mem (keys_nodup (List.Perm.refl _))
          (List.mem_map_of_mem (f := fun e : Sigma fun _ : Bytes => Bytes => (e.1, e.2)) hmem)
  have h₃ : (a.mergeFrom r b)._internal_metadata_.fields = b._internal_metadata_.fields := by
    have happend : (a.mergeFrom r b)._internal_metadata_.fields =
        a._internal_metadata_.fields ++ b._internal_metadata_.fields := rfl
    rw [happend, hu, List.nil_append]
  rw [value, h₁, h₂, h₃]
  rfl

end CameraMeta

/-! ## `CameraMetas` -/

namespace CameraMetas

/-- The reader of a list of cameras. -/
def schema : Schema (List (Message MetaValue)) where
  empty := []
  knows := table.lists
  take v
    | .value _ (.bytes s) => (CameraMeta.schema.read s).map fun c => v ++ [c]
    | _ => none

/-- What a message stands for. -/
def value (m : CameraMetas) : Message (List (Message MetaValue)) :=
  ⟨m.data_.map (·.value), m._internal_metadata_.fields⟩

/-- All of its strings are UTF-8. -/
def Utf8 (m : CameraMetas) : Prop := ∀ msg ∈ m.data_, msg.Utf8

instance (m : CameraMetas) : Decidable m.Utf8 := inferInstanceAs (Decidable (∀ _ ∈ _, _))

variable {r : Runtime} {deterministic : Bool} {v : Message (List (Message MetaValue))}

theorem step_data (hr : r.Lawful) (msg : CameraMeta) :
    schema.step v (messageField 1 (msg.fields r deterministic)) =
      if msg.Utf8 then some { v with known := v.known ++ [msg.value] } else none := by
  have hread : CameraMeta.schema.read (encodeAll (msg.fields r deterministic)) =
      if msg.Utf8 then some msg.value else none := by
    rw [Schema.read, Schema.readOn_encodeAll, ← CameraMeta.value_new, CameraMeta.reads hr,
      CameraMeta.value_mergeFrom_none hr CameraMeta.value_new]
  by_cases h : msg.Utf8 <;> simp only [h, if_true, if_false] at hread <;>
    simp [Schema.step, schema, table, Table.lists, FieldType.wireType, Payload.wireType,
      messageField, hread, h]

theorem readFrom_data (hr : r.Lawful) (l : List CameraMeta) :
    schema.readFrom v (l.map fun msg => messageField 1 (msg.fields r deterministic)) =
      if ∀ msg ∈ l, msg.Utf8 then
        some { v with known := v.known ++ l.map (·.value) } else none := by
  induction l generalizing v with
  | nil => simp
  | cons msg l ih =>
      rw [List.map_cons, Schema.readFrom_cons, step_data hr]
      by_cases h : msg.Utf8
      · simp [h, ih]
      · simp [h]

/-- **Merging a list is reading it on top of what there is**, if its strings are UTF-8; one
string that is not makes a reader reject all of it. -/
theorem reads (hr : r.Lawful) (a b : CameraMetas) :
    schema.readFrom a.value (b.fields r deterministic) =
      if b.Utf8 then some (a.mergeFrom r b).value else none := by
  have hdata : (a.mergeFrom r b).data_.map (·.value) =
      a.data_.map (·.value) ++ b.data_.map (·.value) := by
    simp only [mergeFrom, List.map_append, List.map_map, Function.comp_def,
      CameraMeta.value_mergeFrom_none hr CameraMeta.value_new]
  have hmerge : (a.mergeFrom r b).value =
      ⟨a.data_.map (·.value) ++ b.data_.map (·.value),
        a._internal_metadata_.fields ++ b._internal_metadata_.fields⟩ := by
    rw [value, hdata]
    rfl
  rw [fields, Schema.readFrom_append, readFrom_data hr, hmerge]
  by_cases h : b.Utf8
  · have h' : ∀ msg ∈ b.data_, msg.Utf8 := h
    simp only [if_pos h, if_pos h', Option.bind_some, readFrom_unknownFieldSet (S := schema) rfl]
    rfl
  · have h' : ¬ ∀ msg ∈ b.data_, msg.Utf8 := h
    simp only [if_neg h, if_neg h', Option.bind_none]

end CameraMetas

end CameraService.Pb
