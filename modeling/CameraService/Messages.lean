import CameraService.Lib.Wire
import CameraService.GrpcServer
import Mathlib.Data.List.AList

/-!
# The generated messages

The classes of `camera-service.pb.cc`: their members, with the measured size and the
fields that the parser did not know, and the functions that measure, write, clear and merge
them.  The protobuf library, which writes the single fields, is a parameter.  A message is
written with the sizes that its last measuring left in it.

## Main definitions

* `Runtime` — the functions of the protobuf library.
* `Table` — the fields of a parse table; `UnknownFieldSet` — fields that it does not list.
* `ImageShape`, `ImageRequest`, `BytesBody`, `CameraMeta`, `CameraMetas` — the messages.
-/

namespace CameraService.Pb

open Wire

/-- The entries of a `google::protobuf::Map<std::string, std::string>`. -/
abbrev StringMap : Type := AList fun _ : Bytes => Bytes

/-- The functions of the protobuf library that the messages call. -/
structure Runtime where
  /-- `WriteInt32ToArrayWithField` -/
  writeInt32 : Number → Int32 → Bytes
  /-- `Int32SizePlusOne` -/
  int32SizePlusOne : Int32 → ℕ
  /-- `WriteStringMaybeAliased` -/
  writeString : Number → Bytes → Bytes
  stringSize : Bytes → ℕ
  /-- `WriteBytesMaybeAliased` -/
  writeBytes : Number → Bytes → Bytes
  bytesSize : Bytes → ℕ
  /-- `InternalWriteMessage`, given the cached size and what the message writes -/
  writeMessage : Number → Int32 → Bytes → Bytes
  /-- `MessageSize`, given the size of the message -/
  messageSize : ℕ → ℕ
  /-- `MapEntryFuncs::InternalSerialize` -/
  writeEntry : Number → Bytes → Bytes → Bytes
  /-- `MapEntryFuncs::ByteSizeLong` -/
  entrySize : Bytes → Bytes → ℕ
  /-- The order in which a `Map` is iterated over. -/
  iterate : StringMap → List (Bytes × Bytes)
  /-- `MapSorterPtr` -/
  sorted : StringMap → List (Bytes × Bytes)
  /-- `InternalSerializeUnknownFieldsToArray` -/
  writeUnknown : List Field → Bytes
  /-- `ComputeUnknownFieldsSize` -/
  unknownSize : List Field → ℕ

/-- The types in the parse tables. -/
inductive FieldType
  | int32
  | utf8String
  | bytes
  | message
  | map
  deriving DecidableEq

def FieldType.wireType : FieldType → ℕ
  | int32 => 0
  | _ => 2

/-- The `field_entries` of a `TcParseTable`. -/
abbrev Table : Type := List (Number × FieldType)

/-- The table has an entry for the field, with its wire type. -/
def Table.lists (t : Table) : Field → Bool
  | .value n p => t.any fun e => e.1 = n ∧ e.2.wireType = p.wireType
  | .group _ _ => false

/-- The fields that the parser of a table did not know. -/
structure UnknownFieldSet (t : Table) where
  fields : List Field
  foreign : ∀ f ∈ fields, t.lists f = false

namespace UnknownFieldSet

variable {t : Table}

/-- `Clear` -/
def empty : UnknownFieldSet t := ⟨[], by simp⟩

/-- `MergeFrom` -/
def append (u v : UnknownFieldSet t) : UnknownFieldSet t where
  fields := u.fields ++ v.fields
  foreign f hf := (List.mem_append.mp hf).elim (u.foreign f) (v.foreign f)

/-- The end of `_InternalSerialize`. -/
def internalSerialize (r : Runtime) (u : UnknownFieldSet t) : Bytes :=
  if u.fields.isEmpty then [] else r.writeUnknown u.fields

/-- `MaybeComputeUnknownFieldsSize` -/
def maybeComputeSize (r : Runtime) (total_size : ℕ) (u : UnknownFieldSet t) : ℕ :=
  if u.fields.isEmpty then total_size else total_size + r.unknownSize u.fields

end UnknownFieldSet

/-! ## `ImageShape_` -/

namespace ImageShape

def table : Table := [(1, .int32), (2, .int32), (3, .int32)]

end ImageShape

structure ImageShape where
  width_ : Int32
  height_ : Int32
  channel_ : Int32
  _cached_size_ : Int32
  _internal_metadata_ : UnknownFieldSet ImageShape.table

namespace ImageShape

def new : ImageShape := ⟨0, 0, 0, 0, .empty⟩

def setWidth (m : ImageShape) (value : Int32) : ImageShape := { m with width_ := value }

def setHeight (m : ImageShape) (value : Int32) : ImageShape := { m with height_ := value }

def setChannel (m : ImageShape) (value : Int32) : ImageShape := { m with channel_ := value }

def clear (m : ImageShape) : ImageShape :=
  { m with width_ := 0, height_ := 0, channel_ := 0, _internal_metadata_ := .empty }

def internalSerialize (r : Runtime) (m : ImageShape) : Bytes :=
  (if m.width_ ≠ 0 then r.writeInt32 1 m.width_ else []) ++
  (if m.height_ ≠ 0 then r.writeInt32 2 m.height_ else []) ++
  (if m.channel_ ≠ 0 then r.writeInt32 3 m.channel_ else []) ++
  m._internal_metadata_.internalSerialize r

/-- `ByteSizeLong`, and the message with the size in it. -/
def byteSizeLong (r : Runtime) (m : ImageShape) : ℕ × ImageShape :=
  let total_size :=
    (if m.width_ ≠ 0 then r.int32SizePlusOne m.width_ else 0) +
    (if m.height_ ≠ 0 then r.int32SizePlusOne m.height_ else 0) +
    (if m.channel_ ≠ 0 then r.int32SizePlusOne m.channel_ else 0)
  let total_size := m._internal_metadata_.maybeComputeSize r total_size
  (total_size, { m with _cached_size_ := .ofNat total_size })

/-- `MergeImpl` -/
def mergeFrom (to_ src : ImageShape) : ImageShape where
  width_ := if src.width_ ≠ 0 then src.width_ else to_.width_
  height_ := if src.height_ ≠ 0 then src.height_ else to_.height_
  channel_ := if src.channel_ ≠ 0 then src.channel_ else to_.channel_
  _cached_size_ := to_._cached_size_
  _internal_metadata_ := to_._internal_metadata_.append src._internal_metadata_

def copyFrom (to_ src : ImageShape) : ImageShape := to_.clear.mergeFrom src

/-- The copy constructor. -/
def copyConstruct (src : ImageShape) : ImageShape := new.mergeFrom src

end ImageShape

/-! ## `ImageRequest_` -/

namespace ImageRequest

def table : Table := [(1, .utf8String), (2, .message)]

end ImageRequest

/-- `has_bits_` is the bit of `imageshape_`.  A pointer stays behind when the bit is taken
away; what it points to is then cleared. -/
structure ImageRequest where
  has_bits_ : Bool
  sn_ : Bytes
  imageshape_ : Option ImageShape
  _cached_size_ : Int32
  _internal_metadata_ : UnknownFieldSet ImageRequest.table
  set_of_has : has_bits_ = true → imageshape_.isSome = true
  clear_of_not_has : has_bits_ = false → imageshape_.map (·.clear) = imageshape_

namespace ImageRequest

def new : ImageRequest where
  has_bits_ := false
  sn_ := []
  imageshape_ := none
  _cached_size_ := 0
  _internal_metadata_ := .empty
  set_of_has h := by simp at h
  clear_of_not_has _ := rfl

def setSn (m : ImageRequest) (sn : Bytes) : ImageRequest := { m with sn_ := sn }

/-- `imageshape()`, which does not look at the bit. -/
def imageshape (m : ImageRequest) : ImageShape := m.imageshape_.getD .new

/-- `mutable_imageshape()`, and what the caller does with the pointer. -/
def mutableImageshape (m : ImageRequest) (write : ImageShape → ImageShape) : ImageRequest :=
  { m with
    has_bits_ := true
    imageshape_ := some (write (m.imageshape_.getD .new))
    set_of_has := fun _ => rfl
    clear_of_not_has := fun h => by simp at h }

def clearImageshape (m : ImageRequest) : ImageRequest :=
  { m with
    has_bits_ := false
    imageshape_ := m.imageshape_.map (·.clear)
    set_of_has := fun h => by simp at h
    clear_of_not_has := fun _ => by cases m.imageshape_ <;> rfl }

/-- `set_allocated_imageshape` -/
def setAllocatedImageshape (m : ImageRequest) (value : Option ImageShape) : ImageRequest :=
  { m with
    has_bits_ := value.isSome
    imageshape_ := value
    set_of_has := fun h => h
    clear_of_not_has := fun h => by cases value <;> simp_all }

/-- `release_imageshape`, without its result. -/
def releaseImageshape (m : ImageRequest) : ImageRequest := m.setAllocatedImageshape none

def clear (m : ImageRequest) : ImageRequest :=
  { m with
    has_bits_ := false
    sn_ := []
    imageshape_ := if m.has_bits_ then m.imageshape_.map (·.clear) else m.imageshape_
    _internal_metadata_ := .empty
    set_of_has := fun h => by simp at h
    clear_of_not_has := fun _ => by
      have hm := m.clear_of_not_has
      cases hb : m.has_bits_ with
      | false => simpa using hm hb
      | true => cases m.imageshape_ <;> rfl }

def internalSerialize (r : Runtime) (m : ImageRequest) : Bytes :=
  (if m.sn_ ≠ [] then r.writeString 1 m.sn_ else []) ++
  (match m.has_bits_, m.imageshape_ with
    | true, some shape => r.writeMessage 2 shape._cached_size_ (shape.internalSerialize r)
    | _, _ => []) ++
  m._internal_metadata_.internalSerialize r

/-- `ByteSizeLong`, and the message with the sizes in it. -/
def byteSizeLong (r : Runtime) (m : ImageRequest) : ℕ × ImageRequest :=
  let total_size :=
    (if m.sn_ ≠ [] then 1 + r.stringSize m.sn_ else 0) +
    (match m.has_bits_, m.imageshape_ with
      | true, some shape => 1 + r.messageSize (shape.byteSizeLong r).1
      | _, _ => 0)
  let total_size := m._internal_metadata_.maybeComputeSize r total_size
  (total_size,
    { m with
      imageshape_ :=
        if m.has_bits_ then m.imageshape_.map fun shape => (shape.byteSizeLong r).2
        else m.imageshape_
      _cached_size_ := .ofNat total_size
      set_of_has := fun h => by simpa [h] using m.set_of_has h
      clear_of_not_has := fun h => by simpa [h] using m.clear_of_not_has h })

/-- `MergeImpl` -/
def mergeFrom (to_ src : ImageRequest) : ImageRequest where
  has_bits_ := to_.has_bits_ || src.has_bits_
  sn_ := if src.sn_ ≠ [] then src.sn_ else to_.sn_
  imageshape_ :=
    match src.has_bits_, src.imageshape_ with
    | true, some shape =>
      match to_.imageshape_ with
      | none => some shape.copyConstruct
      | some p => some (p.mergeFrom shape)
    | _, _ => to_.imageshape_
  _cached_size_ := to_._cached_size_
  _internal_metadata_ := to_._internal_metadata_.append src._internal_metadata_
  set_of_has h := by
    have hs := src.set_of_has
    have ht := to_.set_of_has
    cases hb : src.has_bits_ with
    | false => simp_all
    | true =>
        obtain ⟨shape, hshape⟩ := Option.isSome_iff_exists.mp (hs hb)
        rw [hshape]
        cases to_.imageshape_ <;> rfl
  clear_of_not_has h := by
    simp only [Bool.or_eq_false_iff] at h
    simpa [h.2] using to_.clear_of_not_has h.1

def copyFrom (to_ src : ImageRequest) : ImageRequest := to_.clear.mergeFrom src

end ImageRequest

/-! ## `BytesBody` -/

namespace BytesBody

def table : Table := [(1, .bytes)]

end BytesBody

structure BytesBody where
  content_ : Bytes
  _cached_size_ : Int32
  _internal_metadata_ : UnknownFieldSet BytesBody.table

namespace BytesBody

def new : BytesBody := ⟨[], 0, .empty⟩

def setContent (m : BytesBody) (content : Bytes) : BytesBody := { m with content_ := content }

def clear (m : BytesBody) : BytesBody := { m with content_ := [], _internal_metadata_ := .empty }

def internalSerialize (r : Runtime) (m : BytesBody) : Bytes :=
  (if m.content_ ≠ [] then r.writeBytes 1 m.content_ else []) ++
  m._internal_metadata_.internalSerialize r

/-- `ByteSizeLong`, and the message with the size in it. -/
def byteSizeLong (r : Runtime) (m : BytesBody) : ℕ × BytesBody :=
  let total_size := if m.content_ ≠ [] then 1 + r.bytesSize m.content_ else 0
  let total_size := m._internal_metadata_.maybeComputeSize r total_size
  (total_size, { m with _cached_size_ := .ofNat total_size })

/-- `MergeImpl` -/
def mergeFrom (to_ src : BytesBody) : BytesBody where
  content_ := if src.content_ ≠ [] then src.content_ else to_.content_
  _cached_size_ := to_._cached_size_
  _internal_metadata_ := to_._internal_metadata_.append src._internal_metadata_

def copyFrom (to_ src : BytesBody) : BytesBody := to_.clear.mergeFrom src

end BytesBody

/-! ## `CameraMeta_` -/

namespace CameraMeta

def table : Table :=
  [(1, .utf8String), (2, .utf8String), (3, .utf8String), (4, .utf8String), (5, .utf8String),
    (6, .utf8String), (7, .map)]

end CameraMeta

structure CameraMeta where
  info_ : StringMap
  serialnumber_ : Bytes
  modelname_ : Bytes
  manufacturename_ : Bytes
  deviceversion_ : Bytes
  userdefinedname_ : Bytes
  cameratype_ : Bytes
  _cached_size_ : Int32
  _internal_metadata_ : UnknownFieldSet CameraMeta.table

namespace CameraMeta

def new : CameraMeta := ⟨∅, [], [], [], [], [], [], 0, .empty⟩

def clear (m : CameraMeta) : CameraMeta :=
  { new with _cached_size_ := m._cached_size_ }

/-- The strings, in the order in which they are measured and written. -/
def strings (m : CameraMeta) : List (Number × Bytes) :=
  [(1, m.serialnumber_), (2, m.modelname_), (3, m.manufacturename_), (4, m.deviceversion_),
    (5, m.userdefinedname_), (6, m.cameratype_)]

/-- The order in which the entries of `info` are written. -/
def entries (r : Runtime) (deterministic : Bool) (m : CameraMeta) : List (Bytes × Bytes) :=
  if deterministic ∧ 1 < m.info_.entries.length then r.sorted m.info_ else r.iterate m.info_

def internalSerialize (r : Runtime) (deterministic : Bool) (m : CameraMeta) : Bytes :=
  (m.strings.flatMap fun e => if e.2 ≠ [] then r.writeString e.1 e.2 else []) ++
  ((m.entries r deterministic).flatMap fun e => r.writeEntry 7 e.1 e.2) ++
  m._internal_metadata_.internalSerialize r

/-- `ByteSizeLong`, and the message with the size in it. -/
def byteSizeLong (r : Runtime) (m : CameraMeta) : ℕ × CameraMeta :=
  let total_size := 1 * m.info_.entries.length
  let total_size := (r.iterate m.info_).foldl (fun n e => n + r.entrySize e.1 e.2) total_size
  let total_size := m.strings.foldl
    (fun n e => if e.2 ≠ [] then n + (1 + r.stringSize e.2) else n) total_size
  let total_size := m._internal_metadata_.maybeComputeSize r total_size
  (total_size, { m with _cached_size_ := .ofNat total_size })

/-- `Map::MergeFrom`: an entry of `src` replaces the one under its key. -/
def mergeInfo (r : Runtime) (to_ src : StringMap) : StringMap :=
  (r.iterate src).foldl (fun m e => m.insert e.1 e.2) to_

/-- `MergeImpl` -/
def mergeFrom (r : Runtime) (to_ src : CameraMeta) : CameraMeta where
  info_ := mergeInfo r to_.info_ src.info_
  serialnumber_ := if src.serialnumber_ ≠ [] then src.serialnumber_ else to_.serialnumber_
  modelname_ := if src.modelname_ ≠ [] then src.modelname_ else to_.modelname_
  manufacturename_ :=
    if src.manufacturename_ ≠ [] then src.manufacturename_ else to_.manufacturename_
  deviceversion_ := if src.deviceversion_ ≠ [] then src.deviceversion_ else to_.deviceversion_
  userdefinedname_ :=
    if src.userdefinedname_ ≠ [] then src.userdefinedname_ else to_.userdefinedname_
  cameratype_ := if src.cameratype_ ≠ [] then src.cameratype_ else to_.cameratype_
  _cached_size_ := to_._cached_size_
  _internal_metadata_ := to_._internal_metadata_.append src._internal_metadata_

def copyFrom (r : Runtime) (to_ src : CameraMeta) : CameraMeta := to_.clear.mergeFrom r src

/-- `mutable_info()->insert`, which does not replace an entry. -/
def insertInfo (m : CameraMeta) (k v : Bytes) : CameraMeta :=
  { m with info_ := if k ∈ m.info_ then m.info_ else m.info_.insert k v }

end CameraMeta

/-! ## `CameraMetas` -/

namespace CameraMetas

def table : Table := [(1, .message)]

end CameraMetas

structure CameraMetas where
  data_ : List CameraMeta
  _cached_size_ : Int32
  _internal_metadata_ : UnknownFieldSet CameraMetas.table

namespace CameraMetas

def new : CameraMetas := ⟨[], 0, .empty⟩

def clear (m : CameraMetas) : CameraMetas := { m with data_ := [], _internal_metadata_ := .empty }

def internalSerialize (r : Runtime) (deterministic : Bool) (m : CameraMetas) : Bytes :=
  (m.data_.flatMap fun msg =>
    r.writeMessage 1 msg._cached_size_ (msg.internalSerialize r deterministic)) ++
  m._internal_metadata_.internalSerialize r

/-- `ByteSizeLong`, and the message with the sizes in it. -/
def byteSizeLong (r : Runtime) (m : CameraMetas) : ℕ × CameraMetas :=
  let total_size := 1 * m.data_.length
  let total_size :=
    m.data_.foldl (fun n msg => n + r.messageSize (msg.byteSizeLong r).1) total_size
  let total_size := m._internal_metadata_.maybeComputeSize r total_size
  (total_size,
    { m with
      data_ := m.data_.map fun msg => (msg.byteSizeLong r).2
      _cached_size_ := .ofNat total_size })

/-- `MergeImpl` -/
def mergeFrom (r : Runtime) (to_ src : CameraMetas) : CameraMetas where
  data_ := to_.data_ ++ src.data_.map fun msg => CameraMeta.new.mergeFrom r msg
  _cached_size_ := to_._cached_size_
  _internal_metadata_ := to_._internal_metadata_.append src._internal_metadata_

def copyFrom (r : Runtime) (to_ src : CameraMetas) : CameraMetas := to_.clear.mergeFrom r src

end CameraMetas

end CameraService.Pb
