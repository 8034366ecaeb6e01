import Mathlib.Algebra.Order.Ring.Int
import Mathlib.Data.List.Basic
import Mathlib.Tactic.Common

/-!
# Tagged fields on a byte string

A message is a list of fields, each written as a number, a kind and a payload; a
group is a list of fields between two marks.  A reader knows some of the fields and
keeps the others.  What is written can be read, and in one way only, so two messages
written one after the other are read as one.

## Main definitions

* `varint`, `takeVarint` — numbers in base 128.
* `Field` — a field; `encode`, `encodeAll` — how fields are written.
* `decodeAll` — reading the fields of a byte string.
* `decodeAll_encodeAll` — what was written is read.
* `Schema` — a reader of fields; `Schema.read` — what it makes of a byte string.
-/

namespace Wire

/-! ## Numbers -/

/-- Base 128, the low digit first; every byte but the last has the high bit. -/
def varint (n : ℕ) : List UInt8 :=
  if n < 128 then [.ofNat n] else .ofNat (n % 128 + 128) :: varint (n / 128)
termination_by n

/-- The number at the front, and the bytes behind it. -/
def takeVarint : List UInt8 → Option (ℕ × List UInt8)
  | [] => none
  | b :: bs =>
    if b.toNat < 128 then some (b.toNat, bs)
    else (takeVarint bs).map fun x => (b.toNat - 128 + 128 * x.1, x.2)

theorem takeVarint_varint (n : ℕ) (bs : List UInt8) :
    takeVarint (varint n ++ bs) = some (n, bs) := by
  induction n using varint.induct with
  | case1 n h =>
      rw [varint, if_pos h]
      have hn : (UInt8.ofNat n).toNat = n := UInt8.toNat_ofNat_of_lt' (show n < 256 by omega)
      simp [takeVarint, hn, h]
  | case2 n h ih =>
      rw [varint, if_neg h]
      have hb : (UInt8.ofNat (n % 128 + 128)).toNat = n % 128 + 128 :=
        UInt8.toNat_ofNat_of_lt' (show n % 128 + 128 < 256 by omega)
      have hlt : ¬ n % 128 + 128 < 128 := by omega
      simp only [List.cons_append, takeVarint, hb, if_neg hlt, ih, Option.map_some]
      congr 2
      omega

theorem varint_length_pos (n : ℕ) : 0 < (varint n).length := by
  rw [varint]
  split <;> simp

theorem varint_length_le (k n : ℕ) (h : n < 128 ^ (k + 1)) : (varint n).length ≤ k + 1 := by
  induction k generalizing n with
  | zero =>
      rw [varint, if_pos (by simpa using h)]
      exact Nat.le_refl _
  | succ k ih =>
      rw [varint]
      split
      · exact Nat.le_add_left 1 _
      · have hq : n / 128 < 128 ^ (k + 1) := by
          rw [Nat.div_lt_iff_lt_mul (by decide), ← Nat.pow_succ]
          exact h
        exact Nat.succ_le_succ (ih _ hq)

/-- The low `k` bytes of a number, the lowest first. -/
def littleEndian : ℕ → ℕ → List UInt8
  | 0, _ => []
  | k + 1, n => .ofNat (n % 256) :: littleEndian k (n / 256)

def ofLittleEndian : List UInt8 → ℕ
  | [] => 0
  | b :: bs => b.toNat + 256 * ofLittleEndian bs

@[simp] theorem littleEndian_length (k n : ℕ) : (littleEndian k n).length = k := by
  induction k generalizing n with
  | zero => rfl
  | succ k ih => simp [littleEndian, ih]

theorem ofLittleEndian_littleEndian (k n : ℕ) (h : n < 256 ^ k) :
    ofLittleEndian (littleEndian k n) = n := by
  induction k generalizing n with
  | zero => simp at h; simp [littleEndian, ofLittleEndian, h]
  | succ k ih =>
      have hb : (UInt8.ofNat (n % 256)).toNat = n % 256 :=
        UInt8.toNat_ofNat_of_lt' (show n % 256 < 256 by omega)
      have hq : n / 256 < 256 ^ k := by
        rw [Nat.div_lt_iff_lt_mul (by decide), ← Nat.pow_succ]
        exact h
      simp only [littleEndian, ofLittleEndian, hb, ih _ hq]
      omega

/-! ## Fields -/

/-- A field number; the tag has room for 29 bits. -/
abbrev Number : Type := Fin (2 ^ 29)

instance Number.neZero : NeZero (2 ^ 29) := ⟨by decide⟩

/-- The kinds of payload. -/
inductive Payload
  | varint (v : UInt64)
  | fixed64 (v : UInt64)
  | bytes (s : List UInt8)
  | fixed32 (v : UInt32)
  deriving DecidableEq

/-- A field of a message. -/
inductive Field
  | value (n : Number) (p : Payload)
  | group (n : Number) (fs : List Field)

/-- What follows a tag: a payload, or a mark of a group. -/
inductive Token
  | payload (p : Payload)
  | startGroup
  | endGroup

def Payload.wireType : Payload → ℕ
  | varint _ => 0
  | fixed64 _ => 1
  | bytes _ => 2
  | fixed32 _ => 5

def Token.wireType : Token → ℕ
  | payload p => p.wireType
  | startGroup => 3
  | endGroup => 4

def Payload.encode : Payload → List UInt8
  | varint v => Wire.varint v.toNat
  | fixed64 v => littleEndian 8 v.toNat
  | bytes s => Wire.varint s.length ++ s
  | fixed32 v => littleEndian 4 v.toNat

def Token.encode : Token → List UInt8
  | payload p => p.encode
  | _ => []

/-- The tag of a field. -/
def tag (n : Number) (wireType : ℕ) : List UInt8 := varint (n.val * 8 + wireType)

mutual

def encode : Field → List UInt8
  | .value n p => tag n p.wireType ++ p.encode
  | .group n fs => tag n 3 ++ encodeAll fs ++ tag n 4

/-- Fields are written one after another. -/
def encodeAll : List Field → List UInt8
  | [] => []
  | f :: fs => encode f ++ encodeAll fs

end

@[simp] theorem encodeAll_nil : encodeAll [] = [] := by rw [encodeAll]

@[simp] theorem encodeAll_cons (f : Field) (fs : List Field) :
    encodeAll (f :: fs) = encode f ++ encodeAll fs := by rw [encodeAll]

@[simp] theorem encodeAll_append (fs gs : List Field) :
    encodeAll (fs ++ gs) = encodeAll fs ++ encodeAll gs := by
  induction fs with
  | nil => simp
  | cons f fs ih => simp [ih]

theorem encode_value (n : Number) (p : Payload) :
    encode (.value n p) = tag n p.wireType ++ p.encode := by rw [encode]

theorem encode_group (n : Number) (fs : List Field) :
    encode (.group n fs) = tag n 3 ++ encodeAll fs ++ tag n 4 := by rw [encode]

theorem tag_length_pos (n : Number) (k : ℕ) : 0 < (tag n k).length := varint_length_pos _

/-! ## Reading -/

/-- The token of a wire type. -/
def takeToken : ℕ → List UInt8 → Option (Token × List UInt8)
  | 0, bs => (takeVarint bs).map fun x => (.payload (.varint (.ofNat x.1)), x.2)
  | 1, bs =>
    if 8 ≤ bs.length then
      some (.payload (.fixed64 (.ofNat (ofLittleEndian (bs.take 8)))), bs.drop 8)
    else none
  | 2, bs => do
    let (n, bs) ← takeVarint bs
    if n ≤ bs.length then some (.payload (.bytes (bs.take n)), bs.drop n) else none
  | 3, bs => some (.startGroup, bs)
  | 4, bs => some (.endGroup, bs)
  | 5, bs =>
    if 4 ≤ bs.length then
      some (.payload (.fixed32 (.ofNat (ofLittleEndian (bs.take 4)))), bs.drop 4)
    else none
  | _, _ => none

/-- A tag and its token. -/
def takeTagged (bs : List UInt8) : Option ((Number × Token) × List UInt8) := do
  let (t, bs) ← takeVarint bs
  if h : t / 8 < 2 ^ 29 then
    let (token, bs) ← takeToken (t % 8) bs
    some ((⟨t / 8, h⟩, token), bs)
  else none

/-- The fields up to the end of the bytes, or up to the mark that closes the group `stop`. -/
def decodeUntil : ℕ → Option Number → List UInt8 → Option (List Field × List UInt8)
  | 0, _, _ => none
  | k + 1, stop, bs =>
    if stop = none ∧ bs = [] then some ([], [])
    else do
      let ((n, token), bs) ← takeTagged bs
      match token with
      | .payload p =>
        let (fs, bs) ← decodeUntil k stop bs
        some (.value n p :: fs, bs)
      | .startGroup =>
        let (inner, bs) ← decodeUntil k (some n) bs
        let (fs, bs) ← decodeUntil k stop bs
        some (.group n inner :: fs, bs)
      | .endGroup => if stop = some n then some ([], bs) else none

/-- The fields of a byte string; every field takes at least a byte. -/
def decodeAll (bs : List UInt8) : Option (List Field) :=
  (decodeUntil (bs.length + 1) none bs).map (·.1)

theorem takeToken_encode (t : Token) (bs : List UInt8) :
    takeToken t.wireType (t.encode ++ bs) = some (t, bs) := by
  cases t with
  | startGroup => rfl
  | endGroup => rfl
  | payload p =>
      cases p with
      | varint v =>
          simp [Token.wireType, Token.encode, Payload.wireType, Payload.encode, takeToken,
            takeVarint_varint]
      | fixed64 v =>
          have hv : ofLittleEndian (littleEndian 8 v.toNat) = v.toNat :=
            ofLittleEndian_littleEndian 8 _ v.toNat_lt
          have htake : (littleEndian 8 v.toNat ++ bs).take 8 = littleEndian 8 v.toNat :=
            List.take_left' (littleEndian_length 8 _)
          have hdrop : (littleEndian 8 v.toNat ++ bs).drop 8 = bs :=
            List.drop_left' (littleEndian_length 8 _)
          simp [Token.wireType, Token.encode, Payload.wireType, Payload.encode, takeToken,
            htake, hdrop, hv]
      | bytes s =>
          simp [Token.wireType, Token.encode, Payload.wireType, Payload.encode, takeToken,
            takeVarint_varint]
      | fixed32 v =>
          have hv : ofLittleEndian (littleEndian 4 v.toNat) = v.toNat :=
            ofLittleEndian_littleEndian 4 _ v.toNat_lt
          have htake : (littleEndian 4 v.toNat ++ bs).take 4 = littleEndian 4 v.toNat :=
            List.take_left' (littleEndian_length 4 _)
          have hdrop : (littleEndian 4 v.toNat ++ bs).drop 4 = bs :=
            List.drop_left' (littleEndian_length 4 _)
          simp [Token.wireType, Token.encode, Payload.wireType, Payload.encode, takeToken,
            htake, hdrop, hv]

theorem Token.wireType_lt (t : Token) : t.wireType < 8 := by
  cases t with
  | payload p => cases p <;> simp [wireType, Payload.wireType]
  | startGroup => simp [wireType]
  | endGroup => simp [wireType]

theorem takeTagged_encode (n : Number) (t : Token) (bs : List UInt8) :
    takeTagged (tag n t.wireType ++ (t.encode ++ bs)) = some ((n, t), bs) := by
  have ht := t.wireType_lt
  have hn := n.isLt
  have hdiv : (n.val * 8 + t.wireType) / 8 = n.val := by omega
  have hmod : (n.val * 8 + t.wireType) % 8 = t.wireType := by omega
  simp only [takeTagged, tag, takeVarint_varint, hdiv, hmod, hn, dite_true, takeToken_encode,
    Option.bind_eq_bind, Option.bind_some]

/-! ## What was written is read -/

section

variable {k : ℕ} {stop : Option Number} {n : Number} {bs rest : List UInt8}

/-- A tag is not the end of the bytes. -/
theorem not_end_of_tagged {x : (Number × Token) × List UInt8} (h : takeTagged bs = some x) :
    ¬ (stop = none ∧ bs = []) := by
  rintro ⟨-, rfl⟩
  simp [takeTagged, takeVarint] at h

theorem decodeUntil_value (p : Payload) :
    decodeUntil (k + 1) stop (encode (.value n p) ++ bs) =
      (decodeUntil k stop bs).map fun x => (.value n p :: x.1, x.2) := by
  have h : takeTagged (tag n p.wireType ++ (p.encode ++ bs)) = some ((n, .payload p), bs) :=
    takeTagged_encode n (.payload p) bs
  rw [encode_value, List.append_assoc]
  rw [decodeUntil, if_neg (not_end_of_tagged h)]
  simp [h, Option.map_eq_bind]

theorem decodeUntil_startGroup :
    decodeUntil (k + 1) stop (tag n 3 ++ bs) =
      (decodeUntil k (some n) bs).bind fun x =>
        (decodeUntil k stop x.2).map fun y => (.group n x.1 :: y.1, y.2) := by
  have h : takeTagged (tag n 3 ++ bs) = some ((n, .startGroup), bs) :=
    takeTagged_encode n .startGroup bs
  rw [decodeUntil, if_neg (not_end_of_tagged h)]
  simp [h, Option.map_eq_bind]

theorem decodeUntil_endGroup :
    decodeUntil (k + 1) (some n) (tag n 4 ++ bs) = some ([], bs) := by
  have h : takeTagged (tag n 4 ++ bs) = some ((n, .endGroup), bs) :=
    takeTagged_encode n .endGroup bs
  rw [decodeUntil, if_neg (not_end_of_tagged h)]
  simp [h]

/-- Fields in front of something that ends the reading.  The bound counts bytes, since a
group needs it twice. -/
theorem decodeUntil_encodeAll (fs : List Field) (k : ℕ) (stop : Option Number)
    (bs rest : List UInt8) (hk : (encodeAll fs).length < k)
    (hstop : ∀ j, decodeUntil (j + 1) stop bs = some ([], rest)) :
    decodeUntil k stop (encodeAll fs ++ bs) = some (fs, rest) := by
  match fs, k with
  | fs, 0 => omega
  | [], k + 1 => simpa using hstop k
  | .value n p :: fs, k + 1 =>
      have hlen := tag_length_pos n p.wireType
      simp only [encodeAll_cons, encode_value, List.length_append] at hk
      rw [encodeAll_cons, List.append_assoc, decodeUntil_value,
        decodeUntil_encodeAll fs k stop bs rest (by omega) hstop]
      rfl
  | .group n inner :: fs, k + 1 =>
      have hlen := tag_length_pos n 3
      simp only [encodeAll_cons, encode_group, List.length_append] at hk
      have hinner := decodeUntil_encodeAll inner k (some n) (tag n 4 ++ (encodeAll fs ++ bs))
        (encodeAll fs ++ bs) (by omega) fun j => decodeUntil_endGroup
      have hrest := decodeUntil_encodeAll fs k stop bs rest (by omega) hstop
      rw [encodeAll_cons, encode_group]
      simp only [List.append_assoc]
      rw [decodeUntil_startGroup, hinner, Option.bind_some, hrest]
      rfl

end

/-- **What was written is read.** -/
theorem decodeAll_encodeAll (fs : List Field) : decodeAll (encodeAll fs) = some fs := by
  have h := decodeUntil_encodeAll fs ((encodeAll fs).length + 1) none [] [] (by omega)
    fun j => by simp [decodeUntil]
  rw [List.append_nil] at h
  rw [decodeAll, h]
  rfl

/-! ## Readers -/

/-- A reader of the fields of a message: what it starts from, the fields it knows, and what
it makes of them, if it does not reject them. -/
structure Schema (V : Type) where
  empty : V
  knows : Field → Bool
  take : V → Field → Option V

/-- What was read of a message, and the fields that were not known. -/
@[ext] structure Message (V : Type) where
  known : V
  unknown : List Field

namespace Schema

variable {V : Type} (S : Schema V)

def none : Message V := ⟨S.empty, []⟩

def step (m : Message V) (f : Field) : Option (Message V) :=
  if S.knows f then (S.take m.known f).map fun v => { m with known := v }
  else some { m with unknown := m.unknown ++ [f] }

/-- One field after another. -/
def readFrom (m : Message V) (fs : List Field) : Option (Message V) := fs.foldlM S.step m

/-- A byte string on top of what was read before. -/
def readOn (m : Message V) (bs : List UInt8) : Option (Message V) :=
  (decodeAll bs).bind (S.readFrom m)

/-- A message of its own. -/
def read (bs : List UInt8) : Option (Message V) := S.readOn S.none bs

variable {S} {m : Message V}

@[simp] theorem readFrom_nil : S.readFrom m [] = some m := rfl

theorem readFrom_cons (f : Field) (fs : List Field) :
    S.readFrom m (f :: fs) = (S.step m f).bind fun m' => S.readFrom m' fs := by
  simp [readFrom]

theorem readFrom_append (fs gs : List Field) :
    S.readFrom m (fs ++ gs) = (S.readFrom m fs).bind fun m' => S.readFrom m' gs := by
  simp [readFrom, List.foldlM_append]

@[simp] theorem readOn_encodeAll (fs : List Field) :
    S.readOn m (encodeAll fs) = S.readFrom m fs := by
  simp [readOn, decodeAll_encodeAll]

/-- **Two messages, one after the other, are read as one.** -/
theorem read_append (fs gs : List Field) :
    S.read (encodeAll fs ++ encodeAll gs) =
      (S.read (encodeAll fs)).bind fun m => S.readOn m (encodeAll gs) := by
  rw [← encodeAll_append, read, read, readOn_encodeAll, readOn_encodeAll, readFrom_append]
  simp only [readOn_encodeAll]

/-- Fields that are not known are kept. -/
theorem readFrom_unknown {fs : List Field} (h : ∀ f ∈ fs, S.knows f = false) :
    S.readFrom m fs = some { m with unknown := m.unknown ++ fs } := by
  induction fs generalizing m with
  | nil => simp
  | cons f fs ih =>
      have hf : S.knows f = false := h f (by simp)
      rw [readFrom_cons, step, hf]
      simp only [Bool.false_eq_true, if_false, Option.bind_some]
      rw [ih fun g hg => h g (by simp [hg])]
      simp

end Schema

end Wire
