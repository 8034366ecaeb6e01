import CameraService.Text
import Mathlib.Data.List.ReduceOption

/-!
# Hex dumps

`hex_dump` prints a buffer in lines of up to sixteen bytes.  Each line is built in the one
array `rgbLine`: a line number, two digits and a blank for each byte, padding, and the bytes
themselves where they are printable.  The column index `cbLine` is shared by the three loops.

## Main definitions

* `HexLine`, `HexLine.put` — the array, its column index, and a store.
* `hexLine`, `hexDumpFrom`, `hexDump` — one line, and the loop over the lines.
* `pairAt`, `readLine` — reading a line back.
* `HexLine.Holds` — what has been stored so far.
* `hexDump_lossless` — the lines give the buffer back.
-/

namespace CameraService

/-! ## A line under construction -/

/-- `rgbLine` and `cbLine`, with the indices that have been written to.  The `char` `cbLine` is
a number: it does not get past 100. -/
structure HexLine where
  rgbLine : Bytes
  cbLine : ℕ
  written : List ℕ

namespace HexLine

/-- `rgbLine[cbLine++] = ch`. -/
def put (l : HexLine) (ch : UInt8) : HexLine :=
  { rgbLine := l.rgbLine.set l.cbLine ch
    cbLine := l.cbLine + 1
    written := l.written ++ [l.cbLine] }

/-- One store for each byte. -/
def puts (l : HexLine) (s : Bytes) : HexLine := s.foldl put l

/-- `snprintf(rgbLine, size, ..)` of a text. -/
def snprintf (l : HexLine) (size : ℕ) (text : Bytes) : HexLine :=
  { l with cbLine := 0 }.puts (text.take (size - 1) ++ [0])

end HexLine

/-- `rgbDigits`: `"0123456789abcdef"`. -/
def rgbDigits : Bytes :=
  [48, 49, 50, 51, 52, 53, 54, 55, 56, 57, 97, 98, 99, 100, 101, 102, 0]

/-- `rgbDigits[n]`. -/
def rgbDigit (n : UInt8) : UInt8 := rgbDigits.getD n.toNat 0

/-- `%8.8x`: the eight digits of an unsigned integer. -/
def hex8 (c : UInt32) : Bytes :=
  ([28, 24, 20, 16, 12, 8, 4, 0] : List UInt32).map fun i =>
    rgbDigit ((c >>> i) &&& 15).toUInt8

namespace HexLine

/-- The loop over the bytes of a line, from `i` on. -/
def pairs (l : HexLine) (i : ℕ) : Bytes → HexLine
  | [] => l
  | b :: rest =>
      let l := (l.put (rgbDigit (b >>> 4))).put (rgbDigit (b &&& 0x0f))
      -- both branches store a blank
      (if i = 7 then l.put 32 else l.put 32).pairs (i + 1) rest

/-- The loop over the columns that a short line leaves free. -/
def pad (l : HexLine) : ℕ → HexLine
  | 0 => l
  | k + 1 => (((l.put 32).put 32).put 32).pad k

/-- The loop over the text column. -/
def chars (l : HexLine) : Bytes → HexLine
  | [] => l
  | b :: rest => (l.put (if b < 32 ∨ b > 126 then 46 else b)).chars rest

end HexLine

/-- One turn of the outer loop: the line with number `c`. -/
def hexLine (c : UInt32) (chunk : Bytes) (l : HexLine) : HexLine :=
  let l := l.snprintf 99 (hex8 c ++ [32, 32])
  -- the second blank is overwritten by the first digit
  let l := { l with cbLine := 9 }
  let l := (l.pairs 0 chunk).pad (16 - chunk.length)
  ((l.put 32).chars chunk).put 0

/-- The outer loop, from the line number `c` on: the lines that are printed, each without its
newline, and `rgbLine` at the end. -/
def hexDumpFrom (c : UInt32) (buffer : Bytes) (l : HexLine) : List Bytes × HexLine :=
  if buffer = [] then ([], l)
  else
    let count := if buffer.length > 16 then 16 else buffer.length
    let l := hexLine c (buffer.take count) l
    let rest := hexDumpFrom (c + 1) (buffer.drop count) l
    (cstr l.rgbLine :: rest.1, rest.2)
termination_by buffer.length
decreasing_by
  have hpos : 0 < buffer.length := List.length_pos_iff.mpr ‹_›
  rw [List.length_drop]
  split <;> omega

/-- `hex_dump` of a buffer, with what the stack holds in `rgbLine`. -/
def hexDump (buffer : Bytes) (rgbLine : Vector UInt8 100) : List Bytes × HexLine :=
  hexDumpFrom 0 buffer ⟨rgbLine.toList, 0, []⟩

/-! ## Reading a dump -/

/-- The value of a hex digit. -/
def hexValue (ch : UInt8) : Option UInt8 :=
  if 48 ≤ ch ∧ ch ≤ 57 then some (ch - 48)
  else if 97 ≤ ch ∧ ch ≤ 102 then some (ch - 87)
  else none

/-- The pair of digits at column `9 + 3 * i`. -/
def pairAt (row : Bytes) (i : ℕ) : Option UInt8 := do
  let hi ← row[9 + 3 * i]? >>= hexValue
  let lo ← row[9 + 3 * i + 1]? >>= hexValue
  return hi * 16 + lo

/-- The pairs of a line up to the padding. -/
def readLine (row : Bytes) : Bytes :=
  (((List.range 16).map (pairAt row)).takeWhile Option.isSome).reduceOption

/-- The text column. -/
def textColumn (row : Bytes) : Bytes := row.drop 58

/-! ## What is stored -/

variable {l : HexLine} {s t buffer chunk : Bytes} {c : UInt32} {k : ℕ}

/-- The bytes before the column index are `s`, and no store was outside. -/
structure HexLine.Holds (l : HexLine) (s : Bytes) : Prop where
  size : l.rgbLine.length = 100
  column : l.cbLine = s.length
  stored : l.rgbLine.take s.length = s
  inside : ∀ i ∈ l.written, i < 100

namespace HexLine

@[simp] theorem puts_nil (l : HexLine) : l.puts [] = l := rfl

@[simp] theorem puts_cons (l : HexLine) (ch : UInt8) (s : Bytes) :
    l.puts (ch :: s) = (l.put ch).puts s := rfl

theorem puts_append (l : HexLine) (s t : Bytes) : l.puts (s ++ t) = (l.puts s).puts t :=
  List.foldl_append

namespace Holds

/-- **A store extends what is stored.** -/
theorem put (h : l.Holds s) (ch : UInt8) (hroom : s.length < 100) :
    (l.put ch).Holds (s ++ [ch]) where
  size := by
    rw [HexLine.put, List.length_set, h.size]
  column := by
    rw [HexLine.put, List.length_append, List.length_singleton, h.column]
  stored := by
    have hlt : s.length < l.rgbLine.length := by
      rw [h.size]
      exact hroom
    rw [HexLine.put, h.column, List.length_append, List.length_singleton,
      List.take_add_one, List.take_set_of_le le_rfl, h.stored]
    simp [hlt]
  inside i hi := by
    rcases List.mem_append.mp hi with hi | hi
    · exact h.inside i hi
    · rw [List.mem_singleton.mp hi, h.column]
      exact hroom

/-- Several stores extend it by their bytes. -/
theorem puts (h : l.Holds s) (hroom : s.length + t.length ≤ 100) :
    (l.puts t).Holds (s ++ t) := by
  induction t generalizing l s with
  | nil => simpa using h
  | cons ch t ih =>
      rw [List.length_cons] at hroom
      have hnext := ih (h.put ch (by omega))
        (by rw [List.length_append, List.length_singleton]; omega)
      rw [puts_cons, ← List.singleton_append, ← List.append_assoc]
      exact hnext

/-- The column index may be moved back. -/
theorem rewind (h : l.Holds s) (hk : k ≤ s.length) :
    ({ l with cbLine := k } : HexLine).Holds (s.take k) where
  size := h.size
  column := (List.length_take_of_le hk).symm
  stored := by
    have hstored := congrArg (List.take k) h.stored
    rw [List.take_take, min_eq_left hk] at hstored
    rw [List.length_take_of_le hk]
    exact hstored
  inside := h.inside

end Holds

/-! ## The three loops -/

/-- The columns of one byte. -/
def cell (b : UInt8) : Bytes := [rgbDigit (b >>> 4), rgbDigit (b &&& 0x0f), 32]

/-- The text column of one byte. -/
def shown (b : UInt8) : UInt8 := if 32 ≤ b ∧ b ≤ 126 then b else 46

theorem pairs_eq_puts (l : HexLine) (i : ℕ) (chunk : Bytes) :
    l.pairs i chunk = l.puts (chunk.flatMap cell) := by
  induction chunk generalizing l i with
  | nil => rfl
  | cons b rest ih =>
      rw [pairs, ite_self, ih, List.flatMap_cons, puts_append]
      rfl

theorem pad_eq_puts (l : HexLine) (k : ℕ) : l.pad k = l.puts (List.replicate (3 * k) 32) := by
  induction k generalizing l with
  | zero => rfl
  | succ k ih => rw [pad, ih]; rfl

theorem chars_eq_puts (l : HexLine) (chunk : Bytes) : l.chars chunk = l.puts (chunk.map shown) := by
  induction chunk generalizing l with
  | nil => rfl
  | cons b rest ih =>
      have hch : (if b < 32 ∨ b > 126 then 46 else b) = shown b := by
        have hiff : b < 32 ∨ b > 126 ↔ ¬ (32 ≤ b ∧ b ≤ 126) := by
          rw [not_and_or, UInt8.not_le, UInt8.not_le]
        by_cases hprint : 32 ≤ b ∧ b ≤ 126
        · rw [if_neg (fun h => hiff.mp h hprint), shown, if_pos hprint]
        · rw [if_pos (hiff.mpr hprint), shown, if_neg hprint]
      rw [chars, ih, List.map_cons, puts_cons, hch]

end HexLine

open HexLine

/-! ## One line -/

/-- What is printed for the line with number `c`. -/
def shownLine (c : UInt32) (chunk : Bytes) : Bytes :=
  hex8 c ++ [32] ++ chunk.flatMap cell ++ List.replicate (3 * (16 - chunk.length)) 32 ++ [32] ++
    chunk.map shown

theorem length_hex8 (c : UInt32) : (hex8 c).length = 8 := rfl

theorem length_cells (chunk : Bytes) : (chunk.flatMap cell).length = 3 * chunk.length := by
  induction chunk with
  | nil => rfl
  | cons b rest ih =>
      rw [List.flatMap_cons, List.length_append, ih, List.length_cons]
      simp only [cell, List.length_cons, List.length_nil]
      omega

theorem length_shownLine (h : chunk.length ≤ 16) :
    (shownLine c chunk).length = 58 + chunk.length := by
  simp only [shownLine, List.length_append, length_hex8, length_cells, List.length_replicate,
    List.length_map, List.length_singleton]
  omega

/-- **A digit is read back.** -/
theorem hexValue_rgbDigit {n : UInt8} (h : n.toNat < 16) : hexValue (rgbDigit n) = some n := by
  have hdigits : ∀ m < 16, hexValue (rgbDigits.getD m 0) = some (UInt8.ofNat m) := by decide
  rw [rgbDigit, hdigits n.toNat h, UInt8.ofNat_toNat]

theorem toNat_shiftRight_four (b : UInt8) : (b >>> 4).toNat = b.toNat / 16 := by
  rw [UInt8.toNat_shiftRight, Nat.shiftRight_eq_div_pow]
  rfl

theorem toNat_and_fifteen (b : UInt8) : (b &&& 0x0f).toNat = b.toNat % 16 := by
  rw [UInt8.toNat_and]
  exact Nat.and_two_pow_sub_one_eq_mod b.toNat 4

/-- Both halves of a byte have a digit. -/
theorem halves_lt (b : UInt8) : (b >>> 4).toNat < 16 ∧ (b &&& 0x0f).toNat < 16 := by
  have hlt : b.toNat < 256 := UInt8.toNat_lt b
  rw [toNat_shiftRight_four, toNat_and_fifteen]
  omega

/-- The two halves of a byte. -/
theorem byte_halves (b : UInt8) : (b >>> 4) * 16 + (b &&& 0x0f) = b := by
  have hlt : b.toNat < 256 := UInt8.toNat_lt b
  apply UInt8.toNat_inj.mp
  rw [UInt8.toNat_add, UInt8.toNat_mul, toNat_shiftRight_four, toNat_and_fifteen]
  show (b.toNat / 16 * 16 % 256 + b.toNat % 16) % 256 = b.toNat
  omega

theorem rgbDigit_ne_zero {n : UInt8} (h : n.toNat < 16) : rgbDigit n ≠ 0 := by
  intro hzero
  have hback := hexValue_rgbDigit h
  rw [hzero] at hback
  exact absurd hback (by simp [hexValue])

theorem zero_notMem_hex8 (c : UInt32) : (0 : UInt8) ∉ hex8 c := by
  intro h
  obtain ⟨i, -, hi⟩ := List.mem_map.mp h
  refine rgbDigit_ne_zero ?_ hi
  rw [UInt32.toNat_toUInt8, UInt32.toNat_and]
  have hle : (c >>> i).toNat &&& (15 : UInt32).toNat ≤ 15 := Nat.and_le_right
  omega

theorem zero_notMem_cell (b : UInt8) : (0 : UInt8) ∉ cell b := by
  have hhi := rgbDigit_ne_zero (halves_lt b).1
  have hlo := rgbDigit_ne_zero (halves_lt b).2
  simp [cell, hhi.symm, hlo.symm]

theorem shown_ne_zero (b : UInt8) : shown b ≠ 0 := by
  by_cases hprint : 32 ≤ b ∧ b ≤ 126
  · rw [shown, if_pos hprint]
    rintro rfl
    exact absurd hprint.1 (by decide)
  · rw [shown, if_neg hprint]
    decide

/-- **No byte of a line is a terminator.** -/
theorem zero_notMem_shownLine (c : UInt32) (chunk : Bytes) : (0 : UInt8) ∉ shownLine c chunk := by
  have hcells : (0 : UInt8) ∉ chunk.flatMap cell := by
    intro h
    obtain ⟨b, -, hb⟩ := List.mem_flatMap.mp h
    exact zero_notMem_cell b hb
  have hchars : (0 : UInt8) ∉ chunk.map shown := by
    intro h
    obtain ⟨b, -, hb⟩ := List.mem_map.mp h
    exact shown_ne_zero b hb
  have hblank : (0 : UInt8) ≠ 32 := by decide
  simp only [shownLine, List.mem_append, List.mem_replicate, List.mem_singleton, not_or]
  exact ⟨⟨⟨⟨⟨zero_notMem_hex8 c, hblank⟩, hcells⟩, fun h => hblank h.2⟩, hblank⟩, hchars⟩

/-- **One turn of the outer loop** prints its line, and stores inside the array only. -/
theorem hexLine_holds (h : l.Holds s) (hlen : chunk.length ≤ 16) :
    (hexLine c chunk l).Holds (shownLine c chunk ++ [0]) := by
  have hheader : (l.snprintf 99 (hex8 c ++ [32, 32])).Holds (hex8 c ++ [32, 32, 0]) :=
    (h.rewind (Nat.zero_le _)).puts (by simp [length_hex8])
  have hcolumn := hheader.rewind (k := 9) (by simp [length_hex8])
  have hnine : (hex8 c ++ [32, 32, 0]).take 9 = hex8 c ++ [32] := by
    have hlength : (hex8 c ++ [32]).length = 9 := rfl
    rw [show hex8 c ++ [32, 32, 0] = (hex8 c ++ [32]) ++ [32, 0] by simp]
    exact List.take_left' hlength
  rw [hnine] at hcolumn
  have hroom : (shownLine c chunk).length = 58 + chunk.length := length_shownLine hlen
  have hall := hcolumn.puts (t := chunk.flatMap cell ++ (List.replicate (3 * (16 - chunk.length)) 32
    ++ (32 :: (chunk.map shown ++ [0])))) (by
      simp only [List.length_append, length_hex8, length_cells, List.length_replicate,
        List.length_map, List.length_cons, List.length_nil]
      omega)
  rw [puts_append, puts_append, puts_cons, puts_append, ← chars_eq_puts, ← pad_eq_puts,
    ← pairs_eq_puts _ 0] at hall
  simpa [hexLine, shownLine] using hall

/-! ## Reading a line back -/

/-- Where the columns of a byte are. -/
theorem getElem?_cells (chunk t : Bytes) (i : ℕ) {j : ℕ} (hj : j < 3) :
    (chunk.flatMap cell ++ t)[3 * i + j]? =
      match chunk[i]? with
      | some b => (cell b)[j]?
      | none => t[3 * (i - chunk.length) + j]? := by
  induction chunk generalizing i with
  | nil => simp
  | cons b rest ih =>
      rw [List.flatMap_cons, List.append_assoc]
      cases i with
      | zero =>
          rw [List.getElem?_append_left (by simpa [cell] using hj)]
          simp
      | succ i =>
          have hcell : (cell b).length = 3 := rfl
          rw [List.getElem?_append_right (by omega), hcell,
            show 3 * (i + 1) + j - 3 = 3 * i + j by omega, ih i, List.getElem?_cons_succ,
            List.length_cons, Nat.add_sub_add_right]

/-- **The pair of a byte gives it back**, and the padding gives nothing. -/
theorem pairAt_shownLine (hlen : chunk.length ≤ 16) {i : ℕ} (hi : i < 16) :
    pairAt (shownLine c chunk) i = chunk[i]? := by
  have hsplit : shownLine c chunk = (hex8 c ++ [32]) ++ (chunk.flatMap cell ++
      (List.replicate (3 * (16 - chunk.length)) 32 ++ ([32] ++ chunk.map shown))) := by
    simp [shownLine]
  have hcolumn : ∀ j, (shownLine c chunk)[9 + j]? = (chunk.flatMap cell ++
      (List.replicate (3 * (16 - chunk.length)) 32 ++ ([32] ++ chunk.map shown)))[j]? := by
    intro j
    have hnine : (hex8 c ++ [32]).length = 9 := rfl
    rw [hsplit, List.getElem?_append_right (by omega), hnine, Nat.add_sub_cancel_left]
  rw [pairAt, hcolumn, add_assoc, hcolumn, getElem?_cells _ _ i (j := 1) (by decide),
    show 3 * i = 3 * i + 0 from rfl, getElem?_cells _ _ i (by decide)]
  cases hb : chunk[i]? with
  | none =>
      have hout : chunk.length ≤ i := List.getElem?_eq_none_iff.mp hb
      have hpad : ∀ t : Bytes, (List.replicate (3 * (16 - chunk.length)) 32 ++ t)[3 * (i -
          chunk.length) + 0]? = some 32 := by
        intro t
        rw [List.getElem?_append_left (by rw [List.length_replicate]; omega),
          List.getElem?_replicate, if_pos (by omega)]
      simp only [hpad]
      rfl
  | some b =>
      have hhi := hexValue_rgbDigit (halves_lt b).1
      have hlo := hexValue_rgbDigit (halves_lt b).2
      have hbyte := byte_halves b
      simp [cell, hhi, hlo, hbyte]

theorem reduceOption_map_some (s : Bytes) : (s.map some).reduceOption = s := by
  induction s with
  | nil => rfl
  | cons b s ih => rw [List.map_cons, List.reduceOption_cons_of_some, ih]

/-- **A line gives its bytes back.** -/
theorem readLine_shownLine (hlen : chunk.length ≤ 16) : readLine (shownLine c chunk) = chunk := by
  have hpairs : (List.range 16).map (pairAt (shownLine c chunk)) =
      chunk.map some ++ List.replicate (16 - chunk.length) none := by
    apply List.ext_getElem?
    intro i
    by_cases hi : i < 16
    · rw [List.getElem?_map, List.getElem?_range hi, Option.map_some, pairAt_shownLine hlen hi]
      by_cases hin : i < chunk.length
      · rw [List.getElem?_append_left (by simpa using hin), List.getElem?_map,
          List.getElem?_eq_getElem hin]
        rfl
      · rw [List.getElem?_append_right (by simpa using hin), List.length_map,
          List.getElem?_replicate, if_pos (by omega), List.getElem?_eq_none (by omega)]
    · rw [List.getElem?_eq_none (by simpa using hi), List.getElem?_eq_none]
      simp only [List.length_append, List.length_map, List.length_replicate]
      omega
  have hall : ∀ o ∈ chunk.map some, Option.isSome o = true := by simp
  rw [readLine, hpairs, List.takeWhile_append_of_pos hall]
  simp [reduceOption_map_some]

theorem textColumn_shownLine (hlen : chunk.length ≤ 16) :
    textColumn (shownLine c chunk) = chunk.map shown := by
  apply List.drop_left'
  simp only [List.length_append, length_hex8, length_cells, List.length_replicate,
    List.length_singleton]
  omega

/-! ## The whole dump -/

/-- **The lines show the buffer**: there is one for each sixteen bytes begun, their pairs are
its bytes in order, and the text column of each has the bytes of that line. -/
structure Dumped (buffer : Bytes) (lines : List Bytes) : Prop where
  count : lines.length = (buffer.length + 15) / 16
  bytes : lines.flatMap readLine = buffer
  text : ∀ (k : ℕ) (row : Bytes), lines[k]? = some row →
    readLine row = (buffer.drop (16 * k)).take 16 ∧
    textColumn row = ((buffer.drop (16 * k)).take 16).map shown

theorem Dumped.nil : Dumped [] [] where
  count := rfl
  bytes := rfl
  text k row h := by simp at h

/-- One more line in front. -/
theorem Dumped.cons {row : Bytes} {lines : List Bytes} (hne : buffer ≠ [])
    (h : Dumped (buffer.drop 16) lines) (hread : readLine row = buffer.take 16)
    (htext : textColumn row = (buffer.take 16).map shown) : Dumped buffer (row :: lines) where
  count := by
    have hpos : 0 < buffer.length := List.length_pos_iff.mpr hne
    rw [List.length_cons, h.count, List.length_drop]
    omega
  bytes := by
    rw [List.flatMap_cons, h.bytes, hread, List.take_append_drop]
  text k found hk := by
    cases k with
    | zero =>
        rw [List.getElem?_cons_zero, Option.some_inj] at hk
        subst hk
        exact ⟨hread, htext⟩
    | succ k =>
        rw [List.getElem?_cons_succ] at hk
        have hrest := h.text k found hk
        rw [List.drop_drop] at hrest
        rw [Nat.mul_succ, Nat.add_comm (16 * k)]
        exact hrest

/-- The array read as a C string. -/
theorem HexLine.Holds.cstr_eq (h : l.Holds (s ++ [0])) (hs : (0 : UInt8) ∉ s) :
    cstr l.rgbLine = s := by
  have hmem : l.rgbLine = s ++ 0 :: l.rgbLine.drop (s ++ [(0 : UInt8)]).length := by
    conv_lhs => rw [← List.take_append_drop (s ++ [(0 : UInt8)]).length l.rgbLine, h.stored]
    simp
  have hkeep : ∀ b ∈ s, decide (b ≠ 0) = true := by
    intro b hb
    apply decide_eq_true
    rintro rfl
    exact hs hb
  rw [hmem, cstr, List.takeWhile_append_of_pos hkeep]
  simp

/-- The loop takes sixteen bytes, or what is left. -/
theorem hexDumpFrom_of_ne_nil (h : buffer ≠ []) : hexDumpFrom c buffer l =
    (cstr (hexLine c (buffer.take 16) l).rgbLine ::
      (hexDumpFrom (c + 1) (buffer.drop 16) (hexLine c (buffer.take 16) l)).1,
      (hexDumpFrom (c + 1) (buffer.drop 16) (hexLine c (buffer.take 16) l)).2) := by
  rw [hexDumpFrom, if_neg h]
  by_cases hlong : buffer.length > 16
  · simp only [if_pos hlong]
  · have htake : buffer.take 16 = buffer := List.take_of_length_le (by omega)
    have hdrop : buffer.drop 16 = [] := List.drop_eq_nil_of_le (by omega)
    simp only [if_neg hlong, List.take_length, List.drop_length, htake, hdrop]

/-- **The loop shows what is left of the buffer.** -/
theorem hexDumpFrom_dumped (h : l.Holds s) : Dumped buffer (hexDumpFrom c buffer l).1 ∧
    ∀ i ∈ (hexDumpFrom c buffer l).2.written, i < 100 := by
  induction hn : buffer.length using Nat.strong_induction_on generalizing buffer c l s with
  | _ n ih =>
      by_cases hne : buffer = []
      · subst hne
        rw [hexDumpFrom, if_pos rfl]
        exact ⟨.nil, h.inside⟩
      · have hlen : (buffer.take 16).length ≤ 16 := List.length_take_le 16 buffer
        have hline := hexLine_holds (c := c) h hlen
        have hpos : 0 < buffer.length := List.length_pos_iff.mpr hne
        have hless : (buffer.drop 16).length < n := by
          rw [List.length_drop]
          omega
        obtain ⟨hrest, hinside⟩ := ih _ hless hline rfl
        rw [hexDumpFrom_of_ne_nil hne, hline.cstr_eq (zero_notMem_shownLine c _)]
        exact ⟨hrest.cons hne (readLine_shownLine hlen) (textColumn_shownLine hlen), hinside⟩

/-- **`hex_dump` is lossless and stays in its array.**  Whatever the stack held, it ends after
the lines of the buffer, and every store is below 100. -/
theorem hexDump_lossless (buffer : Bytes) (rgbLine : Vector UInt8 100) :
    Dumped buffer (hexDump buffer rgbLine).1 ∧
    ∀ i ∈ (hexDump buffer rgbLine).2.written, i < 100 := by
  apply hexDumpFrom_dumped (s := [])
  exact ⟨rgbLine.length_toList, rfl, rfl, by simp⟩

end CameraService
