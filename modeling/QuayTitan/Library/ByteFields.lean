import Mathlib.Algebra.Order.Group.Nat
import Mathlib.Data.Nat.Basic
import Mathlib.Tactic.Ring

/-! # Fixed-offset fields of byte strings -/

namespace ByteFields

abbrev Bytes := List UInt8

/-! ## Little-endian numbers -/

/-- The `width` little-endian bytes of a number; higher digits are dropped. -/
def leBytes : ℕ → ℕ → Bytes
  | 0, _ => []
  | width + 1, value => UInt8.ofNat value :: leBytes width (value / 256)

def leNat : Bytes → ℕ
  | [] => 0
  | byte :: rest => byte.toNat + 256 * leNat rest

@[simp] theorem length_leBytes (width value : ℕ) :
    (leBytes width value).length = width := by
  induction width generalizing value with
  | zero => rfl
  | succ width ih => simp [leBytes, ih]

theorem leNat_leBytes (width value : ℕ) :
    leNat (leBytes width value) = value % 256 ^ width := by
  induction width generalizing value with
  | zero => simp [leBytes, leNat, Nat.mod_one]
  | succ width ih =>
      have hhead : (UInt8.ofNat value).toNat = value % 256 := UInt8.toNat_ofNat'
      rw [leBytes, leNat, ih, hhead, pow_succ', Nat.mod_mul]

theorem leNat_leBytes_of_lt {width value : ℕ} (h : value < 256 ^ width) :
    leNat (leBytes width value) = value := by
  rw [leNat_leBytes, Nat.mod_eq_of_lt h]

theorem leNat_lt (bytes : Bytes) : leNat bytes < 256 ^ bytes.length := by
  induction bytes with
  | nil => simp [leNat]
  | cons byte rest ih =>
      have hbyte : byte.toNat < 256 := byte.toNat_lt
      rw [leNat, List.length_cons, pow_succ]
      omega

theorem leBytes_leNat (bytes : Bytes) :
    leBytes bytes.length (leNat bytes) = bytes := by
  induction bytes with
  | nil => rfl
  | cons byte rest ih =>
      have hbyte : byte.toNat < 256 := byte.toNat_lt
      have hdiv : (byte.toNat + 256 * leNat rest) / 256 = leNat rest := by omega
      have hhead : UInt8.ofNat (byte.toNat + 256 * leNat rest) = byte := by
        apply UInt8.toNat_inj.mp
        rw [UInt8.toNat_ofNat']
        omega
      rw [List.length_cons, leNat, leBytes, hdiv, ih, hhead]

/-- A run of zero bytes. -/
def zeros (count : ℕ) : Bytes := List.replicate count 0

@[simp] theorem length_zeros (count : ℕ) : (zeros count).length = count :=
  List.length_replicate

theorem leNat_zeros (count : ℕ) : leNat (zeros count) = 0 := by
  induction count with
  | zero => rfl
  | succ count ih =>
      change (0 : UInt8).toNat + 256 * leNat (zeros count) = 0
      rw [ih]
      rfl

/-! ## Reading and writing a field -/

/-- The field of `width` bytes at `offset`, absent when it overruns the string. -/
def getField (data : Bytes) (offset width : ℕ) : Option Bytes :=
  if offset + width ≤ data.length then some ((data.drop offset).take width) else none

/-- Overwrite the bytes from `offset` on by `field`. -/
def putField (data : Bytes) (offset : ℕ) (field : Bytes) : Bytes :=
  data.take offset ++ (field ++ data.drop (offset + field.length))

theorem getField_eq_some {data : Bytes} {offset width : ℕ}
    (h : offset + width ≤ data.length) :
    getField data offset width = some ((data.drop offset).take width) :=
  if_pos h

theorem length_of_getField {data field : Bytes} {offset width : ℕ}
    (h : getField data offset width = some field) : field.length = width := by
  unfold getField at h
  split at h
  · rename_i hfit
    obtain rfl := Option.some.inj h
    simp
    omega
  · cases h

theorem getField_append_right {front : Bytes} (back : Bytes) {offset : ℕ} (width : ℕ)
    (h : front.length ≤ offset) :
    getField (front ++ back) offset width = getField back (offset - front.length) width := by
  have hfit : (offset + width ≤ (front ++ back).length) ↔
      offset - front.length + width ≤ back.length := by
    rw [List.length_append]
    omega
  simp only [getField, hfit]
  rw [List.drop_append, List.drop_of_length_le h, List.nil_append]

theorem getField_cons {byte : UInt8} {rest : Bytes} {offset : ℕ} (width : ℕ)
    (h : 0 < offset) : getField (byte :: rest) offset width = getField rest (offset - 1) width :=
  @getField_append_right [byte] rest _ width h

theorem getField_append_left {front : Bytes} (back : Bytes) {offset width : ℕ}
    (h : offset + width ≤ front.length) :
    getField (front ++ back) offset width = getField front offset width := by
  rw [getField_eq_some h, getField_eq_some (by rw [List.length_append]; omega),
    List.drop_append_of_le_length (by omega),
    List.take_append_of_le_length (by rw [List.length_drop]; omega)]

theorem getField_self {field : Bytes} {width : ℕ} (h : field.length = width) :
    getField field 0 width = some field := by
  rw [getField_eq_some (by omega), List.drop_zero, ← h, List.take_length]

theorem getField_zeros {count offset width : ℕ} (h : offset + width ≤ count) :
    getField (zeros count) offset width = some (zeros width) := by
  rw [getField_eq_some (by simpa using h), zeros, List.drop_replicate, List.take_replicate,
    Nat.min_eq_left (by omega), zeros]

@[simp] theorem length_putField {data field : Bytes} {offset : ℕ}
    (h : offset + field.length ≤ data.length) :
    (putField data offset field).length = data.length := by
  simp [putField]
  omega

theorem getElem?_putField {data field : Bytes} {offset : ℕ}
    (h : offset + field.length ≤ data.length) (i : ℕ) :
    (putField data offset field)[i]? =
      if offset ≤ i ∧ i < offset + field.length then field[i - offset]? else data[i]? := by
  have htake : (data.take offset).length = offset := by simp; omega
  unfold putField
  by_cases hlow : i < offset
  · rw [List.getElem?_append_left (by omega), List.getElem?_take_of_lt hlow, if_neg (by omega)]
  · rw [List.getElem?_append_right (by omega), htake]
    by_cases hmid : i < offset + field.length
    · rw [List.getElem?_append_left (by omega), if_pos (by omega)]
    · rw [List.getElem?_append_right (by omega), List.getElem?_drop, if_neg (by omega)]
      congr 1
      omega

theorem getField_putField_same {data field : Bytes} {offset : ℕ}
    (h : offset + field.length ≤ data.length) :
    getField (putField data offset field) offset field.length = some field := by
  have htake : (data.take offset).length = offset := by simp; omega
  rw [getField, if_pos (by rwa [length_putField h]), putField,
    List.drop_append_of_le_length htake.ge, List.drop_of_length_le htake.le]
  simp

/-- Writing a field leaves every field that does not overlap it. -/
theorem getField_putField_of_disjoint {data field : Bytes} {offset other width : ℕ}
    (h : offset + field.length ≤ data.length)
    (hdisjoint : other + width ≤ offset ∨ offset + field.length ≤ other) :
    getField (putField data offset field) other width = getField data other width := by
  simp only [getField, length_putField h]
  split
  · congr 1
    apply List.ext_getElem?
    intro i
    by_cases hi : i < width
    · rw [List.getElem?_take_of_lt hi, List.getElem?_take_of_lt hi, List.getElem?_drop,
        List.getElem?_drop, getElem?_putField h, if_neg (by omega)]
    · simp [hi]
  · rfl

/-! ## Number fields -/

def getLE (data : Bytes) (offset width : ℕ) : Option ℕ :=
  (getField data offset width).map leNat

def putLE (data : Bytes) (offset width value : ℕ) : Bytes :=
  putField data offset (leBytes width value)

/-- Only the digits that fit the field are written. -/
theorem putLE_mod (data : Bytes) (offset width value : ℕ) :
    putLE data offset width (value % 256 ^ width) = putLE data offset width value := by
  have hdigits := leBytes_leNat (leBytes width value)
  rw [length_leBytes, leNat_leBytes] at hdigits
  rw [putLE, putLE, hdigits]

theorem getLE_lt {data : Bytes} {offset width value : ℕ}
    (h : getLE data offset width = some value) : value < 256 ^ width := by
  obtain ⟨field, hfield, rfl⟩ := Option.map_eq_some_iff.mp h
  have hlength := length_of_getField hfield
  subst hlength
  exact leNat_lt field

@[simp] theorem length_putLE {data : Bytes} {offset width : ℕ} (value : ℕ)
    (h : offset + width ≤ data.length) :
    (putLE data offset width value).length = data.length :=
  length_putField (by simpa using h)

theorem getLE_putLE_same {data : Bytes} {offset width value : ℕ}
    (h : offset + width ≤ data.length) (hvalue : value < 256 ^ width) :
    getLE (putLE data offset width value) offset width = some value := by
  have hsame := @getField_putField_same data (leBytes width value) offset (by simpa using h)
  rw [length_leBytes] at hsame
  rw [getLE, putLE, hsame, Option.map_some, leNat_leBytes_of_lt hvalue]

theorem getField_putLE_of_disjoint {data : Bytes} {offset width other otherWidth : ℕ}
    (value : ℕ) (h : offset + width ≤ data.length)
    (hdisjoint : other + otherWidth ≤ offset ∨ offset + width ≤ other) :
    getField (putLE data offset width value) other otherWidth =
      getField data other otherWidth :=
  getField_putField_of_disjoint (by simpa using h) (by simpa using hdisjoint)

theorem getLE_putLE_of_disjoint {data : Bytes} {offset width other otherWidth : ℕ}
    (value : ℕ) (h : offset + width ≤ data.length)
    (hdisjoint : other + otherWidth ≤ offset ∨ offset + width ≤ other) :
    getLE (putLE data offset width value) other otherWidth =
      getLE data other otherWidth := by
  rw [getLE, getLE, getField_putLE_of_disjoint value h hdisjoint]

end ByteFields
