import QuayTitan.Library.ByteFields

/-! # Borsh codecs

A codec reads a value off the front of a byte string. It accepts exactly the encodings of
the values that fit, so a value has one encoding. -/

namespace Borsh

open ByteFields

structure Codec (α : Type) where
  fits : α → Prop
  encode : α → Bytes
  decode : Bytes → Option (α × Bytes)
  decode_encode : ∀ {a}, fits a → ∀ rest, decode (encode a ++ rest) = some (a, rest)
  encode_decode : ∀ {bytes a rest}, decode bytes = some (a, rest) →
    fits a ∧ bytes = encode a ++ rest

namespace Codec

variable {α β : Type}

/-! ## Numbers, booleans and tags -/

def u8 : Codec UInt8 where
  fits _ := True
  encode a := [a]
  decode
    | [] => none
    | byte :: rest => some (byte, rest)
  decode_encode _ _ := rfl
  encode_decode := by
    intro bytes a rest h
    cases bytes with
    | nil => cases h
    | cons byte tail =>
        obtain ⟨rfl, rfl⟩ := Prod.mk.inj (Option.some.inj h)
        exact ⟨trivial, rfl⟩

/-- Little-endian numbers of a fixed width. -/
def le (width : ℕ) : Codec ℕ where
  fits n := n < 256 ^ width
  encode := leBytes width
  decode bytes := (getField bytes 0 width).map fun field => (leNat field, bytes.drop width)
  decode_encode := by
    intro n hfits rest
    have hlength := length_leBytes width n
    rw [getField_append_left rest (by omega), getField_self hlength, Option.map_some,
      leNat_leBytes_of_lt hfits, List.drop_left' hlength]
  encode_decode := by
    intro bytes n rest h
    obtain ⟨field, hfield, hpair⟩ := Option.map_eq_some_iff.mp h
    obtain ⟨rfl, rfl⟩ := Prod.mk.inj hpair
    have hlength := length_of_getField hfield
    unfold getField at hfield
    split at hfield
    · obtain rfl := Option.some.inj hfield
      rw [List.drop_zero] at hlength ⊢
      refine ⟨?_, ?_⟩
      · have hlt := leNat_lt (bytes.take width)
        rwa [hlength] at hlt
      · have hencode := leBytes_leNat (bytes.take width)
        rw [hlength] at hencode
        rw [hencode, List.take_append_drop]
    · cases hfield

/-- A codec of the values that `toFun` and `invFun` put in correspondence. -/
def transport (codec : Codec α) (toFun : β → α) (invFun : α → β)
    (left_inv : ∀ b, invFun (toFun b) = b)
    (right_inv : ∀ a, codec.fits a → toFun (invFun a) = a) : Codec β where
  fits b := codec.fits (toFun b)
  encode b := codec.encode (toFun b)
  decode bytes := (codec.decode bytes).map fun (a, rest) => (invFun a, rest)
  decode_encode := by
    intro b hfits rest
    rw [codec.decode_encode hfits, Option.map_some]
    simp only [left_inv]
  encode_decode := by
    intro bytes b rest h
    obtain ⟨⟨a, rest'⟩, hdecode, hpair⟩ := Option.map_eq_some_iff.mp h
    obtain ⟨rfl, rfl⟩ := Prod.mk.inj hpair
    obtain ⟨hfits, hbytes⟩ := codec.encode_decode hdecode
    rw [right_inv a hfits]
    exact ⟨hfits, hbytes⟩

def u32 : Codec UInt32 :=
  (le 4).transport UInt32.toNat UInt32.ofNat (fun _ => UInt32.ofNat_toNat)
    fun _ hfits => UInt32.toNat_ofNat_of_lt' hfits

def u64 : Codec UInt64 :=
  (le 8).transport UInt64.toNat UInt64.ofNat (fun _ => UInt64.ofNat_toNat)
    fun _ hfits => UInt64.toNat_ofNat_of_lt' hfits

/-- A boolean is the byte 0 or 1 and nothing else. -/
def bool : Codec Bool where
  fits _ := True
  encode b := [if b then 1 else 0]
  decode
    | 0 :: rest => some (false, rest)
    | 1 :: rest => some (true, rest)
    | _ => none
  decode_encode := by
    intro b _ rest
    cases b <;> rfl
  encode_decode := by
    intro bytes b rest h
    split at h
    · obtain ⟨rfl, rfl⟩ := Prod.mk.inj (Option.some.inj h)
      exact ⟨trivial, rfl⟩
    · obtain ⟨rfl, rfl⟩ := Prod.mk.inj (Option.some.inj h)
      exact ⟨trivial, rfl⟩
    · cases h

/-- The only variant of an enumeration: its tag, then its fields. -/
def variant (tag : UInt8) (codec : Codec α) : Codec α where
  fits := codec.fits
  encode a := tag :: codec.encode a
  decode
    | [] => none
    | byte :: rest => if byte = tag then codec.decode rest else none
  decode_encode := by
    intro a hfits rest
    rw [List.cons_append]
    exact (if_pos rfl).trans (codec.decode_encode hfits rest)
  encode_decode := by
    intro bytes a rest h
    cases bytes with
    | nil => cases h
    | cons byte tail =>
        simp only at h
        split at h
        · rename_i htag
          obtain ⟨hfits, rfl⟩ := codec.encode_decode h
          exact ⟨hfits, by rw [htag, List.cons_append]⟩
        · cases h

/-! ## Structures and vectors -/

/-- Two values one after the other. -/
def pair (first : Codec α) (second : Codec β) : Codec (α × β) where
  fits p := first.fits p.1 ∧ second.fits p.2
  encode p := first.encode p.1 ++ second.encode p.2
  decode bytes := do
    let (a, rest) ← first.decode bytes
    let (b, rest) ← second.decode rest
    pure ((a, b), rest)
  decode_encode := by
    rintro ⟨a, b⟩ ⟨ha, hb⟩ rest
    rw [List.append_assoc, first.decode_encode ha]
    simp only [Option.bind_eq_bind, Option.bind_some, second.decode_encode hb, Option.pure_def]
  encode_decode := by
    intro bytes p rest h
    simp only [Option.bind_eq_bind, Option.bind_eq_some_iff, Option.pure_def] at h
    obtain ⟨⟨a, mid⟩, ha, ⟨b, rest'⟩, hb, hpair⟩ := h
    obtain ⟨rfl, rfl⟩ := Prod.mk.inj (Option.some.inj hpair)
    obtain ⟨hfitsA, rfl⟩ := first.encode_decode ha
    obtain ⟨hfitsB, rfl⟩ := second.encode_decode hb
    exact ⟨⟨hfitsA, hfitsB⟩, (List.append_assoc ..).symm⟩

/-- The elements of a list, without its length. -/
def encodeAll (codec : Codec α) (xs : List α) : Bytes := xs.flatMap codec.encode

/-- `count` elements in a row. -/
def decodeMany (codec : Codec α) : ℕ → Bytes → Option (List α × Bytes)
  | 0, bytes => some ([], bytes)
  | count + 1, bytes => do
      let (a, rest) ← codec.decode bytes
      let (as, rest) ← decodeMany codec count rest
      pure (a :: as, rest)

theorem decodeMany_encodeAll (codec : Codec α) {xs : List α} (hfits : ∀ x ∈ xs, codec.fits x)
    (rest : Bytes) :
    codec.decodeMany xs.length (codec.encodeAll xs ++ rest) = some (xs, rest) := by
  induction xs with
  | nil => rfl
  | cons x xs ih =>
      rw [encodeAll, List.flatMap_cons, List.append_assoc, List.length_cons, decodeMany,
        codec.decode_encode (hfits x (by simp))]
      simp only [Option.bind_eq_bind, Option.bind_some]
      rw [← encodeAll, ih fun y hy => hfits y (by simp [hy])]
      rfl

theorem encodeAll_decodeMany (codec : Codec α) {count : ℕ} {bytes rest : Bytes} {xs : List α}
    (h : codec.decodeMany count bytes = some (xs, rest)) :
    xs.length = count ∧ (∀ x ∈ xs, codec.fits x) ∧ bytes = codec.encodeAll xs ++ rest := by
  induction count generalizing bytes xs with
  | zero =>
      obtain ⟨rfl, rfl⟩ := Prod.mk.inj (Option.some.inj h)
      exact ⟨rfl, by simp, rfl⟩
  | succ count ih =>
      simp only [decodeMany, Option.bind_eq_bind, Option.bind_eq_some_iff, Option.pure_def] at h
      obtain ⟨⟨a, mid⟩, ha, ⟨as, rest'⟩, has, hpair⟩ := h
      obtain ⟨rfl, rfl⟩ := Prod.mk.inj (Option.some.inj hpair)
      obtain ⟨hfits, rfl⟩ := codec.encode_decode ha
      obtain ⟨hlength, hall, rfl⟩ := ih has
      refine ⟨by rw [List.length_cons, hlength], ?_, ?_⟩
      · intro x hx
        rcases List.mem_cons.mp hx with rfl | hx
        · exact hfits
        · exact hall x hx
      · rw [encodeAll, encodeAll, List.flatMap_cons, List.append_assoc]

/-- A vector: its length as a `u32`, then its elements. -/
def vec (codec : Codec α) : Codec (List α) where
  fits xs := xs.length < 256 ^ 4 ∧ ∀ x ∈ xs, codec.fits x
  encode xs := leBytes 4 xs.length ++ codec.encodeAll xs
  decode bytes := do
    let (count, rest) ← (le 4).decode bytes
    codec.decodeMany count rest
  decode_encode := by
    intro xs hfits rest
    have hlength : (le 4).decode (leBytes 4 xs.length ++ (codec.encodeAll xs ++ rest)) =
        some (xs.length, codec.encodeAll xs ++ rest) := (le 4).decode_encode hfits.1 _
    rw [List.append_assoc, hlength]
    exact codec.decodeMany_encodeAll hfits.2 rest
  encode_decode := by
    intro bytes xs rest h
    simp only [Option.bind_eq_bind, Option.bind_eq_some_iff] at h
    obtain ⟨⟨count, tail⟩, hcount, hmany⟩ := h
    obtain ⟨hlt, rfl⟩ := (le 4).encode_decode hcount
    obtain ⟨rfl, hall, rfl⟩ := codec.encodeAll_decodeMany hmany
    exact ⟨⟨hlt, hall⟩, (List.append_assoc ..).symm⟩

end Codec

end Borsh
