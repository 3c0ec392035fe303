/-!
# Memory blocks

A block of bytes whose offsets wrap around its size, as they do when an address bus is wider than
the chip behind it. So every offset can be read and written.

## Main definitions

* `Block` — the block
* `Block.read`, `Block.write` — one byte
* `Block.load` — an image that replaces the start of a block

## Main results

* `Block.read_write` — a byte that was written is read at all offsets that wrap to the same place,
  and no other byte changes
* `Block.byteAt_load` — the bytes of a block that an image was loaded into
-/

namespace Famicom

/-- A number of zeros. -/
def zeroBytes (n : Nat) : ByteArray :=
  ⟨Array.replicate n 0⟩

@[simp] theorem size_zeroBytes (n : Nat) : (zeroBytes n).size = n :=
  Array.size_replicate

/-- The byte at an offset, zero behind the end. -/
@[inline] def byteAt (bytes : ByteArray) (offset : Nat) : UInt8 :=
  if h : offset < bytes.size then bytes.get offset h else 0

theorem byteAt_of_lt {bytes : ByteArray} {offset : Nat} (h : offset < bytes.size) :
    byteAt bytes offset = bytes.get offset h :=
  dif_pos h

theorem byteAt_of_le {bytes : ByteArray} {offset : Nat} (h : bytes.size ≤ offset) :
    byteAt bytes offset = 0 :=
  dif_neg (Nat.not_lt.mpr h)

theorem byteAt_zeroBytes (n offset : Nat) : byteAt (zeroBytes n) offset = 0 := by
  by_cases inside : offset < (zeroBytes n).size
  · rw [byteAt_of_lt inside]
    exact Array.getElem_replicate ..
  · exact byteAt_of_le (Nat.not_lt.mp inside)

theorem byteAt_append (a b : ByteArray) (offset : Nat) :
    byteAt (a ++ b) offset =
      if offset < a.size then byteAt a offset else byteAt b (offset - a.size) := by
  split
  · rename_i first
    have inside : offset < (a ++ b).size := by
      rw [ByteArray.size_append]
      omega
    rw [byteAt_of_lt inside, byteAt_of_lt first]
    exact ByteArray.getElem_append_left first
  · rename_i behind
    by_cases second : offset - a.size < b.size
    · have inside : offset < (a ++ b).size := by
        rw [ByteArray.size_append]
        omega
      rw [byteAt_of_lt inside, byteAt_of_lt second]
      exact ByteArray.getElem_append_right (Nat.not_lt.mp behind)
    · rw [byteAt_of_le (by rw [ByteArray.size_append]; omega), byteAt_of_le (Nat.not_lt.mp second)]

theorem byteAt_extract (bytes : ByteArray) (start stop offset : Nat) :
    byteAt (bytes.extract start stop) offset =
      if offset < stop - start then byteAt bytes (start + offset) else 0 := by
  by_cases inside : offset < (bytes.extract start stop).size
  · have room := inside
    rw [ByteArray.size_extract] at room
    rw [byteAt_of_lt inside, if_pos (by omega), byteAt_of_lt (by omega)]
    exact ByteArray.getElem_extract inside
  · -- Behind the end of the part there may be more of the whole, but then not before `stop`.
    have beyond := inside
    rw [ByteArray.size_extract] at beyond
    rw [byteAt_of_le (Nat.not_lt.mp inside)]
    split
    · rw [byteAt_of_le (by omega)]
    · rfl

/-- A block of at least one byte. -/
structure Block where
  bytes : ByteArray
  nonempty : 0 < bytes.size

namespace Block

/-- The number of bytes. -/
def size (b : Block) : Nat :=
  b.bytes.size

/-- A block of zeros. -/
def zeros (size : Nat) (h : 0 < size) : Block :=
  ⟨zeroBytes size, Nat.lt_of_lt_of_eq h (size_zeroBytes size).symm⟩

/-- The byte at an offset. -/
@[inline] def read (b : Block) (offset : Nat) : UInt8 :=
  b.bytes.get (offset % b.bytes.size) (Nat.mod_lt _ b.nonempty)

/-- Replacing a byte keeps the number of bytes. -/
theorem size_set (bytes : ByteArray) (i : Nat) (byte : UInt8) (h : i < bytes.size) :
    (bytes.set i byte h).size = bytes.size :=
  Array.size_set h

/-- Replaces the byte at an offset. -/
@[inline] def write (b : Block) (offset : Nat) (byte : UInt8) : Block :=
  ⟨b.bytes.set (offset % b.bytes.size) byte (Nat.mod_lt _ b.nonempty),
    (size_set ..).symm ▸ b.nonempty⟩

theorem read_eq_byteAt (b : Block) (offset : Nat) :
    b.read offset = byteAt b.bytes (offset % b.size) :=
  (byteAt_of_lt (Nat.mod_lt _ b.nonempty)).symm

/-- Replaces the start of a block by an image, of which only as much is used as there is room
for. -/
def load (b : Block) (image : ByteArray) : Block :=
  ⟨image.extract 0 b.bytes.size ++ b.bytes.extract (min image.size b.bytes.size) b.bytes.size, by
    have := b.nonempty
    simp only [ByteArray.size_append, ByteArray.size_extract]
    omega⟩

@[simp] theorem size_zeros (size : Nat) (h : 0 < size) : (zeros size h).size = size :=
  size_zeroBytes size

@[simp] theorem size_write (b : Block) (offset : Nat) (byte : UInt8) :
    (b.write offset byte).size = b.size :=
  size_set ..

@[simp] theorem size_load (b : Block) (image : ByteArray) : (b.load image).size = b.size := by
  simp only [Block.size, load, ByteArray.size_append, ByteArray.size_extract]
  omega

/-- The bytes after one was replaced. -/
theorem get_set (bytes : ByteArray) (i j : Nat) (byte : UInt8) (hi : i < bytes.size)
    (hj : j < (bytes.set i byte hi).size) :
    (bytes.set i byte hi).get j hj =
      if i = j then byte else bytes.get j (size_set bytes i byte hi ▸ hj) :=
  Array.getElem_set hi hj

/-- Equal offsets have equal bytes. -/
theorem get_congr (bytes : ByteArray) {i j : Nat} (hi : i < bytes.size) (hj : j < bytes.size)
    (h : i = j) : bytes.get i hi = bytes.get j hj := by
  subst h
  rfl

/-- A written byte is read back at every offset that wraps to the same place, and nowhere else. -/
theorem read_write (b : Block) (offset other : Nat) (byte : UInt8) :
    (b.write offset byte).read other =
      if offset % b.size = other % b.size then byte else b.read other := by
  have h : (b.write offset byte).bytes.size = b.bytes.size := size_set ..
  exact (get_congr _ _ (Nat.lt_of_lt_of_eq (Nat.mod_lt _ b.nonempty) h.symm)
    (congrArg (other % ·) h)).trans (get_set ..)

/-! ### Images -/

theorem ext_bytes {a b : Block} (same : a.bytes = b.bytes) : a = b := by
  cases a
  cases b
  cases same
  rfl

/-- Behind the end of an image a block stays as it is. -/
theorem byteAt_load (b : Block) (image : ByteArray) {place : Nat} (inside : place < b.size) :
    byteAt (b.load image).bytes place =
      if place < image.size then byteAt image place else byteAt b.bytes place := by
  unfold size at inside
  simp only [load, byteAt_append, byteAt_extract, ByteArray.size_extract]
  by_cases first : place < image.size
  · rw [if_pos (by omega), if_pos (by omega), if_pos first, Nat.zero_add]
  · rw [if_neg (by omega), if_pos (by omega), if_neg first]
    congr 1
    omega

/-- An image of the right size replaces a block. -/
theorem load_of_size_eq {b image : Block} (same : image.size = b.size) :
    b.load image.bytes = image := by
  apply ext_bytes
  unfold size at same
  simp only [load, same, Nat.min_self, ByteArray.extract_same, ByteArray.append_empty]
  rw [← same, ByteArray.extract_zero_size]

@[simp] theorem load_empty (b : Block) : b.load .empty = b := by
  apply ext_bytes
  have nothing (stop : Nat) : ByteArray.empty.extract 0 stop = .empty :=
    ByteArray.extract_eq_empty_iff.mpr (Nat.min_le_right ..)
  simp only [load, nothing, ByteArray.size_empty, Nat.zero_min, ByteArray.empty_append,
    ByteArray.extract_zero_size]

/-- A block of zeros reads as an image that is put there and is followed by zeros. -/
theorem read_load_zeros {size : Nat} (some_bytes : 0 < size) (image : ByteArray) {place : Nat}
    (inside : place < size) :
    ((zeros size some_bytes).load image).read place = byteAt image place := by
  have fits : place < (zeros size some_bytes).size := (size_zeros size some_bytes).symm ▸ inside
  rw [read_eq_byteAt, size_load, Nat.mod_eq_of_lt fits, byteAt_load _ image fits]
  split
  · rfl
  · rename_i behind
    rw [byteAt_of_le (Nat.not_lt.mp behind)]
    exact byteAt_zeroBytes size place

end Block

end Famicom
