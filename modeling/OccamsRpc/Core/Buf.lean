import OccamsRpc.Core.Error
/-!
# The reused encode buffer

Requests and responses are encoded into a `Vec<u8>` that is kept between
messages. `set_len` is the unsafe one: it exposes whatever the allocation holds,
so the bytes behind the length are part of the model.
-/

namespace OccamsRpc

/-- A `Vec<u8>` with at least `n` bytes of capacity: what it holds up to its
length, and what the allocation holds behind it. -/
structure EncodeBuf (n : Nat) where
  data : Bytes
  spare : Bytes
  room : n ≤ data.length + spare.length

namespace EncodeBuf

variable {n : Nat}

/-- `Vec::with_capacity(n)`; the fresh allocation holds arbitrary bytes. -/
def with_capacity (garbage : Bytes) (h : n ≤ garbage.length) : EncodeBuf n :=
  ⟨[], garbage, by simpa using h⟩

/-- `unsafe { buf.set_len(n) }` -/
def set_len (b : EncodeBuf n) : EncodeBuf n where
  data := (b.data ++ b.spare).take n
  spare := (b.data ++ b.spare).drop n
  room := by
    have := b.room
    simp only [List.length_take, List.length_drop, List.length_append]
    omega

/-- `buf.write_all(bs)` -/
def write_all (b : EncodeBuf n) (bs : Bytes) : EncodeBuf n where
  data := b.data ++ bs
  spare := b.spare.drop bs.length
  room := by have := b.room; simp only [List.length_append, List.length_drop]; omega

/-- A write through `&mut buf[0..hd.len()]`. -/
def fill_head (b : EncodeBuf n) (hd : Bytes) : EncodeBuf n where
  data := hd ++ b.data.drop hd.length
  spare := b.spare
  room := by have := b.room; simp only [List.length_append, List.length_drop]; omega

@[simp] theorem length_set_len (b : EncodeBuf n) : b.set_len.data.length = n := by
  have := b.room
  simp only [set_len, List.length_take, List.length_append]
  omega

@[simp] theorem data_write_all (b : EncodeBuf n) (bs : Bytes) :
    (b.write_all bs).data = b.data ++ bs := rfl

theorem write_all_nil (b : EncodeBuf n) : b.write_all [] = b := by
  simp [write_all]

@[simp] theorem write_all_write_all (b : EncodeBuf n) (as bs : Bytes) :
    (b.write_all as).write_all bs = b.write_all (as ++ bs) := by
  simp [write_all]

/-- Nothing of the previous content survives: the room left for the header is
overwritten, and all that was appended follows it. -/
theorem data_fill_head (b : EncodeBuf n) (bs hd : Bytes) (h : hd.length = n) :
    ((b.set_len.write_all bs).fill_head hd).data = hd ++ bs := by
  simp only [fill_head, data_write_all, h]
  rw [List.drop_left' (length_set_len b)]

end EncodeBuf

/-- What memory gives for a positive size: the length of the buffer, if it could be
allocated. -/
abbrev BufferAlloc := Int32 → Option Nat

/-- Memory is there, and a buffer has the length asked for. -/
def BufferAlloc.Fits (alloc : BufferAlloc) : Prop := ∀ n > 0, alloc n = some (as_usize n)

/-- How a call of `Buffer::alloc` ends. -/
inductive Allocated
  | buf (len : Nat)
  | err
  | panicked
  deriving DecidableEq

/-- `Buffer::alloc` of the io_buffer crate, which asserts that the size is positive. -/
def BufferAlloc.alloc (memory : BufferAlloc) (size : Int32) : Allocated :=
  if size > 0 then
    match memory size with
    | some len => .buf len
    | none => .err
  else .panicked

theorem BufferAlloc.Fits.alloc {memory : BufferAlloc} (h : memory.Fits) {size : Int32}
    (hpos : size > 0) :
    memory.alloc size = .buf (as_usize size) := by
  simp only [BufferAlloc.alloc, if_pos hpos, h size hpos]

theorem BufferAlloc.alloc_panicked_iff (memory : BufferAlloc) (size : Int32) :
    memory.alloc size = .panicked ↔ ¬ size > 0 := by
  by_cases hpos : size > 0
  · cases hm : memory size <;> simp [BufferAlloc.alloc, hpos, hm]
  · simp [BufferAlloc.alloc, hpos]

end OccamsRpc
