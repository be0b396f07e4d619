import OccamsRpc.Client.Failover
import OccamsRpc.Stream.Reserve
/-!
# The field a response blob is kept in

A task may keep its response blob in any type with an `AllocateBuf`. The framework
asks for space in the field when the response has a blob, and reads the blob into the
slice it gets; what the field holds otherwise is what the user, or an attempt that
failed before, left in it.
-/

namespace OccamsRpc

/-- What io_buffer says of `Buffer::alloc`, which may fail. It asserts a positive size; no
blob is reserved for another. -/
structure BufferApi where
  alloc : Int32 → Option ByteVec
  alloc_len : ∀ size b, 0 < size → alloc size = some b → b.len = as_usize size

/-- Buffers full of zeros, and no failure. -/
def BufferApi.zeroed : BufferApi where
  alloc size := some ⟨List.replicate (as_usize size) 0, []⟩
  alloc_len size b _ h := by
    cases h
    exact List.length_replicate

namespace AllocateBuf

/-- `reserve` of an `Option<Buffer>` -/
def reserve_option_buffer (io : BufferApi) (self : Option ByteVec) (blob_len : Int32) :
    Except Misuse (Option Bytes × Option ByteVec) :=
  match self with
  | some buf => do
    let (slice, buf) ← reserve_buffer buf blob_len
    pure (slice, some buf)
  | none =>
    match io.alloc blob_len with
    | some v => pure (some v.data, some v)
    | none => pure (none, none)

theorem reserve_option_buffer_slice {io : BufferApi} {o o' : Option ByteVec} {blob_len : Int32}
    (hpos : 0 < blob_len) {slice : Bytes}
    (h : reserve_option_buffer io o blob_len = .ok (some slice, o')) :
    ∃ b, o' = some b ∧ slice = b.data ∧ slice.length = as_usize blob_len := by
  cases o with
  | none =>
    rcases ha : io.alloc blob_len with _ | b <;> simp only [reserve_option_buffer, ha] at h <;>
      cases h
    exact ⟨b, rfl, rfl, io.alloc_len blob_len b hpos ha⟩
  | some b =>
    rcases hb : reserve_buffer b blob_len with e | ⟨r, b'⟩ <;>
      simp only [reserve_option_buffer, hb] at h <;> cases h
    exact ⟨b', rfl, reserve_buffer_slice hb⟩

end AllocateBuf

/-- A field of one of the types that have an `AllocateBuf`. -/
inductive RespBlob
  | Vec (v : ByteVec)
  | OptionVec (o : Option ByteVec)
  | Buffer (b : ByteVec)
  | OptionBuffer (o : Option ByteVec)
  /-- Whatever it was, its length was set beyond its capacity. -/
  | corrupted

namespace RespBlob

/-- What the user finds in the field; `None` is as empty as no bytes. -/
def bytes : RespBlob → Option Bytes
  | .Vec v | .Buffer v => some v.data
  | .OptionVec o | .OptionBuffer o => some (o.elim [] ByteVec.data)
  | .corrupted => none

/-- The field, and the length of the slice that is read into. -/
def reserved {α : Type} (mk : α → RespBlob) (size : Int32) :
    Except Misuse (Option Bytes × α) → RespBlob × Option Nat
  | .ok (slice, a) => (mk a, slice.map List.length)
  | .error _ => (.corrupted, some (as_usize size))

/-- Each type of the field reserves in its own way. After undefined behaviour there is
nothing to say, so the slice has the length that was asked for. -/
def reserve (api : VecApi) (io : BufferApi) (self : RespBlob) (size : Int32) :
    RespBlob × Option Nat :=
  match self with
  | .Vec v => reserved .Vec size (AllocateBuf.reserve_vec api v size)
  | .OptionVec o => reserved .OptionVec size (AllocateBuf.reserve_option_vec api o size)
  | .Buffer b => reserved .Buffer size (AllocateBuf.reserve_buffer b size)
  | .OptionBuffer o => reserved .OptionBuffer size (AllocateBuf.reserve_option_buffer io o size)
  | .corrupted => (.corrupted, some (as_usize size))

def write (bs : Bytes) (v : ByteVec) : ByteVec := { v with data := bs ++ v.data.drop bs.length }

/-- A write to the start of the slice. -/
def fill (self : RespBlob) (bs : Bytes) : RespBlob :=
  match self with
  | .Vec v => .Vec (write bs v)
  | .OptionVec o => .OptionVec (o.map (write bs))
  | .Buffer b => .Buffer (write bs b)
  | .OptionBuffer o => .OptionBuffer (o.map (write bs))
  | .corrupted => .corrupted

/-! ## A field that was reserved and filled -/

theorem write_data {bs : Bytes} {v : ByteVec} (h : bs.length = v.data.length) :
    (write bs v).data = bs := by
  rw [write, h, List.drop_length, List.append_nil]

/-- The whole slice was written. -/
theorem bytes_fill {b : RespBlob} {slice bs : Bytes} (hb : b.bytes = some slice)
    (hlen : bs.length = slice.length) :
    (b.fill bs).bytes = some bs := by
  have hopt : ∀ o : Option ByteVec, some (o.elim [] ByteVec.data) = some slice →
      some ((o.map (write bs)).elim [] ByteVec.data) = some bs := by
    rintro (_ | v) ⟨⟩
    · rw [List.eq_nil_of_length_eq_zero hlen]
      rfl
    · exact congrArg some (write_data hlen)
  cases b with
  | Vec v | Buffer v =>
    cases hb
    exact congrArg some (write_data hlen)
  | OptionVec o | OptionBuffer o => exact hopt o hb
  | corrupted => cases hb

/-- What `reserve` gives: nothing, or a slice of the length asked for that is all the field
holds. -/
def Slice (size : Int32) : RespBlob × Option Nat → Prop
  | (_, none) => True
  | (b, some len) =>
    b = .corrupted ∨ ∃ slice, b.bytes = some slice ∧ slice.length = len ∧ len = as_usize size

theorem slice_reserved {α : Type} {mk : α → RespBlob} {size : Int32}
    {r : Except Misuse (Option Bytes × α)}
    (h : ∀ slice a, r = .ok (some slice, a) → (mk a).bytes = some slice ∧ slice.length = as_usize size) :
    Slice size (reserved mk size r) := by
  rcases r with e | ⟨_ | slice, a⟩
  · exact .inl rfl
  · trivial
  · obtain ⟨hbytes, hlen⟩ := h slice a rfl
    exact .inr ⟨slice, hbytes, rfl, hlen⟩

theorem slice_reserve (api : VecApi) (io : BufferApi) (b : RespBlob) {size : Int32}
    (hpos : 0 < size) :
    Slice size (b.reserve api io size) := by
  cases b with
  | Vec v =>
    refine slice_reserved fun slice a h => ?_
    obtain ⟨hslice, hlen⟩ := AllocateBuf.reserve_vec_slice api h
    cases hslice
    exact ⟨rfl, hlen⟩
  | OptionVec o =>
    refine slice_reserved fun slice a h => ?_
    obtain ⟨v, rfl, hslice, hlen⟩ := AllocateBuf.reserve_option_vec_slice api h
    cases hslice
    exact ⟨rfl, hlen⟩
  | Buffer b =>
    refine slice_reserved fun slice a h => ?_
    obtain ⟨rfl, hlen⟩ := AllocateBuf.reserve_buffer_slice h
    exact ⟨rfl, hlen⟩
  | OptionBuffer o =>
    refine slice_reserved fun slice a h => ?_
    obtain ⟨b, rfl, rfl, hlen⟩ := AllocateBuf.reserve_option_buffer_slice hpos h
    exact ⟨rfl, hlen⟩
  | corrupted => exact .inl rfl

/-- What the field must be like for a response with this blob: without one it is left as it
is, and for one `set_len` must be in order. -/
def Suits (api : VecApi) (io : BufferApi) (b : RespBlob) (blob : Bytes) : Prop :=
  if blob = [] then b.bytes = some [] else (b.reserve api io (.ofNat blob.length)).1 ≠ .corrupted

end RespBlob

/-! ## Tasks with such a field -/

/-- A task whose blob field can be looked at. -/
class HasRespBlob (T : Type) where
  resp_blob : T → RespBlob

open HasRespBlob (resp_blob)

/-- The field is used as `#[client_task]` uses it: it is what is reserved and filled, and
nothing else touches it. -/
structure BlobField (api : VecApi) (io : BufferApi) (C T : Type) [ClientTaskCommon T]
    [ClientTask C T] [HasRespBlob T] :
    Prop where
  reserve : ∀ (t : T) size, (resp_blob (ClientTask.reserve_resp_blob C t size).1,
    (ClientTask.reserve_resp_blob C t size).2) = (resp_blob t).reserve api io size
  fill : ∀ (t : T) bs, resp_blob (ClientTask.fill_resp_blob C t bs) = (resp_blob t).fill bs
  decode : ∀ (codec : C) (t : T) bs, resp_blob (ClientTask.decode_resp codec t bs).2 = resp_blob t
  set_ok : ∀ t : T, resp_blob (ClientTask.set_ok C t) = resp_blob t

/-- A task as `#[client_task]` derives it, with a response blob. -/
structure BlobTask (api : VecApi) (io : BufferApi) (Q P E : Type) where
  seq : UInt64
  action : RpcAction
  req : Q
  req_blob : Option Bytes
  resp : Option P
  resp_blob : RespBlob
  res : Option (Except (RpcError E) Unit)

namespace BlobTask

variable {api : VecApi} {io : BufferApi} {C Q P E : Type}

def set_custom_error [RpcErrCodec C E] (codec : C) (t : BlobTask api io Q P E) (e : EncodedErr) :
    BlobTask api io Q P E :=
  let rpc_error : RpcError E := match e with
    | .Rpc e => .Rpc e
    | .Num n => DerivedTask.decoded_error codec (.inl n)
    | .Static s => DerivedTask.decoded_error codec (.inr (strBytes s))
    | .Buf b => DerivedTask.decoded_error codec (.inr b)
  { t with res := some (.error rpc_error) }

/-- When the message does not decode, the task is left as it was. -/
def decode_resp [Serde C P] (codec : C) (t : BlobTask api io Q P E) (buffer : Bytes) :
    Bool × BlobTask api io Q P E :=
  match (Serde.decode codec buffer : Option P) with
  | some resp => (true, { t with resp := some resp })
  | none => (false, t)

def reserve_resp_blob (t : BlobTask api io Q P E) (size : Int32) :
    BlobTask api io Q P E × Option Nat :=
  let (resp_blob, len) := t.resp_blob.reserve api io size
  ({ t with resp_blob := resp_blob }, len)

instance : ClientTaskCommon (BlobTask api io Q P E) where
  seq := seq
  set_seq t n := { t with seq := n }
  seq_set_seq _ _ := rfl

instance [Serde C Q] [Serde C P] [RpcErrCodec C E] : ClientTask C (BlobTask api io Q P E) where
  get_action := action
  encode_req codec t := Serde.encode_into codec t.req
  get_req_blob := req_blob
  decode_resp := decode_resp
  reserve_resp_blob := reserve_resp_blob
  fill_resp_blob t bs := { t with resp_blob := t.resp_blob.fill bs }
  set_custom_error := set_custom_error
  set_rpc_error t e := { t with res := some (.error (.Rpc e)) }
  set_ok t := { t with res := some (.ok ()) }

instance : HasRespBlob (BlobTask api io Q P E) := ⟨BlobTask.resp_blob⟩

theorem blobField [Serde C Q] [Serde C P] [RpcErrCodec C E] :
    BlobField api io C (BlobTask api io Q P E) where
  reserve _ _ := rfl
  fill _ _ := rfl
  decode codec t bs := by
    show HasRespBlob.resp_blob (BlobTask.decode_resp codec t bs).2 = _
    unfold BlobTask.decode_resp
    split <;> rfl
  set_ok _ := rfl

end BlobTask

instance {T : Type} [HasRespBlob T] : HasRespBlob (FailoverTask T) := ⟨fun t => resp_blob t.inner⟩

/-- A pool's task has the field of the task it carries. -/
theorem FailoverTask.blobField {api : VecApi} {io : BufferApi} {C T : Type} [ClientTaskCommon T]
    [ClientTask C T] [HasRespBlob T] (h : BlobField api io C T) :
    BlobField api io C (FailoverTask T) where
  reserve t size := h.reserve t.inner size
  fill t bs := h.fill t.inner bs
  decode codec t bs := h.decode codec t.inner bs
  set_ok t := h.set_ok t.inner

end OccamsRpc
