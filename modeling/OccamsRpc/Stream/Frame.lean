import OccamsRpc.Stream.Proto
/-!
# What the encoders leave in the buffer

`ReqHead.encode` and `RespHead.encode` patch the header in after the body, and
a response may change its mind: an oversize message or blob, or an `encode_resp`
that fails, is answered with an error text appended to the same buffer. Here the
bytes of a frame are computed, and it is decided when they are a single frame.
-/

namespace OccamsRpc

/-! ## Requests -/

namespace ReqHead

theorem data_encode_ping (buf : EncodeBuf RPC_REQ_HEADER_LEN) (client_id seq : UInt64) :
    (encode_ping buf client_id seq).data = (filled client_id PING_ACTION seq 0 0).as_bytes := by
  have h := buf.data_fill_head [] (filled client_id PING_ACTION seq 0 0).as_bytes (by simp)
  simpa [encode_ping, _write_head, EncodeBuf.write_all_nil] using h

variable {C T : Type} [ClientTaskCommon T] [ClientTask C T]

/-- A request that encodes: its sizes are in range, and the buffer holds exactly
header, action and message, whatever it held before. -/
theorem encode_ok {codec : C} {buf buf' : EncodeBuf RPC_REQ_HEADER_LEN} {client_id : UInt64}
    {task : T} {blob : Option Bytes} (h : encode codec buf client_id task = (buf', .ok blob)) :
    ∃ msg_len, (ClientTask.encode_req codec task).2 = some msg_len ∧ msg_len ≤ u32_MAX ∧
      blob = ClientTask.get_req_blob C task ∧ (blob.getD []).length ≤ i32_MAX ∧
      buf'.data =
      (filled client_id (action_flag (ClientTask.get_action C task)).1 (ClientTaskCommon.seq task)
          (.ofNat msg_len) (.ofNat (blob.getD []).length)).as_bytes ++
        (action_flag (ClientTask.get_action C task)).2 ++ (ClientTask.encode_req codec task).1 := by
  rcases hr : ClientTask.encode_req codec task with ⟨msg, r⟩
  simp only [encode, hr] at h
  cases r with
  | none => simp at h
  | some msg_len =>
    simp only at h
    split at h
    · simp at h
    split at h
    · simp at h
    rename_i hm hb
    simp only [Prod.mk.injEq, Except.ok.injEq] at h
    obtain ⟨rfl, rfl⟩ := h
    refine ⟨msg_len, rfl, by omega, rfl, by omega, ?_⟩
    rw [_write_head, EncodeBuf.write_all_write_all, List.append_assoc]
    exact buf.data_fill_head _ _ (by simp)

/-- A request whose sizes are in range encodes. -/
theorem encode_of_fits {codec : C} {task : T} {msg_len : Nat} (buf : EncodeBuf RPC_REQ_HEADER_LEN)
    (client_id : UInt64) (hr : (ClientTask.encode_req codec task).2 = some msg_len)
    (hm : msg_len ≤ u32_MAX) (hb : ((ClientTask.get_req_blob C task).getD []).length ≤ i32_MAX) :
    ∃ buf', encode codec buf client_id task = (buf', .ok (ClientTask.get_req_blob C task)) := by
  rcases he : ClientTask.encode_req codec task with ⟨msg, r⟩
  rw [he] at hr
  cases hr
  exact ⟨_, by simp only [encode, he, if_neg (Nat.not_lt.2 hm), if_neg (Nat.not_lt.2 hb)]; rfl⟩

end ReqHead

/-! ## Responses -/

/-- The text an error is sent as; a number goes into the header instead. -/
def EncodedErr.text : EncodedErr → Option Bytes
  | .Num _ => none
  | .Rpc e => some e.as_bytes
  | .Buf b => some b
  | .Static s => some (strBytes s)

/-- What is answered: a message or blob whose length does not fit its field is
answered with an encode error. -/
def EncodedResp.outcome (r : EncodedResp) : Except EncodedErr (Nat × Option Bytes) :=
  match r.result with
  | .ok (msg_len, blob) =>
    if msg_len ≤ u32_MAX ∧ (blob.getD []).length ≤ i32_MAX
      then .ok (msg_len, blob) else .error (.Rpc .Encode)
  | .error e => .error e

/-- What is answered as a success fits the header. -/
theorem EncodedResp.outcome_le {r : EncodedResp} {msg_len : Nat} {blob : Option Bytes}
    (h : r.outcome = .ok (msg_len, blob)) :
    msg_len ≤ u32_MAX ∧ (blob.getD []).length ≤ i32_MAX := by
  unfold EncodedResp.outcome at h
  split at h
  · split at h
    · cases h
      assumption
    · cases h
  · cases h

namespace RespHead

/-- The header of an error response. -/
def errHead (seq : UInt64) : EncodedErr → RespHead
  | .Num n => filled RESP_FLAG_HAS_ERRNO seq n 0
  | e => filled RESP_FLAG_HAS_ERR_STRING seq 0 (.ofNat (e.text.getD []).length)

/-- An error is a number, without a body, or a text of the length in the header. -/
theorem errHead_cases (seq : UInt64) (e : EncodedErr) :
    ((errHead seq e).flag = RESP_FLAG_HAS_ERRNO ∧ e.text.getD [] = []) ∨
    ((errHead seq e).flag = RESP_FLAG_HAS_ERR_STRING ∧
      (errHead seq e).blob_len = .ofNat (e.text.getD []).length) := by
  cases e with
  | Num n => exact .inl ⟨rfl, rfl⟩
  | _ => exact .inr ⟨rfl, rfl⟩

theorem errHead_flag (seq : UInt64) (e : EncodedErr) : (errHead seq e).flag > 0 := by
  rcases errHead_cases seq e with ⟨h, -⟩ | ⟨h, -⟩ <;> rw [h] <;> decide

theorem decode_head_errHead (seq : UInt64) (e : EncodedErr) :
    decode_head (errHead seq e).as_bytes = .ok (errHead seq e) := by
  cases e <;> exact decode_head_filled ..

theorem data_encode_error (buf : EncodeBuf RPC_RESP_HEADER_LEN) (bs : Bytes) (seq : UInt64)
    (e : EncodedErr) :
    (_encode_error (buf.set_len.write_all bs) seq e).data =
      (errHead seq e).as_bytes ++ bs ++ e.text.getD [] := by
  have hh : ∀ hd : RespHead, ((buf.set_len.write_all bs).fill_head hd.as_bytes).data =
      hd.as_bytes ++ bs :=
    fun hd => buf.data_fill_head bs hd.as_bytes (by simp)
  cases e <;> simp [_encode_error, write_err, _write_head, hh, errHead, EncodedErr.text]

variable {C T : Type} [ServerTaskEncode C T]

/-- The bytes of a response as the transport writes them: buffer, then blob. -/
def frame (codec : C) (buf : EncodeBuf RPC_RESP_HEADER_LEN) (task : T) : Bytes :=
  let (buf, _, blob) := encode codec buf task
  buf.data ++ blob.getD []

/-- The bytes of a response depend on what was appended, and on the outcome. -/
theorem frame_eq (codec : C) (buf : EncodeBuf RPC_RESP_HEADER_LEN) (task : T) :
    let r := ServerTaskEncode.encode_resp codec task
    frame codec buf task = match r.outcome with
      | .ok (msg_len, blob) =>
        (filled 0 r.seq (.ofNat msg_len) (.ofNat (blob.getD []).length)).as_bytes ++ r.appended ++
          blob.getD []
      | .error e => (errHead r.seq e).as_bytes ++ r.appended ++ e.text.getD [] := by
  rcases hr : ServerTaskEncode.encode_resp codec task with ⟨seq, bs, res⟩
  have hh : ∀ hd : RespHead, ((buf.set_len.write_all bs).fill_head hd.as_bytes).data =
      hd.as_bytes ++ bs :=
    fun hd => buf.data_fill_head bs hd.as_bytes (by simp)
  have he := data_encode_error buf bs seq
  rcases res with e | ⟨msg_len, _ | blob⟩
  · simp [frame, encode, hr, he, EncodedResp.outcome]
  · by_cases hm : msg_len > u32_MAX
    · simp [frame, encode, hr, he, hm, EncodedResp.outcome, Nat.not_le.2 hm]
    · simp [frame, encode, hr, hh, hm, EncodedResp.outcome, Nat.not_lt.1 hm, _write_head]
  · by_cases hm : msg_len > u32_MAX
    · simp [frame, encode, hr, he, hm, EncodedResp.outcome, Nat.not_le.2 hm]
    by_cases hb : blob.length > i32_MAX
    · simp [frame, encode, hr, he, hm, hb, EncodedResp.outcome, Nat.not_le.2 hb]
    · simp [frame, encode, hr, hh, hm, hb, EncodedResp.outcome, Nat.not_lt.1 hm, Nat.not_lt.1 hb, _write_head]

/-! ## Self-delimiting responses -/

/-- `bs` is exactly one response frame: a header, and the body it announces.
`text` is the error string the response carries, if any. -/
def IsFrame (text : Option Bytes) (bs : Bytes) : Prop :=
  ∃ h : RespHead, decode_head (bs.take RPC_RESP_HEADER_LEN) = .ok h ∧
    let body := bs.drop RPC_RESP_HEADER_LEN
    (h.flag = 0 ∧ (body.length : Int) = h.msg_len.toNat + h.blob_len.toInt ∨
      h.flag = RESP_FLAG_HAS_ERRNO ∧ body = [] ∨
      h.flag = RESP_FLAG_HAS_ERR_STRING ∧ (body.length : Int) = h.blob_len.toInt ∧ text = some body)

theorem isFrame_filled (text : Option Bytes) (flag : UInt8) (seq : UInt64) (msg_len : UInt32)
    (blob_len : Int32) (body : Bytes) :
    IsFrame text ((filled flag seq msg_len blob_len).as_bytes ++ body) ↔
      (flag = 0 ∧ (body.length : Int) = msg_len.toNat + blob_len.toInt ∨
        flag = RESP_FLAG_HAS_ERRNO ∧ body = [] ∨
        flag = RESP_FLAG_HAS_ERR_STRING ∧ (body.length : Int) = blob_len.toInt ∧
        text = some body) := by
  have hl := length_as_bytes (filled flag seq msg_len blob_len)
  unfold IsFrame
  rw [List.take_left' hl, List.drop_left' hl, decode_head_filled]
  constructor
  · rintro ⟨h, heq, hb⟩
    cases heq
    exact hb
  · intro hb
    exact ⟨_, rfl, hb⟩

theorem isFrame_ok (seq : UInt64) {msg_len : Nat} (hm : msg_len ≤ u32_MAX) {blob : Bytes}
    (hb : blob.length ≤ i32_MAX) (appended : Bytes) :
    IsFrame none ((filled 0 seq (.ofNat msg_len) (.ofNat blob.length)).as_bytes ++ (appended ++ blob)) ↔
      appended.length = msg_len := by
  rw [isFrame_filled, toNat_ofNat_u32 hm, toInt_ofNat_i32.2 hb, List.length_append]
  constructor
  · rintro (⟨-, h⟩ | ⟨h, -⟩ | ⟨h, -⟩)
    · omega
    · exact absurd h (by decide)
    · exact absurd h (by decide)
  · intro h
    exact .inl ⟨rfl, by omega⟩

theorem isFrame_err (seq : UInt64) (e : EncodedErr) (appended : Bytes) :
    IsFrame e.text ((errHead seq e).as_bytes ++ (appended ++ e.text.getD [])) ↔
      appended = [] ∧ (e.text.getD []).length ≤ i32_MAX := by
  have htext : ∀ s : Bytes, IsFrame (some s)
      ((filled RESP_FLAG_HAS_ERR_STRING seq 0 (.ofNat s.length)).as_bytes ++ (appended ++ s)) ↔
        appended = [] ∧ s.length ≤ i32_MAX := by
    intro s
    rw [isFrame_filled]
    constructor
    · rintro (⟨h, -⟩ | ⟨h, -⟩ | ⟨-, hl, h⟩)
      · exact absurd h (by decide)
      · exact absurd h (by decide)
      · have happ : appended = [] := by simpa using h
        subst happ
        exact ⟨rfl, toInt_ofNat_i32.1 hl.symm⟩
    · rintro ⟨rfl, hl⟩
      exact .inr (.inr ⟨rfl, (toInt_ofNat_i32.2 hl).symm, rfl⟩)
  cases e with
  | Num n =>
    simp only [errHead, EncodedErr.text, isFrame_filled, Option.getD_none, List.append_nil, List.length_nil]
    constructor
    · rintro (⟨h, -⟩ | ⟨-, h⟩ | ⟨h, -⟩)
      · exact absurd h (by decide)
      · exact ⟨h, by decide⟩
      · exact absurd h (by decide)
    · rintro ⟨h, -⟩
      exact .inr (.inl ⟨trivial, h⟩)
  | Rpc e => exact htext _
  | Static s => exact htext _
  | Buf b => exact htext _

/-- The error text a response carries, if it carries one. -/
def errorText (r : EncodedResp) : Option Bytes :=
  match r.outcome with
  | .ok _ => none
  | .error e => e.text

/-- `encode_resp` kept its part: the length it returned is what it appended, and
when an error is answered it had appended nothing (and the text fits). -/
def Clean (r : EncodedResp) : Prop :=
  match r.outcome with
  | .ok (msg_len, _) => r.appended.length = msg_len
  | .error e => r.appended = [] ∧ (e.text.getD []).length ≤ i32_MAX

/-- The response is exactly one frame iff nothing was left in the buffer by an
encoding that was then given up. -/
theorem isFrame_frame_iff (codec : C) (buf : EncodeBuf RPC_RESP_HEADER_LEN) (task : T) :
    IsFrame (errorText (ServerTaskEncode.encode_resp codec task)) (frame codec buf task) ↔
      Clean (ServerTaskEncode.encode_resp codec task) := by
  have hf := frame_eq codec buf task
  simp only at hf
  rw [hf]
  generalize ServerTaskEncode.encode_resp codec task = r
  unfold errorText Clean
  rcases ho : r.outcome with e | ⟨msg_len, blob⟩
  · simp only [List.append_assoc]
    exact isFrame_err r.seq e r.appended
  · have hfit := EncodedResp.outcome_le ho
    simp only [List.append_assoc]
    exact isFrame_ok r.seq hfit.1 hfit.2 r.appended

/-- Pairs as MessagePack writes them; a missing second element refuses to be
serialised, after the array header and the first element were written. -/
instance partialPair : Serde Unit (UInt8 × Option UInt8) where
  encode
    | _, (a, some b) => some [0x92, a, b]
    | _, (_, none) => none
  encode_into
    | _, (a, some b) => ([0x92, a, b], some 3)
    | _, (a, none) => ([0x92, a], none)
  decode
    | _, [0x92, a, b] => some (a, some b)
    | _, _ => none

/-- A message whose encoding fails half-way is answered with a header that
announces 10 bytes, and 12 bytes. -/
theorem frame_of_partial_encode :
    let task : ServerTaskVariant (UInt8 × Option UInt8) String := ⟨1, (7, none), none, .ok ()⟩
    let buf : EncodeBuf RPC_RESP_HEADER_LEN := .with_capacity (List.replicate 32 0) (by decide)
    frame () buf task = (errHead 1 (.Rpc .Encode)).as_bytes ++ [0x92, 7] ++ strBytes "rpc_encode" ∧
      ¬ IsFrame (errorText (ServerTaskEncode.encode_resp () task)) (frame () buf task) := by
  intro task buf
  have hf : frame () buf task =
      (errHead 1 (.Rpc .Encode)).as_bytes ++ ([0x92, 7] ++ strBytes "rpc_encode") := by
    rw [← List.append_assoc]
    exact frame_eq () buf task
  refine ⟨by rw [hf, List.append_assoc], ?_⟩
  rw [hf]
  exact fun h => absurd ((isFrame_err 1 (.Rpc .Encode) [0x92, 7]).1 h).1 (by decide)

end RespHead

end OccamsRpc
