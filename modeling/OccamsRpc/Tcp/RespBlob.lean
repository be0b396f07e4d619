import OccamsRpc.Stream.Blob
import OccamsRpc.Tcp.RespBuf
/-!
# The blob a finished task shows

A task that `read_resp` completed with `set_ok` shows the server's blob if the response
had one: the whole field was reserved and read into. A response without a blob does not
touch the field, so that the task shows what the field held before.
-/

namespace OccamsRpc

open Async (Keeps)
open HasRespBlob (resp_blob)

/-- The blob that is sent. -/
def EncodedResp.blob (r : EncodedResp) : Bytes :=
  match r.outcome with
  | .ok (_, blob) => blob.getD []
  | .error _ => []

namespace Receiver

variable {S T : Type}

/-! ## Which part of a call finishes the task -/

/-- The code completes no task if it goes on, and none with `set_ok` if it does not. -/
def Quiet {ε α : Type} (x : Async (Receiver S T) ε α) : Prop := ∀ r,
  match x r with
  | (.ready (.ok _), r') => r'.completed = r.completed
  | (_, r') => ∀ t, r'.completed ≠ r.completed ++ [.done t]

theorem Quiet.of_keeps {ε α : Type} {x : Async (Receiver S T) ε α} (h : Keeps Receiver.completed x) :
    Quiet x := by
  intro r
  have hr := h r
  rcases hx : x r with ⟨(e | a) | _, r'⟩ <;> rw [hx] at hr <;> simp only at hr ⊢
  · simp [hr]
  · exact hr
  · simp [hr]

/-- A task that was finished was finished by what comes after. -/
theorem Quiet.bind_done {ε α β : Type} {x : Async (Receiver S T) ε α} (hx : Quiet x)
    {f : α → Async (Receiver S T) ε β} {r : Receiver S T} {t : T}
    (h : ((x >>= f) r).2.completed = r.completed ++ [.done t]) :
    ∃ a r', x r = (.ready (.ok a), r') ∧ (f a r').2.completed = r'.completed ++ [.done t] := by
  have hq := hx r
  change (Async.bind x f r).2.completed = _ at h
  rcases hr : x r with ⟨(e | a) | _, r'⟩ <;> simp only [Async.bind, hr] at h hq
  · exact absurd h (hq t)
  · exact ⟨a, r', rfl, by rw [hq, h]⟩
  · exact absurd h (hq t)

theorem not_done_of_error_handle {r : Receiver S T} {task t : T} :
    r.completed ++ [.error_handle task] ≠ r.completed ++ [.done t] := by
  simp

variable [AsyncRead S] {C : Type} [ClientTaskCommon T] [ClientTask C T]

omit [ClientTaskCommon T] in
theorem read_completed (r : Receiver S T) (len : Nat) :
    (r.withStream (AsyncRead.read_exact len r.client.stream).2).completed = r.completed := rfl

variable (C) in
theorem read_for_quiet (task : T) (len : Nat) :
    Quiet (read_for C task len : Async (Receiver S T) _ _) := by
  intro r
  have h := read_exact_keeps read_completed len r
  rcases hr : read_exact len r with ⟨(e | bs) | _, r'⟩ <;> rw [hr] at h <;> simp only [read_for, hr]
  · intro t
    rw [← h]
    exact not_done_of_error_handle
  · exact h
  · intro t
    rw [show r'.completed = r.completed from h]
    simp

theorem recv_msg_quiet (hd : RespHead) (task : T) :
    Quiet (recv_msg C hd task : Async (Receiver S T) _ _) := by
  unfold recv_msg
  split
  · exact read_for_quiet C task _
  · exact .of_keeps (.pure _)

/-- An error response does not finish its task with `set_ok`. -/
theorem recv_error_not_done (codec : C) (hd : RespHead) (task t : T) (r : Receiver S T) :
    (_recv_error codec hd task r).2.completed ≠ r.completed ++ [.done t] := by
  intro h
  unfold _recv_error at h
  split at h
  · exact not_done_of_error_handle h
  split at h
  · have hbuf :
        Keeps Receiver.completed
          (get_resp_buf (as_usize hd.blob_len) : Async (Receiver S T) _ _) := by
      intro r
      unfold get_resp_buf
      split <;> rfl
    obtain ⟨-, r₁, -, h₁⟩ := (Quiet.of_keeps hbuf).bind_done h
    obtain ⟨buf, r₂, -, h₂⟩ := (read_for_quiet C task _).bind_done h₁
    cases hp : parse_int_err buf <;> simp only [hp] at h₂ <;> exact not_done_of_error_handle h₂
  · exact absurd h (by simp [Async.fail])

/-- A call that finished a task with `set_ok` read a header, and the body did it. -/
theorem read_resp_done {codec : C} {close_ch : Option Bool} {r : Receiver S T} {t : T}
    (h : (read_resp codec close_ch r).2.completed = r.completed ++ [.done t]) :
    ∃ buf r₁ hd, read_head close_ch r = (.ready (.ok (some buf)), r₁) ∧
      RespHead.decode_head buf = .ok hd ∧
      (_recv_resp_body codec hd r₁).2.completed = r₁.completed ++ [.done t] := by
  have hhead : Keeps Receiver.completed (read_head close_ch : Async (Receiver S T) _ _) :=
    read_head_keeps read_completed close_ch
  obtain ⟨o, r₁, hr₁, h₁⟩ := (Quiet.of_keeps (hhead.mapErr _)).bind_done h
  have hr : read_head close_ch r = (.ready (.ok o), r₁) := by
    rcases hr : read_head close_ch r with ⟨(e | o') | _, r'⟩ <;>
      simp only [Async.mapErr, hr] at hr₁ <;> cases hr₁
    rfl
  cases o with
  | none => exact absurd h₁ (by simp [pure])
  | some buf =>
    rcases hdec : RespHead.decode_head buf with e | hd <;> simp only [hdec] at h₁
    · exact absurd h₁ (by simp [Async.fail])
    · refine ⟨buf, r₁, hd, hr, hdec, ?_⟩
      have hr₁' : r₁.completed = r.completed := by
        have h := hhead r
        rwa [hr] at h
      rw [← read_resp_state hr hdec, h, hr₁']

/-! ## What the task is finished with -/

section
variable {avail : S → Bytes} {r r' : Receiver S T}

omit [ClientTaskCommon T] in
theorem read_head_conserves (h : Conserves S avail) {close_ch : Option Bool} {buf : Bytes}
    (hr : read_head close_ch r = (.ready (.ok (some buf)), r')) :
    buf.length = RPC_RESP_HEADER_LEN ∧
      r.client.stream.avail avail = buf ++ r'.client.stream.avail avail := by
  cases close_ch with
  | some fires =>
    rcases he : AsyncRead.read_exact RPC_RESP_HEADER_LEN r.client.stream with ⟨(e | bs) | _, s⟩ <;>
      simp only [read_head, he] at hr
    · cases hr
    · cases hr
      exact (AsyncBufStream.conserves h).read_exact he
    · cases fires <;> cases hr
  | none =>
    rcases he : read_exact RPC_RESP_HEADER_LEN r with ⟨(e | bs) | _, r₁⟩ <;>
      simp only [read_head, he] at hr <;> cases hr
    exact read_exact_conserves h he

/-- The bytes that are read are those that come next. -/
theorem read_for_next (h : Conserves S avail) {task : T} {len : Nat} {bs next rest : Bytes}
    (hr : read_for C task len r = (.ready (.ok bs), r')) (hlen : next.length = len)
    (hav : r.client.stream.avail avail = next ++ rest) :
    bs = next ∧ r'.client.stream.avail avail = rest := by
  rcases he : read_exact len r with ⟨(e | bs') | _, r₁⟩ <;> simp only [read_for, he] at hr <;>
    cases hr
  obtain ⟨hbs, hav'⟩ := read_exact_conserves h he
  exact List.append_inj (hav'.symm.trans hav) (hbs.trans hlen.symm)

theorem recv_msg_next (h : Conserves S avail) {hd : RespHead} {task : T} {buf msg rest : Bytes}
    (hr : recv_msg C hd task r = (.ready (.ok buf), r')) (hlen : msg.length = hd.msg_len.toNat)
    (hav : r.client.stream.avail avail = msg ++ rest) : r'.client.stream.avail avail = rest := by
  unfold recv_msg at hr
  split at hr
  · exact (read_for_next h hr hlen hav).2
  · rename_i hpos
    cases hr
    have hzero : hd.msg_len.toNat = 0 := by
      rw [gt_iff_lt, UInt32.lt_iff_toNat_lt] at hpos
      exact Nat.eq_zero_of_not_pos hpos
    rw [hav, List.eq_nil_of_length_eq_zero (hlen.trans hzero), List.nil_append]

variable [HasRespBlob T] {api : VecApi} {io : BufferApi}

omit [AsyncRead S] in
/-- Decoding the message and setting the result leave the blob. -/
theorem recv_ok_end_done (hfield : BlobField api io C T) {codec : C} {hd : RespHead} {task t : T}
    {buf : Bytes} (h : (recv_ok_end codec hd task buf r).2.completed = r.completed ++ [.done t]) :
    resp_blob t = resp_blob task := by
  have hset : ∀ task', (done (ClientTask.set_ok C task') r).2.completed = r.completed ++ [.done t] →
      resp_blob t = resp_blob task' := by
    intro task' h
    have ht : ClientTask.set_ok C task' = t := by simpa [done] using h
    rw [← ht, hfield.set_ok]
  unfold recv_ok_end at h
  split at h
  · have hdec := hfield.decode codec task buf
    rcases hd : ClientTask.decode_resp codec task buf with ⟨_ | _, task'⟩ <;>
      simp only [hd] at h hdec
    · exact absurd h not_done_of_error_handle
    · exact (hset task' h).trans hdec
  · exact hset task h

/-- A success that finished its task. -/
theorem recv_ok_done (h : Conserves S avail) (hfield : BlobField api io C T) {codec : C}
    {hd : RespHead} {task t : T} {msg blob rest : Bytes} (hm : msg.length ≤ u32_MAX)
    (hd_msg : hd.msg_len = .ofNat msg.length) (hb : blob.length ≤ i32_MAX)
    (hd_blob : hd.blob_len = .ofNat blob.length)
    (hav : r.client.stream.avail avail = msg ++ (blob ++ rest))
    (hdone : (recv_ok codec hd task r).2.completed = r.completed ++ [.done t]) :
    (resp_blob t).bytes = some blob ↔ (resp_blob task).Suits api io blob := by
  obtain ⟨buf, r₁, hr₁, h₁⟩ := (recv_msg_quiet hd task).bind_done hdone
  have hav₁ := recv_msg_next h hr₁ (by rw [hd_msg, toNat_ofNat_u32 hm]) hav
  have hsign : hd.blob_len > 0 ↔ blob ≠ [] := by rw [hd_blob, ofNat_length_pos hb]
  by_cases hnil : blob = []
  · -- without a blob the field is not touched
    rw [if_neg fun hpos => hsign.1 hpos hnil] at h₁
    rw [recv_ok_end_done hfield h₁, RespBlob.Suits, if_pos hnil, hnil]
  have hpos := hsign.2 hnil
  rw [if_pos hpos] at h₁
  have hslice := RespBlob.slice_reserve api io (resp_blob task) hpos
  rw [RespBlob.Suits, if_neg hnil, ← hd_blob]
  rw [← hfield.reserve] at hslice ⊢
  rcases hres : ClientTask.reserve_resp_blob C task hd.blob_len with ⟨task', _ | len⟩ <;>
    simp only [hres] at h₁ hslice ⊢
  · -- the field gives no space: the task fails
    have hdump := recv_and_dump_keeps (T := T) read_completed (as_usize hd.blob_len)
      (error_handle (ClientTask.set_rpc_error C task' .Decode) r₁).2
    exact absurd (hdump.symm.trans h₁) not_done_of_error_handle
  obtain ⟨bs, r₂, hr₂, h₂⟩ := (read_for_quiet C task' len).bind_done h₁
  rw [recv_ok_end_done hfield h₂, hfield.fill]
  rcases hslice with hcor | ⟨slice, hbytes, hlen, hsize⟩
  · simp [hcor, RespBlob.fill, RespBlob.bytes]
  · rw [hd_blob, as_usize_ofNat hb] at hsize
    obtain ⟨rfl, -⟩ := read_for_next h hr₂ hsize.symm hav₁
    have hcor : resp_blob task' ≠ .corrupted := fun hc => by simp [hc, RespBlob.bytes] at hbytes
    exact iff_of_true (RespBlob.bytes_fill hbytes (by rw [hlen, hsize])) hcor

end

end Receiver

section
variable {C T C' T' : Type} [ClientTaskCommon T] [ClientTask C T] [HasRespBlob T]
  [ServerTaskEncode C' T'] {api : VecApi}
  {io : BufferApi}

/-- A task that is finished with `set_ok` shows exactly the server's blob iff its field suited
the response when that came. -/
theorem blob_shown_iff (hfield : BlobField api io C T) (srv_codec : C')
    (buf : EncodeBuf RPC_RESP_HEADER_LEN) (srv_task : T')
    (hrep : (ServerTaskEncode.encode_resp srv_codec srv_task).Reports) (codec : C)
    (close_ch : Option Bool) (r : Receiver Sock T) (rest : Bytes)
    (hav : r.client.stream.avail Sock.inbound = RespHead.frame srv_codec buf srv_task ++ rest)
    (task t : T) (tm : ClientTaskTimer T)
    (ht : r.timer.take_task (ServerTaskEncode.encode_resp srv_codec srv_task).seq.toNat =
      (.ready (some task), tm))
    (hdone : (Receiver.read_resp codec close_ch r).2.completed = r.completed ++ [.done t]) :
    (resp_blob t).bytes = some (ServerTaskEncode.encode_resp srv_codec srv_task).blob ↔
      (resp_blob task).Suits api io (ServerTaskEncode.encode_resp srv_codec srv_task).blob := by
  have hframe := RespHead.frame_eq srv_codec buf srv_task
  simp only at hframe
  rw [hframe] at hav
  generalize ServerTaskEncode.encode_resp srv_codec srv_task = resp at *
  obtain ⟨head, r₁, hd, hh, hdec, hbody⟩ := Receiver.read_resp_done hdone
  obtain ⟨hlen, hav₁⟩ := Receiver.read_head_conserves Sock.conserves hh
  have htm : r₁.timer = r.timer := by
    have h := Receiver.read_head_keeps (f := Receiver.timer) (fun _ _ => rfl) close_ch r
    rwa [hh] at h
  -- the header that was read is the one the server wrote
  have hsame : ∀ (hd' : RespHead) (body : Bytes), RespHead.decode_head hd'.as_bytes = .ok hd' →
      r.client.stream.avail Sock.inbound = hd'.as_bytes ++ body → hd = hd' ∧
      r₁.client.stream.avail Sock.inbound = body := by
    intro hd' body hdec' hav'
    obtain ⟨rfl, hbody⟩ :=
      List.append_inj (hav₁.symm.trans hav') (hlen.trans (RespHead.length_as_bytes hd').symm)
    exact ⟨Except.ok.inj (hdec.symm.trans hdec'), hbody⟩
  unfold EncodedResp.Reports at hrep
  unfold EncodedResp.blob
  rcases ho :
    resp.outcome with e | ⟨msg_len, blob⟩ <;> simp only [ho, List.append_assoc] at hrep hav ⊢
  · obtain ⟨rfl, -⟩ := hsame _ _ (RespHead.decode_head_errHead resp.seq e) hav
    have ht' :
        r₁.timer.take_task (RespHead.errHead resp.seq e).seq.toNat = (.ready (some task), tm) := by
      rw [htm]
      cases e <;> exact ht
    rw [Receiver.recv_resp_body_taken ht', Receiver.recv_body_for,
      if_pos (RespHead.errHead_flag resp.seq e)] at hbody
    exact absurd hbody (Receiver.recv_error_not_done codec _ task t _)
  · obtain ⟨hm, hb⟩ := EncodedResp.outcome_le ho
    obtain ⟨rfl, hav₂⟩ := hsame _ _ (RespHead.decode_head_filled ..) hav
    rw [Receiver.recv_resp_body_taken (by rw [htm]; exact ht), Receiver.recv_body_for,
      if_neg (by simp [RespHead.filled])] at hbody
    subst hrep
    exact Receiver.recv_ok_done (r := r₁.atBody _ tm) Sock.conserves hfield hm rfl hb rfl hav₂ hbody

end

abbrev SampleBlobTask :=
  BlobTask .exact .zeroed (UInt8 × Option UInt8) (UInt8 × Option UInt8) String

def blobTask (b : RespBlob) : SampleBlobTask := ⟨1, .Str "T.m", (7, some 9), none, none, b, none⟩

def blobReceiver {T : Type} [ClientTaskCommon T] (task : T) (inbound : Bytes) : Receiver Sock T :=
  ⟨⟨.new (sampleSock inbound) 8, [], [], 0, 0⟩, (ClientTaskTimer.new 5).reg_task task, [], .plenty⟩

/-- The task was completed by `done`, not by `error_handle`. -/
def Completion.is_done {T : Type} : Completion T → Bool
  | .done _ => true
  | .error_handle _ => false

theorem eq_done_of_is_done {T : Type} {completed : List (Completion T)}
    (h : completed.map Completion.is_done = [true]) : ∃ t, completed = [.done t] := by
  rcases completed with _ | ⟨t | t, _ | ⟨c, rest⟩⟩ <;> simp [Completion.is_done] at h ⊢

def pooledTask (b : RespBlob) : FailoverTask SampleBlobTask := ⟨0, 0, blobTask b, 0, false⟩

/-- The sample's blob in a pool's task, whose field is an `Option<Buffer>` without a buffer. -/
theorem blob_shown_sample :
    let r :=
      blobReceiver (pooledTask (.OptionBuffer none)) (RespHead.frame () sampleRespBuf sampleResp)
    ∃ t, (Receiver.read_resp () none r).2.completed = [.done t] ∧
      (resp_blob t).bytes = some [1, 2, 3] := by
  intro r
  have hrep : (ServerTaskEncode.encode_resp () sampleResp).Reports := rfl
  have hfield : BlobField .exact .zeroed Unit (FailoverTask SampleBlobTask) :=
    FailoverTask.blobField BlobTask.blobField
  have hav :
      r.client.stream.avail Sock.inbound = RespHead.frame () sampleRespBuf sampleResp ++ [] := rfl
  have ht : r.timer.take_task (ServerTaskEncode.encode_resp () sampleResp).seq.toNat =
      (.ready (some (pooledTask (.OptionBuffer none))), (r.timer.take_task 1).2) := rfl
  obtain ⟨t, hdone⟩ := eq_done_of_is_done
    (show (Receiver.read_resp () none r).2.completed.map Completion.is_done = [true] by decide +kernel)
  have hiff := blob_shown_iff hfield () sampleRespBuf sampleResp hrep () none r [] hav _ t _ ht hdone
  have hblob : (ServerTaskEncode.encode_resp () sampleResp).blob = [1, 2, 3] := rfl
  have hne : ([1, 2, 3] : Bytes) ≠ [] := by decide
  rw [hblob, RespBlob.Suits, if_neg hne] at hiff
  exact ⟨t, hdone, hiff.2 (by rintro ⟨⟩)⟩

/-- A response without a blob, for a task with a buffer of the user's, and for a task that a
pool tries again after the blob of its first response was cut off. -/
theorem stale_blob_shown :
    let resp := { sampleResp with resp_blob := none }
    let first := pooledTask (.OptionVec none)
    (ServerTaskEncode.encode_resp () resp).blob = [] ∧
      (∃ t, (Receiver.read_resp () none (blobReceiver (blobTask (.Vec ⟨[1, 2, 3], []⟩))
        (RespHead.frame () sampleRespBuf resp))).2.completed = [.done t] ∧
          (resp_blob t).bytes = some [1, 2, 3]) ∧
      ∃ again t, (Receiver.read_resp () none (blobReceiver first
          (RespHead.frame () sampleRespBuf sampleResp).dropLast)).2.completed =
            [.error_handle again] ∧
        again.should_retry = true ∧
        (Receiver.read_resp () none
          (blobReceiver again (RespHead.frame () sampleRespBuf resp))).2.completed = [.done t] ∧
        (resp_blob t).bytes.map List.length = some 3 :=
  ⟨rfl, ⟨_, rfl, rfl⟩, _, _, rfl, rfl, rfl, rfl⟩

end OccamsRpc
