import OccamsRpc.Core.NumErr
import OccamsRpc.Tcp.Halves
import OccamsRpc.Tcp.RespExtent
/-!
# The size of the response buffer

`_recv_resp_body` resizes the response buffer to `msg_len` first, and looks at the
flag afterwards; of an error number, `msg_len` is the number. Nothing else in the
call resizes the buffer, but for the text of an error.
-/

namespace OccamsRpc

open Async (Keeps)

/-- What follows the header for the response buffer: the message of a success, the
text of an error. A number has no body. -/
def EncodedResp.bodyLen (r : EncodedResp) : Nat :=
  match r.outcome with
  | .ok (msg_len, _) => msg_len
  | .error e => (e.text.getD []).length

/-- A number is answered as it is. -/
theorem EncodedResp.outcome_num {r : EncodedResp} {n : UInt32} :
    r.outcome = .error (.Num n) ↔ r.result = .error (.Num n) := by
  unfold EncodedResp.outcome
  rcases r.result with e | ⟨msg_len, blob⟩
  · exact Iff.rfl
  · dsimp only
    split <;> simp

theorem as_usize_ofNat_le {k : Nat} (h : 0 ≤ Int32.ofNat k) : as_usize (.ofNat k) ≤ k := by
  have hint := (as_usize_of_nonneg h).1
  have hle := (as_usize_of_nonneg h).2
  rw [Int32.toInt_ofNat', Int32.size, Int.bmod_def] at hint
  unfold i32_MAX at hle
  split at hint <;> omega

namespace Receiver

variable {S T C : Type} [AsyncRead S]

/-- The lengths `resp_buf` was resized to so far. -/
def resizes {S T : Type} (r : Receiver S T) : List Nat := r.client.resized

-- reading and completing a task do not resize the buffer
theorem read_resizes (r : Receiver S T) (len : Nat) :
    (r.withStream (AsyncRead.read_exact len r.client.stream).2).resizes = r.resizes := rfl

omit [AsyncRead S] in
theorem completed_resizes (r : Receiver S T) (c : List (Completion T)) :
    { r with completed := c }.resizes = r.resizes := rfl

variable [ClientTaskCommon T] [ClientTask C T]

/-- An error: the buffer is resized for its text, to a length that is not negative. -/
theorem recv_error_resizes (codec : C) (hd : RespHead) (task : T) (r : Receiver S T) :
    ∃ more, (_recv_error codec hd task r).2.resizes = r.resizes ++ more ∧
      ∀ len ∈ more, hd.flag = RESP_FLAG_HAS_ERR_STRING ∧ 0 ≤ hd.blob_len ∧
      len = as_usize hd.blob_len := by
  have hnone :
      ∀ r' : Receiver S T, r'.resizes = r.resizes → ∃ more, r'.resizes = r.resizes ++ more ∧
      ∀ len ∈ more, hd.flag = RESP_FLAG_HAS_ERR_STRING ∧ 0 ≤ hd.blob_len ∧
      len = as_usize hd.blob_len :=
    fun r' h => ⟨[], by rw [h, List.append_nil], List.forall_mem_nil _⟩
  unfold _recv_error
  split
  · exact hnone _ rfl
  split
  · rename_i hflag
    by_cases hpos : 0 ≤ hd.blob_len
    · have hbuf := get_resp_buf_ok r (Nat.le_trans (as_usize_of_nonneg hpos).2 (by decide))
      rw [Async.bind_ok hbuf]
      refine ⟨[as_usize hd.blob_len], ?_, by simpa using ⟨hflag, hpos⟩⟩
      refine (read_for_keeps read_resizes completed_resizes task _).bind (fun buf => ?_) _
      split <;> exact fun _ => rfl
    · -- a negative length is refused
      refine hnone _ ?_
      simp [bind, Async.bind, get_resp_buf, as_usize_of_neg hpos]
  · exact hnone _ rfl

/-- The body: the buffer is resized to `msg_len`, and then for the text of an error. -/
theorem recv_resp_body_resizes (codec : C) (hd : RespHead) (r : Receiver S T) :
    ∃ more, (_recv_resp_body codec hd r).2.resizes = r.resizes ++ hd.msg_len.toNat :: more ∧
      ∀ len ∈ more, hd.flag = RESP_FLAG_HAS_ERR_STRING ∧ 0 ≤ hd.blob_len ∧
      len = as_usize hd.blob_len := by
  rcases ht : r.timer.take_task hd.seq.toNat with ⟨found | _, tm⟩
  · have hone : (r.atBody hd tm).resizes = r.resizes ++ [hd.msg_len.toNat] := rfl
    rw [recv_resp_body_taken ht]
    rcases found with _ | task
    · exact ⟨[], (recv_unknown_keeps read_resizes hd _).trans hone, List.forall_mem_nil _⟩
    rw [recv_body_for]
    split
    · obtain ⟨more, hmore, hlen⟩ := recv_error_resizes codec hd task (r.atBody hd tm)
      exact ⟨more, by rw [hmore, hone, List.append_assoc]; rfl, hlen⟩
    · exact ⟨[], (recv_ok_keeps read_resizes completed_resizes codec hd task _).trans hone,
        List.forall_mem_nil _⟩
  · -- the call is left waiting for the task, with the buffer resized
    refine ⟨[], ?_, List.forall_mem_nil _⟩
    have hbuf := get_resp_buf_ok r (Nat.le_trans (Nat.le_of_lt hd.msg_len.toNat_lt) (by decide))
    rw [_recv_resp_body, Async.bind_ok hbuf]
    simp [bind, Async.bind, take_task, ht]
    rfl

/-- Every length the call resizes `resp_buf` to is at most `n`. -/
def ResizesWithin (codec : C) (close_ch : Option Bool) (r : Receiver S T) (n : Nat) : Prop :=
  ∃ lens, (read_resp codec close_ch r).2.resizes = r.resizes ++ lens ∧ ∀ len ∈ lens, len ≤ n

/-- The header decides: `msg_len` is within `n`, and so is the length of a text. -/
theorem resizesWithin_iff (codec : C) {close_ch : Option Bool} {r r₁ : Receiver S T} {buf : Bytes}
    {hd : RespHead} (hh : read_head close_ch r = (.ready (.ok (some buf)), r₁))
    (hdec : RespHead.decode_head buf = .ok hd) {n : Nat}
    (htext : hd.flag = RESP_FLAG_HAS_ERR_STRING → 0 ≤ hd.blob_len → as_usize hd.blob_len ≤ n) :
    ResizesWithin codec close_ch r n ↔ hd.msg_len.toNat ≤ n := by
  have hr₁ : r₁.resizes = r.resizes := by
    have h := read_head_keeps read_resizes close_ch r
    rwa [hh] at h
  obtain ⟨more, hmore, hlen⟩ := recv_resp_body_resizes codec hd r₁
  rw [← read_resp_state hh hdec, hr₁] at hmore
  constructor
  · rintro ⟨lens, hlens, hall⟩
    obtain rfl : hd.msg_len.toNat :: more = lens := List.append_cancel_left (hmore.symm.trans hlens)
    exact hall _ List.mem_cons_self
  · intro hle
    refine ⟨_, hmore, List.forall_mem_cons.2 ⟨hle, fun len hmem => ?_⟩⟩
    obtain ⟨hflag, hpos, rfl⟩ := hlen len hmem
    exact htext hflag hpos

/-- The header that was read is that of a response: the buffer is resized within the
response's body iff the response is not an error number other than 0. -/
theorem resizes_within_body_iff {C' T' : Type} [ServerTaskEncode C' T'] (srv_codec : C')
    (buf : EncodeBuf RPC_RESP_HEADER_LEN) (srv_task : T') (codec : C) (close_ch : Option Bool)
    (r r₁ : Receiver S T) (hh : read_head close_ch r =
      (.ready (.ok (some ((RespHead.frame srv_codec buf srv_task).take RPC_RESP_HEADER_LEN))), r₁)) :
    ResizesWithin codec close_ch r (ServerTaskEncode.encode_resp srv_codec srv_task).bodyLen ↔
      ∀ n, (ServerTaskEncode.encode_resp srv_codec srv_task).result = .error (.Num n) → n = 0 := by
  have hframe := RespHead.frame_eq srv_codec buf srv_task
  simp only at hframe
  rw [hframe] at hh
  generalize ServerTaskEncode.encode_resp srv_codec srv_task = resp at *
  simp only [← EncodedResp.outcome_num]
  unfold EncodedResp.bodyLen
  rcases ho : resp.outcome with e | ⟨msg_len, blob⟩ <;>
    simp only [ho, List.append_assoc, List.take_left' (RespHead.length_as_bytes _)] at hh ⊢
  · cases e with
    | Num n =>
      rw [resizesWithin_iff codec hh (RespHead.decode_head_errHead resp.seq _)
        (fun h => absurd (show RESP_FLAG_HAS_ERRNO = RESP_FLAG_HAS_ERR_STRING from h) (by decide))]
      constructor
      · rintro hle m ⟨⟩
        exact UInt32.toNat_inj.1 (Nat.le_zero.1 hle)
      · intro h
        rw [h n rfl]
        exact Nat.le_refl 0
    | _ =>
      rw [resizesWithin_iff codec hh (RespHead.decode_head_errHead resp.seq _) (fun _ => as_usize_ofNat_le)]
      exact ⟨fun _ _ h => (by cases h), fun _ => Nat.zero_le _⟩
  · rw [resizesWithin_iff codec hh (RespHead.decode_head_filled ..)
      (fun h => absurd (show 0 = RESP_FLAG_HAS_ERR_STRING from h) (by decide))]
    exact ⟨fun _ _ h => (by cases h), fun _ => Nat.le_of_eq (toNat_ofNat_u32 (EncodedResp.outcome_le ho).1)⟩

end Receiver

/-- The sample's message is all the buffer is resized to. -/
theorem Receiver.resizes_within_body_sample : Receiver.ResizesWithin () none sampleReceiver 3 := by
  let frame := RespHead.frame () sampleRespBuf sampleResp
  have hav : sampleReceiver.client.stream.avail Sock.inbound =
      frame.take RPC_RESP_HEADER_LEN ++ (frame.drop RPC_RESP_HEADER_LEN ++ [0xaa]) := rfl
  obtain ⟨s, hh, -⟩ := Receiver.read_head_ok Sock.delivers sampleReceiver_live (by decide) hav none
  exact (Receiver.resizes_within_body_iff () sampleRespBuf sampleResp () none _ _ hh).2 fun n h => by cases h

/-- The code -1 of an `i32` error, for a task in the channel: 20 bytes, and the buffer
is resized to 4294967295. -/
theorem Receiver.errno_resizes :
    let _ : RpcErrCodec Unit Int32 := .i32 Unit 0x5F3A10
    let srv_task :
      ServerTaskVariantFull (UInt8 × Option UInt8) Int32 := ⟨1, none, none, .error (-1)⟩
    let task : DerivedTask (UInt8 × Option UInt8) (UInt8 × Option UInt8) Int32 :=
      ⟨1, .Str "T.m", (7, some 9), none, none, false, none, none⟩
    let r : Receiver Sock (DerivedTask (UInt8 × Option UInt8) (UInt8 × Option UInt8) Int32) :=
      ⟨⟨.new (sampleSock (RespHead.frame () sampleRespBuf srv_task)) 8, [], [], 0, 0⟩,
        (ClientTaskTimer.new 5).reg_task task, [], .plenty⟩
    (RespHead.frame () sampleRespBuf srv_task).length = RPC_RESP_HEADER_LEN ∧
      (ServerTaskEncode.encode_resp () srv_task).bodyLen = 0 ∧
      (Receiver.read_resp () none r).2.resizes = [0xFFFFFFFF] ∧
      ¬ Receiver.ResizesWithin () none r (ServerTaskEncode.encode_resp () srv_task).bodyLen := by
  intro _ srv_task task r
  have hlens : (Receiver.read_resp () none r).2.resizes = [0xFFFFFFFF] := by decide +kernel
  refine ⟨by decide +kernel, rfl, hlens, ?_⟩
  rintro ⟨lens, heq, hall⟩
  obtain rfl : [0xFFFFFFFF] = lens := hlens.symm.trans heq
  exact absurd (hall 0xFFFFFFFF List.mem_cons_self) (by decide)

end OccamsRpc
