import OccamsRpc.Conn.Reading
import OccamsRpc.Server.Conn
/-!
# What a response says

The header and the body of each response that a connection of the server sends, and
that its seq is the one of the request it answers. The latter rests on the handlers: a
task carries the seq of its request, and whoever has the task could change it.
-/
open Lib

namespace OccamsRpc

/-! ## Header and body -/

/-- The header as the receive coroutine of the client sees it. -/
def Conn.Frame.of (h : RespHead) : Conn.Frame :=
  ⟨h.seq.toNat, h.flag.toNat, h.msg_len.toNat, h.blob_len.toInt⟩

namespace RespHead

variable {S C R : Type} [ServerTaskEncode C R]

/-- The header that `write_resp` writes for a response. -/
def ofDone (codec : C) : Done R → RespHead
  | .ok task =>
    let r := ServerTaskEncode.encode_resp codec task
    match r.outcome with
    | .ok (msg_len, blob) => filled 0 r.seq (.ofNat msg_len) (.ofNat (blob.getD []).length)
    | .error e => errHead r.seq e
  | .error (seq, none) => filled 0 seq 0 0
  | .error (seq, some e) => errHead seq (.Rpc e)

/-- What it writes after the header. -/
def bodyOfDone (codec : C) : Done R → Bytes
  | .ok task =>
    let r := ServerTaskEncode.encode_resp codec task
    match r.outcome with
    | .ok (_, blob) => r.appended ++ blob.getD []
    | .error e => r.appended ++ e.text.getD []
  | .error (_, none) => []
  | .error (_, some e) => (EncodedErr.Rpc e).text.getD []

theorem frame_done (codec : C) (c : ServerConn S) (d : Done R) :
    c.frame codec d = (ofDone codec d).as_bytes ++ bodyOfDone codec d := by
  rcases d with ⟨seq, _ | e⟩ | task
  · rw [ServerConn.frame, encode_internal, ← EncodeBuf.write_all_nil c.encode_buf.set_len]
    exact c.encode_buf.data_fill_head [] _ (by simp)
  · rw [ServerConn.frame, encode_internal, ← EncodeBuf.write_all_nil c.encode_buf.set_len, data_encode_error,
      List.append_nil]
    rfl
  · have hf := frame_eq codec c.encode_buf task
    simp only at hf
    simp only [ServerConn.frame, hf, ofDone, bodyOfDone]
    rcases (ServerTaskEncode.encode_resp codec task).outcome with e | ⟨msg_len, blob⟩ <;>
      exact List.append_assoc ..

theorem decode_head_ofDone (codec : C) (d : Done R) :
    decode_head (ofDone codec d).as_bytes = .ok (ofDone codec d) := by
  rcases d with ⟨seq, _ | e⟩ | task
  · exact decode_head_filled ..
  · exact decode_head_errHead ..
  · simp only [ofDone]
    split
    · exact decode_head_filled ..
    · exact decode_head_errHead ..

/-- The seq of a response. -/
def seqOfDone (codec : C) : Done R → UInt64
  | .ok task => (ServerTaskEncode.encode_resp codec task).seq
  | .error (seq, _) => seq

theorem errHead_seq (seq : UInt64) (e : EncodedErr) : (errHead seq e).seq = seq := by
  cases e <;> rfl

theorem ofDone_seq (codec : C) (d : Done R) : (ofDone codec d).seq = seqOfDone codec d := by
  rcases d with ⟨seq, _ | e⟩ | task
  · rfl
  · exact errHead_seq seq _
  · simp only [ofDone, seqOfDone]
    split
    · rfl
    · exact errHead_seq _ _

/-- An error text has the length its header announces. -/
theorem bodyLen_errHead (seq : UInt64) (e : EncodedErr) (h : (e.text.getD []).length ≤ i32_MAX) :
    (Conn.Frame.of (errHead seq e)).bodyLen = (e.text.getD []).length := by
  have htext (s : Bytes) (hs : s.length ≤ i32_MAX) :
      (Conn.Frame.of (filled RESP_FLAG_HAS_ERR_STRING seq 0 (.ofNat s.length))).bodyLen =
        s.length := by
    have hint := toInt_ofNat_i32.2 hs
    show (Int32.ofNat s.length).toInt.toNat = s.length
    rw [hint, Int.toNat_natCast]
  cases e with
  | Num n => rfl
  | Rpc e => exact htext _ h
  | Static s => exact htext _ h
  | Buf b => exact htext _ h

/-- `encode_resp` kept its part for a response, if it is one that a handler made. -/
def CleanDone (codec : C) : Done R → Prop
  | .ok task => Clean (ServerTaskEncode.encode_resp codec task)
  | .error _ => True

/-- Then the body of the response is as long as its header says. -/
theorem length_bodyOfDone {codec : C} {d : Done R} (hclean : CleanDone codec d) :
    (bodyOfDone codec d).length = (Conn.Frame.of (ofDone codec d)).bodyLen := by
  rcases d with ⟨seq, _ | e⟩ | task
  · rfl
  · exact (bodyLen_errHead seq (.Rpc e) (by cases e <;> decide)).symm
  · revert hclean
    simp only [ofDone, bodyOfDone, CleanDone, Clean]
    rcases ho : (ServerTaskEncode.encode_resp codec task).outcome with e | ⟨msg_len, blob⟩
    · rintro ⟨happ, htext⟩
      show ((ServerTaskEncode.encode_resp codec task).appended ++ e.text.getD []).length = _
      rw [happ, List.nil_append]
      exact (bodyLen_errHead _ e htext).symm
    · intro happ
      obtain ⟨hm, hb⟩ := EncodedResp.outcome_le ho
      have hint := toInt_ofNat_i32.2 hb
      show ((ServerTaskEncode.encode_resp codec task).appended ++ blob.getD []).length =
        (UInt32.ofNat msg_len).toNat + (Int32.ofNat (blob.getD []).length).toInt.toNat
      rw [hint, toNat_ofNat_u32 hm, Int.toNat_natCast, List.length_append, happ]

end RespHead

/-! ## Seqs -/

/-- `seq` of a server's task: it comes from the request, and goes into the response. -/
structure KeepsSeq {C T R : Type} (E : Type) [ServerTaskEncode C R] [ServerTaskDecode C T]
    [ServerTaskDone T R E] (codec : C) (seq : T → UInt64) : Prop where
  decode_req : ∀ action q msg blob task, ServerTaskDecode.decode_req codec action q msg blob =
    some task → seq task = q
  encode_resp : ∀ (task : T) (res : Except E Unit), (ServerTaskEncode.encode_resp codec
    (ServerTaskDone.into E (ServerTaskDone._set_result R task res) : R)).seq = seq task

namespace ServerReader

variable {C T R E : Type} [ServerTaskEncode C R]

/-- Every task and every response has the seq of its request. -/
structure Labelled (codec : C) (seq : T → UInt64) (s : ServerReader T R) : Prop where
  tasks : ∀ n task, s.tasks n = some task → ∃ req, s.requests[n]? = some req ∧ seq task = req.seq
  awaited : ∀ n q, s.pc = .dispatch n q → ∃ req, s.requests[n]? = some req ∧ q = req.seq
  queue : ∀ m ∈ s.noti.queue, ∃ req, s.requests[m.1]? = some req ∧
    RespHead.seqOfDone codec m.2 = req.seq

variable {codec : C} {seq : T → UInt64} {s s' : ServerReader T R}

theorem new_labelled (codec : C) (seq : T → UInt64) : (new : ServerReader T R).Labelled codec seq :=
  ⟨nofun, nofun, nofun⟩

theorem mem_queue_of_done {noti : RespNoti (Nat × Done R)} {m m' : Nat × Done R}
    (h : m' ∈ (noti.done m).queue) :
    m' ∈ noti.queue ∨ m' = m := by
  cases hrx : noti.rx <;> simp [RespNoti.done, RespNoti.send, hrx] at h
  · exact .inl h
  · exact h

/-- Another request is read. -/
theorem Labelled.more (h : s.Labelled codec seq) (req : RpcSvrReq) :
    Labelled codec seq { s with requests := s.requests ++ [req] } := by
  have hold {n : Nat} {P : RpcSvrReq → Prop} (hr : ∃ r, s.requests[n]? = some r ∧ P r) :
      ∃ r, (s.requests ++ [req])[n]? = some r ∧ P r := by
    obtain ⟨r, hr, hp⟩ := hr
    exact ⟨r, by rw [List.getElem?_append_left (List.getElem?_eq_some_iff.1 hr).1]; exact hr, hp⟩
  exact ⟨fun n task ht => hold (h.tasks n task ht), fun n q hq => hold (h.awaited n q hq),
    fun m hm => hold (h.queue m hm)⟩

theorem Labelled.quick (h : s.Labelled codec seq) {n : Nat} {q : UInt64} {req : RpcSvrReq}
    (hn : s.requests[n]? = some req) (hq : q = req.seq) (err : Option RpcIntErr) :
    (s.send_quick_resp n q err).Labelled codec seq := by
  rw [send_quick_resp_eq]
  refine ⟨h.tasks, fun m p hp => ?_, fun m hm => ?_⟩
  · exact absurd hp (not_dispatch m p)
  · rcases mem_queue_of_done hm with hm | rfl
    · exact h.queue m hm
    · exact ⟨req, hn, hq⟩

/-- Whoever has a task leaves its seq alone. -/
def Act.keepsSeq (seq : T → UInt64) (s : ServerReader T R) : Act T E → Bool
  | .work n task => (s.tasks n).all fun old => seq task == seq old
  | _ => true

theorem Labelled.step [ServerTaskDecode C T] [ServerTaskDone T R E] (h : s.Labelled codec seq)
    (hk : KeepsSeq (R := R) E codec seq) {a : Act T E} (ha : a.keepsSeq seq s = true)
    (hs : s.step codec a = some s') : s'.Labelled codec seq := by
  cases a with
  | read_req req =>
    have hlast : (s.requests ++ [req])[s.requests.length]? = some req := List.getElem?_concat_length
    have hmore := h.more req
    simp only [ServerReader.step] at hs
    split at hs
    case h_2 => cases hs
    case h_1 =>
      cases hs
      split
      · exact hmore.quick hlast rfl _
      · unfold dispatch_req
        split
        case h_1 task hdec =>
          refine ⟨fun n t ht => ?_, ?_, hmore.queue⟩
          · simp only [Function.update_apply] at ht
            split at ht
            case isTrue he =>
              cases ht
              exact ⟨req, he ▸ hlast, hk.decode_req _ _ _ _ _ hdec⟩
            case isFalse => exact hmore.tasks n t ht
          · rintro n q ⟨⟩
            exact ⟨req, hlast, rfl⟩
        case h_2 => exact hmore.quick hlast rfl _
  | read_err =>
    simp only [ServerReader.step] at hs
    split at hs <;> cases hs
    exact ⟨h.tasks, by rintro _ _ ⟨⟩, h.queue⟩
  | work n task =>
    obtain ⟨hn, ⟨⟩⟩ := Option.ite_none_right_eq_some.1 hs
    obtain ⟨old, hold⟩ := Option.isSome_iff_exists.1 hn
    refine ⟨fun m t ht => ?_, h.awaited, h.queue⟩
    simp only [Function.update_apply] at ht
    split at ht
    case isTrue he =>
      cases ht
      subst he
      simp only [Act.keepsSeq, hold, Option.all_some, beq_iff_eq] at ha
      rw [ha]
      exact h.tasks m old hold
    case isFalse => exact h.tasks m t ht
  | set_result n res =>
    simp only [ServerReader.step] at hs
    split at hs
    case h_2 => cases hs
    case h_1 task ht =>
      cases hs
      obtain ⟨req, hreq, hseq⟩ := h.tasks n task ht
      refine ⟨fun m t hm => ?_, h.awaited, fun m hm => ?_⟩
      · simp only [Function.update_apply] at hm
        split at hm
        case isTrue => cases hm
        case isFalse => exact h.tasks m t hm
      · rcases mem_queue_of_done hm with hm | rfl
        · exact h.queue m hm
        · exact ⟨req, hreq, (hk.encode_resp task res).trans hseq⟩
  | drop n =>
    obtain ⟨-, ⟨⟩⟩ := Option.ite_none_right_eq_some.1 hs
    refine ⟨fun m t hm => ?_, h.awaited, h.queue⟩
    simp only [Function.update_apply] at hm
    split at hm
    case isTrue => cases hm
    case isFalse => exact h.tasks m t hm
  | handled ok =>
    simp only [ServerReader.step] at hs
    split at hs
    case h_2 => cases hs
    case h_1 n q hpc =>
      obtain ⟨req, hreq, hq⟩ := h.awaited n q hpc
      cases ok with
      | true =>
        cases hs
        exact ⟨h.tasks, by rintro _ _ ⟨⟩, h.queue⟩
      | false =>
        cases hs
        exact Labelled.quick (s := { s with refused := s.refused ++ [n] }) ⟨h.tasks, h.awaited,
          h.queue⟩ hreq hq _
  | writer_exits =>
    obtain ⟨-, ⟨⟩⟩ := Option.ite_none_right_eq_some.1 hs
    exact ⟨h.tasks, h.awaited, h.queue⟩

end ServerReader

namespace ServedConn

variable {C T R E : Type} [ServerTaskEncode C R] [ServerTaskDecode C T] [ServerTaskDone T R E]
  {codec : C}
  {s s' : ServedConn T R} {a : Act T E}

theorem step_responses (h : s.step codec a = some s') : s.responses <+: s'.responses := by
  have hsync (server : TcpServer Sock) {b : ServerReader.Act T E} {reader : ServerReader T R}
      (hb : s.reader.step codec b = some reader) :
      s.responses <+: ((s.withServer server).sync reader).responses := by
    obtain ⟨sent, hq, -⟩ := ServerReader.step_queue hb
    simp only [responses, sync, withServer, hq, List.map_append]
    exact List.prefix_append _ _
  cases step_cases h with
  | read_ok _ hb | read_err _ hb => exact hsync _ hb
  | handler b _ hb => exact hsync s.writer.conn.server hb
  | _ => exact List.prefix_rfl

theorem labelled_step {seq : T → UInt64} (hl : s.reader.Labelled codec seq)
    (hk : KeepsSeq (R := R) E codec seq) (ha : ∀ b, a = .handler b → b.keepsSeq seq s.reader = true)
    (h : s.step codec a = some s') :
    s'.reader.Labelled codec seq := by
  cases step_cases h with
  | read_ok _ hb => exact hl.step hk rfl hb
  | read_err _ hb => exact hl.step (E := E) hk rfl hb
  | handler b _ hb => exact hl.step hk (ha b rfl) hb
  | drop_rx => exact ⟨hl.tasks, hl.awaited, hl.queue⟩
  | _ => exact hl

end ServedConn

end OccamsRpc
