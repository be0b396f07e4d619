import OccamsRpc.Tcp.ReqExtent
/-!
# A request that is read is the one that was sent

Whatever the socket does: when the bytes that have come are the first of what a client
wrote, and `read_req` returns a request, then it is the next one the client sent, and
exactly its bytes were taken.
-/

namespace OccamsRpc

/-- What is taken from the front of a stream is the front of what was written to it. -/
theorem prefix_split {bs rest part more : Bytes} (h : bs ++ rest <+: part ++ more)
    (hlen : bs.length = part.length) :
    bs = part ∧ rest <+: more := by
  obtain ⟨t, ht⟩ := h
  rw [List.append_assoc] at ht
  obtain ⟨rfl, rfl⟩ := List.append_inj ht hlen
  exact ⟨rfl, List.prefix_append _ _⟩

namespace TcpServer

variable {S : Type} [AsyncRead S] {avail : S → Bytes} {srv srv' : TcpServer S} {part more : Bytes}

/-- From `srv` to `srv'` the bytes `part` were read, of a stream that goes on with `more`. -/
structure Reads (avail : S → Bytes) (part more : Bytes) (srv srv' : TcpServer S) : Prop where
  alloc : srv'.alloc = srv.alloc
  took : srv.unread avail = part ++ srv'.unread avail
  rest : srv'.unread avail <+: more

theorem read_header_sent (h : Conserves S avail) {head : Bytes}
    (hu : srv.unread avail <+: part ++ more) (hlen : part.length = RPC_REQ_HEADER_LEN)
    (hr : read_header srv = (.ready (.ok head), srv')) :
    head = part ∧ Reads avail part more srv srv' := by
  obtain ⟨⟨halloc, bs, hbs, hav⟩, rfl⟩ := read_header_takes h hr
  have hav : srv.unread avail = bs ++ srv'.unread avail := hav
  rw [hav] at hu
  obtain ⟨rfl, hrest⟩ := prefix_split hu (hbs.trans hlen.symm)
  exact ⟨by rw [hav, ← hlen, List.take_left], halloc, hav, hrest⟩

theorem read_body_sent (h : Conserves S avail) {body : Bytes}
    (hu : srv.unread avail <+: part ++ more)
    (hr : read_body part.length srv = (.ready (.ok body), srv')) :
    body = part ∧ Reads avail part more srv srv' := by
  simp only [read_body, Async.zoom, Prod.mk.injEq] at hr
  obtain ⟨hr, rfl⟩ := hr
  have he := io_with_timeout_eq_ok (Async.mapErr_eq_ok (Prod.ext hr rfl))
  obtain ⟨hlen, hav⟩ := (AsyncBufStream.conserves h).read_exact he
  have hsplit := hu
  rw [unread, hav] at hsplit
  obtain ⟨rfl, hrest⟩ := prefix_split hsplit hlen
  exact ⟨rfl, rfl, hav, hrest⟩

theorem read_action_sent (h : Conserves S avail) {hd : ReqHead} {action action' : RpcAction}
    (hfit : action.Fits) (hd_action : hd.action = (ReqHead.action_flag action).1)
    (hu : srv.unread avail <+: (ReqHead.action_flag action).2 ++ more)
    (hr : read_action hd srv = (.ready (.ok action'), srv')) :
    action' = action ∧ Reads avail (ReqHead.action_flag action).2 more srv srv' := by
  cases action with
  | Num n =>
    simp only [read_action, ReqHead.get_action_num hfit hd_action] at hr
    cases hr
    exact ⟨rfl, rfl, rfl, hu⟩
  | Str str =>
    simp only [read_action, ReqHead.get_action_len hfit hd_action, as_usize_ofNat hfit] at hr
    obtain ⟨body, srv₁, hbody, hr⟩ := Async.bind_eq_ok hr
    obtain ⟨rfl, hreads⟩ :=
      read_body_sent h (show srv.unread avail <+: strBytes str ++ more from hu) hbody
    rw [fromUtf8_strBytes] at hr
    cases hr
    exact ⟨rfl, hreads⟩

theorem read_msg_sent (h : Conserves S avail) {hd : ReqHead} {msg msg' : Bytes}
    (hlen : msg.length ≤ u32_MAX) (hd_len : hd.msg_len = .ofNat msg.length)
    (hu : srv.unread avail <+: msg ++ more) (hr : read_msg hd srv = (.ready (.ok msg'), srv')) :
    msg' = msg ∧ Reads avail msg more srv srv' := by
  have hnat : hd.msg_len.toNat = msg.length := by rw [hd_len, toNat_ofNat_u32 hlen]
  by_cases hpos : hd.msg_len > 0
  · rw [read_msg, if_pos hpos, hnat] at hr
    exact read_body_sent h hu hr
  · have hnil : msg = [] := by
      apply List.eq_nil_of_length_eq_zero
      rw [gt_iff_lt, UInt32.lt_iff_toNat_lt, UInt32.toNat_zero] at hpos
      omega
    subst hnil
    rw [read_msg, if_neg hpos] at hr
    cases hr
    exact ⟨rfl, rfl, rfl, hu⟩

theorem read_blob_sent (h : Conserves S avail) (halloc : srv.alloc.Fits) {hd : ReqHead}
    {blob blob' : Option Bytes} (hlen : (blob.getD []).length ≤ i32_MAX)
    (hd_len : hd.blob_len = (Int32.ofNat (blob.getD []).length).toUInt32)
    (hu : srv.unread avail <+: blob.getD [] ++ more)
    (hr : read_blob hd srv = (.ready (.ok blob'), srv')) :
    (blob' = blob.filter fun b => b ≠ []) ∧ Reads avail (blob.getD []) more srv srv' := by
  have hnum : hd.blob_len.toInt32 = Int32.ofNat (blob.getD []).length := by
    rw [hd_len, Int32.toInt32_toUInt32]
  have hint := toInt_ofNat_i32.2 hlen
  by_cases hpos : Int32.ofNat (blob.getD []).length > 0
  · simp only [read_blob, hnum, if_pos hpos, halloc _ hpos, as_usize_ofNat hlen] at hr
    obtain ⟨body, srv₁, hbody, hr⟩ := Async.bind_eq_ok hr
    obtain ⟨rfl, hreads⟩ := read_body_sent h hu hbody
    cases hr
    cases blob with
    | none => exact absurd hpos (by decide)
    | some b =>
      have hne : b ≠ [] := by
        rintro rfl
        exact absurd hpos (by decide)
      exact ⟨by simp [Option.filter, hne], hreads⟩
  · have hnil : blob.getD [] = [] := by
      apply List.eq_nil_of_length_eq_zero
      rw [gt_iff_lt, Int32.lt_iff_toInt_lt, hint, Int32.toInt_zero] at hpos
      omega
    simp only [read_blob, hnum, if_neg hpos] at hr
    cases hr
    rw [hnil] at hu ⊢
    refine ⟨?_, rfl, rfl, hu⟩
    cases blob with
    | none => rfl
    | some b =>
      rw [Option.getD_some] at hnil
      simp [Option.filter, hnil]

/-- A header and the three parts it announces are read as one request, if a request is read. -/
theorem read_frame_sent (h : Conserves S avail) (halloc : srv.alloc.Fits) {hd : ReqHead}
    (hd_ok : ReqHead.decode_head hd.as_bytes = .ok hd) {action : RpcAction} (hfit : action.Fits)
    (hd_action : hd.action = (ReqHead.action_flag action).1) {msg : Bytes}
    (hm : msg.length ≤ u32_MAX) (hd_msg : hd.msg_len = .ofNat msg.length) {blob : Option Bytes}
    (hb : (blob.getD []).length ≤ i32_MAX)
    (hd_blob : hd.blob_len = (Int32.ofNat (blob.getD []).length).toUInt32) {req : RpcSvrReq}
    (hu : srv.unread avail <+:
      hd.as_bytes ++ ((ReqHead.action_flag action).2 ++ (msg ++ (blob.getD [] ++ more))))
    (hr : read_req srv = (.ready (.ok req), srv')) :
    req = ⟨hd.seq, action, msg, blob.filter fun b => b ≠ []⟩ ∧
      Reads avail (hd.as_bytes ++ ((ReqHead.action_flag action).2 ++ (msg ++ blob.getD []))) more
      srv srv' := by
  obtain ⟨head, srv₁, hr₁, hr⟩ := Async.bind_eq_ok hr
  obtain ⟨rfl, h₁⟩ := read_header_sent h hu (by simp) hr₁
  simp only [hd_ok] at hr
  obtain ⟨action', srv₂, hr₂, hr⟩ := Async.bind_eq_ok hr
  obtain ⟨rfl, h₂⟩ := read_action_sent h hfit hd_action h₁.rest hr₂
  obtain ⟨msg', srv₃, hr₃, hr⟩ := Async.bind_eq_ok hr
  obtain ⟨rfl, h₃⟩ := read_msg_sent h hm hd_msg h₂.rest hr₃
  obtain ⟨blob', srv₄, hr₄, hr⟩ := Async.bind_eq_ok hr
  have halloc₃ : srv₃.alloc.Fits := by rwa [h₃.alloc, h₂.alloc, h₁.alloc]
  obtain ⟨rfl, h₄⟩ := read_blob_sent h halloc₃ hb hd_blob h₃.rest hr₄
  cases hr
  refine ⟨rfl, by rw [h₄.alloc, h₃.alloc, h₂.alloc, h₁.alloc], ?_, h₄.rest⟩
  rw [h₁.took, h₂.took, h₃.took, h₄.took]
  simp only [List.append_assoc]

variable {C T : Type} [ClientTaskCommon T] [ClientTask C T]

theorem read_req_sent (h : Conserves S avail) (halloc : srv.alloc.Fits) {codec : C}
    {client_id seq : UInt64} {i : Outgoing T} (hi : i.Sendable codec seq) {req : RpcSvrReq}
    (hu : srv.unread avail <+: i.wire codec client_id seq ++ more)
    (hr : read_req srv = (.ready (.ok req), srv')) :
    req = i.received codec seq ∧ Reads avail (i.wire codec client_id seq) more srv srv' := by
  cases i with
  | ping =>
    have hfit : (RpcAction.Num 0).Fits := by unfold RpcAction.Fits; decide
    exact read_frame_sent h halloc (ReqHead.decode_head_filled ..) hfit rfl
      (show ([] : Bytes).length ≤ _ from Nat.zero_le _) rfl
      (show ((none : Option Bytes).getD []).length ≤ _ from Nat.zero_le _) rfl hu hr
  | task t need_flush =>
    obtain ⟨hfit, -, hm, hb⟩ := hi
    simp only [Outgoing.wire, List.append_assoc] at hu
    exact read_frame_sent h halloc (ReqHead.decode_head_filled ..) hfit rfl hm rfl hb rfl hu hr

end TcpServer

end OccamsRpc
