import OccamsRpc.Tcp.Response
/-!
# A response reaches its task unchanged

The bytes `RespHead::encode` leaves, followed by the blob, are read by
`read_resp` as one response: it takes the task with that seq out of the timer
and completes it with exactly what the server task gave, and no byte of the
next response is touched.
-/

namespace OccamsRpc

/-! ## What a response does to its task -/

section
variable {C T : Type} [ClientTaskCommon T] [ClientTask C T]

/-- A success: the message, if there is one, is decoded. -/
def succeeded (codec : C) (task : T) (msg : Bytes) : Completion T :=
  if msg = [] then .done (ClientTask.set_ok C task)
  else
    match ClientTask.decode_resp codec task msg with
    | (true, task) => .done (ClientTask.set_ok C task)
    | (false, task) => .error_handle (ClientTask.set_rpc_error C task .Decode)

variable (C) in
/-- The task with the blob of the response, if that is not empty. -/
def withRespBlob (task : T) (blob : Bytes) : T :=
  if blob = [] then task
  else ClientTask.fill_resp_blob C (ClientTask.reserve_resp_blob C task (.ofNat blob.length)).1 blob

/-- The error an error text stands for, if it is one of the reserved names. -/
def reserved (text : Bytes) : Option RpcIntErr :=
  RpcIntErr.variants.find? fun e => e.as_bytes == text

/-- An error text: one of the framework's own errors, or the user's. -/
def failedWith (codec : C) (task : T) (text : Bytes) : Completion T :=
  match reserved text with
  | some e => .error_handle (ClientTask.set_rpc_error C task e)
  | none => .error_handle (ClientTask.set_custom_error codec task (.Buf text))

/-- What becomes of the client task when the server task's `encode_resp` did `r`. -/
def completion (codec : C) (task : T) (r : EncodedResp) : Completion T :=
  match r.result with
  | .ok (_, blob) => succeeded codec (withRespBlob C task (blob.getD [])) r.appended
  | .error (.Num k) => .error_handle (ClientTask.set_custom_error codec task (.Num k))
  | .error (.Rpc e) => .error_handle (ClientTask.set_rpc_error C task e)
  | .error (.Buf b) => failedWith codec task b
  | .error (.Static s) => failedWith codec task (strBytes s)

variable (C) in
/-- The client task can take the response's blob: it has the field, and reserves
exactly the space asked for. -/
def TakesBlob (task : T) (blob : Bytes) : Prop :=
  blob ≠ [] → (ClientTask.reserve_resp_blob C task (.ofNat blob.length)).2 = some blob.length

end

/-- `encode_resp` did what it reports, within the limits of the header's fields. -/
def EncodedResp.Honest (r : EncodedResp) : Prop :=
  match r.result with
  | .ok (n, blob) => r.appended.length = n ∧ n ≤ u32_MAX ∧ (blob.getD []).length ≤ i32_MAX
  | .error e => r.appended = [] ∧ (e.text.getD []).length ≤ i32_MAX

/-- The reader tells the reserved names from every other text. -/
theorem parse_int_err_eq (text : Bytes) : Receiver.parse_int_err text = reserved text := by
  have hname : ∀ e : RpcIntErr, Receiver.parse_int_err e.as_bytes = some e := by
    intro e
    rw [Receiver.parse_int_err, if_pos e.isPrefixOf_as_bytes]
    simp [RpcIntErr.as_bytes, e.from_str_as_ref]
  cases hr : reserved text with
  | some e =>
    have he : e.as_bytes = text := by simpa using List.find?_some hr
    rw [← he, hname]
  | none =>
    cases hp : Receiver.parse_int_err text with
    | none => rfl
    | some e =>
      -- a text that parses is the name of what it parses to
      unfold Receiver.parse_int_err at hp
      split at hp
      · obtain ⟨s, hs, he⟩ := Option.bind_eq_some_iff.1 hp
        have htext : e.as_bytes = text := by
          rw [RpcIntErr.as_bytes, RpcIntErr.as_ref_of_from_str he, strBytes_of_fromUtf8 hs]
        have := List.find?_eq_none.1 hr e (by cases e <;> decide)
        simp [htext] at this
      · cases hp

namespace Receiver

variable {S T : Type} [AsyncRead S] {Live : S → Prop} {avail : S → Bytes}

theorem read_exact_ok (h : Delivers S Live avail) {r : Receiver S T}
    (hl : r.client.stream.Live Live) {bs rest : Bytes}
    (hav : r.client.stream.avail avail = bs ++ rest) :
    ∃ s', read_exact bs.length r = (.ready (.ok bs), r.withStream s') ∧ s'.avail avail = rest ∧
      s'.Live Live := by
  obtain ⟨s', hr, hs'⟩ := (AsyncBufStream.delivers h).read_exact_append hl hav
  exact ⟨s', by simp only [read_exact, Async.zoom, io_with_timeout_ok hr], hs'⟩

theorem read_head_ok (h : Delivers S Live avail) {r : Receiver S T} (hl : r.client.stream.Live Live)
    {head rest : Bytes} (hlen : head.length = RPC_RESP_HEADER_LEN)
    (hav : r.client.stream.avail avail = head ++ rest) (close_ch : Option Bool) :
    ∃ s', read_head close_ch r = (.ready (.ok (some head)), r.withStream s') ∧
      s'.avail avail = rest ∧ s'.Live Live := by
  cases close_ch with
  | some fires =>
    obtain ⟨s', hr, hs'⟩ := (AsyncBufStream.delivers h).read_exact_append hl hav
    rw [hlen] at hr
    exact ⟨s', by simp only [read_head, hr], hs'⟩
  | none =>
    obtain ⟨s', hr, hs'⟩ := read_exact_ok h hl hav
    rw [hlen] at hr
    exact ⟨s', by simp only [read_head, hr], hs'⟩

variable {C : Type} [ClientTaskCommon T] [ClientTask C T]

theorem read_for_ok (h : Delivers S Live avail) {r : Receiver S T} (hl : r.client.stream.Live Live)
    (task : T) {bs rest : Bytes} (hav : r.client.stream.avail avail = bs ++ rest) :
    ∃ s', read_for C task bs.length r = (.ready (.ok bs), r.withStream s') ∧ s'.avail avail = rest ∧
      s'.Live Live := by
  obtain ⟨s', hr, hs'⟩ := read_exact_ok h hl hav
  exact ⟨s', by simp only [read_for, hr], hs'⟩

/-- The state after a step that ends by completing a task, `rest` still to be read. -/
def Completed (Live : S → Prop) (avail : S → Bytes) (r r' : Receiver S T) (out : Completion T)
    (rest : Bytes) : Prop :=
  r'.client.stream.avail avail = rest ∧ r'.client.stream.Live Live ∧
    r'.completed = r.completed ++ [out] ∧ r'.timer = r.timer

/-- An error text of the length the header announces reaches the task. -/
theorem recv_error_text (h : Delivers S Live avail) {r : Receiver S T}
    (hl : r.client.stream.Live Live) (codec : C) (task : T) {hd : RespHead} (hflag : hd.flag = 2)
    {text rest : Bytes} (hlen : text.length ≤ i32_MAX) (hd_len : hd.blob_len = .ofNat text.length)
    (hav : r.client.stream.avail avail = text ++ rest) :
    ∃ r', _recv_error codec hd task r = (.ready (.ok ()), r') ∧
      Completed Live avail r r' (failedWith codec task text) rest := by
  have hbuf := get_resp_buf_ok r (Nat.le_trans hlen (by decide))
  obtain ⟨s', hr, hav', hl'⟩ := read_for_ok (C := C) h
    (show ({ r with client := r.client.resize_resp_buf text.length } :
      Receiver S T).client.stream.Live Live from hl)
    task hav
  rw [_recv_error, if_neg (by rw [hflag]; decide), if_pos hflag, hd_len, as_usize_ofNat hlen,
    Async.bind_ok hbuf, Async.bind_ok hr, parse_int_err_eq, failedWith]
  cases reserved text with
  | some e => exact ⟨_, rfl, hav', hl', rfl, rfl⟩
  | none => exact ⟨_, rfl, hav', hl', rfl, rfl⟩

/-- An error response: the number, or the text, reaches the task. -/
theorem recv_error_ok (h : Delivers S Live avail) {r : Receiver S T}
    (hl : r.client.stream.Live Live) (codec : C) (task : T) (seq : UInt64) {e : EncodedErr}
    (hlen : (e.text.getD []).length ≤ i32_MAX) {rest : Bytes}
    (hav : r.client.stream.avail avail = e.text.getD [] ++ rest) :
    ∃ r', _recv_error codec (RespHead.errHead seq e) task r = (.ready (.ok ()), r') ∧
      Completed Live avail r r' (completion codec task ⟨seq, [], .error e⟩) rest := by
  cases e with
  | Num n =>
    have heq : _recv_error codec (RespHead.errHead seq (.Num n)) task r =
        error_handle (ClientTask.set_custom_error codec task (.Num n)) r := rfl
    rw [heq]
    exact ⟨_, rfl, hav, hl, rfl, rfl⟩
  | Rpc e =>
    have hfail :
        failedWith codec task e.as_bytes = .error_handle (ClientTask.set_rpc_error C task e) := by
      have hres : reserved e.as_bytes = some e := by cases e <;> decide
      rw [failedWith, hres]
    rw [show completion codec task ⟨seq, [], .error (.Rpc e)⟩ = failedWith codec task e.as_bytes
      from hfail.symm]
    exact recv_error_text h hl codec task rfl hlen rfl hav
  | Static s => exact recv_error_text h hl codec task rfl hlen rfl hav
  | Buf b => exact recv_error_text h hl codec task rfl hlen rfl hav

theorem recv_msg_ok (h : Delivers S Live avail) {r : Receiver S T} (hl : r.client.stream.Live Live)
    (task : T) {hd : RespHead} {msg rest : Bytes} (hlen : msg.length ≤ u32_MAX)
    (hd_len : hd.msg_len = .ofNat msg.length) (hav : r.client.stream.avail avail = msg ++ rest) :
    ∃ s', recv_msg C hd task r = (.ready (.ok msg), r.withStream s') ∧ s'.avail avail = rest ∧
      s'.Live Live ∧
      (hd.msg_len > 0 ↔ msg ≠ []) := by
  have hnat : hd.msg_len.toNat = msg.length := by rw [hd_len, toNat_ofNat_u32 hlen]
  have hpos : hd.msg_len > 0 ↔ msg ≠ [] := by
    rw [gt_iff_lt, UInt32.lt_iff_toNat_lt, UInt32.toNat_zero, hnat, List.length_pos_iff]
  by_cases hmsg : msg = []
  · subst hmsg
    refine ⟨r.client.stream, ?_, hav, hl, hpos⟩
    rw [recv_msg, if_neg (fun h => (hpos.1 h) rfl)]
    rfl
  · obtain ⟨s', hr, hs'⟩ := read_for_ok (C := C) h hl task hav
    exact ⟨s', by rw [recv_msg, if_pos (hpos.2 hmsg), hnat, hr], hs'.1, hs'.2, hpos⟩

omit [AsyncRead S] in
theorem recv_ok_end_ok (codec : C) {hd : RespHead} (task : T) {msg : Bytes}
    (hpos : hd.msg_len > 0 ↔ msg ≠ []) (r : Receiver S T) :
    ∃ r', recv_ok_end codec hd task msg r = (.ready (.ok ()), r') ∧
      r' = { r with completed := r.completed ++ [succeeded codec task msg] } := by
  by_cases hmsg : msg = []
  · rw [recv_ok_end, if_neg (fun h => (hpos.1 h) hmsg), succeeded, if_pos hmsg]
    exact ⟨_, rfl, rfl⟩
  · rw [recv_ok_end, if_pos (hpos.2 hmsg), succeeded, if_neg hmsg]
    rcases ClientTask.decode_resp codec task msg with ⟨_ | _, t⟩
    · exact ⟨_, rfl, rfl⟩
    · exact ⟨_, rfl, rfl⟩

/-- A success: message and blob reach the task. -/
theorem recv_ok_ok (h : Delivers S Live avail) {r : Receiver S T} (hl : r.client.stream.Live Live)
    (codec : C) (task : T) {hd : RespHead} {msg : Bytes} (hm : msg.length ≤ u32_MAX)
    (hd_msg : hd.msg_len = .ofNat msg.length) {blob : Bytes} (hb : blob.length ≤ i32_MAX)
    (hd_blob : hd.blob_len = .ofNat blob.length) (htake : TakesBlob C task blob) {rest : Bytes}
    (hav : r.client.stream.avail avail = msg ++ (blob ++ rest)) :
    ∃ r', recv_ok codec hd task r = (.ready (.ok ()), r') ∧
      Completed Live avail r r' (succeeded codec (withRespBlob C task blob) msg) rest := by
  obtain ⟨s1, hr1, hav1, hl1, hpos⟩ := recv_msg_ok (C := C) h hl task hm hd_msg hav
  have hbpos : hd.blob_len > 0 ↔ blob ≠ [] := by rw [hd_blob, ofNat_length_pos hb]
  rw [recv_ok, Async.bind_ok hr1]
  by_cases hblob : blob = []
  · subst hblob
    rw [if_neg (fun h => (hbpos.1 h) rfl), withRespBlob, if_pos rfl]
    obtain ⟨r', hr', rfl⟩ := recv_ok_end_ok codec task hpos (r.withStream s1)
    exact ⟨_, hr', hav1, hl1, rfl, rfl⟩
  · rw [if_pos (hbpos.2 hblob), hd_blob]
    have hres : ClientTask.reserve_resp_blob C task (.ofNat blob.length) =
        ((ClientTask.reserve_resp_blob C task (.ofNat blob.length)).1,
          some blob.length) := Prod.ext rfl (htake hblob)
    rw [hres]
    obtain ⟨s2, hr2, hav2, hl2⟩ := read_for_ok (C := C) h
      (show (r.withStream s1).client.stream.Live Live from hl1)
        (ClientTask.reserve_resp_blob C task (.ofNat blob.length)).1 hav1
    simp only
    rw [Async.bind_ok hr2, withRespBlob, if_neg hblob]
    obtain ⟨r', hr', rfl⟩ := recv_ok_end_ok codec (ClientTask.fill_resp_blob C
      (ClientTask.reserve_resp_blob C task (.ofNat blob.length)).1 blob) hpos
        ((r.withStream s1).withStream s2)
    exact ⟨_, hr', hav2, hl2, rfl, rfl⟩

/-- A response whose task is registered: the task is taken out of the timer, and
the body goes to it. -/
theorem read_resp_found (h : Delivers S Live avail) {r : Receiver S T}
    (hl : r.client.stream.Live Live) (codec : C) (close_ch : Option Bool) {hd : RespHead}
    (hdec : RespHead.decode_head hd.as_bytes = .ok hd) {body rest : Bytes}
    (hav : r.client.stream.avail avail = hd.as_bytes ++ body) {task : T}
    (hseq : ClientTaskCommon.seq task = hd.seq) (hw : r.timer.Wf)
    (hreg : task ∈ r.timer.drained ∨ task ∈ r.timer.pending_tasks ∧ r.timer.reg_stopped_flag = false)
    {out : Completion T}
    (hbody : ∀ r1 : Receiver S T, r1.client.stream.Live Live → r1.client.stream.avail avail = body →
      ∃ r', (if hd.flag > 0 then _recv_error codec hd task else recv_ok codec hd task) r1 =
      (.ready (.ok ()), r') ∧
        Completed Live avail r1 r' out rest) :
    ∃ r', read_resp codec close_ch r = (.ready (.ok true), r') ∧
      r'.client.stream.avail avail = rest ∧
      r'.client.stream.Live Live ∧ r'.completed = r.completed ++ [out] ∧
      r.timer.take_task (seq task) = (.ready (some task), r'.timer) := by
  obtain ⟨s1, hr1, hav1, hl1⟩ := read_head_ok h hl (by simp) hav close_ch
  obtain ⟨tm, htm, -⟩ := ClientTaskTimer.take_task_found hw hreg
  obtain ⟨r', hr', hav', hl', hcompl, htm'⟩ := hbody ((r.withStream s1).atBody hd tm) hl1 hav1
  refine ⟨r', ?_, hav', hl', hcompl, by rw [htm']; exact htm⟩
  have htake : (r.withStream s1).timer.take_task hd.seq.toNat = (.ready (some task), tm) := by
    rw [← hseq]
    exact htm
  have hrecv : _recv_resp_body codec hd (r.withStream s1) = (.ready (.ok ()), r') := by
    rw [recv_resp_body_taken htake]
    exact hr'
  rw [read_resp_after_head hr1 hdec, Async.bind_ok (Async.mapErr_ok hrecv _)]
  rfl

end Receiver

/-! ## The theorem -/

theorem EncodedResp.Honest.outcome_eq {r : EncodedResp} (h : r.Honest) : r.outcome = r.result := by
  obtain ⟨seq, appended, e | ⟨n, blob⟩⟩ := r
  · rfl
  · exact if_pos h.2

section
variable {C T C' T' : Type} [ClientTaskCommon T] [ClientTask C T] [ServerTaskEncode C' T']

/-- One frame is read as one response, by the task it is for. -/
theorem Receiver.read_resp_frame {srv_codec : C'} {buf : EncodeBuf RPC_RESP_HEADER_LEN}
    {srv_task : T'} (codec : C) {task : T} {r : Receiver Sock T} (close_ch : Option Bool)
    {rest : Bytes} (hhonest : (ServerTaskEncode.encode_resp srv_codec srv_task).Honest)
    (hseq : ClientTaskCommon.seq task = (ServerTaskEncode.encode_resp srv_codec srv_task).seq)
    (hw : r.timer.Wf)
    (hreg : task ∈ r.timer.drained ∨ task ∈ r.timer.pending_tasks ∧ r.timer.reg_stopped_flag = false)
    (hblob : ∀ n blob, (ServerTaskEncode.encode_resp srv_codec srv_task).result = .ok (n, some blob) →
      TakesBlob C task blob)
    (hl : r.client.stream.Live Sock.Live)
    (hav : r.client.stream.avail Sock.inbound = RespHead.frame srv_codec buf srv_task ++ rest) :
    ∃ r', Receiver.read_resp codec close_ch r = (.ready (.ok true), r') ∧
      r'.client.stream.avail Sock.inbound = rest ∧
      r'.client.stream.Live Sock.Live ∧
      r'.completed =
      r.completed ++ [completion codec task (ServerTaskEncode.encode_resp srv_codec srv_task)] ∧
      r.timer.take_task (seq task) = (.ready (some task), r'.timer) := by
  have hframe := RespHead.frame_eq srv_codec buf srv_task
  simp only [hhonest.outcome_eq] at hframe
  rw [hframe] at hav
  generalize ServerTaskEncode.encode_resp srv_codec srv_task = resp at *
  obtain ⟨rseq, appended, e | ⟨n, blob⟩⟩ := resp
  · -- an error: nothing was appended, the text is the body
    obtain ⟨rfl, hlen⟩ := hhonest
    simp only [List.append_nil, List.append_assoc] at hav
    have hseq' : ClientTaskCommon.seq task = (RespHead.errHead rseq e).seq := by
      cases e <;> exact hseq
    refine Receiver.read_resp_found Sock.delivers hl codec close_ch
      (RespHead.decode_head_errHead rseq e) hav hseq' hw hreg
      fun r1 hl1 hav1 => ?_
    rw [if_pos (RespHead.errHead_flag rseq e)]
    exact Receiver.recv_error_ok Sock.delivers hl1 codec task rseq hlen hav1
  · -- a success: the message, then the blob
    obtain ⟨happ, hn, hb⟩ := hhonest
    simp only at happ
    subst happ
    simp only [List.append_assoc] at hav
    have htake : TakesBlob C task (blob.getD []) := by
      cases blob with
      | none => exact fun h => absurd rfl h
      | some b => exact hblob _ b rfl
    refine Receiver.read_resp_found Sock.delivers hl codec close_ch
      (RespHead.decode_head_filled ..) hav hseq hw hreg
      fun r1 hl1 hav1 => ?_
    rw [if_neg (by simp [RespHead.filled])]
    exact Receiver.recv_ok_ok Sock.delivers hl1 codec task hn rfl hb rfl htake hav1

/-- Reading the bytes of a response consumes exactly those bytes, and completes
the registered task with what the server task's `encode_resp` gave. -/
theorem read_resp_of_frame (srv_codec : C') (buf : EncodeBuf RPC_RESP_HEADER_LEN) (srv_task : T')
    (codec : C) (task : T) (r : Receiver Sock T) (close_ch : Option Bool) (rest : Bytes)
    (hhonest : (ServerTaskEncode.encode_resp srv_codec srv_task).Honest)
    (hseq : ClientTaskCommon.seq task = (ServerTaskEncode.encode_resp srv_codec srv_task).seq)
    (hw : r.timer.Wf)
    (hreg : task ∈ r.timer.drained ∨ task ∈ r.timer.pending_tasks ∧ r.timer.reg_stopped_flag = false)
    (hblob : ∀ n blob, (ServerTaskEncode.encode_resp srv_codec srv_task).result = .ok (n, some blob) →
      TakesBlob C task blob)
    (hl : r.client.stream.Live Sock.Live)
    (hav : r.client.stream.avail Sock.inbound = RespHead.frame srv_codec buf srv_task ++ rest) :
    ∃ r', Receiver.read_resp codec close_ch r = (.ready (.ok true), r') ∧
      r'.client.stream.avail Sock.inbound = rest ∧
      r'.completed =
      r.completed ++ [completion codec task (ServerTaskEncode.encode_resp srv_codec srv_task)] ∧
      r.timer.items.Perm (task :: r'.timer.items) := by
  obtain ⟨r', hr, hav', -, hcompl, htake⟩ :=
    Receiver.read_resp_frame codec close_ch hhonest hseq hw hreg hblob hl hav
  obtain ⟨tm, htm, hperm, -⟩ := ClientTaskTimer.take_task_found hw hreg
  rw [htake] at htm
  cases htm
  exact ⟨r', hr, hav', hcompl, hperm⟩

end

/-- A server task with a message and a blob. -/
def sampleResp : ServerTaskVariantFull (UInt8 × Option UInt8) String :=
  { seq := 1, resp := some (7, some 9), resp_blob := some [1, 2, 3], res := .ok () }

def sampleRespBuf : EncodeBuf RPC_RESP_HEADER_LEN :=
  .with_capacity (List.replicate 32 0xff) (by decide)

def sentTask : DerivedTask (UInt8 × Option UInt8) (UInt8 × Option UInt8) String :=
  ClientTaskCommon.set_seq sampleTask 1

def sampleReceiver :
    Receiver Sock (DerivedTask (UInt8 × Option UInt8) (UInt8 × Option UInt8) String) where
  client := ⟨.new (sampleSock (RespHead.frame () sampleRespBuf sampleResp ++ [0xaa])) 8, [5, 5], [], 0, 0⟩
  timer := (ClientTaskTimer.new 5).reg_task sentTask
  completed := []
  alloc := fun n => some (as_usize n)

/-- A response with a message and a blob, for a task still in the channel. -/
theorem read_resp_of_sample :
    ∃ r', Receiver.read_resp () (some true) sampleReceiver = (.ready (.ok true), r') ∧
      r'.client.stream.avail Sock.inbound = [0xaa] ∧
      r'.completed = [.done { sentTask with
        resp := some (7, some 9), resp_blob := some [1, 2, 3], res := some (.ok ()) }] := by
  have hw : sampleReceiver.timer.Wf :=
    ClientTaskTimer.reg_task_wf (ClientTaskTimer.new_wf 5) (by decide) (by simp [ClientTaskTimer.new])
  have hl : sampleReceiver.client.stream.Live Sock.Live := by
    refine ⟨AsyncBufRead.new_wf (by decide), ?_, ?_⟩
    · simp [sampleReceiver, AsyncBufStream.new, sampleSock]
    · decide +kernel
  have hhonest : (ServerTaskEncode.encode_resp () sampleResp).Honest := by
    show ([0x92, 7, 9] : Bytes).length = 3 ∧ 3 ≤ u32_MAX ∧ ([1, 2, 3] : Bytes).length ≤ i32_MAX
    decide
  obtain ⟨r', hr, hav, hcompl, -⟩ :=
    read_resp_of_frame () sampleRespBuf sampleResp () sentTask sampleReceiver (some true)
    [0xaa] hhonest rfl hw (.inr ⟨by simp [sampleReceiver, ClientTaskTimer.reg_task], rfl⟩)
    (by rintro n blob ⟨⟩ -; rfl) hl rfl
  exact ⟨r', hr, hav, hcompl⟩

end OccamsRpc
