import OccamsRpc.Client.Failover
import OccamsRpc.Tcp.Request
/-!
# What a connection asks of its facts

`ClientFacts` of `stream/src/client/mod.rs` as far as requests on the wire depend
on it: the configuration, and the client id with its default body. A
`FailoverPool` makes its connections over `FailoverPoolInner`, which has facts of
its own that stand for the user's, and over `FailoverTask`s that stand for the
user's tasks.
-/

namespace OccamsRpc

/-- The part of `ClientConfig` that `TcpClient::connect` reads. -/
structure ClientConfig where
  read_timeout : Nat
  write_timeout : Nat
  stream_buf_size : Nat

def CLIENT_DEFAULT_BUF_SIZE : Nat := 8 * 1024

/-- `TcpClient::connect` once the socket is connected. -/
def TcpClient.connect {S : Type} (stream : S) (config : ClientConfig) : TcpClient S where
  stream := .new stream (if config.stream_buf_size = 0 then CLIENT_DEFAULT_BUF_SIZE
    else config.stream_buf_size)
  resp_buf := []
  resized := []
  read_timeout := config.read_timeout
  write_timeout := config.write_timeout

/-- What the user of a client gives. -/
class ClientFacts (F : Type) where
  get_config : F → ClientConfig
  get_client_id : F → UInt64 := fun _ => 0

/-- `FailoverPoolInner` as the facts of its connections. -/
structure FailoverPoolInner (F : Type) where
  facts : F

instance {F : Type} [ClientFacts F] : ClientFacts (FailoverPoolInner F) where
  get_config inner := ClientFacts.get_config inner.facts

namespace ClientStreamInner

variable {S F C T : Type} [ClientFacts F] [ClientTaskCommon T] [ClientTask C T]

/-- `ClientStream::connect` once the socket is connected. -/
def connect (facts : F) (stream : S) (encode_buf : EncodeBuf RPC_REQ_HEADER_LEN) :
    ClientStreamInner S where
  client_id := ClientFacts.get_client_id facts
  conn := TcpClient.connect stream (ClientFacts.get_config facts)
  seq := 1
  encode_buf := encode_buf

/-- What `send_request` hands to `write_req` for a task when the counter is at
`seq`: header, action and message, and the blob. `none` if the task does not
encode. -/
def request (codec : C) (c : ClientStreamInner S) (seq : UInt64) (task : T) :
    Option (Bytes × Option Bytes) :=
  match ReqHead.encode codec c.encode_buf c.client_id (ClientTaskCommon.set_seq task seq) with
  | (_, .error _) => none
  | (buf, .ok blob_buf) => some (buf.data, blob_buf)

/-- `send_request` writes its `request`, or fails without one. -/
theorem send_request_eq [AsyncWrite S] (codec : C) (task : T) (need_flush : Bool)
    (c : ClientStreamInner S) :
    ∃ c', c'.conn = c.conn ∧ send_request codec task need_flush c =
      match c.request codec c.seq task with
      | none => (.ready (.error .Encode), c')
      | some (buf, blob_buf) =>
        ((TcpClient.write_req buf blob_buf need_flush).mapErr fun _ => .Io).zoom conn
          withConn c' := by
  rcases he : ReqHead.encode codec c.encode_buf c.client_id (ClientTaskCommon.set_seq task c.seq)
    with ⟨buf, _ | blob⟩
  · refine ⟨{ c with seq := c.seq + 1, encode_buf := buf }, rfl, ?_⟩
    simp only [send_request, bind, Async.bind, seq_update, request, he]
  · refine ⟨{ c with seq := c.seq + 1, encode_buf := buf }, rfl, ?_⟩
    simp only [send_request, bind, Async.bind, seq_update, request, he]

end ClientStreamInner

section
variable {S F C T : Type} [ClientTaskCommon T] [ClientTask C T]

/-- The task's message and blob fit the header's fields. -/
def Encodes (codec : C) (task : T) : Prop :=
  ∃ msg_len, (ClientTask.encode_req codec task).2 = some msg_len ∧ msg_len ≤ u32_MAX ∧
    ((ClientTask.get_req_blob C task).getD []).length ≤ i32_MAX

/-- The bytes of a request depend on the client id, the seq and the task alone. -/
theorem ClientStreamInner.request_of_encodes {codec : C} {task : T} {seq : UInt64}
    (h : Encodes codec (ClientTaskCommon.set_seq task seq)) :
    ∃ action msg_len blob_len body, ∀ c : ClientStreamInner S, c.request codec seq task =
      some ((ReqHead.filled c.client_id action seq msg_len blob_len).as_bytes ++ body,
        ClientTask.get_req_blob C (ClientTaskCommon.set_seq task seq)) := by
  obtain ⟨n, hn, hm, hb⟩ := h
  let t := ClientTaskCommon.set_seq task seq
  refine ⟨(ReqHead.action_flag (ClientTask.get_action C t)).1, .ofNat n,
    .ofNat ((ClientTask.get_req_blob C t).getD []).length,
    (ReqHead.action_flag (ClientTask.get_action C t)).2 ++ (ClientTask.encode_req codec t).1,
    fun c => ?_⟩
  obtain ⟨buf, hbuf⟩ := ReqHead.encode_of_fits c.encode_buf c.client_id hn hm hb
  obtain ⟨n', hn', -, -, -, hdata⟩ := ReqHead.encode_ok hbuf
  cases hn.symm.trans hn'
  rw [ClientTaskCommon.seq_set_seq, List.append_assoc] at hdata
  rw [request, hbuf]
  simp only [hdata, t]

theorem ClientStreamInner.request_of_not_encodes {codec : C} {task : T} {seq : UInt64}
    (h : ¬ Encodes codec (ClientTaskCommon.set_seq task seq)) (c : ClientStreamInner S) :
    c.request codec seq task = none := by
  rcases he : ReqHead.encode codec c.encode_buf c.client_id (ClientTaskCommon.set_seq task seq)
    with ⟨buf, _ | blob⟩
  · rw [request, he]
  · obtain ⟨n, hn, hm, rfl, hb, -⟩ := ReqHead.encode_ok he
    exact absurd ⟨n, hn, hm, hb⟩ h

/-- The wrapper writes what the task itself would be written as. -/
theorem ClientStreamInner.request_wrapped (codec : C) (c : ClientStreamInner S) (seq : UInt64)
    (task : FailoverTask T) :
    c.request codec seq task = c.request codec seq task.inner := rfl

/-- A connection of a failover pool writes a task as a connection over the user's
facts does, exactly when those have client id 0 (or there is nothing to write):
the user's client id does not reach the pool's connections. -/
theorem failover_request_iff [ClientFacts F] (codec : C) (facts : F) (stream stream' : S)
    (buf buf' : EncodeBuf RPC_REQ_HEADER_LEN) (seq : UInt64) (task : FailoverTask T) :
    (ClientStreamInner.connect (⟨facts⟩ : FailoverPoolInner F) stream buf).request codec seq task =
        (ClientStreamInner.connect facts stream' buf').request codec seq task.inner ↔
      ClientFacts.get_client_id facts = 0 ∨
        ¬ Encodes codec (ClientTaskCommon.set_seq task.inner seq) := by
  rw [ClientStreamInner.request_wrapped]
  by_cases henc : Encodes codec (ClientTaskCommon.set_seq task.inner seq)
  · obtain ⟨action, msg_len, blob_len, body, hreq⟩ :=
    ClientStreamInner.request_of_encodes (S := S) henc
    rw [hreq, hreq]
    have hid : (ClientStreamInner.connect (⟨facts⟩ : FailoverPoolInner F) stream buf).client_id =
      0 := rfl
    have hid' : (ClientStreamInner.connect facts stream' buf').client_id =
      ClientFacts.get_client_id facts := rfl
    rw [hid, hid']
    constructor
    · intro h
      left
      have hhead := List.append_inj_left (Prod.ext_iff.1 (Option.some.inj h)).1 (by simp)
      have hsame := congrArg ReqHead.ref_from_bytes hhead
      rw [ReqHead.ref_from_bytes_as_bytes, ReqHead.ref_from_bytes_as_bytes] at hsame
      exact (congrArg ReqHead.client_id hsame).symm
    · rintro (h | h)
      · rw [h]
      · exact absurd henc h
  · rw [ClientStreamInner.request_of_not_encodes henc, ClientStreamInner.request_of_not_encodes henc]
    exact iff_of_true rfl (.inr henc)

end

/-- Facts of a user who assigns client ids. -/
structure NumberedFacts where
  config : ClientConfig
  client_id : UInt64

instance : ClientFacts NumberedFacts where
  get_config := NumberedFacts.config
  get_client_id := NumberedFacts.client_id

/-- With client id 7, the header written through a failover pool says 0. -/
theorem failover_request_other_client_id :
    (ClientStreamInner.connect (⟨⟨⟨0, 0, 0⟩, 7⟩⟩ : FailoverPoolInner NumberedFacts) (sampleSock [])
        sampleClient.encode_buf).request () 1 (⟨0, 0, sampleTask, 0, false⟩ : FailoverTask _) ≠
      (ClientStreamInner.connect (⟨⟨0, 0, 0⟩, 7⟩ : NumberedFacts) (sampleSock [])
        sampleClient.encode_buf).request () 1 sampleTask := by
  decide +kernel

end OccamsRpc
