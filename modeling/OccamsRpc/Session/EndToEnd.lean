import OccamsRpc.Session.Downstream
import OccamsRpc.Session.Upstream
/-!
# A request and its response, from end to end

Whatever the interleaving of the two ends and of the network: a task is completed with
the response that the server made for the request of that very task.
-/
open Lib

namespace OccamsRpc

open Conn

namespace Session

variable {CC CT C T R E : Type} [ClientTaskCommon CT] [ClientTask CC CT] [ServerTaskEncode C R]
  {cl : Caller CC CT}
  {codec : C} {seq : T → UInt64} {s : Session T R}

theorem received_seq (cl : Caller CC CT) (q : Request) : (cl.received q).seq = .ofNat q.seq := by
  unfold Caller.received Caller.outgoing
  split <;> rfl

/-- The request that a response of the server is for. -/
theorem request_of_response (hu : Upstream cl s) (hd : Downstream codec seq s) {d : Done R}
    (h : d ∈ s.served.responses) :
    ∃ n q, (n, d) ∈ s.served.reader.noti.queue ∧
      s.served.reader.requests[n]? = some (cl.received q) ∧ q ∈ s.written ∧
      RespHead.seqOfDone codec d = .ofNat q.seq := by
  obtain ⟨⟨n, d⟩, hm, rfl⟩ := List.mem_map.1 h
  obtain ⟨req, hreq, hseq⟩ := hd.labelled.queue _ hm
  rw [hu.requests, List.getElem?_map] at hreq
  obtain ⟨q, hq, rfl⟩ := Option.map_eq_some_iff.1 hreq
  refine ⟨n, q, hm, ?_, List.mem_of_mem_take (List.mem_of_getElem? hq), hseq.trans (received_seq cl q)⟩
  rw [hu.requests, List.getElem?_map, hq]
  rfl

theorem written_lt (hu : Upstream cl s) {q : Request} (hq : q ∈ s.written) :
    q.seq < s.wired.conn.next_seq := by
  have hw := hu.written q hq
  split at hw
  · exact (hu.numbered.fresh _ hw).2
  · exact (hu.drawn.pinged _ hw).1

/-- The header that the client sees has the seq of the request. -/
theorem header_seq (hu : Upstream cl s) (hseq : s.wired.conn.next_seq ≤ 2 ^ 64) {q : Request}
    (hq : q ∈ s.written) {d : Done R} (hd : RespHead.seqOfDone codec d = .ofNat q.seq) :
    (Frame.ofDone codec d).seq = q.seq := by
  show (RespHead.ofDone codec d).seq.toNat = q.seq
  rw [RespHead.ofDone_seq, hd]
  exact Nat.mod_eq_of_lt (Nat.lt_of_lt_of_le (written_lt hu hq) hseq)

/-- A request that is answered with its own message. -/
structure Echo where
  seq : UInt64
  msg : Bytes
  res : Option (Except UInt32 Unit)

instance : ServerTaskDecode Unit Echo := ⟨fun _ _ seq msg _ => some ⟨seq, msg, none⟩⟩

instance : ServerTaskDone Echo Echo UInt32 := ⟨fun t res => { t with res := some res }, id⟩

instance : ServerTaskEncode Unit Echo :=
  ⟨fun _ t => match t.res with
    | some (.error n) => ⟨t.seq, [], .error (.Num n)⟩
    | _ => ⟨t.seq, t.msg.take 4, .ok ((t.msg.take 4).length, none)⟩⟩

def sampleCaller : Caller Unit SampleTask := ⟨(), 42, fun _ => sampleTask⟩

def sampleSetup : Setup where
  reads := []
  writes := List.replicate 9 (.accept 20)
  config := ⟨0, 0, 16⟩
  thresholds := 8
  task_timeout := 1
  encode_buf := sampleClient.encode_buf
  server_reads := []
  server_writes := List.replicate 9 (.accept 20)
  server_config := ⟨1, 1, 16⟩
  alloc := fun n => some (as_usize n)
  resp_buf := sampleRespBuf

/-- A call, its request on the way to the handler, and the response on the way back. -/
def sampleExchange : List (Act Echo UInt32) :=
  [.owner (.send_task true), .owner .next, .owner .next, .owner (.encoded true),
    .owner (.written true), .owner .registered,
    .owner .throttled, .up 100 (List.replicate 9 (.chunk 20)), .server .read_req,
    .server (.handler (.set_result 0 (.ok ()))),
    .server (.handler (.handled true)), .server .write, .server .write, .server .write,
    .server .write,
    .down 100 (List.replicate 9 (.chunk 20)), .receiver .poll, .receiver .next, .receiver .next,
    .receiver .next,
    .receiver .next, .receiver (.header ⟨1, 0, 3, 0⟩), .receiver (.part false),
    .receiver (.part false)]

theorem sampleCaller_sendable : sampleCaller.Sendable := by
  refine fun id seq => ⟨?_, rfl, ?_, ?_⟩
  · show (strBytes "T.m").length ≤ i32_MAX
    decide
  · show ([0x92, 7, 9] : Bytes).length ≤ u32_MAX
    decide
  · show ([1, 2] : Bytes).length ≤ i32_MAX
    decide

theorem echo_clean (s : Session Echo Echo) : SendsClean () s := by
  rintro (_ | t) -
  · trivial
  show RespHead.Clean (ServerTaskEncode.encode_resp () t)
  have hlen (msg : Bytes) :
      (msg.take 4).length ≤ u32_MAX ∧ ((none : Option Bytes).getD []).length ≤ i32_MAX :=
    ⟨Nat.le_trans (List.length_take_le 4 msg) (by decide), Nat.zero_le _⟩
  rcases t with ⟨seq, msg, _ | _ | _⟩
  case none | some.ok => simp only [ServerTaskEncode.encode_resp, RespHead.Clean,
    EncodedResp.outcome, if_pos (hlen msg)]
  case some.error => exact ⟨rfl, Nat.zero_le _⟩

theorem echo_keepsSeq : KeepsSeq (R := Echo) UInt32 () Echo.seq :=
  ⟨by rintro _ _ _ _ _ ⟨⟩; rfl, by rintro _ (_ | _) <;> rfl⟩

end Session

end OccamsRpc
