import OccamsRpc.Core.Passed
import OccamsRpc.Tcp.Serve
/-!
# What a request or a response that was written has done

When `write_req`, `write_resp` or a flush of either end returns `Ok`, the stream
was given those bytes and no others; with `need_flush`, and after a flush, none of
them is in the write buffer.
-/

namespace OccamsRpc

open Async (Returns)

variable {S : Type} [AsyncWrite S] {Wf : S → Prop} {out : S → Bytes}

/-! ## The client -/

namespace TcpClient

/-- The bytes the stream was given so far are `o`. -/
def Took (Wf : S → Prop) (out : S → Bytes) (o : Bytes) (c : TcpClient S) : Prop :=
  c.stream.Took Wf out o

/-- Nothing is left in the write buffer. -/
def Flushed (c : TcpClient S) : Prop := c.stream.Flushed

omit [AsyncWrite S] in
theorem writing_returns {α : Type} {x : Async (AsyncBufStream S) IoErr α}
    {P : AsyncBufStream S → Prop} {Q : α → AsyncBufStream S → Prop} (h : Returns P x Q) :
    Returns (fun c => P c.stream) (writing x) fun a c => Q a c.stream :=
  h.zoom_timeout (fun _ _ => rfl) write_timeout

theorem write_all_returns (h : Passes S Wf out) (o buf : Bytes) :
    Returns (Took Wf out o) (writing (AsyncWrite.write_all buf)) fun _ => Took Wf out (o ++ buf) :=
  writing_returns ((AsyncBufStream.passes h).write_all o buf)

theorem write_blob_returns (h : Passes S Wf out) (o : Bytes) (blob : Option Bytes) :
    Returns (Took Wf out o) (write_blob blob) fun _ => Took Wf out (o ++ blob.getD []) := by
  cases blob with
  | none =>
    apply Returns.pure
    intro c hc
    rwa [Option.getD_none, List.append_nil]
  | some buf => exact write_all_returns h o buf

theorem flush_req_returns (h : Passes S Wf out) (o : Bytes) :
    Returns (Took Wf out o) flush_req fun _ c => c.Took Wf out o ∧ c.Flushed :=
  writing_returns (AsyncBufStream.flush_returns h o)

theorem write_req_returns (h : Passes S Wf out) (o buf : Bytes) (blob : Option Bytes)
    (need_flush : Bool) :
    Returns (Took Wf out o) (write_req buf blob need_flush) fun _ c =>
      c.Took Wf out (o ++ (buf ++ blob.getD [])) ∧ (need_flush = true → c.Flushed) := by
  rw [← List.append_assoc]
  refine (write_all_returns h o buf).bind fun _ => (write_blob_returns h _ blob).bind fun _ => ?_
  cases need_flush with
  | false => exact Returns.pure fun c hc => ⟨hc, nofun⟩
  | true =>
    exact (flush_req_returns h _).weaken (fun _ hc => hc) fun _ _ hc => ⟨hc.1, fun _ => hc.2⟩

end TcpClient

/-! ## The server -/

namespace ServerConn

def Took (Wf : S → Prop) (out : S → Bytes) (o : Bytes) (c : ServerConn S) : Prop :=
  c.server.stream.Took Wf out o

def Flushed (c : ServerConn S) : Prop := c.server.stream.Flushed

omit [AsyncWrite S] in
theorem writing_returns {α : Type} {x : Async (AsyncBufStream S) IoErr α}
    {P : AsyncBufStream S → Prop} {Q : α → AsyncBufStream S → Prop} (h : Returns P x Q) :
    Returns (fun c => P c.server.stream) (writing x) fun a c => Q a c.server.stream :=
  h.zoom_timeout (fun _ _ => rfl) write_timeout

theorem write_all_returns (h : Passes S Wf out) (o buf : Bytes) :
    Returns (Took Wf out o) (writing (AsyncWrite.write_all buf)) fun _ => Took Wf out (o ++ buf) :=
  writing_returns ((AsyncBufStream.passes h).write_all o buf)

theorem write_blob_returns (h : Passes S Wf out) (o : Bytes) (blob : Option Bytes) :
    Returns (Took Wf out o) (write_blob blob) fun _ => Took Wf out (o ++ blob.getD []) := by
  cases blob with
  | none =>
    apply Returns.pure
    intro c hc
    rwa [Option.getD_none, List.append_nil]
  | some buf => exact write_all_returns h o buf

theorem flush_resp_returns (h : Passes S Wf out) (o : Bytes) :
    Returns (Took Wf out o) flush_resp fun _ c => c.Took Wf out o ∧ c.Flushed :=
  writing_returns (AsyncBufStream.flush_returns h o)

section
variable {C R : Type} [ServerTaskEncode C R]

omit [AsyncWrite S] in
/-- The bytes of the response to one message of the channel. -/
def frame (codec : C) (c : ServerConn S) : Done R → Bytes
  | .ok task => RespHead.frame codec c.encode_buf task
  | .error (seq, err) => (RespHead.encode_internal c.encode_buf seq err).data

theorem process_returns (h : Passes S Wf out) (codec : C) (task : Done R) (o b : Bytes) :
    Returns (fun c => c.Took Wf out o ∧ c.frame codec task = b) (process codec task)
      fun _ => Took Wf out (o ++ b) := by
  rintro c _ c' ⟨hc, rfl⟩ hr
  rcases task with ⟨seq, err⟩ | task
  · exact write_all_returns h o _
      { c with encode_buf := RespHead.encode_internal c.encode_buf seq err } () c' hc hr
  · rcases he : RespHead.encode codec c.encode_buf task with ⟨buf, seq, blob⟩
    simp only [process, write_resp, he] at hr
    have hframe : c.frame codec (.ok task) = buf.data ++ blob.getD [] := by
      simp only [frame, RespHead.frame, he]
    rw [hframe, ← List.append_assoc]
    exact ((write_all_returns h o buf.data).bind fun _ => write_blob_returns h _ blob)
      { c with encode_buf := buf } () c'
      hc hr

end

end ServerConn

end OccamsRpc
