import OccamsRpc.Core.Halves
import OccamsRpc.Tcp.Response
import OccamsRpc.Tcp.Serve
/-!
# Frames of the transport's operations

Sending leaves what an end has yet to read alone, and receiving leaves what it
has written: every operation of either end works on one half of its stream.
-/

namespace OccamsRpc

open Async (Keeps)

/-! ## The client -/

namespace TcpClient

/-- What the client has yet to read. -/
def readHalf (c : TcpClient Sock) : AsyncBufRead × List ReadEv × Bytes := c.stream.readHalf

/-- What the client has written, and its buffer. -/
def writeHalf (c : TcpClient Sock) : AsyncBufWrite × List WriteEv × Bytes := c.stream.writeHalf

/-- A write with a timeout is a write. -/
theorem writing_keeps {α : Type} {x : Async (AsyncBufStream Sock) IoErr α}
    (hx : Keeps AsyncBufStream.readHalf x) :
    Keeps readHalf (writing x) :=
  fun c => hx.io_with_timeout c.write_timeout c.stream

/-- Header, blob and flush are writes. -/
theorem write_req_keeps (buf : Bytes) (blob : Option Bytes) (need_flush : Bool) :
    Keeps readHalf (write_req buf blob need_flush : Async (TcpClient Sock) IoErr Unit) := by
  have hwrite :
      ∀ bs, Keeps AsyncBufStream.readHalf
        (AsyncWrite.write_all bs : Async (AsyncBufStream Sock) IoErr Unit) :=
    AsyncWrite.write_all_keeps AsyncBufStream.write_keeps
  refine (writing_keeps (hwrite buf)).bind fun _ => Keeps.bind ?_ fun _ => ?_
  · cases blob with
    | none => exact .pure _
    | some blob => exact writing_keeps (hwrite blob)
  · cases need_flush with
    | false => exact .pure _
    | true => exact writing_keeps AsyncBufStream.flush_keeps

end TcpClient

namespace ClientStreamInner

variable {C T : Type} [ClientTaskCommon T] [ClientTask C T]

def readHalf (c : ClientStreamInner Sock) : AsyncBufRead × List ReadEv × Bytes := c.conn.readHalf

/-- A request that cannot be encoded writes nothing at all. -/
theorem send_keeps (codec : C) (i : Outgoing T) :
    Keeps readHalf (send codec i : Async (ClientStreamInner Sock) _ Unit) := by
  have hconn : ∀ buf blob need_flush, Keeps readHalf
      (((TcpClient.write_req buf blob need_flush).mapErr fun _ => RpcIntErr.Io).zoom conn withConn) :=
    fun buf blob need_flush => ((TcpClient.write_req_keeps buf blob need_flush).mapErr _).zoom fun _ _ h => h
  cases i with
  | ping => exact Keeps.bind (fun _ => rfl) fun _ => Keeps.bind (fun _ => rfl) fun _ => hconn _ _ _
  | task t need_flush =>
    refine Keeps.bind (fun _ => rfl) fun seq => Keeps.bind (fun c => ?_) fun _ => hconn _ _ _
    rcases ReqHead.encode codec c.encode_buf c.client_id (ClientTaskCommon.set_seq t seq)
      with ⟨_, _ | _⟩ <;> rfl

/-- By induction on the requests; the flush at the end is a write too. -/
theorem send_all_keeps (codec : C) (is : List (Outgoing T)) :
    Keeps readHalf (send_all codec is : Async (ClientStreamInner Sock) _ Unit) := by
  induction is with
  | nil => exact ((TcpClient.writing_keeps AsyncBufStream.flush_keeps).mapErr _).zoom fun _ _ h => h
  | cons i is ih => exact (send_keeps codec i).bind fun _ => ih

end ClientStreamInner

/-! ## The server -/

namespace TcpServer

/-- What the server has written, and its buffer. -/
def writeHalf (srv : TcpServer Sock) : AsyncBufWrite × List WriteEv × Bytes := srv.stream.writeHalf

theorem read_stream_keeps (len : Nat) :
    Keeps AsyncBufStream.writeHalf (AsyncRead.read_exact len : Async (AsyncBufStream Sock) IoErr Bytes) :=
  AsyncRead.read_exact_keeps AsyncBufStream.read_keeps len

/-- Reads of the server under `read_timeout`. -/
theorem read_body_keeps (len : Nat) :
    Keeps writeHalf (read_body len : Async (TcpServer Sock) _ Bytes) :=
  fun srv => ((read_stream_keeps len).io_with_timeout srv.read_timeout).mapErr
    (fun _ => RpcIntErr.Io) srv.stream

theorem read_header_keeps : Keeps writeHalf (read_header : Async (TcpServer Sock) _ Bytes) := by
  intro srv
  have h := read_stream_keeps RPC_REQ_HEADER_LEN srv.stream
  unfold read_header
  rcases hr : AsyncRead.read_exact RPC_REQ_HEADER_LEN srv.stream with ⟨(_ | _) | _, s⟩ <;>
    rw [hr] at h <;> exact h

/-- A request is read without a write, whichever of its parts is missing. -/
theorem read_req_keeps : Keeps writeHalf (read_req : Async (TcpServer Sock) _ RpcSvrReq) := by
  refine read_header_keeps.bind fun buf => ?_
  split
  · exact .fail _
  · rename_i rpc_head _
    refine Keeps.bind ?_ fun _ => Keeps.bind ?_ fun _ => Keeps.bind ?_ fun _ => .pure _
    · unfold read_action
      split
      · exact .pure _
      · refine (read_body_keeps _).bind fun _ => ?_
        split
        · exact .pure _
        · exact .fail _
    · unfold read_msg
      split
      · exact read_body_keeps _
      · exact .pure _
    · intro srv
      unfold read_blob
      dsimp only
      split
      · split
        · rfl
        · exact (read_body_keeps _).bind (fun _ => .pure _) srv
      · rfl

end TcpServer

namespace ServerConn

variable {C R : Type} [ServerTaskEncode C R]

/-- What the server has yet to read. -/
def readHalf (c : ServerConn Sock) : AsyncBufRead × List ReadEv × Bytes := c.server.stream.readHalf

theorem writing_keeps {α : Type} {x : Async (AsyncBufStream Sock) IoErr α}
    (hx : Keeps AsyncBufStream.readHalf x) :
    Keeps readHalf (writing x) :=
  fun c => hx.io_with_timeout c.write_timeout c.server.stream

theorem write_all_keeps (bs : Bytes) :
    Keeps readHalf (writing (AsyncWrite.write_all bs) : Async (ServerConn Sock) _ Unit) :=
  writing_keeps (AsyncWrite.write_all_keeps AsyncBufStream.write_keeps bs)

/-- The header with the message, then the blob if there is one. -/
theorem write_resp_keeps (codec : C) (task : R) :
    Keeps readHalf (write_resp codec task : Async (ServerConn Sock) _ Unit) := by
  intro c
  unfold write_resp
  rcases RespHead.encode codec c.encode_buf task with ⟨buf, _, blob⟩
  have hblob : Keeps readHalf (write_blob blob : Async (ServerConn Sock) _ Unit) := by
    cases blob with
    | none => exact .pure _
    | some blob => exact write_all_keeps blob
  exact (write_all_keeps buf.data).bind (fun _ => hblob) _

/-- By induction on the responses of the channel. -/
theorem write_done_keeps (codec : C) (tasks : List (Done R)) :
    Keeps readHalf (write_done codec tasks : Async (ServerConn Sock) _ Unit) := by
  induction tasks with
  | nil => exact writing_keeps AsyncBufStream.flush_keeps
  | cons task tasks ih =>
    refine Keeps.bind ?_ fun _ => ih
    cases task with
    | ok task => exact write_resp_keeps codec task
    | error e =>
      exact fun c =>
        write_all_keeps _ { c with encode_buf := RespHead.encode_internal c.encode_buf e.1 e.2 }

end ServerConn

/-! ## The client's receiver -/

namespace Receiver

variable {C T : Type}

/-! Whatever a read of the stream keeps is kept by the parts of `read_resp` that read. -/

section
variable {S β : Type} [AsyncRead S] {f : Receiver S T → β}
  (hread : ∀ r len, f (r.withStream (AsyncRead.read_exact len r.client.stream).2) = f r)
include hread

theorem read_exact_keeps (len : Nat) : Keeps f (read_exact len) := by
  intro r
  have h :
      Keeps (fun s => f (r.withStream s))
        (AsyncRead.read_exact len : Async (AsyncBufStream S) IoErr Bytes) :=
    fun s => hread (r.withStream s) len
  exact h.io_with_timeout r.client.read_timeout r.client.stream

/-- A cancelled wait keeps it too. -/
theorem read_head_keeps (close_ch : Option Bool) : Keeps f (read_head close_ch) := by
  intro r
  unfold read_head
  cases close_ch with
  | none =>
    have h := read_exact_keeps hread RPC_RESP_HEADER_LEN r
    rcases hr : read_exact RPC_RESP_HEADER_LEN r with ⟨(_ | _) | _, r'⟩ <;> rw [hr] at h <;> exact h
  | some fires =>
    have h := hread r RPC_RESP_HEADER_LEN
    rcases hr : AsyncRead.read_exact RPC_RESP_HEADER_LEN r.client.stream with ⟨(_ | _) | _, s⟩ <;>
      rw [hr] at h
    · exact h
    · exact h
    · cases fires <;> exact h

/-- Nothing is read when there is no buffer. -/
theorem recv_and_dump_keeps (l : Nat) : Keeps f (_recv_and_dump l) := by
  intro r
  unfold _recv_and_dump
  split
  · rfl
  · rfl
  · rename_i len _
    have h := read_exact_keeps hread len r
    rcases hr : read_exact len r with ⟨(_ | _) | _, r'⟩ <;> rw [hr] at h <;> exact h

theorem recv_unknown_keeps (hd : RespHead) : Keeps f (recv_unknown hd) := by
  unfold recv_unknown
  split
  · dsimp only
    split
    · exact .fail _
    · split
      · exact recv_and_dump_keeps hread _
      · exact .pure _
  · split
    · dsimp only
      split
      · exact recv_and_dump_keeps hread _
      · exact .pure _
    · exact .pure _

variable [ClientTaskCommon T] [ClientTask C T]
  (hdone : ∀ (r : Receiver S T) c, f { r with completed := c } = f r)
include hdone

/-- When the read fails, the task is completed as well. -/
theorem read_for_keeps (task : T) (len : Nat) : Keeps f (read_for C task len) := by
  intro r
  have h := read_exact_keeps hread len r
  unfold read_for
  rcases hr : read_exact len r with ⟨(_ | _) | _, r'⟩ <;> rw [hr] at h
  · exact (hdone _ _).trans h
  · exact h
  · exact h

omit hread [AsyncRead S] in
theorem recv_ok_end_keeps (codec : C) (hd : RespHead) (task : T) (buf : Bytes) :
    Keeps f (recv_ok_end codec hd task buf) := by
  unfold recv_ok_end
  split
  · split <;> exact fun _ => hdone _ _
  · exact fun _ => hdone _ _

theorem recv_ok_keeps (codec : C) (hd : RespHead) (task : T) : Keeps f (recv_ok codec hd task) := by
  refine Keeps.bind ?_ fun buf => ?_
  · unfold recv_msg
    split
    · exact read_for_keeps hread hdone task _
    · exact .pure _
  · split
    · split
      · exact Keeps.bind (fun _ => hdone _ _) fun _ => recv_and_dump_keeps hread _
      · exact (read_for_keeps hread hdone _ _).bind fun _ => recv_ok_end_keeps hdone codec hd _ _
    · exact recv_ok_end_keeps hdone codec hd task _

end

/-- What the client has written, seen from its receiver. -/
def writeHalf (r : Receiver Sock T) : AsyncBufWrite × List WriteEv × Bytes := r.client.writeHalf

theorem read_writeHalf (r : Receiver Sock T) (len : Nat) :
    writeHalf (r.withStream (AsyncRead.read_exact len r.client.stream).2) = writeHalf r :=
  TcpServer.read_stream_keeps len r.client.stream

theorem completed_writeHalf (r : Receiver Sock T) (c : List (Completion T)) :
    writeHalf { r with completed := c } = writeHalf r := rfl

theorem get_resp_buf_keeps (len : Nat) :
    Keeps writeHalf (get_resp_buf len : Async (Receiver Sock T) _ Unit) := by
  intro r
  unfold get_resp_buf
  split <;> rfl

variable [ClientTaskCommon T] [ClientTask C T]

theorem recv_error_keeps (codec : C) (hd : RespHead) (task : T) :
    Keeps writeHalf (_recv_error codec hd task : Async (Receiver Sock T) _ Unit) := by
  unfold _recv_error
  split
  · exact fun _ => rfl
  · split
    · refine (get_resp_buf_keeps _).bind fun _ =>
      (read_for_keeps read_writeHalf completed_writeHalf task _).bind fun buf => ?_
      split <;> exact fun _ => rfl
    · exact .fail _

/-- `take_task` changes the timer, and no stream. -/
theorem recv_resp_body_keeps (codec : C) (hd : RespHead) :
    Keeps writeHalf (_recv_resp_body codec hd : Async (Receiver Sock T) _ Unit) := by
  refine (get_resp_buf_keeps _).bind fun _ => Keeps.bind (fun r => ?_) fun task => ?_
  · unfold Receiver.take_task
    rcases r.timer.take_task hd.seq.toNat with ⟨_ | _, _⟩ <;> rfl
  · cases task with
    | none => exact recv_unknown_keeps read_writeHalf hd
    | some task =>
      show Keeps writeHalf (if hd.flag > 0 then _recv_error codec hd task else recv_ok codec hd task)
      split
      · exact recv_error_keeps codec hd task
      · exact recv_ok_keeps read_writeHalf completed_writeHalf codec hd task

/-- Receiving a response leaves the requests of the owner alone. -/
theorem read_resp_keeps (codec : C) (close_ch : Option Bool) :
    Keeps writeHalf (read_resp codec close_ch : Async (Receiver Sock T) _ Bool) := by
  refine Keeps.bind ((read_head_keeps read_writeHalf close_ch).mapErr _) fun head => ?_
  split
  · exact .pure _
  · split
    · exact .fail _
    · exact Keeps.bind ((recv_resp_body_keeps codec _).mapErr _) fun _ => .pure _

end Receiver

end OccamsRpc
