import Mathlib.Data.Finset.Card
import Mathlib.Data.Finset.Range
import OccamsRpc.Server.Conn
import OccamsRpc.Tcp.ReqExtent
/-!
# What a connection has still to do

With timeouts, the reads and the writes of the server end. Each step of a
connection uses up bytes that the peer has sent, a task of a handler, a response in
the channel, or something that a coroutine holds. And as long as a connection is
there, it has a step to take or waits for a handler: no coroutine waits for another
that waits for it.
-/
open Lib

namespace OccamsRpc

/-! ## The reads of the server -/

namespace TcpServer

variable {S β : Type} [AsyncRead S]

/-! A read changes the stream alone. -/

section
variable {f : TcpServer S → β} (hf : ∀ srv s, f (srv.withStream s) = f srv)
include hf

theorem read_header_keeps_rest : Async.Keeps f (read_header : Async (TcpServer S) _ Bytes) := by
  intro srv
  unfold read_header
  rcases AsyncRead.read_exact RPC_REQ_HEADER_LEN srv.stream with ⟨(_ | _) | _, s⟩ <;> exact hf srv _

theorem read_body_keeps_rest (len : Nat) :
    Async.Keeps f (read_body len : Async (TcpServer S) _ Bytes) := fun srv => hf srv _

theorem read_action_keeps_rest (hd : ReqHead) :
    Async.Keeps f (read_action hd : Async (TcpServer S) _ RpcAction) := by
  unfold read_action
  split
  · exact .pure _
  · refine (read_body_keeps_rest hf _).bind fun _ => ?_
    split
    · exact .pure _
    · exact .fail _

theorem read_msg_keeps_rest (hd : ReqHead) :
    Async.Keeps f (read_msg hd : Async (TcpServer S) _ Bytes) := by
  unfold read_msg
  split
  · exact read_body_keeps_rest hf _
  · exact .pure _

theorem read_blob_keeps_rest (hd : ReqHead) :
    Async.Keeps f (read_blob hd : Async (TcpServer S) _ (Option Bytes)) := by
  intro srv
  unfold read_blob
  dsimp only
  split
  · split
    · rfl
    · exact (read_body_keeps_rest hf _).bind (fun _ => .pure _) srv
  · rfl

theorem read_req_keeps_rest : Async.Keeps f (read_req : Async (TcpServer S) _ RpcSvrReq) := by
  refine (read_header_keeps_rest hf).bind fun buf => ?_
  split
  · exact .fail _
  · exact (read_action_keeps_rest hf _).bind fun _ => (read_msg_keeps_rest hf _).bind fun _ =>
      (read_blob_keeps_rest hf _).bind fun _ => .pure _

end

/-- A `read_timeout` of 0 waits forever. -/
def Timed (srv : TcpServer S) : Prop := srv.read_timeout ≠ 0

omit [AsyncRead S] in
theorem Timed.of_keeps {α : Type} {x : Async (TcpServer S) RpcIntErr α}
    (h : Async.Keeps read_timeout x) :
    Async.Returns Timed x fun _ => Timed :=
  h.returns (· ≠ 0)

theorem read_body_ends (len : Nat) :
    Async.Ends Timed (read_body len : Async (TcpServer S) _ Bytes) := fun srv ht =>
  (Async.Ends.io_with_timeout ht (AsyncRead.read_exact len)).mapErr (fun _ => RpcIntErr.Io) srv.stream trivial

/-- With a read timeout, the reading of a request ends: the header is cancelled, and
the rest times out. -/
theorem read_req_ends : Async.Ends Timed (read_req : Async (TcpServer S) _ RpcSvrReq) := by
  have hrest (srv : TcpServer S) (s : AsyncBufStream S) :
      (srv.withStream s).read_timeout = srv.read_timeout := rfl
  have hbody (len : Nat) := Timed.of_keeps (read_body_keeps_rest hrest len)
  refine .bind ?_ (.of_keeps (read_header_keeps_rest hrest)) fun buf => ?_
  · intro srv _
    unfold read_header
    rcases AsyncRead.read_exact RPC_REQ_HEADER_LEN srv.stream with ⟨(_ | _) | _, s⟩ <;> rintro ⟨⟩
  split
  · exact .fail _
  · refine .bind ?_ (.of_keeps (read_action_keeps_rest hrest _)) fun _ =>
      .bind ?_ (.of_keeps (read_msg_keeps_rest hrest _)) fun _ =>
      .bind ?_ (.of_keeps (read_blob_keeps_rest hrest _)) fun _ => .pure _
    · unfold read_action
      split
      · exact .pure _
      · refine (read_body_ends _).bind (hbody _) fun _ => ?_
        split
        · exact .pure _
        · exact .fail _
    · unfold read_msg
      split
      · exact read_body_ends _
      · exact .pure _
    · intro srv ht
      unfold read_blob
      dsimp only
      split
      · split
        · rintro ⟨⟩
        · exact (read_body_ends _).bind (hbody _) (fun _ => .pure _) srv ht
      · rintro ⟨⟩

/-- At least a header less than `n` bytes is still to be read. -/
def Left (n : Nat) (srv : TcpServer Sock) : Prop :=
  (srv.unread Sock.inbound).length + RPC_REQ_HEADER_LEN ≤ n

theorem Takes.left {n m : Nat} {srv srv' : TcpServer Sock} (h : Takes Sock.inbound m srv srv')
    (hn : srv.Left n) :
    srv'.Left n := by
  have hlen : (srv.unread Sock.inbound).length = m + (srv'.unread Sock.inbound).length := h.2.length
  unfold Left at hn ⊢
  omega

/-- A request takes its header at least. -/
theorem read_req_left (n : Nat) :
    Async.Returns (fun srv => (srv.unread Sock.inbound).length ≤ n) read_req fun _ => Left n := by
  have hext (len : Nat) : Async.Returns (Left n) (read_ext_buf len) fun _ => Left n :=
    .bind (Q := fun _ => Left n) (fun _ _ _ hn hr => (read_body_takes Sock.conserves hr).1.left hn) fun _ =>
      .pure fun _ h => h
  refine .bind (Q := fun _ => Left n) (fun srv buf srv' hn hr => ?_) fun buf => ?_
  · have hlen :
        (srv.unread Sock.inbound).length = RPC_REQ_HEADER_LEN + (srv'.unread Sock.inbound).length :=
      (read_header_takes Sock.conserves hr).1.2.length
    unfold Left
    omega
  split
  · rintro srv a srv' _ ⟨⟩
  · refine .bind (Q := fun _ => Left n) ?_ fun _ => .bind (Q := fun _ => Left n) ?_ fun _ =>
      .bind (Q := fun _ => Left n) ?_ fun _ => .pure fun _ h => h
    · exact fun srv a srv' hn hr => (read_action_takes Sock.conserves hr).left hn
    · exact fun srv a srv' hn hr => (read_msg_takes Sock.conserves hr).left hn
    · intro srv blob srv' hn hr
      unfold read_blob at hr
      dsimp only at hr
      split at hr
      · split at hr
        · cases hr
        · exact hext _ srv blob srv' hn hr
      · cases hr
        exact hn

end TcpServer

/-! ## The writes of the server -/

namespace ServerConn

section
variable {C R : Type} [ServerTaskEncode C R]

/-- What a write leaves alone. -/
def rest (c : ServerConn Sock) : (AsyncBufRead × List ReadEv × Bytes) × Nat × Nat × BufferAlloc :=
  (c.readHalf, c.write_timeout, c.server.read_timeout, c.server.alloc)

theorem rest_unread {c c' : ServerConn Sock} (h : c'.rest = c.rest) :
    c'.server.unread Sock.inbound = c.server.unread Sock.inbound := by
  simp only [rest, readHalf, AsyncBufStream.readHalf, Sock.readHalf, Prod.mk.injEq] at h
  simp only [TcpServer.unread, AsyncBufStream.avail, h]

theorem writing_keeps_rest {α : Type} {x : Async (AsyncBufStream Sock) IoErr α}
    (hx : Async.Keeps AsyncBufStream.readHalf x) : Async.Keeps rest (writing x) := fun c =>
  congrArg (·, c.write_timeout, c.server.read_timeout, c.server.alloc) (writing_keeps hx c)

theorem process_keeps_rest (codec : C) (task : Done R) : Async.Keeps rest (process codec task) := by
  have hall (buf : Bytes) :=
    writing_keeps_rest (AsyncWrite.write_all_keeps AsyncBufStream.write_keeps buf)
  intro c
  rcases task with ⟨seq, err⟩ | task
  · exact hall _ { c with encode_buf := RespHead.encode_internal c.encode_buf seq err }
  · rcases he : RespHead.encode codec c.encode_buf task with ⟨buf, seq, blob⟩
    simp only [process, write_resp, he]
    refine (hall _).bind (fun _ => ?_) { c with encode_buf := buf }
    cases blob with
    | none => exact .pure _
    | some blob => exact hall blob

end

variable {S C R : Type} [AsyncWrite S] [ServerTaskEncode C R]

/-- A `write_timeout` of 0 waits forever. -/
def Timed (c : ServerConn S) : Prop := c.write_timeout ≠ 0

omit [AsyncWrite S] in
theorem writing_ends {α : Type} (x : Async (AsyncBufStream S) IoErr α) :
    Async.Ends Timed (writing x) := fun c ht =>
  Async.Ends.io_with_timeout ht x c.server.stream trivial

theorem process_ends (codec : C) (task : Done R) :
    Async.Ends Timed (process codec task : Async (ServerConn S) _ Unit) := by
  have hkeep (buf : Bytes) :
      Async.Returns Timed (writing (AsyncWrite.write_all buf) : Async (ServerConn S) _ Unit)
      fun _ => Timed :=
    Async.Keeps.returns (f := write_timeout) (fun _ => rfl) (· ≠ 0)
  intro c ht
  rcases task with ⟨seq, err⟩ | task
  · exact writing_ends _ { c with encode_buf := RespHead.encode_internal c.encode_buf seq err } ht
  · rcases he : RespHead.encode codec c.encode_buf task with ⟨buf, seq, blob⟩
    simp only [process, write_resp, he]
    refine (writing_ends _).bind (hkeep _) (fun _ => ?_) { c with encode_buf := buf } ht
    cases blob with
    | none => exact .pure _
    | some blob => exact writing_ends _

end ServerConn

/-! ## What the reader and the handlers still owe -/

namespace ServerReader

variable {C T R E : Type}

/-- The tasks that the handlers have. -/
def tasksLeft (s : ServerReader T R) : Nat :=
  ((Finset.range s.requests.length).filter fun n => (s.tasks n).isSome).card

end ServerReader

/-- After the dispatch of a request come its response, five steps of the writer, and the
next read. -/
def ReaderPc.work : ReaderPc → Nat
  | .read_req => 1
  | .dispatch .. => 6
  | .returned => 0

namespace ServerReader

variable {C T R E : Type}

/-- Four steps of the writer for each response, and one more to send it. -/
def owed (s : ServerReader T R) : Nat := s.pc.work + 5 * s.tasksLeft + 4 * s.noti.queue.length

variable {s s' : ServerReader T R}

theorem length_done (noti : RespNoti (Nat × Done R)) (m : Nat × Done R) :
    (noti.done m).queue.length ≤ noti.queue.length + 1 := by
  cases hrx : noti.rx <;> simp [RespNoti.done, RespNoti.send, hrx]

theorem tasksLeft_more (hk : s.Known) (req : RpcSvrReq) :
    tasksLeft { s with requests := s.requests ++ [req] } = s.tasksLeft := by
  have hnone : (s.tasks s.requests.length).isSome = false := by rw [hk.next_none]; rfl
  simp only [tasksLeft, List.length_append, List.length_singleton, Finset.range_add_one,
    Finset.filter_insert, hnone, Bool.false_eq_true, if_false]

theorem tasksLeft_start (s : ServerReader T R) (req : RpcSvrReq) (task : T) :
    tasksLeft { s with
      requests := s.requests ++ [req]
      tasks := Function.update s.tasks s.requests.length (some task) } ≤ s.tasksLeft + 1 := by
  refine Nat.le_trans (Finset.card_le_card ?_) (Finset.card_insert_le s.requests.length _)
  intro n hn
  simp only [List.length_append, List.length_singleton, Finset.mem_filter, Finset.mem_range,
    Finset.mem_insert] at hn ⊢
  by_cases he : n = s.requests.length
  · exact .inl he
  · rw [Function.update_of_ne he] at hn
    exact .inr ⟨by omega, hn.2⟩

theorem tasksLeft_work {n : Nat} (hn : s.tasks n ≠ none) (task : T) :
    tasksLeft { s with tasks := Function.update s.tasks n (some task) } = s.tasksLeft := by
  have hsome : (s.tasks n).isSome = true := Option.isSome_iff_ne_none.2 hn
  refine congrArg Finset.card (Finset.filter_congr fun m _ => ?_)
  dsimp only
  by_cases he : m = n
  · rw [he, Function.update_self, hsome]
    rfl
  · rw [Function.update_of_ne he]

theorem tasksLeft_done (hk : s.Known) {n : Nat} (hn : s.tasks n ≠ none) :
    tasksLeft { s with tasks := Function.update s.tasks n none } + 1 = s.tasksLeft := by
  have hmem : n ∈ (Finset.range s.requests.length).filter fun n => (s.tasks n).isSome :=
    Finset.mem_filter.2 ⟨Finset.mem_range.2 (hk.live n hn).1, Option.isSome_iff_ne_none.2 hn⟩
  have herase :
      ((Finset.range s.requests.length).filter fun m => (Function.update s.tasks n none m).isSome) =
      ((Finset.range s.requests.length).filter fun n => (s.tasks n).isSome).erase n := by
    ext m
    simp only [Finset.mem_filter, Finset.mem_erase]
    by_cases he : m = n
    · subst he
      simp
    · simp [he]
  rw [tasksLeft, tasksLeft, herase, Finset.card_erase_add_one hmem]

section
variable [ServerTaskDecode C T] [ServerTaskDone T R E] {codec : C}

/-- Whoever has a task may change it as often as it likes; all else uses something up. -/
def Act.settles : Act T E → Bool
  | .work .. => false
  | _ => true

theorem owed_handler {a : Act T E} (hk : s.Known) (ha : a.handles = true)
    (h : s.step codec a = some s') :
    s'.owed + (if a.settles then 1 else 0) ≤ s.owed := by
  cases a with
  | work n task =>
    obtain ⟨hn, ⟨⟩⟩ := Option.ite_none_right_eq_some.1 h
    have ht := tasksLeft_work (Option.isSome_iff_ne_none.1 hn) task
    simp only [owed, Act.settles] at ht ⊢
    simp [ht]
  | set_result n res =>
    simp only [step] at h
    split at h
    case h_1 task hn =>
      cases h
      have ht := tasksLeft_done hk (n := n) (by rw [hn]; rintro ⟨⟩)
      have hq :=
        length_done s.noti (n, .ok (ServerTaskDone.into E (ServerTaskDone._set_result R task res)))
      simp only [owed, Act.settles, tasksLeft, if_true] at ht hq ⊢
      omega
    case h_2 => cases h
  | drop n =>
    obtain ⟨hn, ⟨⟩⟩ := Option.ite_none_right_eq_some.1 h
    have ht := tasksLeft_done hk (Option.isSome_iff_ne_none.1 hn)
    simp only [owed, Act.settles, tasksLeft, if_true] at ht ⊢
    omega
  | handled ok =>
    simp only [step] at h
    split at h
    case h_1 n seq hpc =>
      cases ok with
      | true =>
        cases h
        simp only [owed, Act.settles, tasksLeft, hpc, ReaderPc.work, if_true]
        omega
      | false =>
        cases h
        rw [send_quick_resp_eq]
        have hq := length_done s.noti (n, .error (seq, some .Decode))
        have hpc' : ReaderPc.work (if s.noti.rx then .read_req else .returned) ≤ 1 := by
          split <;> decide
        simp only [owed, Act.settles, tasksLeft, hpc, if_true] at hq hpc' ⊢
        simp only [ReaderPc.work] at hpc' ⊢
        omega
    case h_2 => cases h
  | read_req | read_err | writer_exits => cases ha

theorem owed_err (h : s.step codec (.read_err : Act T E) = some s') :
    s'.pc = .returned ∧ s'.owed + 1 = s.owed := by
  simp only [step] at h
  split at h <;> cases h
  rename_i hpc
  refine ⟨rfl, ?_⟩
  simp only [owed, tasksLeft, hpc, ReaderPc.work]
  omega

theorem owed_read (hk : s.Known) {req : RpcSvrReq}
    (h : s.step codec (.read_req req : Act T E) = some s') :
    s.pc = .read_req ∧ s'.owed ≤ s.owed + 11 := by
  have hpc : s.pc = .read_req := by
    simp only [step] at h
    split at h
    · assumption
    · cases h
  refine ⟨hpc, ?_⟩
  cases step_cases h with
  | quick _ err =>
    rw [send_quick_resp_eq]
    have ht := tasksLeft_more hk req
    have hq := length_done s.noti (s.requests.length, .error (req.seq, err))
    have hpc' : ReaderPc.work (if s.noti.rx then .read_req else .returned) ≤ 1 := by
      split <;> decide
    simp only [owed, tasksLeft] at ht hq hpc' ⊢
    omega
  | start _ task =>
    have ht := tasksLeft_start s req task
    simp only [owed, tasksLeft, ReaderPc.work] at ht ⊢
    omega

end

end ServerReader

/-! ## What a connection has still to do -/

/-- The steps that the writer takes for the response in its hands, then to flush, to find
the channel closed and to shut down. -/
def WriterPc.work {R : Type} : WriterPc R → Nat
  | .process _ => 5
  | .try_recv => 4
  | .flush => 3
  | .recv => 2
  | .close_conn => 1
  | .returned => 0

namespace ServedConn

variable {C T R E : Type}

/-- The bytes that the reader may still take. -/
def unread (s : ServedConn T R) : Nat :=
  match s.reader.pc with
  | .returned => 0
  | _ => (s.writer.conn.server.unread Sock.inbound).length

/-- The steps that are left, at most. -/
def work (s : ServedConn T R) : Nat :=
  s.unread + s.reader.pc.work + 5 * s.reader.tasksLeft + 4 * s.writer.done_rx.length + s.writer.pc.work +
    s.noti.toNat + s.reader_conn.toNat + s.reader.noti.rx.toNat + s.writer_conn.toNat

/-- Everything on a connection uses something up, but for the work of a handler. -/
def Act.settles : Act T E → Bool
  | .handler a => a.settles
  | _ => true

/-- A handler has its task, or has not yet taken it. -/
def handling (s : ServedConn T R) : Bool :=
  s.reader.live || (s.reader.pc matches .dispatch ..)

/-- A step of the server itself, not of a handler. -/
def Act.serves : Act T E → Bool
  | .handler _ => false
  | _ => true

variable [ServerTaskEncode C R] [ServerTaskDecode C T] [ServerTaskDone T R E] {codec : C}
  {s s' : ServedConn T R}
  {a : Act T E}

omit [ServerTaskEncode C R] in
theorem sync_work {reader : ServerReader T R} {a : ServerReader.Act T E} (server : TcpServer Sock)
    (h : s.reader.step codec a = some reader) (hne : a ≠ .writer_exits) :
    ((s.withServer server).sync reader).work + s.reader.owed + s.unread =
      s.work + reader.owed + ((s.withServer server).sync reader).unread := by
  obtain ⟨sent, hq, hrx⟩ := ServerReader.step_queue h
  have hlen : ((s.withServer server).sync reader).writer.done_rx.length =
      s.writer.done_rx.length + sent.length := by
    simp only [sync, withServer, hq, List.drop_left, List.length_append, List.length_map]
  have howed : reader.noti.queue.length = s.reader.noti.queue.length + sent.length := by
    rw [hq, List.length_append]
  simp only [work, hlen, ServerReader.owed, howed]
  simp only [sync, withServer, hrx hne]
  omega

omit [ServerTaskDecode C T] in
theorem move_work {w : Writer R} (h : Writer.Move codec s.writer w) :
    4 * w.done_rx.length + w.pc.work + 1 ≤ 4 * s.writer.done_rx.length + s.writer.pc.work ∧
      w.conn.rest = s.writer.conn.rest := by
  have hflush := ServerConn.writing_keeps_rest AsyncBufStream.flush_keeps s.writer.conn
  cases h with
  | take hpc hrx => rcases hpc with hpc | hpc <;> simp [hpc, hrx, WriterPc.work] <;> omega
  | hung_up hpc | drained hpc => simp [hpc, WriterPc.work]
  | @wrote task _ hpc hr | @write_err task _ _ hpc hr =>
    have hk := ServerConn.process_keeps_rest codec task s.writer.conn
    rw [hr] at hk
    exact ⟨by simp [hpc, WriterPc.work], hk⟩
  | flushed hpc hr | closed hpc hr =>
    rw [ServerConn.flush_resp] at hr
    rw [hr] at hflush
    exact ⟨by simp [hpc, WriterPc.work], hflush⟩
  | flush_err hpc hr =>
    rw [ServerConn.flush_resp] at hr
    rw [hr] at hflush
    exact ⟨by rcases hpc with hpc | hpc <;> simp [hpc, WriterPc.work], hflush⟩

/-- Each step but the work of a handler on its task takes away from what is left. -/
theorem step_work (hk : s.reader.Known) (h : s.step codec a = some s') :
    s'.work + (if a.settles then 1 else 0) ≤ s.work := by
  cases step_cases h with
  | @read_ok req server reader hr hread =>
    obtain ⟨hpc, howed⟩ := ServerReader.owed_read hk hread
    have hsync := sync_work server hread (by rintro ⟨⟩)
    have hleft : server.Left _ := TcpServer.read_req_left _ _ req server (Nat.le_refl _) hr
    have hold : s.unread = (s.writer.conn.server.unread Sock.inbound).length := by
      simp only [unread, hpc]
    have hnew :
        ((s.withServer server).sync reader).unread ≤ (server.unread Sock.inbound).length := by
      unfold unread
      split
      · exact Nat.zero_le _
      · exact Nat.le_refl _
    simp only [TcpServer.Left, RPC_REQ_HEADER_LEN] at hleft
    simp only [Act.settles, if_true]
    omega
  | @read_err e server reader hr hread =>
    obtain ⟨hpc, howed⟩ := ServerReader.owed_err hread
    have hsync := sync_work server hread (by rintro ⟨⟩)
    have hnew : ((s.withServer server).sync reader).unread = 0 := by simp only [unread, sync, hpc]
    simp only [Act.settles, if_true]
    omega
  | @handler reader b ha hb =>
    have hsync : (s.sync reader).work + s.reader.owed + s.unread =
        s.work + reader.owed + (s.sync reader).unread :=
      sync_work s.writer.conn.server hb (ServerReader.ne_exits ha)
    have howed := ServerReader.owed_handler hk ha hb
    have hnew : (s.sync reader).unread ≤ s.unread := by
      unfold unread
      split
      · exact Nat.zero_le _
      · split
        · exact absurd (ServerReader.returned_stays ‹_› hb) ‹_›
        · exact Nat.le_refl _
    show (s.sync reader).work + (if b.settles then 1 else 0) ≤ s.work
    omega
  | write hm =>
    obtain ⟨hwork, hrest⟩ := move_work hm
    have hunread := ServerConn.rest_unread hrest
    simp only [work, unread, Act.settles, if_true, hunread]
    omega
  | drop_noti _ hn =>
    simp only [work, unread, Act.settles, hn, Bool.toNat_true, Bool.toNat_false, if_true]
    omega
  | drop_reader hr =>
    simp only [work, unread, Act.settles, hr, Bool.toNat_true, Bool.toNat_false, if_true]
    omega
  | drop_rx _ hrx =>
    simp only [work, unread, Act.settles, hrx, ServerReader.tasksLeft, Bool.toNat_true,
      Bool.toNat_false, if_true]
    omega
  | drop_writer hw => simp [work, unread, Act.settles, hw]

omit [ServerTaskEncode C R] [ServerTaskDecode C T] [ServerTaskDone T R E] in
/-- What the peer sends has to be read. -/
theorem feed_work (s : ServedConn T R) (bs : Bytes) (evs : List ReadEv) :
    (s.feed bs evs).work ≤ s.work + bs.length := by
  have hunread : (s.feed bs evs).unread ≤ s.unread + bs.length := by
    have hfeed := congrArg List.length (TcpServer.unread_feed s.writer.conn.server bs evs)
    rw [List.length_append] at hfeed
    cases hpc : s.reader.pc with
    | returned =>
      simp only [unread, ServedConn.feed, withServer, hpc]
      exact Nat.zero_le _
    | read_req | dispatch =>
      simp only [unread, ServedConn.feed, withServer, hpc]
      exact Nat.le_of_eq hfeed
  simp only [work, ServedConn.feed, withServer] at hunread ⊢
  omega

/-- Neither the reads nor the writes wait for ever. -/
def Timed (s : ServedConn T R) : Prop := s.writer.conn.server.Timed ∧ s.writer.conn.Timed

theorem Timed.step (ht : s.Timed) (h : s.step codec a = some s') : s'.Timed := by
  have hread {r : Poll (Except RpcIntErr RpcSvrReq)} {server : TcpServer Sock}
      (hr : TcpServer.read_req s.writer.conn.server = (r, server)) : server.Timed := by
    have hk := TcpServer.read_req_keeps_rest (f := TcpServer.read_timeout)
      (fun _ _ => rfl) s.writer.conn.server
    rw [hr] at hk
    unfold TcpServer.Timed
    rw [hk]
    exact ht.1
  cases step_cases h with
  | read_ok hr => exact ⟨hread hr, ht.2⟩
  | read_err hr => exact ⟨hread hr, ht.2⟩
  | handler | drop_noti | drop_reader | drop_rx | drop_writer => exact ht
  | @write w hm =>
    have hrest := (move_work hm).2
    simp only [ServerConn.rest, Prod.mk.injEq] at hrest
    obtain ⟨-, hw, hr, -⟩ := hrest
    refine ⟨?_, ?_⟩
    · show w.conn.server.read_timeout ≠ 0
      rw [hr]
      exact ht.1
    · show w.conn.write_timeout ≠ 0
      rw [hw]
      exact ht.2

end ServedConn

theorem ServerReader.step_read_req {C T R : Type} (E : Type) [ServerTaskDecode C T]
    [ServerTaskDone T R E] {codec : C} {s : ServerReader T R} (hpc : s.pc = .read_req)
    (req : RpcSvrReq) :
    (s.step codec (.read_req req : Act T E)).isSome = true := by
  simp only [step, hpc]
  repeat' split
  all_goals rfl

/-- The writer waits for nothing but a response, as long as some can come. -/
theorem Writer.run_isSome {C R : Type} [ServerTaskEncode C R] {codec : C} {w : Writer R}
    (ht : w.conn.Timed) (hpc : w.pc ≠ .returned) (hs : w.senders = false) :
    (w.run codec).isSome = true := by
  have hwrites {x : Async (ServerConn Sock) IoErr Unit} (hx : Async.Ends ServerConn.Timed x)
      (bs : Bytes) (pc : WriterPc R) :
      (w.writes x bs pc).isSome = true := by
    have hend := hx w.conn ht
    unfold writes
    split
    · rename_i hr
      rw [hr] at hend
      exact absurd rfl hend
    · rfl
    · rfl
  unfold run
  split
  · split
    · rfl
    · rw [hs]
      rfl
  · exact hwrites (ServerConn.process_ends codec _) _ _
  · split <;> rfl
  · exact hwrites (ServerConn.writing_ends _) _ _
  · exact hwrites (ServerConn.writing_ends _) _ _
  · exact absurd ‹_› hpc

namespace ServedConn

variable {C T R E : Type} [ServerTaskEncode C R] [ServerTaskDecode C T] [ServerTaskDone T R E]
  {codec : C}
  {s : ServedConn T R}

/-- A connection that is not dropped waits for nothing but its handlers. -/
theorem progress (hs : Sound codec s) (ht : s.Timed) (hg : s.gone = false) :
    s.handling = true ∨ ∃ a : Act T E, a.serves = true ∧ (s.step codec a).isSome = true := by
  cases hpc : s.reader.pc with
  | read_req =>
    refine .inr ⟨.read_req, rfl, ?_⟩
    have hend := TcpServer.read_req_ends s.writer.conn.server ht.1
    simp only [step]
    split
    · rename_i hr
      rw [hr] at hend
      exact absurd rfl hend
    · rw [Option.isSome_map]
      exact ServerReader.step_read_req E hpc _
    · simp [ServerReader.step, hpc]
  | dispatch => exact .inl (by simp [handling, hpc])
  | returned =>
    cases hlive : s.reader.live with
    | true => exact .inl (by simp [handling, hlive])
    | false =>
      right
      cases hn : s.noti with
      | true => exact ⟨.drop_noti, rfl, by simp [step, hpc, hn]⟩
      | false =>
        by_cases hw : s.writer.pc = .returned
        · cases hr : s.reader_conn with
          | true => exact ⟨.drop_reader, rfl, by simp [step, hr, hn]⟩
          | false =>
            have hwc : s.writer_conn = true := by simpa [gone, hr] using hg
            cases hrx : s.reader.noti.rx with
            | true => exact ⟨.drop_rx, rfl, by simp [step, hw, ServerReader.step, hrx]⟩
            | false => exact ⟨.drop_writer, rfl, by simp [step, hwc, hrx]⟩
        · refine ⟨.write, rfl, ?_⟩
          simp only [step, Option.isSome_map]
          exact Writer.run_isSome ht.2 hw (by rw [hs.senders, hn, hlive]; rfl)

end ServedConn

end OccamsRpc
