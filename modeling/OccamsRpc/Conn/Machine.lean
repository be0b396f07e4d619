import OccamsRpc.Client.Timer
import OccamsRpc.Lib.Runs
/-!
# One client connection

`ClientStreamInner` of `stream/src/client/stream.rs` as two threads over shared
atomics, the pending channel and the timer: the owner of the `ClientStream`, who
makes one call at a time, and the receive coroutine with its one-second ticker.
One step is one shared access, or one answer of the outside (a codec, the
transport, the throttler), so a run is a sequentially consistent interleaving.

The receive coroutine owns a task between `take_task` and its completion, in the
local state of a future that `ReceiverTimerFuture` may stop polling; what it owns
is therefore part of its program counter. The lists at the end of `Conn` record
what happened and are read by no step.
-/
open Lib

namespace OccamsRpc.Conn

/-- A response header as it arrives. -/
structure Frame where
  seq : Nat
  flag : Nat
  msg_len : Nat
  blob_len : Int
  deriving DecidableEq

/-- A task: which `send_task` call brought it, and the seq it was given. -/
structure Task where
  id : Nat
  seq : Nat
  deriving DecidableEq

instance : HasSeq Task := ⟨Task.seq⟩

/-- What a task is completed with. -/
inductive Outcome
  | resp (f : Frame)
  | io
  | timeout
  deriving DecidableEq

/-! ## Program counters -/

/-- The straight-line rest of a call. -/
inductive Op
  | store_closed
  | store_has_err
  | fetch_sub
  | stop_reg_task
  | close_send
  | close_drop
  /-- `set_rpc_error(IO)` and `error_handle`. -/
  | fail (id : Nat)
  /-- `send_task` returns. -/
  | ret (id : Nat) (ok : Bool)
  deriving DecidableEq

/-- Where the owner of the stream is: in no call, or in one of its statements. -/
inductive SendPc
  | idle
  /-- `send_task`, up to the `fetch_add`, the load of `closed`, and so on. -/
  | count (id : Nat) (need_flush : Bool)
  | test (id : Nat) (need_flush : Bool)
  | encode (id : Nat) (need_flush : Bool)
  | write (t : Task) (need_flush : Bool)
  | reg (t : Task)
  | throttle (id : Nat)
  | ping_test
  | ping_encode
  | ping_write (seq : Nat)
  | flush
  /-- `close_conn` of `set_error_and_exit`. -/
  | closing
  | run (ops : List Op) (last : Bool)
  /-- The `ClientStream` has been dropped. -/
  | gone
  deriving DecidableEq

/-- What of a body is being read for a task that was taken. -/
inductive Stage
  | start
  | msg
  | blob
  | err_str
  deriving DecidableEq

/-- Where the receive future is. -/
inductive RecvPc
  /-- The loop of `recv_one_resp`. -/
  | top
  /-- `check_pending_tasks_empty`, its receive loop and what follows. -/
  | drain
  | emptied
  /-- Reading a header, with or without the close channel. -/
  | head (cancellable : Bool)
  /-- `WaitRegTaskFuture`, and the receive loop of its poll. -/
  | wait (f : Frame)
  | waiting (f : Frame)
  | hold (f : Frame) (t : Task) (st : Stage)
  /-- `_recv_and_dump`; `guard` is whether the task item lives until it is done. -/
  | dump (f : Frame) (guard : Bool)
  deriving DecidableEq

/-- The receive coroutine: between polls of `ReceiverTimerFuture`, at its three
parts, or in the exit of `receive_loop`. -/
inductive RecvState
  | suspended (pc : RecvPc)
  | ticking (pc : RecvPc)
  | sent (pc : RecvPc)
  | running (pc : RecvPc)
  | exiting
  | cleaning
  | failing
  | testing
  | returned
  | panicked
  deriving DecidableEq

end OccamsRpc.Conn

namespace OccamsRpc

open Conn in
/-- `next_seq` is the counter of `seq_update`, an `AtomicU64` that starts at one: it is a
number here and does not wrap, so a run stands for the code's as long as fewer than
`2 ^ 64` seqs were given out. -/
structure Conn where
  next_seq : Nat
  closed : Bool
  has_err : Bool
  /-- Messages in the close channel, and whether its sender was dropped. -/
  close_msgs : Nat
  close_dropped : Bool
  timer : ClientTaskTimer Task
  thresholds : Nat
  sender : SendPc
  receiver : RecvState
  /-- The task items in a receive future that is not polled any more: it lives until
  `receive_loop` returns. -/
  given_up : Nat
  /-- How many `send_task` calls were made. -/
  next_id : Nat
  /-- The seq given to each task. -/
  assigned : List (Nat × Nat)
  /-- The tasks whose request was handed to the transport, and the pings. -/
  wrote : List Task
  pinged : List Nat
  pushed : List Nat
  taken : List Nat
  completed : List (Nat × Outcome)
  returned : List (Nat × Bool)
  /-- Tasks dropped by `send_request`, and with the receive future. -/
  lost_send : List Nat
  lost_recv : List Nat

namespace Conn

/-- `ClientStream::new`. Seq 0 is never given out, and a threshold of 0 stands for 128. -/
def new (thresholds task_timeout : Nat) : Conn where
  next_seq := 1
  closed := false
  has_err := false
  close_msgs := 0
  close_dropped := false
  timer := .new task_timeout
  thresholds := if thresholds = 0 then 128 else thresholds
  sender := .idle
  receiver := .suspended .top
  given_up := 0
  next_id := 0
  assigned := []
  wrote := []
  pinged := []
  pushed := []
  taken := []
  completed := []
  returned := []
  lost_send := []
  lost_recv := []

/-! ## The owner of the stream -/

/-- The calls of the owner, and what its steps depend on. -/
inductive SendAct
  | send_task (need_flush : Bool)
  | send_ping_req
  | flush_req
  | set_error_and_exit
  | drop
  /-- The next step of the call, where nothing outside decides it. -/
  | next
  | encoded (ok : Bool)
  | written (ok : Bool)
  | registered
  | throttled
  deriving DecidableEq

/-- The task the receive coroutine owns. -/
def RecvPc.held : RecvPc → Option Task
  | .hold _ t _ => some t
  | _ => none

/-- The task taken out of the table for the response that is being read. -/
def RecvState.held : RecvState → Option Task
  | .suspended pc | .ticking pc | .sent pc | .running pc => pc.held
  | _ => none

/-- The task items in the receive future. -/
def RecvPc.guards : RecvPc → Nat
  | .hold .. => 1
  | .dump _ guard => if guard then 1 else 0
  | _ => 0

/-- How many tasks are out of the table and count as in flight. -/
def RecvState.guards : RecvState → Nat
  | .suspended pc | .ticking pc | .sent pc | .running pc => pc.guards
  | _ => 0

/-- The guards of the throttler's wait group: one for each registered task item. -/
def inflight (s : Conn) : Nat :=
  (match s.sender with | .reg _ => 1 | _ => 0) + s.timer.items.length + s.receiver.guards + s.given_up

/-- One statement of the rest of a call. -/
def exec (s : Conn) : Op → Conn
  | .store_closed => { s with closed := true }
  | .store_has_err => { s with has_err := true }
  | .fetch_sub =>
    { s with timer := { s.timer with pending_task_count := s.timer.pending_task_count - 1 } }
  | .stop_reg_task => { s with timer := s.timer.stop_reg_task }
  | .close_send => { s with close_msgs := s.close_msgs + 1 }
  | .close_drop => { s with close_dropped := true }
  | .fail id => { s with completed := s.completed ++ [(id, .io)] }
  | .ret id ok => { s with returned := s.returned ++ [(id, ok)] }

/-- `send_task` when the connection is closed. -/
def closed_ops (id : Nat) : List Op := [.fail id, .fetch_sub, .ret id false]

/-- The end of `send_task` when `ReqHead::encode` failed. -/
def encode_err_ops (id : Nat) : List Op := [.store_closed, .store_has_err, .ret id false]

/-- The end of `send_request`, then of `send_task`, when the write failed. -/
def write_err_ops (id : Nat) : List Op :=
  [.store_closed, .store_has_err, .fetch_sub, .stop_reg_task, .fail id, .store_closed,
    .store_has_err, .ret id false]

/-- `flush_req` on an error of the transport. -/
def flush_err_ops : List Op := [.store_closed, .store_has_err, .stop_reg_task]

/-- `Drop for ClientStream`. -/
def drop_ops : List Op := [.close_drop, .stop_reg_task, .store_closed]

/-- A step of the owner. -/
def send (s : Conn) (a : SendAct) : Option Conn :=
  match s.sender, a with
  | .idle, .send_task need_flush =>
    some { s with
      sender := .count s.next_id (need_flush || s.inflight + 1 > s.thresholds)
      next_id := s.next_id + 1 }
  | .count id need_flush, .next =>
    some { s with
      sender := .test id need_flush
      timer := { s.timer with pending_task_count := s.timer.pending_task_count + 1 } }
  | .test id need_flush, .next =>
    if s.closed then some { s with sender := .run (closed_ops id) false }
    else some { s with sender := .encode id need_flush }
  | .encode id need_flush, .encoded ok =>
    let s := { s with next_seq := s.next_seq + 1, assigned := s.assigned ++ [(id, s.next_seq)] }
    let t := ⟨id, s.next_seq - 1⟩
    if ok then some { s with sender := .write t need_flush, wrote := s.wrote ++ [t] }
    else some { s with sender := .run (encode_err_ops id) false, lost_send := s.lost_send ++ [id] }
  | .write t _, .written ok =>
    if ok then some { s with sender := .reg t } else some { s with sender := .run (write_err_ops t.id) false }
  | .reg t, .registered =>
    -- the channel is bounded by twice the thresholds
    if s.timer.pending_tasks.length < 2 * s.thresholds then
      some { s with sender := .throttle t.id, timer := s.timer.reg_task t, pushed := s.pushed ++ [t.id] }
    else none
  | .throttle id, .throttled =>
    if s.inflight ≤ s.thresholds
      then some { s with sender := .idle, returned := s.returned ++ [(id, true)] } else none
  | .idle, .send_ping_req => some { s with sender := .ping_test }
  | .ping_test, .next =>
    if s.closed then some { s with sender := .idle } else some { s with sender := .ping_encode }
  | .ping_encode, .next =>
    some { s with
      sender := .ping_write s.next_seq, next_seq := s.next_seq + 1,
      pinged := s.pinged ++ [s.next_seq] }
  | .ping_write _, .written ok =>
    if ok then some { s with sender := .idle } else some { s with sender := .run [.store_closed] false }
  | .idle, .flush_req => some { s with sender := .flush }
  | .flush, .written ok =>
    if ok then some { s with sender := .idle } else some { s with sender := .run flush_err_ops false }
  | .idle, .set_error_and_exit => some { s with sender := .closing, has_err := true }
  | .closing, .next => some { s with sender := .run [.close_send] false }
  | .idle, .drop => some { s with sender := .run drop_ops true }
  | .run [] last, .next => some { s with sender := if last then .gone else .idle }
  | .run (op :: ops) last, .next => some { s.exec op with sender := .run ops last }
  | _, _ => none

/-! ## The receive coroutine -/

/-- The steps of the receiver, and what they depend on. -/
inductive RecvAct
  /-- `ReceiverTimerFuture` is polled. -/
  | poll
  /-- The ticker fired. -/
  | tick
  /-- The next step, where nothing outside decides it. -/
  | next
  /-- A response header was read. -/
  | header (f : Frame)
  | header_err
  /-- The close channel cancels the wait for a header. -/
  | cancelled
  /-- The next part of a body was read; `has_blob` is whether the task has a
  field for it. -/
  | part (has_blob : Bool)
  | part_err
  /-- The read is left waiting. -/
  | blocked
  deriving DecidableEq

/-- What follows a part of the body. -/
inductive Next
  | stage (st : Stage)
  | finish
  | no_blob
  | panic

/-- A task without a field for the blob is completed first, and the blob dumped after it. -/
def after_msg (f : Frame) (has_blob : Bool) : Next :=
  if f.blob_len > 0 then (if has_blob then .stage .blob else .no_blob) else .finish

/-- The part of a response that `read_resp` reads next. The flag says whether it carries a
result, an errno or an error text. No buffer is as long as a negative `blob_len`, and no
flag is above 2: both are panics. -/
def next_part (f : Frame) (has_blob : Bool) : Stage → Next
  | .start =>
    if f.flag = 1 then .finish
    else if f.flag = 2 then (if f.blob_len < 0 then .panic else .stage .err_str)
    else if f.flag > 2 then .panic
    else if f.msg_len > 0 then .stage .msg
    else after_msg f has_blob
  | .msg => after_msg f has_blob
  | .blob => .finish
  | .err_str => .finish

/-- The search of `take_task`, and where `read_resp` goes on. -/
def take (s : Conn) (f : Frame) : Conn :=
  match s.timer.remove_task f.seq with
  | (some t, tm) =>
    { s with timer := tm, receiver := .running (.hold f t .start), taken := s.taken ++ [t.id] }
  | (none, tm) => { s with timer := tm, receiver := .running (.dump f false) }

/-- The receive future is not polled any more, and the task it owns will never be
completed. When `receive_loop` goes on to its exit the future is still there, and with it
the guard of the task; a panic drops both. -/
def abandon (s : Conn) (r : RecvState) : Conn :=
  { s with
    receiver := r
    given_up := if r = .exiting then s.receiver.guards else 0
    lost_recv := s.lost_recv ++ (s.receiver.held.toList.map Task.id) }

/-- The receiver gives a task its outcome and goes on. -/
def complete (s : Conn) (t : Task) (o : Outcome) (r : RecvState) : Conn :=
  { s with receiver := r, completed := s.completed ++ [(t.id, o)] }

/-- The next step of the coroutine. -/
def recv_next (s : Conn) : RecvState → Option Conn
  | .ticking pc =>
    if s.has_err then some (s.abandon .exiting) else some { s with receiver := .sent pc }
  | .sent pc =>
    match s.timer.recv_pending with
    | some tm => some { s with timer := tm }
    | none => some { s with receiver := .running pc }
  | .running .top =>
    if s.closed then some { s with receiver := .running .drain }
      else some { s with receiver := .running (.head true) }
  | .running .drain =>
    match s.timer.recv_pending with
    | some tm => some { s with timer := tm }
    | none => some { s with receiver := .running .emptied }
  | .running .emptied =>
    if s.timer.tasks_empty || s.has_err then some { s with receiver := .exiting }
    else some { s with receiver := .running (.head false) }
  | .running (.wait f) =>
    if s.timer.processed_seq ≥ f.seq then some (s.take f)
    else if s.timer.reg_stopped_flag then some { s with receiver := .running (.dump f false) }
    else some { s with receiver := .running (.waiting f) }
  | .running (.waiting f) =>
    match s.timer.recv_pending with
    | some tm => some { s with timer := tm }
    | none =>
      if s.timer.processed_seq ≥ f.seq
        then some (s.take f) else some { s with receiver := .suspended (.wait f) }
  | .exiting => some { s with receiver := .cleaning, closed := true }
  | .cleaning =>
    match s.timer.recv_pending with
    | some tm => some { s with timer := tm }
    | none => some { s with receiver := .failing }
  | .failing =>
    let (ts, tm) := s.timer.fail_tasks
    some { s with timer := tm, receiver := .testing, completed := s.completed ++ ts.map fun t => (t.id, .io) }
  | .testing =>
    if s.timer.pending_task_count > 0 then some { s with receiver := .cleaning }
    else some { s with receiver := .returned, given_up := 0 }
  | _ => none

/-- A step of the receive coroutine. `Buffer::alloc` panics for some of the lengths that
`dump` can meet; the coroutine holds no task there, so such a panic is a run in which it
stays in `dump` for good. -/
def recv (s : Conn) (a : RecvAct) : Option Conn :=
  match s.receiver, a with
  | r, .next => s.recv_next r
  | .suspended pc, .poll => some { s with receiver := .ticking pc }
  | .ticking _, .tick =>
    let (ts, tm) := s.timer.adjust_task_queue
    some { s with timer := tm, completed := s.completed ++ ts.map fun t => (t.id, .timeout) }
  | .running (.head _), .header f =>
    if f.seq < s.timer.min_delay_seq then some { s with receiver := .running (.dump f false) }
    else if f.seq > s.timer.processed_seq then some { s with receiver := .running (.wait f) }
    else some (s.take f)
  | .running (.head _), .header_err => some { s with receiver := .exiting }
  | .running (.head true), .cancelled =>
    -- a message is received, or the sender is gone; `recv_one_resp` stores the flag and goes round
    if s.close_msgs > 0 ∨ s.close_dropped then
      some { s with receiver := .running .top, closed := true, close_msgs := s.close_msgs - 1 }
    else none
  | .running (.head c), .blocked => some { s with receiver := .suspended (.head c) }
  | .running (.hold f t st), .part has_blob =>
    match next_part f has_blob st with
    | .stage st' => some { s with receiver := .running (.hold f t st') }
    | .finish => some (s.complete t (.resp f) (.running .top))
    | .no_blob => some (s.complete t (.resp f) (.running (.dump f true)))
    | .panic => some (s.abandon .panicked)
  | .running (.hold _ t st), .part_err =>
    if st = .start then none else some (s.complete t .io .exiting)
  | .running (.hold f t st), .blocked =>
    if st = .start then none else some { s with receiver := .suspended (.hold f t st) }
  | .running (.dump ..), .part _ => some { s with receiver := .running .top }
  | .running (.dump ..), .part_err => some { s with receiver := .exiting }
  | .running (.dump f guard), .blocked => some { s with receiver := .suspended (.dump f guard) }
  | _, _ => none

/-- A connection has two parties, the owner of the stream and its receiver coroutine. -/
inductive Act
  | snd (a : SendAct)
  | rcv (a : RecvAct)
  deriving DecidableEq

/-- Any interleaving of the two. -/
def step (s : Conn) : Act → Option Conn
  | .snd a => s.send a
  | .rcv a => s.recv a

/-- A call that goes well. -/
def sampleSend : List Act :=
  [.snd (.send_task true), .snd .next, .snd .next, .snd (.encoded true), .snd (.written true),
    .snd .registered, .snd .throttled]

/-- From waiting for a response to reading its header, with one task to drain. -/
def sampleWake : List Act := [.rcv .poll, .rcv .next, .rcv .next, .rcv .next, .rcv .next]

end Conn

end OccamsRpc
