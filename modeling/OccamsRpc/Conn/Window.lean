import OccamsRpc.Client.Facts
import OccamsRpc.Conn.Inv
import OccamsRpc.Tcp.Passed
/-!
# The sliding window

The owner's calls with the transport they write to: `Wired` runs `write_req` and
`flush_req` of the TCP client where the owner's side of `Conn` only asks whether
they succeeded. A guard is added after the write and compared with the thresholds
in `throttle`; the receive coroutine releases guards at any moment, and adds none.
-/
open Lib

namespace OccamsRpc.Conn

/-! ## The guards -/

theorem RecvPc.guards_le (pc : RecvPc) : pc.guards ≤ 1 := by
  cases pc with
  | hold f t st => exact Nat.le_refl _
  | dump f guard => cases guard <;> simp [guards]
  | _ => exact Nat.zero_le _

theorem pending_le_items (tm : ClientTaskTimer Task) :
    tm.pending_tasks.length ≤ tm.items.length := by
  rw [ClientTaskTimer.items, List.length_append]
  omega

/-- The receive coroutine releases guards, and adds none. -/
theorem RecvMove.inflight_le {s s' : Conn} {a : RecvAct} (hn : Numbered s) (h : RecvMove s a s') :
    s'.inflight ≤ s.inflight := by
  have hsender := h.frame.sender
  simp only [inflight, hsender]
  -- what is given up with the future was in it
  suffices s'.timer.items.length + (s'.receiver.guards + s'.given_up) ≤
      s.timer.items.length + (s.receiver.guards + s.given_up) by omega
  cases h with
  | tick h hq =>
    have hi := (ClientTaskTimer.adjust_task_queue_items hq).length_eq
    rw [List.length_append] at hi
    simp only
    omega
  | pop h _ =>
    exact Nat.add_le_add_right
      (Nat.le_of_eq (ClientTaskTimer.recv_pending_items hn.wf h).length_eq) _
  | found hl hb hq =>
    have hi := (ClientTaskTimer.remove_task_items hq).length_eq
    rw [List.length_cons] at hi
    simp only [RecvState.guards, RecvPc.guards]
    omega
  | finish pc h _ _ =>
    have hg := pc.guards_le
    simp only [complete, h, RecvState.guards]
    exact Nat.add_le_add_left (Nat.add_le_add_right hg _) _
  | fail h =>
    have hle := pending_le_items s.timer
    rw [← (ClientTaskTimer.fail_tasks_items s.timer).2] at hle
    exact Nat.add_le_add hle (Nat.add_le_add_right (Nat.zero_le _) _)
  | other r c m _ _ _ _ hg _ => exact Nat.add_le_add_left (Nat.add_le_add_right hg _) _
  | has_err =>
    refine Nat.add_le_add_left ?_ _
    show 0 + s.receiver.guards ≤ _
    omega
  | panic | leave => exact Nat.add_le_add_left (Nat.zero_le _) _
  | wait | sleep | part_err | store | cleaned | again =>
    exact Nat.add_le_add_left (Nat.add_le_add_right (Nat.zero_le _) _) _

/-- The guard of a task that is being registered. -/
def SendPc.guards : SendPc → Nat
  | .reg _ => 1
  | _ => 0

theorem inflight_eq (s : Conn) :
    s.inflight = s.sender.guards + (s.timer.items.length + s.receiver.guards + s.given_up) := by
  rw [inflight, Nat.add_assoc, Nat.add_assoc, Nat.add_assoc]
  cases s.sender <;> rfl

/-- Whether the window allows `n` guards at a point of a call. `flushed` is
whether the write buffer is empty. -/
def SendPc.Allows (thresholds : Nat) (flushed : Prop) (n : Nat) : SendPc → Prop
  | .count _ need_flush | .test _ need_flush | .encode _ need_flush | .write _ need_flush =>
    n ≤ thresholds ∧ (need_flush = false → n < thresholds)
  | .reg _ | .throttle _ => n ≤ thresholds + 1 ∧ (n ≤ thresholds ∨ flushed)
  | _ => n ≤ thresholds

section
variable {pc : SendPc} {thresholds n m : Nat} {F : Prop}

theorem SendPc.Allows.mono (h : pc.Allows thresholds F n) (hm : m ≤ n) :
    pc.Allows thresholds F m := by
  cases pc with
  | count | test | encode | write =>
    exact ⟨Nat.le_trans hm h.1, fun hf => Nat.lt_of_le_of_lt hm (h.2 hf)⟩
  | reg | throttle => exact ⟨Nat.le_trans hm h.1, h.2.imp_left (Nat.le_trans hm)⟩
  | _ => exact Nat.le_trans hm h

theorem SendPc.Allows.le (h : pc.Allows thresholds F n) : n ≤ thresholds + 1 := by
  cases pc with
  | count | test | encode | write => exact Nat.le_succ_of_le h.1
  | reg | throttle => exact h.1
  | _ => exact Nat.le_succ_of_le h

theorem SendPc.free_guards (h : pc.free = true) : pc.guards = 0 := by
  cases pc <;> first | rfl | simp [free] at h

theorem SendPc.free_allows (h : pc.free = true) : pc.Allows thresholds F n ↔ n ≤ thresholds := by
  cases pc <;> first | rfl | simp [free] at h

end

/-- The window at the point the owner is at. -/
def Within (flushed : Prop) (s : Conn) : Prop := s.sender.Allows s.thresholds flushed s.inflight

/-- A step of the owner keeps the window, when what `reg_task` finds flushed stays
flushed and a write with `need_flush` flushes. -/
theorem Within.send {F F' : Prop} {s s' : Conn} {a : SendAct} (hw : Within F s)
    (h : SendMove s a s') (hreg : ∀ t, s.sender = .reg t → F → F')
    (hwrite : ∀ t, s.sender = .write t true → a = .written true → F') :
    Within F' s' := by
  unfold Within at hw ⊢
  rw [inflight_eq] at hw ⊢
  cases h with
  | call nf h hnf =>
    rw [h] at hw
    refine ⟨hw, ?_⟩
    rintro rfl
    have hlt := of_decide_eq_false (Bool.or_eq_false_iff.1 hnf.symm).2
    rw [inflight_eq, h] at hlt
    exact Nat.lt_of_not_le fun hle => hlt (Nat.lt_succ_of_le hle)
  | count h | opened h _ =>
    rw [h] at hw
    exact hw
  | encode_ok h =>
    rw [h] at hw
    exact hw
  | closed h _ | encode_err h | write_err h =>
    rw [h] at hw
    exact hw.1
  | @write_ok t nf h =>
    rw [h] at hw
    obtain ⟨hle, hlt⟩ := hw
    simp only [SendPc.guards, SendPc.Allows, Nat.zero_add] at hle hlt ⊢
    cases nf with
    | false => exact ⟨by omega, .inl (by have := hlt rfl; omega)⟩
    | true => exact ⟨by omega, .inr (hwrite t h rfl)⟩
  | @register t h hroom =>
    have hi := (ClientTaskTimer.reg_task_items s.timer t).length_eq
    rw [h] at hw
    simp only [SendPc.guards, SendPc.Allows, hi, List.length_cons] at hw ⊢
    exact ⟨by omega, hw.2.imp (by omega) (hreg t h)⟩
  | unthrottle h hle =>
    rw [inflight_eq, h] at hle
    exact hle
  | ping h =>
    rw [h] at hw
    exact hw
  | @op op ops last h =>
    rw [h] at hw
    cases op <;> exact hw
  | other pc e h h' _ _ =>
    rw [SendPc.free_guards h, SendPc.free_allows h] at hw
    rw [SendPc.free_guards h', SendPc.free_allows h']
    exact hw

theorem Within.recv {F : Prop} {s s' : Conn} {a : RecvAct} (hn : Numbered s) (hw : Within F s)
    (h : RecvMove s a s') (ht : s'.thresholds = s.thresholds) : Within F s' := by
  unfold Within at hw ⊢
  rw [h.frame.sender, ht]
  exact hw.mono (h.inflight_le hn)

theorem step_thresholds {s s' : Conn} {a : Act} (h : s.step a = some s') :
    s'.thresholds = s.thresholds := by
  cases a with
  | snd a =>
    cases send_cases h with
    | @op op => cases op <;> rfl
    | _ => rfl
  | rcv a => cases recv_cases h <;> rfl

end OccamsRpc.Conn

namespace OccamsRpc

open Conn

/-! ## The calls and their transport -/

/-- A connection with its TCP client. `written` is what the calls that returned
`Ok` gave to the transport; no step reads it. -/
structure Wired where
  conn : Conn
  client : TcpClient Sock
  written : Bytes

namespace Wired

section
variable (frame : Task → Bytes × Option Bytes) (ping : Nat → Bytes)

/-- The call of the transport in a step of the owner, and the bytes it writes.
`frame` gives the header, action and message of a task's request, and its blob. -/
def call : SendPc → SendAct → Option (Async (TcpClient Sock) IoErr Unit × Bytes)
  | .write t need_flush, .written _ =>
    some (TcpClient.write_req (frame t).1 (frame t).2 need_flush, (frame t).1 ++ (frame t).2.getD [])
  | .ping_write seq, .written _ => some (TcpClient.write_req (ping seq) none true, ping seq ++ [])
  | .flush, .written _ => some (TcpClient.flush_req, [])
  | .closing, .next => some (TcpClient.flush_req, [])
  | _, _ => none

/-- Whether the answer of the transport is the one the owner's step is about;
`close_conn` does not look at it. -/
def answers : SendAct → Except IoErr Unit → Bool
  | .written ok, r => r.isOk == ok
  | _, _ => true

/-- A step of the connection that calls the transport takes the result from it. -/
def step (w : Wired) (a : Act) : Option Wired := do
  let conn ← w.conn.step a
  match a with
  | .rcv _ => some { w with conn := conn }
  | .snd a =>
    match call frame ping w.conn.sender a with
    | none => some { w with conn := conn }
    | some (x, bs) =>
      match x w.client with
      | (.pending, _) => none
      | (.ready r, client) =>
        if answers a r then some ⟨conn, client, if r.isOk then w.written ++ bs else w.written⟩ else none

/-- No call of the transport fails. -/
def fine (w : Wired) : Act → Bool
  | .rcv _ => true
  | .snd a =>
    match call frame ping w.conn.sender a with
    | none => true
    | some (x, _) =>
      match (x w.client).1 with
      | .ready (.ok _) => true
      | _ => false

end

/-- `ClientStream::connect` once the socket is connected. -/
def connect (sock : Sock) (config : ClientConfig) (thresholds task_timeout : Nat) : Wired :=
  ⟨.new thresholds task_timeout, .connect sock config, []⟩

variable {frame : Task → Bytes × Option Bytes} {ping : Nat → Bytes} {w w' : Wired} {a : Act}

/-- A call of the transport that returns `Ok` has given it the bytes; only a write
without `need_flush` leaves some in the buffer. -/
theorem call_returns {pc : SendPc} {b : SendAct} {x : Async (TcpClient Sock) IoErr Unit}
    {bs : Bytes} (h : call frame ping pc b = some (x, bs)) (o : Bytes) :
    Async.Returns (TcpClient.Took (fun _ => True) Sock.sent o) x fun _ c =>
      c.Took (fun _ => True) Sock.sent (o ++ bs) ∧ ((∀ t, pc ≠ .write t false) → c.Flushed) := by
  have hflush := TcpClient.flush_req_returns Sock.passes o
  rw [← List.append_nil o] at hflush
  unfold call at h
  split at h
  case h_1 t nf _ =>
    cases h
    refine (TcpClient.write_req_returns Sock.passes o _ _ nf).weaken (fun _ hc => hc) ?_
    intro _ c hc
    refine ⟨hc.1, fun hne => hc.2 ?_⟩
    cases nf with
    | false => exact absurd rfl (hne t)
    | true => rfl
  case h_2 seq _ =>
    cases h
    refine (TcpClient.write_req_returns Sock.passes o (ping seq) none true).weaken (fun _ hc => hc) ?_
    intro _ c hc
    exact ⟨hc.1, fun _ => hc.2 rfl⟩
  case h_5 => cases h
  all_goals
    cases h
    refine hflush.weaken (fun _ hc => ?_) fun _ _ hc => ⟨hc.1, fun _ => hc.2⟩
    rwa [List.append_nil]

/-- A step in which no call of the transport fails. -/
theorem step_cases (h : step frame ping w a = some w') (hok : fine frame ping w a = true) :
    w.conn.step a = some w'.conn ∧
    ((w'.client = w.client ∧ w'.written = w.written ∧ ∀ b, a = .snd b →
      call frame ping w.conn.sender b = none) ∨
      ∃ b x bs, a = .snd b ∧ call frame ping w.conn.sender b = some (x, bs) ∧
        x w.client = (.ready (.ok ()), w'.client) ∧ w'.written = w.written ++ bs) := by
  obtain ⟨conn, hconn, h⟩ := Option.bind_eq_some_iff.1 h
  cases a with
  | rcv a =>
    cases h
    exact ⟨hconn, .inl ⟨rfl, rfl, nofun⟩⟩
  | snd b =>
    simp only [fine] at hok
    cases hc : call frame ping w.conn.sender b with
    | none =>
      simp only [hc] at h
      cases h
      refine ⟨hconn, .inl ⟨rfl, rfl, ?_⟩⟩
      rintro _ ⟨⟩
      exact hc
    | some p =>
      obtain ⟨x, bs⟩ := p
      simp only [hc] at h hok
      rcases hx : x w.client with ⟨(_ | _) | _, c⟩ <;> simp only [hx] at h hok
      · cases hok
      · split at h <;> cases h
        exact ⟨hconn, .inr ⟨b, x, bs, rfl, hc, hx, rfl⟩⟩
      · cases h

/-- What the stream was given is what the calls wrote. -/
theorem took_step {o : Bytes} (ht : w.client.Took (fun _ => True) Sock.sent (o ++ w.written))
    (hok : fine frame ping w a = true) (h : step frame ping w a = some w') :
    w'.client.Took (fun _ => True) Sock.sent (o ++ w'.written) := by
  rcases (step_cases h hok).2 with ⟨hc, hwr, -⟩ | ⟨b, x, bs, -, hc, hx, hwr⟩
  · rw [hc, hwr]
    exact ht
  · rw [hwr, ← List.append_assoc]
    exact (call_returns hc _ _ _ _ ht hx).1

/-! ## The window -/

/-- The requests that are not flushed are within the window, and what the transport took is
what was written to it. -/
structure Windowed (sock : Sock) (thresholds : Nat) (w : Wired) : Prop where
  numbered : Numbered w.conn
  thresholds : w.conn.thresholds = thresholds
  took : w.client.Took (fun _ => True) Sock.sent (sock.sent ++ w.written)
  within : Within w.client.Flushed w.conn

theorem Windowed.step {sock : Sock} {thresholds : Nat} (hw : Windowed sock thresholds w)
    (hok : fine frame ping w a = true) (h : step frame ping w a = some w') :
    Windowed sock thresholds w' := by
  obtain ⟨hconn, hcall⟩ := step_cases h hok
  refine ⟨hw.numbered.step hconn, (step_thresholds hconn).trans hw.thresholds, took_step hw.took hok h, ?_⟩
  cases a with
  | rcv a =>
    obtain ⟨hc, -⟩ | ⟨_, _, _, hb, -⟩ := hcall
    · rw [hc]
      exact hw.within.recv hw.numbered (recv_cases hconn) (step_thresholds hconn)
    · cases hb
  | snd b =>
    apply hw.within.send (send_cases hconn)
    · intro t ht hf
      rcases hcall with ⟨hc, -⟩ | ⟨_, x, bs, -, hc, -⟩
      · rwa [hc]
      · rw [ht] at hc
        cases hc
    · rintro t ht rfl
      rcases hcall with ⟨-, -, hc⟩ | ⟨_, x, bs, -, hc, hx, -⟩
      · have := hc _ rfl
        rw [ht] at this
        cases this
      · refine (call_returns hc _ _ _ _ hw.took hx).2 ?_
        rw [ht]
        nofun

theorem connect_took (sock : Sock) (config : ClientConfig) (thresholds task_timeout : Nat) :
    (connect sock config thresholds task_timeout).client.Took (fun _ => True) Sock.sent sock.sent := by
  have hcap : 0 < if config.stream_buf_size = 0 then CLIENT_DEFAULT_BUF_SIZE else config.stream_buf_size := by
    split
    · decide
    · omega
  refine ⟨⟨AsyncBufWrite.new_wf hcap, trivial⟩, ?_⟩
  simp [connect, TcpClient.connect, AsyncBufStream.out, AsyncBufStream.new, AsyncBufWrite.new,
    AsyncBufWrite.held]

theorem connect_windowed (sock : Sock) (config : ClientConfig) {thresholds : Nat}
    (ht : 1 ≤ thresholds) (task_timeout : Nat) :
    Windowed sock thresholds (connect sock config thresholds task_timeout) where
  numbered := new_numbered _ _
  thresholds := if_neg (Nat.ne_of_gt ht)
  took := by
    rw [show (connect sock config thresholds task_timeout).written = [] from rfl, List.append_nil]
    exact connect_took sock config thresholds task_timeout
  within := Nat.zero_le _

/-- The window holds at every moment of every run in which no write fails: at most
one guard more than the thresholds, none more when no call is in progress; a call
that waits in `throttle` has nothing in the write buffer; the channel has room
for each task. -/
theorem sliding_window {thresholds : Nat} (ht : 1 ≤ thresholds) (task_timeout : Nat)
    (frame : Task → Bytes × Option Bytes) (ping : Nat → Bytes) (sock : Sock) (config : ClientConfig)
    {tr : List (Wired × Act)} {w : Wired}
    (h : Run (step frame ping) (connect sock config thresholds task_timeout) tr w)
    (hok : Meets (fun w a => fine frame ping w a = true) tr) :
    Always (fun w => w.conn.inflight ≤ thresholds + 1 ∧
      (w.conn.sender = .idle → w.conn.inflight ≤ thresholds) ∧
      (∀ id, w.conn.sender = .throttle id → thresholds < w.conn.inflight →
        w.client.stream.write_buf.pos = 0 ∧ w.client.stream.inner.sent = sock.sent ++ w.written) ∧
      ∀ t, w.conn.sender = .reg t → w.conn.timer.pending_tasks.length < 2 * thresholds) tr w := by
  refine h.always _ (fun {tr w} h hok => ?_) hok
  have hw :=
    h.inv_of_meets (Windowed sock thresholds) (connect_windowed sock config ht task_timeout)
    (fun _ _ _ hw hok hs => hw.step hok hs) hok
  have hin : w.conn.sender.Allows thresholds w.client.Flushed w.conn.inflight :=
    hw.thresholds ▸ hw.within
  refine ⟨hin.le, ?_, ?_, ?_⟩
  · intro hs
    rwa [hs] at hin
  · intro id hs hlt
    rw [hs] at hin
    have hflushed := hin.2.resolve_left (Nat.not_le_of_lt hlt)
    exact ⟨hflushed, (hflushed.out_eq Sock.sent).symm.trans hw.took.2⟩
  · intro t hs
    have hle := hin.le
    have hp := pending_le_items w.conn.timer
    rw [inflight_eq, hs, SendPc.guards] at hle
    omega

/-- Two calls that ask for no flush. -/
def sampleCalls : List Act :=
  [.snd (.send_task false), .snd .next, .snd .next, .snd (.encoded true), .snd (.written true),
    .snd .registered,
    .snd .throttled, .snd (.send_task false), .snd .next, .snd .next, .snd (.encoded true),
    .snd (.written true),
    .snd .registered]

/-- With a window of one the second call flushes both requests and waits. -/
theorem sliding_window_full :
    let sock : Sock := ⟨[], [], [.accept 2, .accept 9], []⟩
    let frame : Task → Bytes × Option Bytes := fun t => ([7, .ofNat t.seq], none)
    ∃ tr w, Run (step frame fun _ => []) (connect sock ⟨0, 0, 16⟩ 1 1) tr w ∧
      w.conn.sender = .throttle 1 ∧
      w.conn.inflight = 2 ∧ w.client.stream.write_buf.pos = 0 ∧
      w.client.stream.inner.sent = [7, 1, 7, 2] := by
  intro sock frame
  have hrun :
      (follow (step frame fun _ => []) (connect sock ⟨0, 0, 16⟩ 1 1) sampleCalls).map (fun r =>
      (r.1.all fun p => fine frame (fun _ => []) p.1 p.2, r.2.conn.sender, r.2.conn.inflight, r.2.written)) =
      some (true, .throttle 1, 2, [7, 1, 7, 2]) := by decide +kernel
  obtain ⟨⟨tr, w⟩, hfollow, hend⟩ := Option.map_eq_some_iff.1 hrun
  simp only [Prod.mk.injEq, List.all_eq_true] at hend
  obtain ⟨hm, hs, hi, hw⟩ := hend
  have hr := Run.of_follow hfollow
  obtain ⟨-, -, hflushed, -⟩ :=
    (sliding_window (Nat.le_refl 1) 1 frame (fun _ => []) sock _ hr hm).2
  obtain ⟨hpos, hsent⟩ := hflushed 1 hs (by omega)
  exact ⟨tr, w, hr, hs, hi, hpos, by rw [hsent, hw]; rfl⟩

end Wired

end OccamsRpc
