import OccamsRpc.Client.Pool
import OccamsRpc.Conn.Window
/-!
# The streams of a pool's workers

A worker's stream is a connection with its TCP client (`Wired`): a call of the
worker is a call of the owner there, which runs interleaved with the stream's
receive coroutine until it returns. A worker asleep in `rx.recv` has nothing in
the write buffer of its stream: the monitor flushes with every task and ping, and
`_run_worker` before it waits.
-/
open Lib

namespace OccamsRpc

open Conn

/-! ## What a call leaves in the write buffer -/

/-- The call in progress will write without a flush. -/
def Conn.SendPc.unflushed : SendPc → Bool
  | .count _ need_flush | .test _ need_flush | .encode _ need_flush | .write _ need_flush =>
    !need_flush
  | _ => false

theorem Conn.SendPc.free_unflushed {pc : SendPc} (h : pc.free = true) : pc.unflushed = false := by
  cases pc <;> first | rfl | simp [free] at h

theorem Conn.SendMove.unflushed {s s' : Conn} {a : SendAct} (h : SendMove s a s')
    (ha : a ≠ .send_task false) (hs : s.sender.unflushed = false) :
    s'.sender.unflushed = false := by
  cases h with
  | @call b nf _ hnf =>
    cases b with
    | false => exact absurd rfl ha
    | true =>
      rw [Bool.true_or] at hnf
      rw [hnf]
      rfl
  | count h | opened h _ | encode_ok h =>
    rw [h] at hs
    exact hs
  | other pc e _ h' _ _ => exact SendPc.free_unflushed h'
  | _ => rfl

theorem Conn.SendMove.free_of_flush {s s' : Conn} {a : SendAct} (h : SendMove s a s')
    (hs : s.sender = .flush) :
    s'.sender.free = true := by
  cases h with
  | other pc e _ h' _ _ => exact h'
  | call nf h _ | count h | closed h _ | opened h _ | encode_ok h | encode_err h | write_ok h | write_err h
  | register h _ | unthrottle h _ | ping h | op h =>
    rw [hs] at h
    cases h

namespace Wired

variable {frame : Task → Bytes × Option Bytes} {ping : Nat → Bytes} {w w' : Wired} {a : Act}

/-- Nothing is in the write buffer, and the call in progress leaves nothing there. -/
def Clean (w : Wired) : Prop := w.client.Flushed ∧ w.conn.sender.unflushed = false

theorem Clean.step (hc : Clean w) (ha : a ≠ .snd (.send_task false)) {o : Bytes}
    (ht : w.client.Took (fun _ => True) Sock.sent o) (hok : fine frame ping w a = true)
    (h : step frame ping w a = some w') : Clean w' := by
  obtain ⟨hflushed, hsender⟩ := hc
  obtain ⟨hconn, hcall⟩ := step_cases h hok
  refine ⟨?_, ?_⟩
  · rcases hcall with ⟨hc, -⟩ | ⟨b, x, bs, -, hc, hx, -⟩
    · rwa [hc]
    · refine (call_returns hc o _ _ _ ht hx).2 ?_
      rintro t hpc
      rw [hpc] at hsender
      cases hsender
  · cases a with
    | snd b => exact (send_cases hconn).unflushed (fun hb => ha (by rw [hb])) hsender
    | rcv b =>
      rw [(recv_cases hconn).frame.sender]
      exact hsender

/-- A flush that is waiting goes on waiting, or it is done. -/
theorem flush_step (hpc : w.conn.sender = .flush) {o : Bytes}
    (ht : w.client.Took (fun _ => True) Sock.sent o) (hok : fine frame ping w a = true)
    (h : step frame ping w a = some w') :
    w'.conn.sender = .flush ∨ Clean w' := by
  obtain ⟨hconn, hcall⟩ := step_cases h hok
  cases a with
  | rcv b => exact .inl ((recv_cases hconn).frame.sender.trans hpc)
  | snd b =>
    right
    rcases hcall with ⟨-, -, hnone⟩ | ⟨_, x, bs, -, hc, hx, -⟩
    · -- nothing but the answer of the transport moves it
      have hsend : w.conn.send b = some w'.conn := hconn
      have := hnone b rfl
      rw [hpc] at this
      unfold send at hsend
      rw [hpc] at hsend
      cases b <;> first | cases hsend | cases this
    · exact ⟨(call_returns hc o _ _ _ ht hx).2 (by rw [hpc]; nofun),
        SendPc.free_unflushed ((send_cases hconn).free_of_flush hpc)⟩

end Wired

/-! ## A worker's stream -/

/-- A stream with the tasks its calls were given, and what the last call returned. -/
structure Line (T : Type) where
  wired : Wired
  tasks : List T
  last : Bool

/-- The owner's own acts, as opposed to the progress of a call and the receive
coroutine's. -/
def Conn.Act.starts : Act → Bool
  | .snd (.send_task _) | .snd .send_ping_req | .snd .flush_req | .snd .set_error_and_exit
  | .snd .drop => true
  | _ => false

/-- A call that ends here returns `Ok`. -/
def Conn.SendPc.succeeds : SendPc → Bool
  | .throttle _ | .ping_write _ | .flush => true
  | _ => false

namespace Line

variable {T : Type} (encode : T → Nat → Bytes × Option Bytes) (ping : Nat → Bytes)

/-- The request of a task, by the seq it is given. -/
def frame (l : Line T) (t : Task) : Bytes × Option Bytes :=
  match l.tasks[t.id]? with
  | some task => encode task t.seq
  | none => ([], none)

/-- One step of the connection, noting how the call ended. -/
def advance (l : Line T) (a : Act) : Option (Line T) := do
  let w ← Wired.step (l.frame encode) ping l.wired a
  let ended := w.conn.sender = .idle ∧ l.wired.conn.sender ≠ .idle
  some { l with wired := w, last := if ended then l.wired.conn.sender.succeeds else l.last }

/-- The streams over TCP: connecting gives a socket that has sent nothing. -/
def ops (config : ClientConfig) (thresholds task_timeout : Nat) :
    StreamOps (Line T) T Act Sock where
  connect sock := ⟨.connect { sock with sent := [] } config thresholds task_timeout, [], false⟩
  call l
    | .send_task t need_flush =>
      { l with tasks := l.tasks ++ [t] }.advance encode ping (.snd (.send_task need_flush))
    | .ping => l.advance encode ping (.snd .send_ping_req)
    | .flush_req => l.advance encode ping (.snd .flush_req)
  step l a := if a.starts then none else l.advance encode ping a
  returns l ok := l.wired.conn.sender = .idle && l.last == ok
  get_inflight_count l := l.wired.conn.inflight

/-- No call of the transport fails in the step. -/
def fine (s : ClientPool (Line T) T) : ClientPool.Act T Act Sock → Bool
  | .work i (.stream a) =>
    (s.workers[i]?.bind Worker.stream).all fun l => Wired.fine (l.frame encode) ping l.wired a
  | _ => true

variable {encode ping} {config : ClientConfig} {thresholds task_timeout : Nat} {l l' : Line T}

/-- The bytes of the stream are those of the requests and pings written on it. -/
def Sound (l : Line T) : Prop := l.wired.client.Took (fun _ => True) Sock.sent l.wired.written

theorem advance_some {a : Act} (h : l.advance encode ping a = some l') :
    Wired.step (l.frame encode) ping l.wired a = some l'.wired := by
  obtain ⟨w, hw, h⟩ := Option.bind_eq_some_iff.1 h
  cases h
  exact hw

theorem Sound.advance {a : Act} (hl : l.Sound)
    (hok : Wired.fine (l.frame encode) ping l.wired a = true)
    (h : l.advance encode ping a = some l') : l'.Sound :=
  Wired.took_step (o := []) hl hok (advance_some h)

/-- A call starts without the transport. -/
theorem fine_start {frame : Task → Bytes × Option Bytes} (w : Wired) (b : SendAct)
    (hb : (Act.snd b).starts = true) : Wired.fine frame ping w (.snd b) = true := by
  have hnone : Wired.call frame ping w.conn.sender b = none := by
    cases b <;> first | (cases w.conn.sender <;> rfl) | cases hb
  simp only [Wired.fine, hnone]

/-- A call is an act of the owner, on the stream with its task. -/
theorem call_cases {c : StreamCall T}
    (h : (ops encode ping config thresholds task_timeout).call l c = some l') :
    ∃ (b : SendAct) (l₁ : Line T), (Act.snd b).starts = true ∧ l₁.wired = l.wired ∧
      l₁.advance encode ping (.snd b) = some l' ∧
      (b = .send_task false → ∃ t, c = .send_task t false) ∧ (c = .flush_req → b = .flush_req) := by
  cases c with
  | send_task t need_flush =>
    refine ⟨.send_task need_flush, { l with tasks := l.tasks ++ [t] }, rfl, rfl, h, ?_, nofun⟩
    rintro ⟨⟩
    exact ⟨t, rfl⟩
  | ping => exact ⟨.send_ping_req, l, rfl, rfl, h, nofun, nofun⟩
  | flush_req => exact ⟨.flush_req, l, rfl, rfl, h, nofun, fun _ => rfl⟩

theorem Sound.call {c : StreamCall T} (hl : l.Sound)
    (h : (ops encode ping config thresholds task_timeout).call l c = some l') : l'.Sound := by
  obtain ⟨b, l₁, hb, hw, h, -⟩ := call_cases h
  have hl₁ : l₁.Sound := by rwa [Sound, hw]
  exact hl₁.advance (fine_start _ b hb) h

theorem clean_call {c : StreamCall T} (hl : l.Sound) (hc : l.wired.Clean)
    (hne : ∀ t, c ≠ .send_task t false)
    (h : (ops encode ping config thresholds task_timeout).call l c = some l') : l'.wired.Clean := by
  obtain ⟨b, l₁, hb, hw, h, hnf, -⟩ := call_cases h
  have hs := advance_some h
  rw [hw] at hs
  refine hc.step ?_ hl (fine_start _ b hb) hs
  rintro ⟨⟩
  obtain ⟨t, ht⟩ := hnf rfl
  exact hne t ht

theorem flush_call
    (h : (ops encode ping config thresholds task_timeout).call l .flush_req = some l') :
    l'.wired.conn.sender = .flush := by
  obtain ⟨b, l₁, hb, -, h, -, hf⟩ := call_cases h
  cases hf rfl
  obtain ⟨conn, hconn, h⟩ := Option.bind_eq_some_iff.1 (advance_some h)
  have hsender : conn.sender = .flush := by
    change l₁.wired.conn.send .flush_req = some conn at hconn
    cases hs : l₁.wired.conn.sender <;> simp only [send, hs] at hconn <;> cases hconn
    rfl
  have hnone : Wired.call (l₁.frame encode) ping l₁.wired.conn.sender .flush_req = none := by
    cases l₁.wired.conn.sender <;> rfl
  simp only [hnone, Option.some.injEq] at h
  rw [← h]
  exact hsender

theorem connect_sound (sock : Sock) :
    ((ops encode ping config thresholds task_timeout).connect sock).Sound :=
  Wired.connect_took { sock with sent := [] } config thresholds task_timeout

/-! ## The workers -/

/-- What the stream of a worker is like, by where the worker is. -/
structure Kept (v : Worker (Line T) T) : Prop where
  sound : v.pc.connected = true → ∃ l, v.stream = some l ∧ l.Sound
  clean : v.pc.watches = true → ∀ l, v.stream = some l → l.wired.Clean
  flush : ∀ last, v.pc = .flush last → ∀ l, v.stream = some l → l.wired.conn.sender = .flush ∨
    l.wired.Clean

theorem kept_of_disconnected {v : Worker (Line T) T} (h : v.pc.connected = false) : Kept v := by
  have hne {b : Prop} (hc : v.pc.connected = true) : b := absurd (h.symm.trans hc) nofun
  refine ⟨hne, fun hw => hne (WorkerPc.connected_of_watches hw), fun last hpc => hne ?_⟩
  rw [hpc]
  rfl

theorem Kept.move {p p' : ClientPoolInner T} {v v' : Worker (Line T) T} {ev : WorkerEv Act Sock}
    {spawned : List (Worker (Line T) T)} (hv : Kept v)
    (hok : ∀ a l, ev = .stream a → v.stream = some l → Wired.fine (l.frame encode) ping l.wired a = true)
    (h : Worker.Move (ops encode ping config thresholds task_timeout) p v ev p' v' spawned) :
    Kept v' := by
  cases h with
  | attempt _ | exit _ => exact kept_of_disconnected rfl
  | fail pc _ hpc _ | leave pc _ hpc _ => exact kept_of_disconnected hpc
  | clean _ _ => exact hv
  | connect sock _ =>
    refine ⟨fun _ => ⟨_, rfl, connect_sound sock⟩, ?_, ?_⟩
    · rintro - l ⟨⟩
      exact ⟨rfl, rfl⟩
    · intro last hpc
      simp only at hpc
      split at hpc <;> cases hpc
  | watch pc _ hw hpc =>
    refine ⟨fun _ => hv.sound (WorkerPc.connected_of_watches hw), fun _ => hv.clean hw, ?_⟩
    rintro last rfl
    cases hpc
  | take hpc _ =>
    refine ⟨fun _ => hv.sound (by rw [hpc]; rfl), fun _ => hv.clean (by rw [hpc]; rfl), nofun⟩
  | sent hpc => exact ⟨fun _ => hv.sound (by rw [hpc]; rfl), nofun, nofun⟩
  | flushed hpc hr =>
    refine ⟨fun _ => hv.sound (by rw [hpc]; rfl), fun _ l hl => ?_, nofun⟩
    refine (hv.flush _ hpc l hl).resolve_left fun hflush => ?_
    change v.stream = some l at hl
    rw [Worker.returns, hl, Option.any_some] at hr
    simp [ops, hflush] at hr
  | @watch_call _ c k k' _ pc n id _ hw hpc hc hk hk' _ =>
    obtain ⟨l, hl, hsound⟩ := hv.sound (WorkerPc.connected_of_watches hw)
    cases hl.symm.trans hk
    refine ⟨fun _ => ⟨k', rfl, hsound.call hk'⟩, ?_, ?_⟩
    · rintro - _ ⟨⟩
      refine clean_call hsound (hv.clean hw k hk) ?_ hk'
      rintro t rfl
      obtain hc | ⟨_, hc⟩ := hc <;> cases hc
    · rintro last rfl
      cases hpc
  | @batch_call t rx k k' hr _ hk hk' =>
    obtain ⟨l, hl, hsound⟩ := hv.sound (WorkerPc.connected_of_receives hr)
    cases hl.symm.trans hk
    exact ⟨fun _ => ⟨k', rfl, hsound.call hk'⟩, nofun, nofun⟩
  | @flush_call k k' last hr hk hk' =>
    obtain ⟨l, hl, hsound⟩ := hv.sound (WorkerPc.connected_of_receives hr)
    cases hl.symm.trans hk
    refine ⟨fun _ => ⟨k', rfl, hsound.call hk'⟩, nofun, ?_⟩
    rintro _ - _ ⟨⟩
    exact .inl (flush_call hk')
  | @stream a k k' hc hk hk' =>
    obtain ⟨l, hl, hsound⟩ := hv.sound hc
    cases hl.symm.trans hk
    have hfine := hok a k rfl hk
    change (if a.starts then none else k.advance encode ping a) = some k' at hk'
    split at hk'
    case isTrue => cases hk'
    case isFalse hstarts =>
      have hne : a ≠ .snd (.send_task false) := by
        rintro rfl
        exact hstarts rfl
      have hclean (hcl : k.wired.Clean) :
          k'.wired.Clean := hcl.step hne hsound hfine (advance_some hk')
      refine ⟨fun _ => ⟨k', rfl, hsound.advance hfine hk'⟩, ?_, ?_⟩
      · rintro hw _ ⟨⟩
        exact hclean (hv.clean hw k hk)
      · rintro last hpc _ ⟨⟩
        rcases hv.flush last hpc k hk with hflush | hcl
        · exact Wired.flush_step hflush hsound hfine (advance_some hk')
        · exact .inr (hclean hcl)

theorem kept_step {s s' : ClientPool (Line T) T} {a : ClientPool.Act T Act Sock}
    (hs : ∀ v ∈ s.workers, Kept v) (hok : fine encode ping s a = true)
    (h : ClientPool.step (ops encode ping config thresholds task_timeout) s a = some s') :
    ∀ v ∈ s'.workers, Kept v := by
  intro v hv
  cases ClientPool.step_cases h with
  | @work i ev w inner w' spawned hw hm =>
    rcases List.mem_append.1 hv with hv | hv
    · rcases List.mem_or_eq_of_mem_set hv with hv | rfl
      · exact hs v hv
      · refine (hs w (List.mem_of_getElem? hw)).move ?_ hm
        rintro a l rfl hl
        simpa only [fine, hw, Option.bind_some, hl, Option.all_some] using hok
    · cases hm.spawned_new v hv
      exact kept_of_disconnected rfl
  | handle rx failed count handles spawned _ hnew _ =>
    rcases List.mem_append.1 hv with hv | hv
    · exact hs v hv
    · obtain ⟨id, rfl⟩ := hnew v hv
      exact kept_of_disconnected rfl

theorem kept_run {n channel_size : Nat}
    {tr : List (ClientPool (Line T) T × ClientPool.Act T Act Sock)} {s : ClientPool (Line T) T}
    (h : Run (ClientPool.step (ops encode ping config thresholds task_timeout)) (.new n channel_size) tr s)
    (hok : Meets (fun s a => fine encode ping s a = true) tr) : ∀ v ∈ s.workers, Kept v := by
  refine h.inv_of_meets (fun s => ∀ v ∈ s.workers, Kept v) ?_ (fun _ _ _ hs hok h => kept_step hs hok h) hok
  intro v hv
  cases List.mem_singleton.1 hv
  exact kept_of_disconnected rfl

/-- A worker asleep in `rx.recv` has sent all it has written. -/
theorem Kept.flushed {v : Worker (Line T) T} (hv : Kept v) (hpc : v.pc = .recv) :
    ∃ l, v.stream = some l ∧ l.wired.client.stream.write_buf.pos = 0 ∧
      l.wired.client.stream.inner.sent = l.wired.written := by
  obtain ⟨l, hl, hsound⟩ := hv.sound (by rw [hpc]; rfl)
  have hflushed := (hv.clean (by rw [hpc]; rfl) l hl).1
  exact ⟨l, hl, hflushed, (AsyncBufStream.Flushed.out_eq hflushed Sock.sent).symm.trans hsound.2⟩

end Line

end OccamsRpc
