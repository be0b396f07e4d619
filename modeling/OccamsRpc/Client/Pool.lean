import OccamsRpc.Lib.Runs
/-!
# The workers of a `ClientPool`

`stream/src/client/pool.rs`: handles put tasks into a bounded channel; workers
connect, take tasks from it and send them on their streams. Worker 0 is the
monitor: alone it sends the tasks itself and pings when there are none; with
another worker it only pings. One step is one access to what is shared, one event
of the outside (a connect, a timer), or one step of a worker's stream.

The stream is a parameter (`StreamOps`): what is proved here holds for any.
-/

namespace OccamsRpc

/-- The calls a worker makes on its stream. -/
inductive StreamCall (T : Type)
  | send_task (t : T) (need_flush : Bool)
  | ping
  | flush_req

/-- A kind of stream `K`, made of what connecting gives (`D`) and moving by steps
`A` of its own while a call is in progress and between calls. -/
structure StreamOps (K T A D : Type) where
  connect : D → K
  call : K → StreamCall T → Option K
  step : K → A → Option K
  /-- The call in progress can return `Ok` (`true`) or `Err`. -/
  returns : K → Bool → Bool
  get_inflight_count : K → Nat

/-- Where a worker is in `run`, `run_worker` and `_run_worker`. -/
inductive WorkerPc (T : Type)
  /-- The top of `'CONN_LOOP`, and inside `connect`. -/
  | top
  | connecting
  /-- `'MONITOR`: its top, asleep beside another worker, and `recv_with_timer`. -/
  | monitor
  | sleep
  | recv_with_timer
  | ping (alone : Bool)
  | got (t : T)
  | send
  /-- `_run_worker`. -/
  | recv
  | send_batch
  | try_recv
  | flush (last : Bool)
  /-- `cleanup`, and the sleep that may follow it. -/
  | cleanup (sleeps : Bool)
  | backoff
  | returned
  | exited

/-- The worker has its stream. -/
def WorkerPc.connected {T : Type} : WorkerPc T → Bool
  | .top | .connecting | .cleanup _ | .backoff | .returned | .exited => false
  | _ => true

/-- A worker of the pool and its connection. -/
structure Worker (K T : Type) where
  worker_id : Nat
  pc : WorkerPc T
  stream : Option K
  /-- How often it has called `connect`. -/
  attempts : Nat

/-- What the workers and the handles share. -/
structure ClientPoolInner (T : Type) where
  is_ok : Bool
  worker_count : Nat
  rx : List T
  channel_size : Nat
  /-- The `ClientPool`s, which hold the senders of the channel. -/
  handles : Nat
  /-- The tasks given to `error_handle` with `Unreachable`. -/
  failed : List T

namespace ClientPoolInner

variable {T : Type}

def get_workers (p : ClientPoolInner T) : Nat := p.worker_count

def set_err (p : ClientPoolInner T) : ClientPoolInner T := { p with is_ok := false }

end ClientPoolInner

/-- What happens to a worker. -/
inductive WorkerEv (A D : Type)
  /-- The next step, where nothing outside decides it. -/
  | next
  | connected (d : D)
  | refused
  /-- The one-second timer. -/
  | timer
  /-- The stream takes a step. -/
  | stream (a : A)
  /-- The call on the stream returns. -/
  | done (ok : Bool)

namespace Worker

variable {K T A D : Type}

def new (worker_id : Nat) : Worker K T := ⟨worker_id, .top, none, 0⟩

def goto (w : Worker K T) (pc : WorkerPc T) : Worker K T := { w with pc := pc }

section
variable (ops : StreamOps K T A D)

/-- The worker makes a call on its stream and waits at `pc` for it to return. -/
def calls (w : Worker K T) (c : StreamCall T) (pc : WorkerPc T) : Option (Worker K T) := do
  let stream ← w.stream
  let stream ← ops.call stream c
  some { w with stream := some stream, pc := pc }

/-- The call in progress can return this. -/
def returns (w : Worker K T) (ok : Bool) : Bool := w.stream.any fun stream => ops.returns stream ok

/-- A step of `run`: what is shared, the worker, and the workers it spawned. -/
def run (p : ClientPoolInner T) (w : Worker K T) (ev : WorkerEv A D) :
    Option (ClientPoolInner T × Worker K T × List (Worker K T)) :=
  match w.pc, ev with
  | .top, .next => some (p, { w with pc := .connecting, attempts := w.attempts + 1 }, [])
  | .connecting, .connected d =>
    some (p, { w with pc := if w.worker_id = 0 then .monitor else .recv, stream := some (ops.connect d) }, [])
  | .connecting, .refused => some (p.set_err, w.goto (.cleanup true), [])
  | .monitor, .next => some (p, w.goto (if p.get_workers > 1 then .sleep else .recv_with_timer), [])
  | .sleep, .timer => (w.calls ops .ping (.ping false)).map fun w => (p, w, [])
  | .recv_with_timer, .next =>
    match p.rx with
    | t :: rx => some ({ p with rx := rx }, w.goto (.got t), [])
    | [] => if p.handles = 0 then some (p, w.goto .returned, []) else none
  | .recv_with_timer, .timer =>
    if p.rx.isEmpty ∧ p.handles ≠ 0 then (w.calls ops .ping (.ping true)).map fun w => (p, w, []) else none
  | .ping alone, .done ok =>
    if w.returns ops ok then
      if ok then some (p, w.goto .monitor, [])
      -- beside another worker the channel is left alone
      else some (p.set_err, w.goto (if alone then .cleanup false else .top), [])
    else none
  | .got t, .next =>
    if (w.stream.any fun stream => ops.get_inflight_count stream > 0) ∧ p.worker_count = 1 then
      ({ w with worker_id := 1 }.calls ops (.send_task t true) .send).map fun w =>
        ({ p with worker_count := 2 }, w, [new 0])
    else (w.calls ops (.send_task t true) .send).map fun w => (p, w, [])
  | .send, .done ok =>
    if w.returns ops ok then
      if ok then some (p, w.goto (if w.worker_id > 0 then .recv else .monitor), [])
      else some (p.set_err, w.goto (if w.worker_id = 0 then .cleanup true else .returned), [])
    else none
  | .recv, .next =>
    match p.rx with
    | t :: rx =>
      (w.calls ops (.send_task t false) .send_batch).map fun w => ({ p with rx := rx }, w, [])
    | [] =>
      if p.handles = 0 then (w.calls ops .flush_req (.flush true)).map fun w => (p, w, []) else none
  | .send_batch, .done ok =>
    if w.returns ops ok then
      if ok then some (p, w.goto .try_recv, []) else some (p.set_err, w.goto .returned, [])
    else none
  | .try_recv, .next =>
    match p.rx with
    | t :: rx =>
      (w.calls ops (.send_task t false) .send_batch).map fun w => ({ p with rx := rx }, w, [])
    | [] => (w.calls ops .flush_req (.flush false)).map fun w => (p, w, [])
  | .flush last, .done ok =>
    if w.returns ops ok then
      if ok then some (p, w.goto (if last then .returned else .recv), []) else some (p.set_err,
        w.goto .returned, [])
    else none
  | .cleanup sleeps, .next =>
    match p.rx with
    | t :: rx => some ({ p with rx := rx, failed := p.failed ++ [t] }, w, [])
    | [] => some (p, w.goto (if sleeps then .backoff else .top), [])
  | .backoff, .timer => some (p, w.goto .top, [])
  | .returned, .next => some ({ p with worker_count := p.worker_count - 1 }, w.goto .exited, [])
  | pc, .stream a =>
    if pc.connected then do
      let stream ← w.stream
      let stream ← ops.step stream a
      some (p, { w with stream := some stream }, [])
    else none
  | _, _ => none

end

end Worker

/-- A pool with all of its workers. -/
structure ClientPool (K T : Type) where
  inner : ClientPoolInner T
  /-- Every worker ever spawned. -/
  workers : List (Worker K T)

namespace ClientPool

variable {K T A D : Type}

/-- `ClientPool::new` spawns the worker with id 0. -/
def new (thresholds channel_size : Nat) : ClientPool K T where
  inner :=
    { is_ok := true
      worker_count := 1
      rx := []
      channel_size :=
        if thresholds > 0 then max channel_size thresholds else if channel_size = 0
          then 128 else channel_size
      handles := 1
      failed := [] }
  workers := [.new 0]

def is_healthy (s : ClientPool K T) : Bool := s.inner.is_ok

/-- The handles and the workers take turns. -/
inductive Act (T A D : Type)
  /-- `send_req` or `send_req_blocking`. -/
  | send_req (t : T)
  | clone
  | drop
  | spawn
  | work (i : Nat) (ev : WorkerEv A D)
  /-- The drop of `ClientPoolInner`, with the last of handles and workers. -/
  | drop_inner

/-- Any interleaving of them. -/
def step (ops : StreamOps K T A D) (s : ClientPool K T) : Act T A D → Option (ClientPool K T)
  | .send_req t =>
    if s.inner.handles > 0 ∧ s.inner.rx.length < s.inner.channel_size then
      some { s with inner := { s.inner with rx := s.inner.rx ++ [t] } }
    else none
  | .clone =>
    if s.inner.handles > 0
      then some { s with inner := { s.inner with handles := s.inner.handles + 1 } } else none
  | .drop =>
    if s.inner.handles > 0
      then some { s with inner := { s.inner with handles := s.inner.handles - 1 } } else none
  | .spawn =>
    if s.inner.handles > 0 then
      some { inner := { s.inner with worker_count := s.inner.worker_count + 1 },
             workers := s.workers ++ [.new s.inner.worker_count] }
    else none
  | .work i ev => do
    let w ← s.workers[i]?
    let (inner, w, spawned) ← w.run ops s.inner ev
    some { inner := inner, workers := s.workers.set i w ++ spawned }
  | .drop_inner =>
    if s.inner.handles = 0 ∧ ∀ w ∈ s.workers, w.pc matches .exited then
      some { s with inner := { s.inner with rx := [], failed := s.inner.failed ++ s.inner.rx } }
    else none

end ClientPool

/-! ## What a step of a worker can do -/

namespace Worker

variable {K T A D : Type}

/-- A connect is refused, or a call on the stream returns `Err`. -/
def fails (w : Worker K T) (ev : WorkerEv A D) : Bool :=
  match w.pc, ev with
  | .connecting, .refused => true
  | .ping _, .done ok | .send, .done ok | .send_batch, .done ok | .flush _, .done ok => !ok
  | _, _ => false

end Worker

/-- In `'MONITOR`, or waiting in `_run_worker`: nothing was sent without a flush. -/
def WorkerPc.watches {T : Type} : WorkerPc T → Bool
  | .monitor | .sleep | .recv_with_timer | .ping _ | .got _ | .send | .recv => true
  | _ => false

/-- In `_run_worker`, outside a call. -/
def WorkerPc.receives {T : Type} : WorkerPc T → Bool
  | .recv | .try_recv => true
  | _ => false

theorem WorkerPc.connected_of_watches {T : Type} {pc : WorkerPc T} (h : pc.watches = true) :
    pc.connected = true := by
  cases pc <;> first | rfl | cases h

theorem WorkerPc.connected_of_receives {T : Type} {pc : WorkerPc T} (h : pc.receives = true) :
    pc.connected = true := by
  cases pc <;> first | rfl | cases h

namespace Worker

variable {K T A D : Type}

/-- What a step of a worker can do to the pool, to itself, and which workers it spawns. -/
inductive Move (ops : StreamOps K T A D) (p : ClientPoolInner T) (w : Worker K T) :
    WorkerEv A D → ClientPoolInner T → Worker K T → List (Worker K T) → Prop
  | attempt (h : w.pc = .top) :
    Move ops p w .next p { w with pc := .connecting, attempts := w.attempts + 1 } []
  | connect (d : D) (h : w.pc = .connecting) :
    Move ops p w (.connected d) p
      { w with pc := if w.worker_id = 0 then .monitor else .recv, stream := some (ops.connect d) } []
  | fail {ev} (pc : WorkerPc T) (hf : w.fails ev = true) (hpc : pc.connected = false)
    (hc : w.pc.connected = true ∨ w.pc = .connecting ∧ pc = .cleanup true) :
    Move ops p w ev p.set_err (w.goto pc) []
  /-- The worker gives its stream up, or goes on without one. -/
  | leave {ev} (pc : WorkerPc T) (hf : w.fails ev = false) (hpc : pc.connected = false)
    (hc : w.pc.connected = true ∨ w.pc = .backoff ∧ pc = .top ∨
      ∃ sleeps, w.pc = .cleanup sleeps ∧ p.rx = [] ∧ pc = if sleeps then .backoff else .top) :
    Move ops p w ev p (w.goto pc) []
  | watch {ev} (pc : WorkerPc T) (hf : w.fails ev = false) (h : w.pc.watches = true)
    (hpc : pc.watches = true) :
    Move ops p w ev p (w.goto pc) []
  | take {t rx} (h : w.pc = .recv_with_timer) (hrx : p.rx = t :: rx) :
    Move ops p w .next { p with rx := rx } (w.goto (.got t)) []
  | sent (h : w.pc = .send_batch) : Move ops p w (.done true) p (w.goto .try_recv) []
  | flushed {last} (h : w.pc = .flush last) (hr : w.returns ops true = true) :
    Move ops p w (.done true) p (w.goto .recv) []
  | watch_call {ev c k k' spawned} (pc : WorkerPc T) (n id : Nat) (hf : w.fails ev = false)
    (h : w.pc.watches = true)
    (hpc : pc.watches = true) (hc : c = .ping ∨ ∃ t, c = .send_task t true) (hk : w.stream = some k)
    (hk' : ops.call k c = some k') (hs : ∀ v ∈ spawned, v = .new 0) :
    Move ops p w ev { p with worker_count := n } { w with
      worker_id := id, stream := some k', pc := pc } spawned
  | batch_call {t rx k k'} (h : w.pc.receives = true) (hrx : p.rx = t :: rx)
    (hk : w.stream = some k)
    (hk' : ops.call k (.send_task t false) = some k') :
    Move ops p w .next { p with rx := rx } { w with stream := some k', pc := .send_batch } []
  | flush_call {k k'} (last : Bool) (h : w.pc.receives = true) (hk : w.stream = some k)
    (hk' : ops.call k .flush_req = some k') :
    Move ops p w .next p { w with stream := some k', pc := .flush last } []
  | clean {sleeps t rx} (h : w.pc = .cleanup sleeps) (hrx : p.rx = t :: rx) :
    Move ops p w .next { p with rx := rx, failed := p.failed ++ [t] } w []
  | exit (h : w.pc = .returned) :
    Move ops p w .next { p with worker_count := p.worker_count - 1 } (w.goto .exited) []
  | stream {a k k'} (h : w.pc.connected = true) (hk : w.stream = some k)
    (hk' : ops.step k a = some k') :
    Move ops p w (.stream a) p { w with stream := some k' } []

variable {ops : StreamOps K T A D} {p p' : ClientPoolInner T} {w w' : Worker K T}
  {spawned : List (Worker K T)}
  {ev : WorkerEv A D}

theorem calls_some {c : StreamCall T} {pc : WorkerPc T} {q : ClientPoolInner T}
    {new : List (Worker K T)}
    (h : (w.calls ops c pc).map (fun w => (q, w, new)) = some (p', w', spawned)) :
    p' = q ∧ spawned = new ∧ ∃ k k', w.stream = some k ∧ ops.call k c = some k' ∧
      w' = { w with stream := some k', pc := pc } := by
  obtain ⟨w₁, hw, he⟩ := Option.map_eq_some_iff.1 h
  cases he
  obtain ⟨k, hk, hw⟩ := Option.bind_eq_some_iff.1 hw
  obtain ⟨k', hk', hw⟩ := Option.bind_eq_some_iff.1 hw
  cases hw
  exact ⟨rfl, rfl, k, k', hk, hk', rfl⟩

theorem run_cases (h : w.run ops p ev = some (p', w', spawned)) :
    Move ops p w ev p' w' spawned := by
  unfold run at h
  split at h
  case h_1 hpc => cases h; exact .attempt hpc
  case h_2 hpc => cases h; exact .connect _ hpc
  case h_3 hpc => cases h; exact .fail _ (by simp only [fails, hpc]) rfl (.inr ⟨hpc, rfl⟩)
  case h_4 hpc =>
    cases h
    exact .watch _ (by simp only [fails, hpc]) (by rw [hpc]; rfl) (by split <;> rfl)
  case h_5 hpc =>
    obtain ⟨rfl, rfl, k, k', hk, hk', rfl⟩ := calls_some h
    exact .watch_call _ _ _ (by simp only [fails, hpc]) (by rw [hpc]; rfl) rfl (.inl rfl) hk hk' nofun
  case h_6 hpc =>
    split at h
    · cases h
      exact .take hpc ‹_›
    · split at h <;> cases h
      exact .leave _ (by simp only [fails, hpc]) rfl (.inl (by rw [hpc]; rfl))
  case h_7 hpc =>
    split at h
    · obtain ⟨rfl, rfl, k, k', hk, hk', rfl⟩ := calls_some h
      exact .watch_call _ _ _ (by simp only [fails, hpc]) (by rw [hpc]; rfl) rfl (.inl rfl) hk hk' nofun
    · cases h
  case h_8 ok hpc =>
    have hf : w.fails (.done ok : WorkerEv A D) = !ok := by simp only [fails, hpc]
    split at h
    · cases ok with
      | true =>
        cases h
        exact .watch _ hf (by rw [hpc]; rfl) rfl
      | false =>
        cases h
        exact .fail _ hf (by split <;> rfl) (.inl (by rw [hpc]; rfl))
    · cases h
  case h_9 t hpc =>
    have hf : w.fails (.next : WorkerEv A D) = false := by simp only [fails, hpc]
    have hw : w.pc.watches = true := by rw [hpc]; rfl
    split at h
    · obtain ⟨rfl, rfl, k, k', hk, hk', rfl⟩ := calls_some h
      exact .watch_call _ _ _ hf hw rfl (.inr ⟨t, rfl⟩) hk hk' (by simp)
    · obtain ⟨rfl, rfl, k, k', hk, hk', rfl⟩ := calls_some h
      exact .watch_call _ _ _ hf hw rfl (.inr ⟨t, rfl⟩) hk hk' nofun
  case h_10 ok hpc =>
    have hf : w.fails (.done ok : WorkerEv A D) = !ok := by simp only [fails, hpc]
    split at h
    · cases ok with
      | true =>
        cases h
        exact .watch _ hf (by rw [hpc]; rfl) (by split <;> rfl)
      | false =>
        cases h
        exact .fail _ hf (by split <;> rfl) (.inl (by rw [hpc]; rfl))
    · cases h
  case h_11 hpc =>
    have hr : w.pc.receives = true := by rw [hpc]; rfl
    split at h
    · obtain ⟨rfl, rfl, k, k', hk, hk', rfl⟩ := calls_some h
      exact .batch_call hr ‹_› hk hk'
    · split at h
      · obtain ⟨rfl, rfl, k, k', hk, hk', rfl⟩ := calls_some h
        exact .flush_call true hr hk hk'
      · cases h
  case h_12 ok hpc =>
    have hf : w.fails (.done ok : WorkerEv A D) = !ok := by simp only [fails, hpc]
    split at h
    · cases ok with
      | true =>
        cases h
        exact .sent hpc
      | false =>
        cases h
        exact .fail _ hf rfl (.inl (by rw [hpc]; rfl))
    · cases h
  case h_13 hpc =>
    have hr : w.pc.receives = true := by rw [hpc]; rfl
    split at h
    · obtain ⟨rfl, rfl, k, k', hk, hk', rfl⟩ := calls_some h
      exact .batch_call hr ‹_› hk hk'
    · obtain ⟨rfl, rfl, k, k', hk, hk', rfl⟩ := calls_some h
      exact .flush_call false hr hk hk'
  case h_14 last ok hpc =>
    have hf : w.fails (.done ok : WorkerEv A D) = !ok := by simp only [fails, hpc]
    have hc : w.pc.connected = true := by rw [hpc]; rfl
    split at h
    · cases ok with
      | true =>
        cases last <;> cases h
        · exact .flushed hpc ‹_›
        · exact .leave _ hf rfl (.inl hc)
      | false =>
        cases h
        exact .fail _ hf rfl (.inl hc)
    · cases h
  case h_15 sleeps hpc =>
    split at h <;> cases h
    · exact .clean hpc ‹_›
    · exact .leave _ (by simp only [fails, hpc]) (by split <;> rfl) (.inr (.inr ⟨sleeps, hpc, ‹_›, rfl⟩))
  case h_16 hpc => cases h; exact .leave _ (by simp only [fails, hpc]) rfl (.inr (.inl ⟨hpc, rfl⟩))
  case h_17 hpc => cases h; exact .exit hpc
  case h_18 =>
    split at h
    case isTrue hc =>
      obtain ⟨k, hk, h⟩ := Option.bind_eq_some_iff.1 h
      obtain ⟨k', hk', h⟩ := Option.bind_eq_some_iff.1 h
      cases h
      exact .stream hc hk hk'
    case isFalse => cases h
  case h_19 => cases h

/-- Tasks only leave the channel, the handles are not touched, and `is_ok` is
cleared when something failed and never set. -/
theorem Move.shared (h : Move ops p w ev p' w' spawned) :
    p'.handles = p.handles ∧ p'.is_ok = (p.is_ok && !w.fails ev) ∧ ∃ ts, p.rx = ts ++ p'.rx := by
  cases h with
  | fail pc hf _ _ => exact ⟨rfl, by simp [ClientPoolInner.set_err, hf], [], rfl⟩
  | leave pc hf _ _ => exact ⟨rfl, by simp [hf], [], rfl⟩
  | watch pc hf _ _ => exact ⟨rfl, by simp [hf], [], rfl⟩
  | watch_call pc n id hf _ _ _ _ _ _ => exact ⟨rfl, by simp [hf], [], rfl⟩
  | @take t rx h hrx => exact ⟨rfl, by simp [fails, h], [t], hrx⟩
  | @batch_call t rx _ _ h hrx _ _ =>
    refine ⟨rfl, ?_, [t], hrx⟩
    cases hpc : w.pc <;> simp [fails, hpc]
  | flush_call _ h _ _ =>
    refine ⟨rfl, ?_, [], rfl⟩
    cases hpc : w.pc <;> simp [fails, hpc]
  | @clean _ t rx h hrx => exact ⟨rfl, by simp [fails, h], [t], hrx⟩
  | stream h _ _ =>
    refine ⟨rfl, ?_, [], rfl⟩
    cases hpc : w.pc <;> simp [fails, hpc]
  | attempt h | connect _ h | sent h | flushed h _ | exit h =>
    exact ⟨rfl, by simp [fails, h], [], rfl⟩

theorem Move.spawned_new (h : Move ops p w ev p' w' spawned) : ∀ v ∈ spawned, v = new 0 := by
  cases h with
  | watch_call _ _ _ _ _ _ _ _ _ hs => exact hs
  | _ => nofun

end Worker

namespace ClientPool

variable {K T A D : Type}

/-- What a step does: one worker moves, or a handle is used or dropped. -/
inductive Step (ops : StreamOps K T A D) (s : ClientPool K T) : Act T A D → ClientPool K T → Prop
  | work {i ev w inner w' spawned} (hw : s.workers[i]? = some w)
    (hm : Worker.Move ops s.inner w ev inner w' spawned) :
    Step ops s (.work i ev) ⟨inner, s.workers.set i w' ++ spawned⟩
  | handle {a} (rx failed : List T) (count handles : Nat) (spawned : List (Worker K T))
    (ha : ∀ i ev, a ≠ .work i ev)
    (hs : ∀ v ∈ spawned, ∃ id, v = .new id)
    (hd : s.inner.handles = 0 → handles = 0 ∧ (s.inner.rx = [] → rx = [])) :
    Step ops s a ⟨{ s.inner with rx := rx, failed := failed, worker_count := count, handles := handles },
      s.workers ++ spawned⟩

variable {ops : StreamOps K T A D} {s s' : ClientPool K T} {a : Act T A D}

theorem step_cases (h : step ops s a = some s') : Step ops s a s' := by
  have hnil (q : ClientPoolInner T) : (⟨q, s.workers⟩ : ClientPool K T) = ⟨q, s.workers ++ []⟩ := by
    rw [List.append_nil]
  cases a with
  | work i ev =>
    obtain ⟨w, hw, h⟩ := Option.bind_eq_some_iff.1 h
    obtain ⟨⟨inner, w', spawned⟩, hr, h⟩ := Option.bind_eq_some_iff.1 h
    cases h
    exact .work hw (Worker.run_cases hr)
  | spawn =>
    simp only [step] at h
    split at h <;> cases h
    refine .handle s.inner.rx s.inner.failed _ s.inner.handles [_] nofun ?_ fun h0 => ⟨h0, id⟩
    intro v hv
    exact ⟨_, List.mem_singleton.1 hv⟩
  | send_req t | clone | drop =>
    simp only [step] at h
    split at h <;> cases h
    rw [hnil]
    exact .handle _ _ _ _ [] nofun nofun fun h0 => absurd h0 (by omega)
  | drop_inner =>
    simp only [step] at h
    split at h <;> cases h
    rw [hnil]
    exact .handle [] _ _ _ [] nofun nofun fun h0 => ⟨h0, fun _ => rfl⟩

end ClientPool

end OccamsRpc
