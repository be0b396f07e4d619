import OccamsRpc.Lib.Lists
import OccamsRpc.Server.Conn
/-!
# The server and its close

`RpcServer` of `stream/src/server/server.rs`. `listen` spawns a loop that accepts
connections. An abort of the loop takes effect when it is polled next, or when the
poll that is going on finds nothing more to accept. Each connection has a clone of
`conn_ref_count`, and so has each loop; `close` aborts the loops, drops the sender
of the close channel and then looks at the count once a second. Time is in
nanoseconds.
-/
open Lib

namespace OccamsRpc

/-- What `close` and the connections read of the configuration. -/
structure ServerFacts extends ServerConfig where
  server_close_wait : Nat

/-- `Duration::from_secs(1)` -/
def ONE_SECOND : Nat := 10 ^ 9

/-! ## Listeners -/

/-- The future of an accept loop, between polls and in one. -/
inductive ListenerPc
  | waiting
  | polled
  | dropped
  deriving DecidableEq

/-- A task that accepts connections, which `close` may have aborted. -/
structure Listener where
  aborted : Bool
  pc : ListenerPc

/-- It still holds its reference to the server. -/
def Listener.alive (l : Listener) : Bool := l.pc ≠ .dropped

/-- How `bind` and `local_addr` end: a Unix socket has no address to tell. -/
inductive Bound
  | bind_err
  | addr_err
  | listening (local_addr : Option String)

/-- A connection that was accepted: what its peer has sent by then and how its socket
answers, and the new encode buffer. The peer may go on sending. -/
structure Accepted where
  reads : List ReadEv
  inbound : Bytes
  writes : List WriteEv
  encode_buf : EncodeBuf RPC_RESP_HEADER_LEN

/-! ## The server -/

/-- Where `close` is. -/
inductive ClosePc
  | idle
  | abort (i : Nat)
  | take
  | count
  | test (exists_count start_ts : Nat)
  | sleep (start_ts wake : Nat)
  /-- The loop is left, and `close` returns. -/
  | done (exists_count start_ts : Nat)
  deriving DecidableEq

/-- The server with everything it has spawned. -/
structure RpcServer (T R : Type) where
  listeners : List Listener
  /-- Every connection ever accepted. -/
  conns : List (ServedConn T R)
  /-- The number of strong references. -/
  conn_ref_count : Nat
  /-- The sender of the close channel is there. -/
  server_close_tx : Bool
  closing : ClosePc
  now : Nat

namespace RpcServer

variable {C T R E : Type}

/-- `RpcServer::new` keeps one reference itself. -/
def new (now : Nat) : RpcServer T R := ⟨[], [], 1, true, .idle, now⟩

/-- The references other than its own. -/
def get_alive_conn (s : RpcServer T R) : Nat := s.conn_ref_count - 1

/-- `listen` spawns the accept loop and returns the address it is bound to. -/
def listen (s : RpcServer T R) : Bound → Option String × RpcServer T R
  | .bind_err | .addr_err => (none, s)
  | .listening local_addr => (some (local_addr.getD "0.0.0.0:0"),
      { s with listeners := s.listeners ++ [⟨false, .waiting⟩], conn_ref_count := s.conn_ref_count + 1 })

/-- The accept loop of listener `i` goes on, or has returned and is dropped. -/
def goto (s : RpcServer T R) (i : Nat) (l : Listener) (pc : ListenerPc) : RpcServer T R :=
  { s with
    listeners := s.listeners.set i { l with pc := pc }
    conn_ref_count := if pc = .dropped then s.conn_ref_count - 1 else s.conn_ref_count }

/-- An accepted connection is spawned with a reference of its own. -/
def server_conn (facts : ServerFacts) (alloc : BufferAlloc) (s : RpcServer T R) (stream : Accepted) :
    RpcServer T R :=
  { s with
    conns := s.conns ++
      [.server_conn (.new_conn ⟨stream.reads, stream.inbound, stream.writes,
        []⟩ facts.toServerConfig alloc stream.encode_buf)]
    conn_ref_count := s.conn_ref_count + 1 }

/-- The next statement of `close`. -/
def close (facts : ServerFacts) (s : RpcServer T R) : Option (RpcServer T R) :=
  match s.closing with
  | .idle => some { s with closing := .abort 0 }
  | .abort i =>
    if i < s.listeners.length then
      some { s with listeners := s.listeners.modify i fun l => { l with
        aborted := true }, closing := .abort (i + 1) }
    else some { s with closing := .take }
  | .take => some { s with server_close_tx := false, closing := .count }
  | .count => some { s with closing := .test s.get_alive_conn s.now }
  | .test exists_count start_ts =>
    some { s with
      closing := if exists_count > 0 then .sleep start_ts (s.now + ONE_SECOND)
        else .done exists_count start_ts }
  | .sleep start_ts wake =>
    if wake ≤ s.now then
      let exists_count := s.get_alive_conn
      some { s with
        closing := if s.now - start_ts > facts.server_close_wait then .done exists_count start_ts
          else .test exists_count start_ts }
    else none
  | .done _ _ => some { s with closing := .idle }

/-- Listeners, connections, peers, `close` and time take turns. -/
inductive Act (T E : Type)
  /-- Not while `close` has the server. -/
  | listen (bound : Bound)
  | poll (i : Nat)
  | accept (i : Nat) (stream : Accepted)
  | accept_err (i : Nat)
  /-- The poll finds nothing more to accept. -/
  | pend (i : Nat)
  | conn (i : Nat) (a : ServedConn.Act T E)
  /-- The idle timer of a connection that waits for a request. -/
  | idle (i : Nat)
  /-- The peer of connection `i` sends more. -/
  | sends (i : Nat) (bs : Bytes) (evs : List ReadEv)
  | close
  | tick (d : Nat)

end RpcServer

/-- The reader waits for a request, and nothing comes. -/
def ServedConn.waits {T R : Type} (c : ServedConn T R) : Bool :=
  ((AsyncRead.read_exact RPC_REQ_HEADER_LEN c.writer.conn.server.stream).1 matches .pending)

/-- A read that is cancelled needs a reason: the sender of the close channel is gone, or
the idle timer. -/
def ServedConn.Act.cancels {T R E : Type} (c : ServedConn T R) : ServedConn.Act T E → Bool
  | .read_req => c.waits
  | _ => false

namespace RpcServer

variable {C T R E : Type} [ServerTaskEncode C R] [ServerTaskDecode C T] [ServerTaskDone T R E]

/-- A step of connection `i`; the last reference to it takes its clone of
`conn_ref_count` along. -/
def step_conn (codec : C) (s : RpcServer T R) (i : Nat) (c : ServedConn T R)
    (a : ServedConn.Act T E) : Option (RpcServer T R) :=
  (c.step codec a).map fun c' =>
    { s with
      conns := s.conns.set i c'
      conn_ref_count := if c'.gone ∧ ¬ c.gone then s.conn_ref_count - 1 else s.conn_ref_count }

/-- Any interleaving of them. -/
def step (facts : ServerFacts) (alloc : BufferAlloc) (codec : C) (s : RpcServer T R) :
    Act T E → Option (RpcServer T R)
  | .listen bound =>
    match s.closing with
    | .idle => some (s.listen bound).2
    | _ => none
  | .poll i =>
    s.listeners[i]?.bind fun l =>
      if l.pc = .waiting then some (s.goto i l (if l.aborted then .dropped else .polled)) else none
  | .accept i stream =>
    s.listeners[i]?.bind fun l => if l.pc = .polled then some (s.server_conn facts alloc stream) else none
  | .accept_err i =>
    s.listeners[i]?.bind fun l => if l.pc = .polled then some (s.goto i l .dropped) else none
  | .pend i =>
    s.listeners[i]?.bind fun l =>
      if l.pc = .polled then some (s.goto i l (if l.aborted then .dropped else .waiting)) else none
  | .conn i a =>
    s.conns[i]?.bind fun c => if a.cancels c ∧ s.server_close_tx
      then none else s.step_conn codec i c a
  | .idle i =>
    s.conns[i]?.bind fun c => if c.waits then s.step_conn codec i c (.read_req : ServedConn.Act T E) else none
  | .sends i bs evs => s.conns[i]?.map fun c => { s with conns := s.conns.set i (c.feed bs evs) }
  | .close => s.close facts
  | .tick d => some { s with now := s.now + d }

/-! ## What a step can do -/

/-- What a step of the server can do. -/
inductive Step (facts : ServerFacts) (alloc : BufferAlloc) (codec : C) (s : RpcServer T R) :
    Act T E → RpcServer T R → Prop
  | listen {bound} (hc : s.closing = .idle) :
    Step facts alloc codec s (.listen bound) (s.listen bound).2
  | goto {act i l} (pc : ListenerPc) (hl : s.listeners[i]? = some l) (hpc : l.pc ≠ .dropped)
    (hdrop : l.aborted = true → pc = .dropped)
    (hact : act = .poll i ∨ act = .accept_err i ∨ act = .pend i) :
    Step facts alloc codec s act (s.goto i l pc)
  | accept {i l} (stream : Accepted) (hl : s.listeners[i]? = some l) (hpc : l.pc = .polled) :
    Step facts alloc codec s (.accept i stream) (s.server_conn facts alloc stream)
  | conn {act i c c'} (a : ServedConn.Act T E) (hc : s.conns[i]? = some c)
    (h : c.step codec a = some c')
    (hact : act = .conn i a ∨ act = .idle i ∧ a = .read_req) :
    Step facts alloc codec s act
      { s with
        conns := s.conns.set i c'
        conn_ref_count := if c'.gone ∧ ¬ c.gone then s.conn_ref_count - 1 else s.conn_ref_count }
  | sends {i c} (bs : Bytes) (evs : List ReadEv) (hc : s.conns[i]? = some c) :
    Step facts alloc codec s (.sends i bs evs) { s with conns := s.conns.set i (c.feed bs evs) }
  | close {s'} (h : s.close facts = some s') : Step facts alloc codec s .close s'
  | tick (d : Nat) : Step facts alloc codec s (.tick d) { s with now := s.now + d }

variable {facts : ServerFacts} {alloc : BufferAlloc} {codec : C} {s s' : RpcServer T R}
  {a : Act T E}

theorem step_cases (h : s.step facts alloc codec a = some s') : Step facts alloc codec s a s' := by
  cases a with
  | listen bound =>
    simp only [step] at h
    split at h <;> cases h
    exact .listen ‹_›
  | poll i | accept_err i | pend i =>
    obtain ⟨l, hl, h⟩ := Option.bind_eq_some_iff.1 h
    obtain ⟨hpc, ⟨⟩⟩ := Option.ite_none_right_eq_some.1 h
    exact .goto _ hl (by rw [hpc]; nofun) (fun hab => by simp [hab]) (by simp)
  | accept i stream =>
    obtain ⟨l, hl, h⟩ := Option.bind_eq_some_iff.1 h
    obtain ⟨hpc, ⟨⟩⟩ := Option.ite_none_right_eq_some.1 h
    exact .accept stream hl hpc
  | conn i a =>
    obtain ⟨c, hc, h⟩ := Option.bind_eq_some_iff.1 h
    split at h
    · cases h
    · obtain ⟨c', hstep, rfl⟩ := Option.map_eq_some_iff.1 h
      exact .conn a hc hstep (.inl rfl)
  | idle i =>
    obtain ⟨c, hc, h⟩ := Option.bind_eq_some_iff.1 h
    obtain ⟨-, h⟩ := Option.ite_none_right_eq_some.1 h
    obtain ⟨c', hstep, rfl⟩ := Option.map_eq_some_iff.1 h
    exact .conn _ hc hstep (.inr ⟨rfl, rfl⟩)
  | sends i bs evs =>
    obtain ⟨c, hc, rfl⟩ := Option.map_eq_some_iff.1 h
    exact .sends bs evs hc
  | close => exact .close h
  | tick d =>
    cases h
    exact .tick d

end RpcServer

/-- A connection that was dropped stays so. -/
theorem ServedConn.gone_stays {C T R E : Type} [ServerTaskEncode C R] [ServerTaskDecode C T]
    [ServerTaskDone T R E] {codec : C} {c c' : ServedConn T R} {a : Act T E}
    (h : c.step codec a = some c') (hg : c.gone = true) :
    c'.gone = true := by
  cases step_cases h with
  | read_ok | read_err | handler | write | drop_noti | drop_rx => exact hg
  | drop_reader hr => simp [gone, hr] at hg
  | drop_writer hw => simp [gone, hw] at hg

/-! ## What is counted -/

namespace RpcServer

variable {C T R E : Type}

/-- The accept loops that were not dropped. -/
def listening (s : RpcServer T R) : Nat := s.listeners.countP Listener.alive

/-- The connections that were not dropped. -/
def serving (s : RpcServer T R) : Nat := s.conns.countP fun c => !c.gone

/-- Each listener and each connection that is served has one reference, and the server one.
-/
def Counted (s : RpcServer T R) : Prop := s.conn_ref_count = s.listening + s.serving + 1

/-- All accept loops and connections are gone. -/
def Over (s : RpcServer T R) : Prop :=
  (∀ l ∈ s.listeners, l.pc = .dropped) ∧ ∀ c ∈ s.conns, c.gone = true

/-- `close` has found no reference but that of the server. -/
def ClosePc.saw_none : ClosePc → Bool
  | .test n _ | .done n _ => n == 0
  | _ => false

variable {facts : ServerFacts} {s s' : RpcServer T R}

theorem Counted.over (h : s.Counted) (h0 : s.get_alive_conn = 0) : s.Over := by
  have hnone : s.listening = 0 ∧ s.serving = 0 := by
    rw [get_alive_conn, h] at h0
    omega
  refine ⟨fun l hl => ?_, fun c hc => ?_⟩
  · by_contra hne
    exact List.countP_eq_zero.1 hnone.1 l hl (by simpa [Listener.alive] using hne)
  · by_contra hne
    exact List.countP_eq_zero.1 hnone.2 c hc (by simpa using hne)

/-- What `close` does to the rest of the server: it aborts a loop, or drops the sender. -/
theorem close_rest (h : s.close facts = some s') :
    s'.conns = s.conns ∧ s'.conn_ref_count = s.conn_ref_count ∧ s'.now = s.now ∧
      s'.listeners.map Listener.pc = s.listeners.map Listener.pc := by
  have hmod (i : Nat) : (s.listeners.modify i fun l => { l with aborted := true }).map Listener.pc =
      s.listeners.map Listener.pc := by
    apply List.ext_getElem?
    intro j
    by_cases hj : i = j
    · subst hj
      simp
      rfl
    · simp [List.getElem?_modify_ne _ _ hj]
  unfold close at h
  split at h
  case h_2 i hc =>
    split at h <;> cases h
    · exact ⟨rfl, rfl, rfl, hmod i⟩
    · exact ⟨rfl, rfl, rfl, rfl⟩
  case h_6 =>
    split at h <;> cases h
    exact ⟨rfl, rfl, rfl, rfl⟩
  all_goals
    cases h
    exact ⟨rfl, rfl, rfl, rfl⟩

theorem listening_eq (s : RpcServer T R) :
    s.listening = (s.listeners.map Listener.pc).countP fun pc => pc ≠ .dropped := by
  rw [List.countP_map]
  rfl

theorem Over.of_pcs (h : s.Over) (hc : s'.conns = s.conns)
    (hl : s'.listeners.map Listener.pc = s.listeners.map Listener.pc) : s'.Over := by
  refine ⟨fun l hmem => ?_, by rw [hc]; exact h.2⟩
  have hpc : l.pc ∈ s.listeners.map Listener.pc := hl ▸ List.mem_map_of_mem hmem
  obtain ⟨l', hl', he⟩ := List.mem_map.1 hpc
  rw [← he]
  exact h.1 l' hl'

theorem Counted.goto (h : s.Counted) {i : Nat} {l : Listener} (pc : ListenerPc)
    (hl : s.listeners[i]? = some l) (hpc : l.pc ≠ .dropped) : (s.goto i l pc).Counted := by
  have hcount := countP_set hl { l with pc := pc } Listener.alive
  have hold : l.alive = true := by simpa [Listener.alive] using hpc
  have hpos : 0 < s.listening := List.countP_pos_iff.2 ⟨l, List.mem_of_getElem? hl, hold⟩
  rw [if_pos hold] at hcount
  simp only [Counted, RpcServer.goto, listening, serving] at h hpos ⊢
  by_cases hd : pc = .dropped
  · subst hd
    rw [if_neg (by simp [Listener.alive])] at hcount
    rw [if_pos rfl]
    omega
  · rw [if_pos (by simpa [Listener.alive] using hd)] at hcount
    rw [if_neg hd]
    omega

/-- As long as the loop of `close` is left with references, its time is up. -/
def Patient (facts : ServerFacts) (s : RpcServer T R) : Prop :=
  ∀ n start_ts, s.closing = .done n start_ts → 0 < n → facts.server_close_wait < s.now - start_ts

section
variable [ServerTaskEncode C R] [ServerTaskDecode C T] [ServerTaskDone T R E] {alloc : BufferAlloc}
  {codec : C}
  {a : Act T E}

theorem Counted.step (h : s.Counted) (hs : s.step facts alloc codec a = some s') : s'.Counted := by
  unfold Counted at h
  cases step_cases hs with
  | @listen bound _ =>
    cases bound with
    | bind_err | addr_err => exact h
    | listening addr =>
      have hnew : (s.listeners ++ [(⟨false, .waiting⟩ : Listener)]).countP Listener.alive =
          s.listening + 1 :=
        List.countP_append
      show s.conn_ref_count + 1 =
        (s.listeners ++ [(⟨false, .waiting⟩ : Listener)]).countP Listener.alive + s.serving + 1
      rw [hnew, h]
      omega
  | goto pc hl hpc => exact Counted.goto h pc hl hpc
  | accept stream =>
    have hnew : (s.server_conn facts alloc stream).serving = s.serving + 1 := List.countP_append
    show s.conn_ref_count + 1 = s.listening + (s.server_conn facts alloc stream).serving + 1
    rw [hnew, h]
    omega
  | @conn _ i c c' b hc hstep _ =>
    have hcount := countP_set hc c' fun c => !c.gone
    have hstays := ServedConn.gone_stays hstep
    have hpos : c.gone = false → 0 < s.serving := fun hg =>
      List.countP_pos_iff.2 ⟨c, List.mem_of_getElem? hc, by simp [hg]⟩
    simp only [Counted, listening, serving] at h hpos ⊢
    cases hg : c.gone <;> cases hg' : c'.gone <;> simp [hg, hg'] at hcount hstays hpos ⊢ <;> omega
  | @sends i c bs evs hc =>
    have hcount : (s.conns.set i (c.feed bs evs)).countP (fun c => !c.gone) + _ = s.serving + _ :=
      countP_set hc (c.feed bs evs) fun c => !c.gone
    have hsame : (s.conns.set i (c.feed bs evs)).countP (fun c => !c.gone) = s.serving :=
      Nat.add_right_cancel hcount
    simp only [Counted, listening, serving, hsame] at h ⊢
    exact h
  | close h' =>
    obtain ⟨hconns, hcount, -, hpcs⟩ := close_rest h'
    rw [Counted, hcount, h, listening_eq, listening_eq, hpcs, serving, serving, hconns]
  | tick d => exact h

theorem Over.step (h : s.Over) (ha : ∀ bound, a ≠ .listen bound)
    (hs : s.step facts alloc codec a = some s') : s'.Over := by
  cases step_cases hs with
  | @listen bound => exact absurd rfl (ha bound)
  | goto pc hl hpc => exact absurd (h.1 _ (List.mem_of_getElem? hl)) hpc
  | accept stream hl hpc =>
    have hd := h.1 _ (List.mem_of_getElem? hl)
    rw [hpc] at hd
    cases hd
  | conn b hc hstep =>
    have hgone := h.2 _ (List.mem_of_getElem? hc)
    exact ⟨h.1, forall_mem_set h.2 (ServedConn.gone_stays hstep hgone)⟩
  | sends bs evs hc =>
    have hgone := h.2 _ (List.mem_of_getElem? hc)
    exact ⟨h.1, forall_mem_set h.2 hgone⟩
  | close h' =>
    obtain ⟨hconns, -, -, hpcs⟩ := close_rest h'
    exact h.of_pcs hconns hpcs
  | tick d => exact h

/-- Nothing starts again while `close` is on its way out. -/
def Saw (s : RpcServer T R) : Prop := ClosePc.saw_none s.closing = true → s.Over

theorem Saw.close (h : s.Saw) (hcount : s.Counted) (hs : s.close facts = some s') : s'.Saw := by
  obtain ⟨hconns, -, -, hpcs⟩ := close_rest hs
  have hover : s.Over → s'.Over := fun ho => ho.of_pcs hconns hpcs
  unfold RpcServer.close at hs
  split at hs
  case h_2 =>
    split at hs <;> cases hs <;> nofun
  case h_4 =>
    cases hs
    exact fun h0 => hcount.over (beq_iff_eq.1 h0)
  case h_5 n start hc =>
    cases hs
    intro h0
    by_cases hn : n > 0
    · simp [hn, ClosePc.saw_none] at h0
    · have hn0 : n = 0 := by omega
      exact h (by rw [hc, hn0]; rfl)
  case h_6 start wake hc =>
    obtain ⟨-, ⟨⟩⟩ := Option.ite_none_right_eq_some.1 hs
    intro h0
    refine hcount.over ?_
    by_cases hw : s.now - start > facts.server_close_wait <;> simpa [hw, ClosePc.saw_none] using h0
  all_goals
    cases hs
    nofun

theorem Saw.step (h : s.Saw) (hcount : s.Counted) (hs : s.step facts alloc codec a = some s') :
    s'.Saw := by
  cases step_cases hs with
  | @listen bound hc =>
    intro h0
    cases bound <;> simp [listen, hc, ClosePc.saw_none] at h0
  | goto pc hl hpc _ hact =>
    refine fun h0 => (h h0).step (fun bound he => ?_) hs
    rcases hact with rfl | rfl | rfl <;> cases he
  | accept | sends | tick => exact fun h0 => (h h0).step (fun _ he => by cases he) hs
  | conn b hc hstep hact =>
    refine fun h0 => (h h0).step (fun bound he => ?_) hs
    rcases hact with rfl | ⟨rfl, -⟩ <;> cases he
  | close h' => exact h.close hcount h'

theorem Patient.step (h : s.Patient facts) (hs : s.step facts alloc codec a = some s') :
    s'.Patient facts := by
  cases step_cases hs with
  | @listen bound => cases bound <;> exact h
  | goto | accept | conn | sends => exact h
  | tick d =>
    intro n start hc hn
    have := h n start hc hn
    show _ < s.now + d - start
    omega
  | close h' =>
    intro n start hc hn
    unfold RpcServer.close at h'
    split at h'
    case h_2 => split at h' <;> cases h' <;> cases hc
    case h_5 m start' _ =>
      cases h'
      by_cases hm : m > 0
      · simp [hm] at hc
      · simp only [hm, if_false, ClosePc.done.injEq] at hc
        omega
    case h_6 start' wake _ =>
      obtain ⟨-, ⟨⟩⟩ := Option.ite_none_right_eq_some.1 h'
      by_cases hw : s.now - start' > facts.server_close_wait
      · simp only [hw, if_true, ClosePc.done.injEq] at hc
        rw [← hc.2]
        exact hw
      · simp [hw] at hc
    all_goals
      cases h'
      cases hc

/-- What holds of a new connection and is kept by its steps and by what its peer sends
holds of every connection. -/
theorem conns_step {P : ServedConn T R → Prop}
    (hnew : ∀ stream : Accepted, P (.server_conn
      (.new_conn ⟨stream.reads, stream.inbound, stream.writes,
        []⟩ facts.toServerConfig alloc stream.encode_buf)))
    (hconn : ∀ {c c' : ServedConn T R} {b : ServedConn.Act T E}, P c → c.step codec b = some c' → P c')
    (hfeed : ∀ {c : ServedConn T R} (bs : Bytes) (evs : List ReadEv), P c → P (c.feed bs evs))
    (h : ∀ c ∈ s.conns, P c) (hs : s.step facts alloc codec a = some s') : ∀ c ∈ s'.conns, P c := by
  cases step_cases hs with
  | @listen bound => cases bound <;> exact h
  | goto | tick => exact h
  | accept stream => exact forall_mem_concat h (hnew stream)
  | conn b hc hstep => exact forall_mem_set h (hconn (h _ (List.mem_of_getElem? hc)) hstep)
  | sends bs evs hc => exact forall_mem_set h (hfeed bs evs (h _ (List.mem_of_getElem? hc)))
  | close h' =>
    rw [(close_rest h').1]
    exact h

theorem sound_step (h : ∀ c ∈ s.conns, c.Sound codec) (hs : s.step facts alloc codec a = some s') :
    ∀ c ∈ s'.conns, c.Sound codec :=
  conns_step (fun _ => ServedConn.server_conn_sound codec _ _ _ _ _ _) (fun hc hstep => hc.step hstep)
    (fun bs evs hc => hc.feed bs evs) h hs

/-- `get_alive_conn` counts the connections that were not dropped and the accept loops
too. When `close` leaves its loop with a count that is not zero, it has waited longer
than `server_close_wait`; when it leaves with zero, no loop accepts any more, and the
peer of each connection has been sent all responses, unless a write to it failed. -/
theorem close_leaves_nothing (now : Nat) {tr : List (RpcServer T R × Act T E)}
    (h : Run (step facts alloc codec) (new now) tr s) :
    Always (fun s => s.get_alive_conn = s.listening + s.serving ∧
      ∀ n start_ts, s.closing = .done n start_ts →
      (0 < n → facts.server_close_wait < s.now - start_ts) ∧
        (n = 0 → (∀ l ∈ s.listeners, l.pc = .dropped) ∧ ∀ c ∈ s.conns, c.gone = true ∧
          (c.failed = true ∨ c.shut = true ∧ c.sent = c.frames codec ∧
            ∀ n, c.reader.tasks n = none))) tr s := by
  have hall : Meets (fun _ _ => True) tr := fun _ _ => trivial
  refine h.always _ ?_ hall
  intro tr s h _
  have hinv : (s.Counted ∧ s.Saw) ∧ s.Patient facts ∧ ∀ c ∈ s.conns, c.Sound codec :=
    h.inv (fun s => (s.Counted ∧ s.Saw) ∧ s.Patient facts ∧ ∀ c ∈ s.conns, c.Sound codec)
      ⟨⟨rfl, nofun⟩, fun _ _ hc => (by cases hc), List.forall_mem_nil _⟩
      fun _ _ _ hi hs => ⟨⟨hi.1.1.step hs, hi.1.2.step hi.1.1 hs⟩, hi.2.1.step hs, sound_step hi.2.2 hs⟩
  obtain ⟨⟨hcount, hsaw⟩, hpatient, hsound⟩ := hinv
  have halive : s.get_alive_conn = s.listening + s.serving := by
    rw [get_alive_conn, hcount, Nat.add_sub_cancel]
  refine ⟨halive, fun n start hc => ⟨hpatient n start hc, ?_⟩⟩
  rintro rfl
  obtain ⟨hlist, hgone⟩ := hsaw (by rw [hc]; rfl)
  refine ⟨hlist, fun c hmem => ⟨hgone c hmem, ?_⟩⟩
  have hs := hsound c hmem
  -- the writer dropped the connection, so it has returned
  have hw : c.writer.pc = .returned := by
    have hg := hgone c hmem
    simp only [ServedConn.gone, Bool.and_eq_true, Bool.not_eq_true'] at hg
    by_contra hne
    have hrx := hs.rx hne
    rw [hs.writer_last hg.2] at hrx
    cases hrx
  rcases hs.ended hw with hshut | hfailed
  · have hsend := (hs.shut hshut).2.1
    rw [hs.senders, Bool.or_eq_false_iff] at hsend
    exact .inr ⟨hshut, (hs.shut hshut).2.2, ServerReader.tasks_eq_none hs.known hsend.2⟩
  · exact .inl hfailed

end

/-- A connection with a ping and a request; its handler is at work when `close` is called,
and the reader waits for the next request. -/
def sampleClose : List (Act ServerReader.SampleTask UInt32) :=
  let conn := fun a => Act.conn 0 a
  [.listen (.listening none), .poll 0,
    .accept 0 ⟨List.replicate 22 (.chunk 3), ServedConn.sampleInbound, List.replicate 9 (.accept 5),
      sampleRespBuf⟩, .pend 0] ++
    [.read_req, .read_req, .handler (.handled true), .write, .write, .write, .write].map conn ++
    [.close, .close, .close, .close, .close, .close, .poll 0] ++
    [.read_req, .drop_noti, .drop_reader, .handler (.set_result 1 (.ok ())), .write, .write, .write,
      .write, .write, .write, .drop_rx, .drop_writer].map conn ++
    [.tick ONE_SECOND, .close, .close]

theorem close_leaves_nothing_late :
    ∃ (tr : List (RpcServer ServerReader.SampleTask ServerReader.SampleTask × Act _ UInt32))
    (s : _) (c : _), Run (step ⟨⟨1, 1, 16⟩, 5 * ONE_SECOND⟩ (fun n => some (as_usize n)) ()) (new 0) tr s ∧
      s.closing = .done 0 0 ∧ s.conns = [c] ∧ c.sent.length = 40 ∧ c.sent = c.frames () := by
  have hrun : (follow (step ⟨⟨1, 1, 16⟩, 5 * ONE_SECOND⟩ (fun n => some (as_usize n)) ())
      (new 0 : RpcServer ServerReader.SampleTask ServerReader.SampleTask) sampleClose).map (fun r =>
        ((r.2.closing matches .done 0 0), r.2.conns.map fun c => (c.failed, c.sent.length))) =
          some (true, [(false, 40)]) := by
    decide +kernel
  obtain ⟨⟨tr, s⟩, hf, hs⟩ := Option.map_eq_some_iff.1 hrun
  simp only [Prod.mk.injEq] at hs
  obtain ⟨hdone, hconns⟩ := hs
  have hc : s.closing = .done 0 0 := by
    split at hdone
    · assumption
    · cases hdone
  obtain ⟨c, hone⟩ :
      ∃ c, s.conns = [c] := List.length_eq_one_iff.1 (by simpa using congrArg List.length hconns)
  simp only [hone, List.map_cons, List.map_nil, List.cons.injEq, Prod.mk.injEq, and_true] at hconns
  have hall := ((close_leaves_nothing 0 (Run.of_follow hf)).2.2 0 0 hc).2 rfl
  have hsent := (hall.2 c (by rw [hone]; exact List.mem_cons_self)).2.resolve_left (by rw [hconns.1]; nofun)
  exact ⟨tr, s, c, .of_follow hf, hc, hone, hconns.2, hsent.2.1⟩

end RpcServer

end OccamsRpc
