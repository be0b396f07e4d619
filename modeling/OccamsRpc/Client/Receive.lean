import OccamsRpc.Tcp.RespFidelity
/-!
# The receive loop

`recv_some` and `recv_one_resp` of `stream/src/client/stream.rs`, over any
transport. The loop of `recv_one_resp` has no way out with `Ok`: it goes round
after every response, until the connection fails or nothing is left to wait for
after it was closed. So `recv_some` never comes to its second response, and
never to the store of `last_resp_ts`.

What the other threads do is given for each pass of the loop.
-/

namespace OccamsRpc

/-- A transport as the receive loop uses it. A `P` is the connection and the timer
that `read_resp` works on; `read_resp` is given the close channel, if any, as
whether it fires. -/
structure ClientTransport (P T : Type) where
  read_resp : Option Bool → Async P (Fault RpcIntErr) Bool
  timer : P → ClientTaskTimer T
  withTimer : P → ClientTaskTimer T → P

/-- What `ClientStreamInner` is to the receive coroutine. The two counts, of the
responses processed and of the stores to `last_resp_ts`, are read by no step. -/
structure RecvSide (P : Type) where
  conn : P
  closed : Bool
  has_err : Bool
  last_resp_ts : Option Nat
  /-- `DelayedTime::get()` -/
  now : Nat
  responses : Nat
  stores : Nat

/-- What the other threads have done when the loop comes round. -/
structure Meanwhile (T : Type) where
  registered : List T := []
  reg_stopped : Bool := false
  closed : Bool := false
  has_err : Bool := false
  /-- The close channel fires before the next header is there. -/
  close_rx : Bool := false
  now : Nat := 0

/-- How a pass of the loop ends: it goes round, or the call returns or is left
waiting. -/
inductive Pass (P : Type)
  | again (s : RecvSide P)
  | ended (r : Poll (Except (Fault RpcIntErr) Unit)) (s : RecvSide P)

/-- The end of a call, or as far as it came in the passes given. -/
structure RecvEnd (P T : Type) where
  result : Poll (Except (Fault RpcIntErr) Unit)
  stream : RecvSide P
  rest : List (Meanwhile T)

/-- `Err(_e) => return Err(RpcIntErr::IO)` -/
def Fault.to_io : Fault RpcIntErr → Fault RpcIntErr
  | .err _ => .err .Io
  | .panicked => .panicked

namespace RecvSide

variable {P T : Type}

/-- What the owner and the clock do between two polls. -/
def meanwhile (tr : ClientTransport P T) (s : RecvSide P) (m : Meanwhile T) : RecvSide P :=
  let tm := m.registered.foldl ClientTaskTimer.reg_task (tr.timer s.conn)
  { s with
    conn := tr.withTimer s.conn { tm with reg_stopped_flag := tm.reg_stopped_flag || m.reg_stopped }
    closed := s.closed || m.closed
    has_err := s.has_err || m.has_err
    now := m.now }

/-- `read_resp` returned `Ok(r)`. -/
def received (s : RecvSide P) (r : Bool) (conn : P) : RecvSide P :=
  { s with conn := conn, responses := s.responses + if r then 1 else 0 }

section
variable [HasSeq T] (tr : ClientTransport P T)

/-- The body of the loop of `recv_one_resp`. -/
def pass (m : Meanwhile T) (s : RecvSide P) : Pass P :=
  let s := s.meanwhile tr m
  if s.closed then
    let (empty, tm) := (tr.timer s.conn).check_pending_tasks_empty
    let s := { s with conn := tr.withTimer s.conn tm }
    if empty || s.has_err then .ended (.ready (.error (.err .Io))) s
    else
      match tr.read_resp none s.conn with
      | (.ready (.error e), conn) =>
        .ended (.ready (.error e.to_io)) { s with conn := conn, closed := true }
      | (.ready (.ok r), conn) => .again (s.received r conn)
      | (.pending, conn) => .ended .pending { s with conn := conn }
  else
    match tr.read_resp (some m.close_rx) s.conn with
    | (.ready (.error e), conn) => .ended (.ready (.error e.to_io)) { s with conn := conn }
    | (.ready (.ok r), conn) =>
      if r then .again (s.received r conn) else .again { s.received r conn with closed := true }
    | (.pending, conn) => .ended .pending { s with conn := conn }

/-- The loop over `pass`, as often as it is polled. -/
def recv_one_resp : List (Meanwhile T) → RecvSide P → RecvEnd P T
  | [], s => ⟨.pending, s, []⟩
  | m :: ms, s =>
    match pass tr m s with
    | .again s => recv_one_resp ms s
    | .ended r s => ⟨r, s, ms⟩

/-- The time is kept only where there is a place for it. -/
def store_last_resp_ts (s : RecvSide P) : RecvSide P :=
  match s.last_resp_ts with
  | some _ => { s with last_resp_ts := some s.now, stores := s.stores + 1 }
  | none => s

/-- The `for` of `recv_some`, with `n` rounds to go. -/
def recv_rounds : Nat → List (Meanwhile T) → RecvSide P → RecvEnd P T
  | 0, ms, s => ⟨.ready (.ok ()), s, ms⟩
  | n + 1, ms, s =>
    match recv_one_resp tr ms s with
    | ⟨.ready (.error e), s, ms⟩ => ⟨.ready (.error e), s, ms⟩
    | ⟨.ready (.ok ()), s, ms⟩ => recv_rounds n ms s.store_last_resp_ts
    | ⟨.pending, s, ms⟩ => ⟨.pending, s, ms⟩

/-- Twenty responses at most, so that the timer gets its turn. -/
def recv_some : List (Meanwhile T) → RecvSide P → RecvEnd P T := recv_rounds tr 20

/-! ## The loop only ends with an error -/

/-- What a pass asks of the transport, unless it returns before, and the answer. -/
def asks (m : Meanwhile T) (s : RecvSide P) : Option (Poll (Except (Fault RpcIntErr) Bool) × P) :=
  let s := s.meanwhile tr m
  if s.closed then
    let (empty, tm) := (tr.timer s.conn).check_pending_tasks_empty
    if empty || s.has_err then none else some (tr.read_resp none (tr.withTimer s.conn tm))
  else some (tr.read_resp (some m.close_rx) s.conn)

/-- The transport answers with a response, at once or after the close channel has
cancelled the wait for a header. -/
def Answered : List (Meanwhile T) → RecvSide P → Prop
  | [], _ => False
  | m :: ms, s =>
    match asks tr m s with
    | some (.ready (.ok true), _) => True
    | some (.ready (.ok false), conn) =>
      Answered ms { (s.meanwhile tr m).received false conn with closed := true }
    | _ => False

/-- The counts and the time stamp are as they were. -/
structure Unmarked (s s' : RecvSide P) : Prop where
  last_resp_ts : s'.last_resp_ts = s.last_resp_ts
  stores : s'.stores = s.stores
  responses : s'.responses = s.responses

/-- What a pass does, by what the transport answers: after a response it goes round,
and where it ends it is not with `Ok`. -/
theorem pass_cases (m : Meanwhile T) (s : RecvSide P) :
    (∃ r s', pass tr m s = .ended r s' ∧ r ≠ .ready (.ok ()) ∧ s.Unmarked s' ∧
      ∀ b conn, asks tr m s ≠ some (.ready (.ok b), conn)) ∨
    ∃ b conn, asks tr m s = some (.ready (.ok b), conn) ∧
      pass tr m s =
      .again
      { (s.meanwhile tr m).received b conn with closed := (s.meanwhile tr m).closed || !b } := by
  have hm : s.Unmarked (s.meanwhile tr m) := ⟨rfl, rfl, rfl⟩
  unfold pass asks
  generalize s.meanwhile tr m = s₁ at hm ⊢
  obtain ⟨conn₁, closed, has_err, ts, now, responses, stores⟩ := s₁
  cases closed with
  | false =>
    simp only [Bool.false_eq_true, if_false]
    rcases tr.read_resp (some m.close_rx) conn₁ with ⟨(e | b) | _, conn⟩
    · exact .inl ⟨_, _, rfl, by simp, ⟨hm.1, hm.2, hm.3⟩, by simp⟩
    · cases b <;> exact .inr ⟨_, conn, rfl, rfl⟩
    · exact .inl ⟨_, _, rfl, by simp, ⟨hm.1, hm.2, hm.3⟩, by simp⟩
  | true =>
    simp only [if_true]
    rcases (tr.timer conn₁).check_pending_tasks_empty with ⟨empty, tm⟩
    cases empty || has_err with
    | true =>
      simp only [if_true]
      exact .inl ⟨_, _, rfl, by simp, ⟨hm.1, hm.2, hm.3⟩, by simp⟩
    | false =>
      simp only [Bool.false_eq_true, if_false]
      rcases tr.read_resp none (tr.withTimer conn₁ tm) with ⟨(e | b) | _, conn⟩
      · exact .inl ⟨_, _, rfl, by simp, ⟨hm.1, hm.2, hm.3⟩, by simp⟩
      · exact .inr ⟨b, conn, rfl, rfl⟩
      · exact .inl ⟨_, _, rfl, by simp, ⟨hm.1, hm.2, hm.3⟩, by simp⟩

variable {tr} {ms : List (Meanwhile T)} {s : RecvSide P}

/-- The call never returns `Ok` and stores no time stamp, and it processes a response
just when one is answered. -/
theorem recv_one_resp_spec (tr : ClientTransport P T) (ms : List (Meanwhile T)) (s : RecvSide P) :
    (recv_one_resp tr ms s).result ≠ .ready (.ok ()) ∧
    (recv_one_resp tr ms s).stream.last_resp_ts = s.last_resp_ts ∧
    (recv_one_resp tr ms s).stream.stores = s.stores ∧
    s.responses ≤ (recv_one_resp tr ms s).stream.responses ∧
    (s.responses < (recv_one_resp tr ms s).stream.responses ↔ Answered tr ms s) := by
  induction ms generalizing s with
  | nil =>
    exact ⟨by simp [recv_one_resp], rfl, rfl, Nat.le_refl _, by simp [recv_one_resp, Answered]⟩
  | cons m ms ih =>
    rcases pass_cases tr m s with ⟨r, s', hpass, hr, hs, hasks⟩ | ⟨b, conn, hasks, hpass⟩
    · simp only [recv_one_resp, hpass]
      have hnot : ¬ Answered tr (m :: ms) s := by
        intro ha
        unfold Answered at ha
        split at ha
        · exact hasks _ _ ‹_›
        · exact hasks _ _ ‹_›
        · exact ha
      exact ⟨hr, hs.1, hs.2, Nat.le_of_eq hs.3.symm, by simp only [hs.3, Nat.lt_irrefl, hnot]⟩
    · simp only [recv_one_resp, hpass, Answered, hasks]
      cases b with
      | true =>
        obtain ⟨hr, hts, hst, hle, -⟩ :=
          ih { (s.meanwhile tr m).received true conn with closed := _ }
        have hlt : s.responses < _ := hle
        exact ⟨hr, hts, hst, Nat.le_of_lt hlt, iff_of_true hlt trivial⟩
      | false =>
        rw [Bool.not_false, Bool.or_true]
        exact ih { (s.meanwhile tr m).received false conn with closed := true }

/-- So `recv_some` makes one call of it. -/
theorem recv_some_eq (tr : ClientTransport P T) (ms : List (Meanwhile T)) (s : RecvSide P) :
    recv_some tr ms s = recv_one_resp tr ms s := by
  have hno := (recv_one_resp_spec tr ms s).1
  rw [recv_some, recv_rounds]
  generalize recv_one_resp tr ms s = call at hno ⊢
  rcases call with ⟨(e | u) | _, s', ms'⟩
  · rfl
  · exact absurd rfl hno
  · rfl

/-- A call that processes a response returns `Ok` with it; `recv_some` processes 20 at
most, and stores `last_resp_ts`, if it has one, for each. -/
structure Yields (tr : ClientTransport P T) (ms : List (Meanwhile T)) (s : RecvSide P) : Prop where
  returns : s.responses < (recv_one_resp tr ms s).stream.responses →
    (recv_one_resp tr ms s).result = .ready (.ok ()) ∧
    (recv_one_resp tr ms s).stream.responses = s.responses + 1
  limit : (recv_some tr ms s).stream.responses ≤ s.responses + 20
  stored : s.last_resp_ts.isSome = true →
    (recv_some tr ms s).stream.stores + s.responses =
    s.stores + (recv_some tr ms s).stream.responses

/-- The receive loop yields and keeps `last_resp_ts` up to date exactly when there is
nothing to yield for. -/
theorem yields_iff (tr : ClientTransport P T) (ms : List (Meanwhile T)) (s : RecvSide P) :
    Yields tr ms s ↔ ¬ Answered tr ms s := by
  obtain ⟨hno, -, hstores, hle, hiff⟩ := recv_one_resp_spec tr ms s
  constructor
  · intro h ha
    exact hno (h.returns (hiff.2 ha)).1
  · intro hna
    have hsame : (recv_one_resp tr ms s).stream.responses = s.responses :=
      Nat.le_antisymm (Nat.le_of_not_lt fun hlt => hna (hiff.1 hlt)) hle
    refine ⟨fun hlt => absurd (hiff.1 hlt) hna, ?_, fun _ => ?_⟩ <;> rw [recv_some_eq, hsame]
    · exact Nat.le_add_right _ _
    · rw [hstores]

end

end RecvSide

/-! ## Over TCP -/

def Receiver.transport {C S T : Type} [ClientTaskCommon T] [ClientTask C T] [AsyncRead S]
    (codec : C) :
    ClientTransport (Receiver S T) T where
  read_resp := Receiver.read_resp codec
  timer := Receiver.timer
  withTimer r tm := { r with timer := tm }

/-- `n` tasks, and the responses to them, error number 5 each, all received already. -/
def answeredSide (n : Nat) :
    RecvSide (Receiver Sock (DerivedTask (UInt8 × Option UInt8) (UInt8 × Option UInt8) String)) where
  conn :=
    let seqs := (List.range n).map fun i => UInt64.ofNat (i + 1)
    let inbound := seqs.flatMap fun seq => (RespHead.filled 1 seq 5 0).as_bytes
    { client := ⟨.new ⟨[.chunk 4096], inbound, [], []⟩ 4096, [], [], 0, 0⟩
      timer := (seqs.map (ClientTaskCommon.set_seq sampleTask)).foldl ClientTaskTimer.reg_task (.new 5)
      completed := []
      alloc := fun n => some (as_usize n) }
  closed := false
  has_err := false
  last_resp_ts := some 0
  now := 0
  responses := 0
  stores := 0

/-- With 21 responses in the buffer one call of `recv_some` processes them all in its
first call of `recv_one_resp`, which does not return, and stores no time stamp. -/
theorem RecvSide.recv_some_floods :
    let ms := List.replicate 21 { now := 1 }
    let call := RecvSide.recv_some (Receiver.transport ()) ms (answeredSide 21)
    (RecvSide.recv_one_resp (Receiver.transport ()) ms (answeredSide 21)).result ≠ .ready (.ok ()) ∧
      call.stream.responses = 21 ∧ call.stream.stores = 0 ∧
      ¬ RecvSide.Yields (Receiver.transport ()) ms (answeredSide 21) := by
  have hcount : (RecvSide.recv_some (Receiver.transport ()) (List.replicate 21 { now := 1 })
      (answeredSide 21)).stream.responses = 21 := by decide +kernel
  refine ⟨(RecvSide.recv_one_resp_spec ..).1, hcount, by decide +kernel, fun h => ?_⟩
  have hlimit := h.limit
  rw [hcount] at hlimit
  exact absurd hlimit (by decide)

end OccamsRpc
